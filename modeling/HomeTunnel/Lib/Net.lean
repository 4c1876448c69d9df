import HomeTunnel.Lib.Decimal

/-! # Network addresses as text

`net.SplitHostPort` and the addresses that `net.ParseIP` reads, by the rules of the Go
library.
-/

namespace HomeTunnel.Net

/-- `net.SplitHostPort`: the port stands behind the last colon; a host with colons has to stand
in brackets, and brackets stand nowhere else. -/
def splitHostPort (address : List Char) : Option (List Char × List Char) :=
  let port := (address.reverse.takeWhile (· ≠ ':')).reverse
  match address.reverse.dropWhile (· ≠ ':') with
  | [] => none
  | _ :: before =>
    match before.reverse with
    | '[' :: rest =>
      let host := rest.takeWhile (· ≠ ']')
      if rest ≠ host ++ [']'] ∨ '[' ∈ host ∨ '[' ∈ port ∨ ']' ∈ port then none
      else some (host, port)
    | host =>
      if ':' ∈ host ∨ '[' ∈ address ∨ ']' ∈ address then none else some (host, port)

/-- The characters that a host cannot have outside of brackets. -/
def Unbracketed (host : List Char) : Prop := ':' ∉ host ∧ '[' ∉ host ∧ ']' ∉ host

instance (host : List Char) : Decidable (Unbracketed host) := inferInstanceAs (Decidable (_ ∧ _ ∧ _))

theorem reverse_takeWhile_colon (host : List Char) {port : List Char} (hport : ':' ∉ port) :
    (host ++ ':' :: port).reverse.takeWhile (· ≠ ':') = port.reverse ∧
      (host ++ ':' :: port).reverse.dropWhile (· ≠ ':') = ':' :: host.reverse := by
  have hall : ∀ c ∈ port.reverse, decide (c ≠ ':') = true := by
    intro c hc
    rw [decide_eq_true_eq]
    rintro rfl
    exact hport (List.mem_reverse.mp hc)
  have hreverse : (host ++ ':' :: port).reverse = port.reverse ++ ':' :: host.reverse := by simp
  rw [hreverse]
  constructor
  · rw [List.takeWhile_append_of_pos hall]
    simp
  · rw [List.dropWhile_append_of_pos hall]
    simp

variable {text : List Char}

/-- A joined address is read back with its own host exactly if the host needs no brackets and has
none. -/
theorem splitHostPort_join {host port : List Char} (hport : Unbracketed port) :
    splitHostPort (host ++ ':' :: port) = some (host, text) ↔ Unbracketed host ∧ text = port := by
  obtain ⟨hcolon, hopen, hclose⟩ := hport
  obtain ⟨htake, hdrop⟩ := reverse_takeWhile_colon host hcolon
  unfold splitHostPort
  rw [htake, hdrop]
  dsimp only
  rw [List.reverse_reverse, List.reverse_reverse]
  split
  · rename_i rest
    constructor
    · intro h
      split at h
      · cases h
      · -- the brackets are gone from what is returned
        have hhost := (Prod.mk.inj (Option.some.inj h)).1
        have hlength := congrArg List.length hhost
        have hle := (List.takeWhile_sublist (fun c => decide (c ≠ ']')) (l := rest)).length_le
        rw [List.length_cons] at hlength
        omega
    · rintro ⟨h, _⟩
      exact absurd List.mem_cons_self h.2.1
  · by_cases h : ':' ∈ host ∨ '[' ∈ host ++ ':' :: port ∨ ']' ∈ host ++ ':' :: port
    · rw [if_pos h]
      simp only [reduceCtorEq, false_iff]
      rintro ⟨⟨h1, h2, h3⟩, _⟩
      rcases h with h | h | h
      · exact h1 h
      · simp [h2, hopen] at h
      · simp [h3, hclose] at h
    · rw [if_neg h]
      have hhost : Unbracketed host := ⟨fun hmem => h (Or.inl hmem),
        fun hmem => h (Or.inr (Or.inl (List.mem_append_left _ hmem))),
        fun hmem => h (Or.inr (Or.inr (List.mem_append_left _ hmem)))⟩
      simp [hhost, eq_comm]

/-- `parseIPv4Fields`, with the value and length of the field that is being read and the number of
fields before it. -/
def ipv4Fields (value fields digits : Nat) : List Char → Bool
  | [] => 3 ≤ fields
  | c :: rest =>
    if Decimal.isDigit c then
      let next := value * 10 + Decimal.digitValue c
      !(digits == 1 && value == 0) && next ≤ 255 && ipv4Fields next fields (digits + 1) rest
    else
      c == '.' && digits != 0 && !rest.isEmpty && fields != 3 && ipv4Fields 0 (fields + 1) 0 rest

def isIPv4 (text : List Char) : Bool := ipv4Fields 0 0 0 text

def isHexDigit (c : Char) : Bool :=
  Decimal.isDigit c || ('a' ≤ c && c ≤ 'f') || ('A' ≤ c && c ≤ 'F')

/-- Either every group is there, or an ellipsis stands for the missing ones. -/
def groupsDone (missing : Nat) (ellipsis : Bool) : Bool := if missing = 0 then !ellipsis else ellipsis

/-- The loop of `parseIPv6` over the groups, of which some number is still missing. -/
def ipv6Groups : Nat → Bool → List Char → Bool
  | 0, ellipsis, text => text.isEmpty && groupsDone 0 ellipsis
  | missing + 1, ellipsis, text =>
    let digits := text.takeWhile isHexDigit
    !digits.isEmpty && digits.length ≤ 4 &&
      match text.dropWhile isHexDigit with
      | [] => groupsDone missing ellipsis
      | '.' :: _ =>
        (ellipsis || missing + 1 == 2) && 2 ≤ missing + 1 && isIPv4 text &&
          groupsDone (missing - 1) ellipsis
      | ':' :: ':' :: [] => !ellipsis && groupsDone missing true
      | ':' :: ':' :: rest => !ellipsis && ipv6Groups missing true rest
      | ':' :: c :: rest => ipv6Groups missing ellipsis (c :: rest)
      | _ => false

def isIPv6 : List Char → Bool
  | [':', ':'] => true
  | ':' :: ':' :: rest => ipv6Groups 8 true rest
  | text => ipv6Groups 8 false text

/-- The texts that `net.ParseIP` reads; zones are not among them. -/
def isIP (text : List Char) : Bool :=
  match text.find? fun c => c = '.' ∨ c = ':' ∨ c = '%' with
  | some '.' => isIPv4 text
  | some ':' => text.all (· ≠ '%') && isIPv6 text
  | _ => false

/-- The characters that addresses are made of. -/
def isAddressChar (c : Char) : Bool := isHexDigit c || c == ':' || c == '.'

theorem isAddressChar_of_hex {c : Char} (h : isHexDigit c = true) : isAddressChar c = true := by
  simp [isAddressChar, h]

theorem ipv4Fields_chars {value fields digits : Nat}
    (h : ipv4Fields value fields digits text = true) : ∀ c ∈ text, isAddressChar c = true := by
  induction text generalizing value fields digits with
  | nil => simp
  | cons c rest ih =>
    rw [ipv4Fields] at h
    split at h
    · rename_i hdigit
      simp only [Bool.and_eq_true] at h
      have hc : isAddressChar c = true := isAddressChar_of_hex (by simp [isHexDigit, hdigit])
      exact List.forall_mem_cons.mpr ⟨hc, ih h.2⟩
    · simp only [Bool.and_eq_true, beq_iff_eq] at h
      have hc : isAddressChar c = true := by
        rw [h.1.1.1.1]
        decide
      exact List.forall_mem_cons.mpr ⟨hc, ih h.2⟩

theorem chars_of_takeWhile (h : ∀ c ∈ text.dropWhile isHexDigit, isAddressChar c = true) :
    ∀ c ∈ text, isAddressChar c = true := by
  intro c hc
  rw [← List.takeWhile_append_dropWhile (p := isHexDigit) (l := text), List.mem_append] at hc
  rcases hc with hc | hc
  · exact isAddressChar_of_hex (List.mem_takeWhile_imp hc)
  · exact h c hc

theorem ipv6Groups_chars {missing : Nat} {ellipsis : Bool}
    (h : ipv6Groups missing ellipsis text = true) : ∀ c ∈ text, isAddressChar c = true := by
  induction missing generalizing ellipsis text with
  | zero =>
    rw [ipv6Groups, Bool.and_eq_true, List.isEmpty_iff] at h
    simp [h.1]
  | succ missing ih =>
    have hcolon : isAddressChar ':' = true := by decide
    rw [ipv6Groups, Bool.and_eq_true] at h
    have h := h.2
    split at h
    · rename_i hrest
      exact chars_of_takeWhile (by simp [hrest])
    · simp only [Bool.and_eq_true] at h
      exact ipv4Fields_chars h.1.2
    · rename_i hrest
      exact chars_of_takeWhile (by simp [hrest, hcolon])
    · rename_i rest _ hrest
      rw [Bool.and_eq_true] at h
      refine chars_of_takeWhile ?_
      rw [hrest]
      exact List.forall_mem_cons.mpr ⟨hcolon, List.forall_mem_cons.mpr ⟨hcolon, ih h.2⟩⟩
    · rename_i c rest _ hrest
      refine chars_of_takeWhile ?_
      rw [hrest]
      exact List.forall_mem_cons.mpr ⟨hcolon, ih h⟩
    · cases h

theorem isIP_chars (h : isIP text = true) : ∀ c ∈ text, isAddressChar c = true := by
  have hcolon : isAddressChar ':' = true := by decide
  unfold isIP at h
  split at h
  · exact ipv4Fields_chars h
  · rw [Bool.and_eq_true] at h
    have h := h.2
    unfold isIPv6 at h
    split at h
    · simp [hcolon]
    · exact List.forall_mem_cons.mpr ⟨hcolon, List.forall_mem_cons.mpr ⟨hcolon, ipv6Groups_chars h⟩⟩
    · exact ipv6Groups_chars h
  · cases h

example : isIP "::1".toList = true ∧ isIP "192.168.1.10".toList = true ∧
    isIP "fe80::1:2.3.4.5".toList = true ∧ isIP "1.2.3".toList = false ∧
    isIP "1::2::3".toList = false := by
  decide

end HomeTunnel.Net
