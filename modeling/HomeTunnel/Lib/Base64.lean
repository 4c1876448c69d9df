import HomeTunnel.Lib.Utf8

/-! # base64url without padding

Three bytes make four digits. The reader accepts a text only if it is the one the
writer makes of the bytes read, so unused bits must be zero.
-/

namespace HomeTunnel.Base64

def alphabet : List Char :=
  ['A', 'B', 'C', 'D', 'E', 'F', 'G', 'H', 'I', 'J', 'K', 'L', 'M', 'N', 'O', 'P',
    'Q', 'R', 'S', 'T', 'U', 'V', 'W', 'X', 'Y', 'Z', 'a', 'b', 'c', 'd', 'e', 'f',
    'g', 'h', 'i', 'j', 'k', 'l', 'm', 'n', 'o', 'p', 'q', 'r', 's', 't', 'u', 'v',
    'w', 'x', 'y', 'z', '0', '1', '2', '3', '4', '5', '6', '7', '8', '9', '-', '_']

def digit (n : Nat) : Char := alphabet.getD n 'A'

def value (c : Char) : Option Nat := alphabet.idxOf? c

def encode : List UInt8 → List Char
  | [] => []
  | [a] => [digit (a.toNat / 4), digit (a.toNat % 4 * 16)]
  | [a, b] =>
    [digit (a.toNat / 4), digit (a.toNat % 4 * 16 + b.toNat / 16), digit (b.toNat % 16 * 4)]
  | a :: b :: c :: rest =>
    digit (a.toNat / 4) :: digit (a.toNat % 4 * 16 + b.toNat / 16) ::
      digit (b.toNat % 16 * 4 + c.toNat / 64) :: digit (c.toNat % 64) :: encode rest

def decodeGroups : List Char → Option (List UInt8)
  | [] => some []
  | [_] => none
  | [p, q] => do
      let p ← value p
      let q ← value q
      some [UInt8.ofNat (p * 4 + q / 16)]
  | [p, q, r] => do
      let p ← value p
      let q ← value q
      let r ← value r
      some [UInt8.ofNat (p * 4 + q / 16), UInt8.ofNat (q % 16 * 16 + r / 4)]
  | p :: q :: r :: s :: rest => do
      let p ← value p
      let q ← value q
      let r ← value r
      let s ← value s
      let bytes ← decodeGroups rest
      some (UInt8.ofNat (p * 4 + q / 16) :: UInt8.ofNat (q % 16 * 16 + r / 4) ::
        UInt8.ofNat (r % 4 * 64 + s) :: bytes)

def decode (text : List Char) : Option (List UInt8) :=
  match decodeGroups text with
  | none => none
  | some bytes => if encode bytes = text then some bytes else none

theorem value_digit {n : Nat} (h : n < 64) : value (digit n) = some n := by
  revert n
  decide

theorem digit_mem_alphabet {n : Nat} (h : n < 64) : digit n ∈ alphabet := by
  revert n
  decide

theorem encode_mem_alphabet {bytes : List UInt8} {c : Char} (h : c ∈ encode bytes) :
    c ∈ alphabet := by
  induction bytes using encode.induct with
  | case1 => simp [encode] at h
  | case2 a =>
    have ha := a.toNat_lt
    simp only [encode, List.mem_cons, List.not_mem_nil, or_false] at h
    rcases h with rfl | rfl <;> exact digit_mem_alphabet (by omega)
  | case3 a b =>
    have ha := a.toNat_lt
    have hb := b.toNat_lt
    simp only [encode, List.mem_cons, List.not_mem_nil, or_false] at h
    rcases h with rfl | rfl | rfl <;> exact digit_mem_alphabet (by omega)
  | case4 a b c' rest ih =>
    have ha := a.toNat_lt
    have hb := b.toNat_lt
    have hc := c'.toNat_lt
    simp only [encode, List.mem_cons] at h
    rcases h with rfl | rfl | rfl | rfl | h
    · exact digit_mem_alphabet (by omega)
    · exact digit_mem_alphabet (by omega)
    · exact digit_mem_alphabet (by omega)
    · exact digit_mem_alphabet (by omega)
    · exact ih h

theorem length_encode (bytes : List UInt8) : (encode bytes).length = (bytes.length * 4 + 2) / 3 := by
  induction bytes using encode.induct with
  | case1 => rfl
  | case2 a | case3 a b => simp [encode]
  | case4 a b c rest ih =>
    simp only [encode, List.length_cons, ih]
    omega

theorem length_utf8_of_alphabet {text : List Char} (h : ∀ c ∈ text, c ∈ alphabet) :
    (Utf8.encode text).length = text.length := by
  have hascii : alphabet.all fun c => c.val ≤ 127 := by decide
  induction text with
  | nil => rfl
  | cons c text ih =>
    have hone : (String.utf8EncodeChar c).length = 1 := by
      rw [String.length_utf8EncodeChar, Char.utf8Size_eq_one_iff]
      simpa using List.all_eq_true.mp hascii c (h c List.mem_cons_self)
    rw [Utf8.encode_cons, List.length_append, hone,
      ih fun d hd => h d (List.mem_cons_of_mem c hd), List.length_cons]
    omega

theorem length_utf8_encode (bytes : List UInt8) :
    (Utf8.encode (encode bytes)).length = (encode bytes).length :=
  length_utf8_of_alphabet fun _ hc => encode_mem_alphabet hc

/-- Three encoded parts with dots between them. -/
def dotted (a b c : List UInt8) : List Char := ['.'].intercalate [encode a, encode b, encode c]

theorem dot_not_mem_encode (bytes : List UInt8) : '.' ∉ encode bytes := by
  intro hmem
  have halphabet : '.' ∉ alphabet := by decide
  exact halphabet (encode_mem_alphabet hmem)

theorem splitOn_dotted (a b c : List UInt8) :
    (dotted a b c).splitOn '.' = [encode a, encode b, encode c] := by
  exact List.splitOn_intercalate '.' (by simp [dot_not_mem_encode]) (by simp)

theorem length_utf8_dotted (a b c : List UInt8) :
    (Utf8.encode (dotted a b c)).length =
      (encode a).length + (encode b).length + (encode c).length + 2 := by
  have hdot : (Utf8.encode ['.']).length = 1 := by decide
  simp only [dotted, List.intercalate, List.intersperse, List.flatten_cons, List.flatten_nil,
    Utf8.encode_append, List.append_nil, List.length_append, length_utf8_encode, hdot]
  omega

end HomeTunnel.Base64
