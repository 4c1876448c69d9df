import HomeTunnel.Lib.Words

/-! # UTF-8 -/

namespace HomeTunnel.Utf8

def encode (text : List Char) : List UInt8 := text.flatMap String.utf8EncodeChar

/-- The text of which the bytes are the encoding. -/
def decode (bytes : List UInt8) : Option (List Char) :=
  if h : bytes.toByteArray.IsValidUTF8 then some (String.ofByteArray bytes.toByteArray h).toList
  else none

theorem decode_encode (text : List Char) : decode (encode text) = some text := by
  have hvalid : (encode text).toByteArray.IsValidUTF8 := ⟨text, rfl⟩
  have hstring : String.ofByteArray (encode text).toByteArray hvalid = String.ofList text := rfl
  rw [decode, dif_pos hvalid, hstring, String.toList_ofList]

theorem decode_eq_some_iff {bytes : List UInt8} {text : List Char} :
    decode bytes = some text ↔ encode text = bytes := by
  constructor
  · intro h
    unfold decode at h
    split at h
    · rename_i hvalid
      obtain ⟨source, hsource⟩ := hvalid
      have hbytes : bytes = encode source := by
        have hdata := congrArg (fun b => b.data.toList) hsource
        simpa [List.utf8Encode, encode] using hdata
      subst hbytes
      have hback := decode_encode source
      rw [decode, dif_pos ⟨source, rfl⟩] at hback
      rw [Option.some.inj (hback.symm.trans h)]
    · simp at h
  · rintro rfl
    exact decode_encode text

@[simp] theorem encode_append (a b : List Char) : encode (a ++ b) = encode a ++ encode b := by
  simp [encode]

theorem encode_cons (c : Char) (text : List Char) :
    encode (c :: text) = String.utf8EncodeChar c ++ encode text := rfl

/-- A byte of the form `10xxxxxx`. -/
def isContinuation (byte : UInt8) : Bool := byte &&& 0xc0 == 0x80

theorem isContinuation_iff (byte : UInt8) : isContinuation byte ↔ byte.toNat / 64 = 2 := by
  revert byte
  exact Words.forall_byte (by decide +kernel)

/-- What the first byte of several says: how many follow, its own bits and the least value. -/
def lead (first : UInt8) : Option (Nat × Nat × Nat) :=
  let first := first.toNat
  if 0xc2 ≤ first ∧ first ≤ 0xdf then some (1, first - 0xc0, 0x80)
  else if 0xe0 ≤ first ∧ first ≤ 0xef then some (2, first - 0xe0, 0x800)
  else if 0xf0 ≤ first ∧ first ≤ 0xf4 then some (3, first - 0xf0, 0x10000)
  else none

theorem lead_bounds (first : UInt8) :
    ∀ p ∈ lead first, 128 ≤ first.toNat ∧ (p.2.1 + 1) * 64 ^ p.1 ≤ 2 ^ 32 ∧
      128 ≤ p.2.2 ∧ p.2.2 < 2 ^ 32 := by
  revert first
  exact Words.forall_byte (by decide +kernel)

/-- Six more bits from each byte. -/
def appendBits (n : Nat) (bytes : List UInt8) : Nat :=
  bytes.foldl (fun n b => n * 64 + b.toNat % 64) n

theorem appendBits_lt (n : Nat) (bytes : List UInt8) :
    appendBits n bytes < (n + 1) * 64 ^ bytes.length := by
  induction bytes generalizing n with
  | nil => simp [appendBits]
  | cons b bytes ih =>
    refine (ih _).trans_le ?_
    rw [List.length_cons, Nat.pow_succ', ← Nat.mul_assoc]
    exact Nat.mul_le_mul_right _ (by dsimp only; omega)

/-- The shortest encoding of a value in several bytes. -/
def Several (first : UInt8) (taken : List UInt8) (value : Nat) : Prop :=
  ∃ n minimum, lead first = some (taken.length, n, minimum) ∧ (∀ b ∈ taken, isContinuation b) ∧
    appendBits n taken = value ∧ minimum ≤ value

theorem encodeChar_iff {c : Char} {first : UInt8} {taken : List UInt8} (hc : 128 ≤ c.toNat) :
    String.utf8EncodeChar c = first :: taken ↔ Several first taken c.toNat := by
  have hlt : c.toNat < 0x110000 := by
    rcases c.valid with h | h
    · exact Nat.lt_trans h (by decide)
    · exact h.2
  have hv : c.toNat = c.val.toNat := rfl
  unfold Several String.utf8EncodeChar
  simp only [isContinuation_iff]
  constructor
  · rw [hv] at hlt hc ⊢
    generalize c.val.toNat = v at hlt hc
    intro h
    rw [if_neg (by omega)] at h
    split at h
    · obtain ⟨rfl, rfl⟩ := List.cons.inj h
      refine ⟨_, 0x80, if_pos ?_, ?_, ?_, by omega⟩ <;> simp [appendBits] <;> omega
    split at h
    · obtain ⟨rfl, rfl⟩ := List.cons.inj h
      refine ⟨_, 0x800, (if_neg ?_).trans (if_pos ?_), ?_, ?_, by omega⟩ <;> simp [appendBits] <;>
        omega
    · obtain ⟨rfl, rfl⟩ := List.cons.inj h
      refine ⟨_, 0x10000, (if_neg ?_).trans ((if_neg ?_).trans (if_pos ?_)), ?_, ?_, by omega⟩ <;>
        simp [appendBits] <;> omega
  · rintro ⟨n, minimum, hlead, hall, happend, hminimum⟩
    unfold lead at hlead
    dsimp only at hlead ⊢
    rw [if_neg (by omega)]
    split_ifs at hlead <;> obtain ⟨hlength, rfl, rfl⟩ : _ ∧ _ ∧ _ := by simpa using hlead
    · obtain ⟨x, rfl⟩ := List.length_eq_one_iff.mp hlength.symm
      simp [appendBits] at hall happend
      rw [if_pos (by omega)]
      simp [← UInt8.toNat_inj]
      omega
    · obtain ⟨x, y, rfl⟩ := List.length_eq_two.mp hlength.symm
      simp [appendBits] at hall happend
      rw [if_neg (by omega), if_pos (by omega)]
      simp [← UInt8.toNat_inj]
      omega
    · obtain ⟨x, y, z, rfl⟩ := List.length_eq_three.mp hlength.symm
      simp [appendBits] at hall happend
      rw [if_neg (by omega), if_neg (by omega)]
      simp [← UInt8.toNat_inj]
      omega

/-- A character below 128 is one byte; the bytes of any other are not below 128. -/
theorem encodeChar_cases (c : Char) :
    c.toNat < 128 ∧ String.utf8EncodeChar c = [UInt8.ofNat c.toNat] ∨
      128 ≤ c.toNat ∧ ∀ b ∈ String.utf8EncodeChar c, 128 ≤ b.toNat := by
  rcases Nat.lt_or_ge c.toNat 128 with hc | hc
  · exact .inl ⟨hc, if_pos (Nat.le_of_lt_succ hc)⟩
  · refine .inr ⟨hc, ?_⟩
    cases heq : String.utf8EncodeChar c with
    | nil => exact nofun
    | cons first taken =>
      obtain ⟨_, _, hlead, hall, -⟩ := (encodeChar_iff hc).mp heq
      refine List.forall_mem_cons.mpr ⟨(lead_bounds first _ hlead).1, fun b hb => ?_⟩
      have := (isContinuation_iff b).mp (hall b hb)
      omega

theorem toNat_ofNat_of_lt {n : Nat} (h : n < 128) : (UInt8.ofNat n).toNat = n := by
  rw [UInt8.toNat_ofNat']
  omega

theorem encodeChar_ofNat {b : UInt8} (hb : b.toNat < 128) :
    String.utf8EncodeChar (Char.ofNat b.toNat) = [b] := by
  have hchar : (Char.ofNat b.toNat).toNat = b.toNat := by
    rw [Char.toNat_ofNat, if_pos (.inl (by omega))]
  rcases encodeChar_cases (Char.ofNat b.toNat) with ⟨-, heq⟩ | ⟨hhigh, -⟩
  · rw [heq, hchar]
    simp
  · omega

/-- The decoder, without the general case for ASCII. -/
def decodeAscii (bytes : List UInt8) : Option (List Char) :=
  if bytes.all (·.toNat < 128) then some (bytes.map fun b => Char.ofNat b.toNat) else decode bytes

theorem encode_ascii {bytes : List UInt8} (h : ∀ b ∈ bytes, b.toNat < 128) :
    encode (bytes.map fun b => Char.ofNat b.toNat) = bytes := by
  induction bytes with
  | nil => rfl
  | cons b rest ih =>
    obtain ⟨hb, hrest⟩ := List.forall_mem_cons.mp h
    rw [List.map_cons, encode_cons, encodeChar_ofNat hb, ih hrest, List.singleton_append]

theorem decode_eq_decodeAscii : decode = decodeAscii := by
  funext bytes
  unfold decodeAscii
  split
  · next hascii => exact decode_eq_some_iff.mpr (encode_ascii (by simpa using hascii))
  · rfl

/-- The encoding of a character has a byte below 128 only if it is that byte. -/
theorem eq_of_mem_encodeChar {c : Char} {b : UInt8} (hb : b.toNat < 128)
    (h : b ∈ String.utf8EncodeChar c) : c = Char.ofNat b.toNat := by
  rcases encodeChar_cases c with ⟨hlow, heq⟩ | ⟨-, hhigh⟩
  · rw [heq, List.mem_singleton] at h
    rw [h, toNat_ofNat_of_lt hlow, Char.ofNat_toNat]
  · exact absurd (hhigh b h) (by omega)

/-- The bytes below 128 are those of the characters below 128. -/
theorem mem_encode_ascii {text : List Char} {b : UInt8} (hb : b.toNat < 128) :
    b ∈ encode text ↔ Char.ofNat b.toNat ∈ text := by
  constructor
  · intro h
    obtain ⟨c, hc, hmem⟩ := List.mem_flatMap.mp h
    rw [← eq_of_mem_encodeChar hb hmem]
    exact hc
  · intro h
    refine List.mem_flatMap.mpr ⟨_, h, ?_⟩
    rw [encodeChar_ofNat hb]
    exact List.mem_singleton_self b

theorem tail_isContinuation {c : Char} {first : UInt8} {taken : List UInt8}
    (h : String.utf8EncodeChar c = first :: taken) : ∀ b ∈ taken, isContinuation b := by
  rcases encodeChar_cases c with ⟨-, hc⟩ | ⟨hc, -⟩
  · obtain ⟨-, rfl⟩ := List.cons.inj (hc.symm.trans h)
    exact nofun
  · obtain ⟨_, _, -, hall, -⟩ := (encodeChar_iff hc).mp h
    exact hall

/-- Where no continuation byte follows, an encoding is cut between two characters. -/
theorem encode_split {text : List Char} {a b : List UInt8} (h : a ++ b = encode text)
    (hb : ∀ byte ∈ b.head?, ¬ isContinuation byte) :
    (∃ text, a = encode text) ∧ ∃ text, b = encode text := by
  induction text generalizing a with
  | nil =>
    obtain ⟨rfl, rfl⟩ := List.append_eq_nil_iff.mp h
    exact ⟨⟨[], rfl⟩, [], rfl⟩
  | cons c text ih =>
    rcases List.append_eq_append_iff.mp h with ⟨inside, hc, rfl⟩ | ⟨after, rfl, hafter⟩
    · cases a with
      | nil => exact ⟨⟨[], rfl⟩, c :: text, h⟩
      | cons first a =>
        cases inside with
        | nil => exact ⟨⟨[c], by simpa [encode] using hc.symm⟩, text, rfl⟩
        | cons byte inside => exact absurd (tail_isContinuation hc byte (by simp)) (hb byte rfl)
    · obtain ⟨⟨left, rfl⟩, hright⟩ := ih hafter.symm
      exact ⟨⟨c :: left, rfl⟩, hright⟩

end HomeTunnel.Utf8
