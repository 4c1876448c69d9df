import HomeTunnel.Lib.Utf8
import HomeTunnel.Native.Protocol

/-! # What `validUtf8` accepts

One turn of the loop takes one character, so that exactly the encodings of texts are accepted.
-/

namespace HomeTunnel.Remote

open Utf8

theorem shl_or_low (n : Nat) (byte : UInt8) :
    (UInt32.ofNat n <<< 6) ||| (byte &&& 0x3f).toUInt32 = .ofNat (n * 64 + byte.toNat % 64) := by
  have hlow : (byte &&& 0x3f).toUInt32.toNat = byte.toNat % 64 := by
    rw [UInt8.toNat_toUInt32, UInt8.toNat_and]
    exact Nat.and_two_pow_sub_one_eq_mod byte.toNat 6
  apply UInt32.toNat_inj.mp
  refine (Words.toNat_shl_or _ (k := 6) (by decide) (by omega)).trans ?_
  rw [hlow, UInt32.toNat_ofNat', UInt32.toNat_ofNat']
  omega

theorem continuation_eq (count n : Nat) (bytes : Bytes) :
    continuation count (.ofNat n) bytes =
      if (bytes.take count).length = count ∧ ∀ b ∈ bytes.take count, isContinuation b then
        some (.ofNat (appendBits n (bytes.take count)), bytes.drop count)
      else none := by
  induction count generalizing n bytes with
  | zero => simp [continuation, appendBits]
  | succ count ih =>
    cases bytes with
    | nil => simp [continuation]
    | cons b bytes =>
      rw [continuation, shl_or_low, ih]
      by_cases hb : b &&& 0xc0 = 0x80 <;> simp [isContinuation, hb, appendBits]

theorem lead_eq (first : UInt8) :
    (if 0xc2 ≤ first ∧ first ≤ 0xdf then some (1, (first &&& 0x1f).toUInt32, (0x80 : UInt32))
      else if 0xe0 ≤ first ∧ first ≤ 0xef then some (2, (first &&& 0x0f).toUInt32, 0x800)
      else if 0xf0 ≤ first ∧ first ≤ 0xf4 then some (3, (first &&& 7).toUInt32, 0x10000)
      else none) =
    (lead first).map fun (count, n, minimum) => (count, .ofNat n, .ofNat minimum) := by
  revert first
  exact Words.forall_byte (by decide +kernel)

theorem codepoint_checked {value minimum : Nat} (hvalue : value < 2 ^ 32)
    (hminimum : minimum < 2 ^ 32) :
    ¬ (UInt32.ofNat value < .ofNat minimum ∨ .ofNat value > (0x10ffff : UInt32) ∨
        (0xd800 : UInt32) ≤ .ofNat value ∧ .ofNat value ≤ (0xdfff : UInt32)) ↔
      minimum ≤ value ∧ value.isValidChar := by
  simp only [gt_iff_lt, UInt32.lt_iff_toNat_lt, UInt32.le_iff_toNat_le,
    UInt32.toNat_ofNat_of_lt' hvalue, UInt32.toNat_ofNat_of_lt' hminimum, UInt32.reduceToNat,
    Nat.isValidChar]
  omega

/-- A turn of the loop takes the bytes of one character. -/
theorem validUtf8Loop_cons {fuel : Nat} {first : UInt8} {rest : Bytes} :
    validUtf8Loop (fuel + 1) (first :: rest) ↔
      ∃ c taken after, String.utf8EncodeChar c = first :: taken ∧ rest = taken ++ after ∧
        validUtf8Loop fuel after := by
  rw [validUtf8Loop]
  split
  · next hascii =>
    have hone := encodeChar_ofNat (b := first) hascii
    constructor
    · exact fun h => ⟨Char.ofNat first.toNat, [], rest, hone, rfl, h⟩
    · rintro ⟨c, taken, after, heq, rfl, h⟩
      obtain rfl := eq_of_mem_encodeChar hascii (heq ▸ List.mem_cons_self)
      obtain rfl := (List.cons.inj (hone.symm.trans heq)).2
      exact h
  · next hhigh =>
    rw [lead_eq]
    dsimp only
    constructor
    · intro h
      cases hlead : lead first with
      | none => simp [hlead] at h
      | some p =>
        obtain ⟨count, n, minimum⟩ := p
        obtain ⟨-, hn, hlow, hminimum⟩ := lead_bounds first _ hlead
        rw [hlead, Option.map_some] at h
        dsimp only at h
        rw [continuation_eq] at h
        by_cases htaken : (rest.take count).length = count ∧ ∀ b ∈ rest.take count, isContinuation b
        · have hlt := appendBits_lt n (rest.take count)
          rw [htaken.1] at hlt
          rw [if_pos htaken] at h
          dsimp only at h hn
          split at h
          · cases h
          · next hchecked =>
            obtain ⟨hle, hvalid⟩ := (codepoint_checked (by omega) hminimum).mp hchecked
            have hchar : (Char.ofNat (appendBits n (rest.take count))).toNat = _ :=
              (Char.toNat_ofNat _).trans (if_pos hvalid)
            refine ⟨_, _, _, (encodeChar_iff ?_).mpr ⟨n, minimum, htaken.1.symm ▸ hlead, htaken.2,
              hchar.symm, hle.trans_eq hchar.symm⟩, (List.take_append_drop count rest).symm, h⟩
            rw [hchar]
            exact hlow.trans hle
        · rw [if_neg htaken] at h
          cases h
    · rintro ⟨c, taken, after, heq, rfl, h⟩
      have hc : 128 ≤ c.toNat := by
        rcases encodeChar_cases c with ⟨hlow, hone⟩ | ⟨hc, -⟩
        · obtain ⟨rfl, -⟩ := List.cons.inj (hone.symm.trans heq)
          exact absurd ((toNat_ofNat_of_lt hlow).trans_lt hlow) hhigh
        · exact hc
      obtain ⟨n, minimum, hlead, hall, happend, hle⟩ := (encodeChar_iff hc).mp heq
      obtain ⟨-, hn, hlow, hminimum⟩ := lead_bounds first _ hlead
      have hlt := appendBits_lt n taken
      rw [hlead, Option.map_some]
      dsimp only at hn ⊢
      rw [continuation_eq, List.take_left, List.drop_left, if_pos ⟨rfl, hall⟩]
      dsimp only
      rwa [if_neg ((codepoint_checked (by omega) hminimum).mpr ⟨happend ▸ hle, happend ▸ c.valid⟩)]

/-- With enough fuel the loop accepts the encodings of texts and nothing else. -/
theorem validUtf8Loop_iff {fuel : Nat} {input : Bytes} (h : input.length ≤ fuel) :
    validUtf8Loop fuel input ↔ ∃ text, input = encode text := by
  induction fuel generalizing input with
  | zero =>
    obtain rfl := List.eq_nil_of_length_eq_zero (Nat.le_zero.mp h)
    exact ⟨fun _ => ⟨[], rfl⟩, fun _ => rfl⟩
  | succ fuel ih =>
    cases input with
    | nil => exact ⟨fun _ => ⟨[], rfl⟩, fun _ => rfl⟩
    | cons first rest =>
      rw [validUtf8Loop_cons]
      constructor
      · rintro ⟨c, taken, after, hc, rfl, hafter⟩
        obtain ⟨text, rfl⟩ := (ih (by simp at h; omega)).mp hafter
        exact ⟨c :: text, by rw [encode_cons, hc]; rfl⟩
      · rintro ⟨_ | ⟨c, text⟩, htext⟩
        · cases htext
        cases hc : String.utf8EncodeChar c with
        | nil => exact absurd (hc ▸ String.length_utf8EncodeChar c).symm c.utf8Size_pos.ne'
        | cons byte taken =>
          rw [encode_cons, hc] at htext
          obtain ⟨rfl, rfl⟩ := List.cons.inj htext
          exact ⟨c, taken, _, hc, rfl, (ih (by simp at h ⊢; omega)).mpr ⟨text, rfl⟩⟩

theorem validUtf8_iff {input : Bytes} : validUtf8 input ↔ ∃ text, input = encode text :=
  validUtf8Loop_iff le_rfl

/-- Exactly the encodings of texts are accepted, so that they are put together and, where no
continuation byte follows, taken apart. -/
theorem validUtf8_exact :
    (∀ input, validUtf8 input ↔ ∃ text, input = encode text) ∧
    (∀ a b, validUtf8 a → validUtf8 b → validUtf8 (a ++ b)) ∧
    ∀ a b, validUtf8 (a ++ b) → (∀ byte ∈ b.head?, ¬ isContinuation byte) →
      validUtf8 a ∧ validUtf8 b := by
  simp only [validUtf8_iff, true_and, implies_true]
  constructor
  · rintro _ _ ⟨a, rfl⟩ ⟨b, rfl⟩
    exact ⟨a ++ b, (encode_append a b).symm⟩
  · rintro _ _ ⟨text, h⟩ hb
    exact encode_split h hb

end HomeTunnel.Remote
