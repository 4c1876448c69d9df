import Mathlib

/-! # Machine words as numbers -/

namespace HomeTunnel.Words

/-- A statement on bytes is checked on the 256 of them. -/
theorem forall_byte {p : UInt8 → Prop} (h : ∀ n < 256, p (.ofNat n)) : ∀ byte, p byte := by
  intro byte
  simpa using h byte.toNat byte.toNat_lt

variable (bits : UInt32) {k : Nat}

theorem toNat_toUInt32 (h : k < 32) : k.toUInt32.toNat % 32 = k := by
  simp only [Nat.toUInt32, UInt32.toNat_ofNat']
  omega

theorem toNat_shr (h : k < 32) : (bits >>> k.toUInt32).toNat = bits.toNat / 2 ^ k := by
  rw [UInt32.toNat_shiftRight, toNat_toUInt32 h, Nat.shiftRight_eq_div_pow]

theorem toNat_shl (h : k < 32) : (bits <<< k.toUInt32).toNat = bits.toNat * 2 ^ k % 2 ^ 32 := by
  rw [UInt32.toNat_shiftLeft, toNat_toUInt32 h, Nat.shiftLeft_eq]

/-- The low bits come in where the shift leaves zeros. -/
theorem toNat_shl_or (h : k < 32) {low : UInt32} (hlow : low.toNat < 2 ^ k) :
    ((bits <<< k.toUInt32) ||| low).toNat = bits.toNat * 2 ^ k % 2 ^ 32 + low.toNat := by
  have hpow : 2 ^ 32 = 2 ^ (32 - k) * 2 ^ k := by rw [← Nat.pow_add, Nat.sub_add_cancel h.le]
  rw [UInt32.toNat_or, toNat_shl bits h, hpow, Nat.mul_mod_mul_right, ← Nat.shiftLeft_eq,
    Nat.shiftLeft_add_eq_or_of_lt hlow]

end HomeTunnel.Words
