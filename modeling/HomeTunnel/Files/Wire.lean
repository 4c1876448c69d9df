import HomeTunnel.Files.Message

/-! # Integers on the wire -/

namespace HomeTunnel.Remote

theorem or_of_disjoint (high low : Nat) {k : Nat} (h : low < 2 ^ k) :
    high * 2 ^ k ||| low = high * 2 ^ k + low := by
  rw [Nat.mul_comm, Nat.two_pow_add_eq_or_of_lt h]

theorem toNat_readU32 (bytes : Bytes) (offset : Nat) :
    (readU32 bytes offset).toNat =
      (byteAt bytes offset).toNat * 2 ^ 24 + (byteAt bytes (offset + 1)).toNat * 2 ^ 16 +
        (byteAt bytes (offset + 2)).toNat * 2 ^ 8 + (byteAt bytes (offset + 3)).toNat := by
  have ha := (byteAt bytes offset).toNat_lt
  have hb := (byteAt bytes (offset + 1)).toNat_lt
  have hc := (byteAt bytes (offset + 2)).toNat_lt
  have hd := (byteAt bytes (offset + 3)).toNat_lt
  unfold readU32
  generalize (byteAt bytes offset) = a at *
  generalize (byteAt bytes (offset + 1)) = b at *
  generalize (byteAt bytes (offset + 2)) = c at *
  generalize (byteAt bytes (offset + 3)) = d at *
  have hshift : ∀ (x : UInt8) (k : UInt32) (n : Nat), k.toNat = n → n ≤ 24 →
      (x.toUInt32 <<< k).toNat = x.toNat * 2 ^ n := by
    intro x k n hk hn
    have hx := x.toNat_lt
    have hle : x.toNat * 2 ^ n < 2 ^ 8 * 2 ^ 24 :=
      Nat.mul_lt_mul_of_lt_of_le hx (Nat.pow_le_pow_right (by decide) hn) (by positivity)
    rw [UInt32.toNat_shiftLeft, UInt8.toNat_toUInt32, hk, Nat.mod_eq_of_lt (show n < 32 by omega),
      Nat.shiftLeft_eq, Nat.mod_eq_of_lt (show x.toNat * 2 ^ n < 2 ^ 32 by omega)]
  simp only [UInt32.toNat_or, UInt8.toNat_toUInt32]
  rw [hshift a 24 24 rfl (by decide), hshift b 16 16 rfl (by decide), hshift c 8 8 rfl (by decide)]
  rw [or_of_disjoint _ _ (by omega : b.toNat * 2 ^ 16 < 2 ^ 24)]
  rw [show a.toNat * 2 ^ 24 + b.toNat * 2 ^ 16 = (a.toNat * 2 ^ 8 + b.toNat) * 2 ^ 16 by ring,
    or_of_disjoint _ _ (by omega : c.toNat * 2 ^ 8 < 2 ^ 16)]
  rw [show (a.toNat * 2 ^ 8 + b.toNat) * 2 ^ 16 + c.toNat * 2 ^ 8 =
    (a.toNat * 2 ^ 16 + b.toNat * 2 ^ 8 + c.toNat) * 2 ^ 8 by ring, or_of_disjoint _ _ hd]

end HomeTunnel.Remote
