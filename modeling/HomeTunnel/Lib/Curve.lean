import Mathlib

/-! # Digest and signature scheme

What the programs take from cryptographic libraries: SHA-256, the points of P-256
and the check of an ECDSA signature over a digest.
-/

namespace HomeTunnel

structure Curve where
  /-- The two coordinates are those of a point. -/
  onCurve : List UInt8 → List UInt8 → Bool
  sha256 : List UInt8 → List UInt8
  /-- Digest, public point and signature. -/
  ecdsaVerify : List UInt8 → List UInt8 → List UInt8 → Bool

end HomeTunnel
