import HomeTunnel.Lib.Base64
import HomeTunnel.Native.SessionClaims

/-! # Compact signatures

The bit-accumulating loops of `encode` and `decode` compute base64url, so a text
made of encoded parts is taken apart again.
-/

namespace HomeTunnel.Remote.Auth

open Words

theorem toNat_shl_or_byte (bits : UInt32) (byte : UInt8) :
    ((bits <<< 8) ||| byte.toUInt32).toNat = bits.toNat * 256 % 2 ^ 32 + byte.toNat :=
  toNat_shl_or bits (k := 8) (by decide) byte.toNat_lt

theorem toNat_shl_or_index (bits : UInt32) {index : Nat} (h : index < 64) :
    ((bits <<< 6) ||| index.toUInt32).toNat = bits.toNat * 64 % 2 ^ 32 + index := by
  have hindex : index.toUInt32.toNat = index := UInt32.toNat_ofNat_of_lt' (h.trans (by decide))
  exact (toNat_shl_or bits (k := 6) (by decide) (hindex.trans_lt h)).trans (congrArg _ hindex)

theorem alphabet_eq : alphabet = Base64.alphabet := by
  exact String.toList_ofList (l := Base64.alphabet)

theorem sextet_eq (bits : UInt32) : sextet bits = Base64.digit (bits.toNat % 64) := by
  have hmask : (bits &&& 63).toNat = bits.toNat % 64 := by
    rw [UInt32.toNat_and]
    exact Nat.and_two_pow_sub_one_eq_mod bits.toNat 6
  rw [sextet, hmask, alphabet_eq]
  rfl

/-! ## The loops

Each lemma is one turn of a loop, for each number of bits that can be pending.
-/

theorem encodeLoop_zero (bits : UInt32) (a : UInt8) (rest : Bytes) :
    encodeLoop bits 0 (a :: rest) =
      Base64.digit (a.toNat / 4) :: encodeLoop ((bits <<< 8) ||| a.toUInt32) 2 rest := by
  have ha := a.toNat_lt
  simp only [encodeLoop, sextet_eq, toNat_shr _ (show 0 + 8 - 6 < 32 by decide), toNat_shl_or_byte]
  rw [if_neg (by decide)]
  congr 2
  omega

theorem encodeLoop_two (bits : UInt32) (b : UInt8) (rest : Bytes) :
    encodeLoop bits 2 (b :: rest) =
      Base64.digit (bits.toNat % 4 * 16 + b.toNat / 16) ::
        encodeLoop ((bits <<< 8) ||| b.toUInt32) 4 rest := by
  have hb := b.toNat_lt
  simp only [encodeLoop, sextet_eq, toNat_shr _ (show 2 + 8 - 6 < 32 by decide), toNat_shl_or_byte]
  rw [if_neg (by decide)]
  congr 2
  omega

theorem encodeLoop_four (bits : UInt32) (c : UInt8) (rest : Bytes) :
    encodeLoop bits 4 (c :: rest) =
      Base64.digit (bits.toNat % 16 * 4 + c.toNat / 64) :: Base64.digit (c.toNat % 64) ::
        encodeLoop ((bits <<< 8) ||| c.toUInt32) 0 rest := by
  have hc := c.toNat_lt
  simp only [encodeLoop, sextet_eq, toNat_shr _ (show 4 + 8 - 6 < 32 by decide),
    toNat_shr _ (show 4 + 8 - 12 < 32 by decide), toNat_shl_or_byte]
  have hfirst : (bits.toNat * 256 % 2 ^ 32 + c.toNat) / 2 ^ (4 + 8 - 6) % 64 =
      bits.toNat % 16 * 4 + c.toNat / 64 := by omega
  have hsecond : (bits.toNat * 256 % 2 ^ 32 + c.toNat) % 64 = c.toNat % 64 := by omega
  rw [if_pos (by decide), hfirst, show 4 + 8 - 12 = 0 from rfl, Nat.pow_zero, Nat.div_one, hsecond]

theorem encodeLoop_eq (bits : UInt32) (bytes : Bytes) :
    encodeLoop bits 0 bytes = Base64.encode bytes := by
  induction bytes using Base64.encode.induct generalizing bits with
  | case1 => rfl
  | case2 a =>
    have ha := a.toNat_lt
    rw [encodeLoop_zero, encodeLoop, if_neg (by decide), sextet_eq, toNat_shl _ (by decide),
      toNat_shl_or_byte, Base64.encode]
    congr 3
    omega
  | case3 a b =>
    have ha := a.toNat_lt
    have hb := b.toNat_lt
    rw [encodeLoop_zero, encodeLoop_two, encodeLoop, if_neg (by decide), sextet_eq,
      toNat_shl _ (by decide), toNat_shl_or_byte, toNat_shl_or_byte, Base64.encode]
    congr 3
    · omega
    · congr 2
      omega
  | case4 a b c rest ih =>
    have ha := a.toNat_lt
    have hb := b.toNat_lt
    rw [encodeLoop_zero, encodeLoop_two, encodeLoop_four, ih, toNat_shl_or_byte, toNat_shl_or_byte,
      Base64.encode]
    congr 3
    · omega
    · congr 2
      omega

theorem idxOf_digit {index : Nat} (h : index < 64) :
    alphabet.idxOf? (Base64.digit index) = some index := by
  rw [alphabet_eq]
  exact Base64.value_digit h

theorem decodeLoop_zero (bits : UInt32) {p : Nat} (hp : p < 64) (rest : List Char) :
    decodeLoop bits 0 (Base64.digit p :: rest) =
      decodeLoop ((bits <<< 6) ||| p.toUInt32) 6 rest := by
  rw [decodeLoop, idxOf_digit hp]
  rfl

theorem ofNat_eq_of_mod {n : Nat} {a : UInt8} (h : n % 256 = a.toNat) : UInt8.ofNat n = a := by
  apply UInt8.toNat_inj.mp
  rw [UInt8.toNat_ofNat', h]

theorem toUInt8_shr (bits : UInt32) {k : Nat} (h : k < 32) :
    (bits >>> k.toUInt32).toUInt8 = UInt8.ofNat (bits.toNat / 2 ^ k) := by
  apply UInt8.toNat_inj.mp
  rw [UInt32.toNat_toUInt8, toNat_shr bits h, UInt8.toNat_ofNat']

theorem decodeLoop_emit (bits : UInt32) {count p : Nat} (hp : p < 64) (hcount : count ≥ 2)
    (hle : count ≤ 6) (rest : List Char) :
    decodeLoop bits count (Base64.digit p :: rest) =
      (decodeLoop ((bits <<< 6) ||| p.toUInt32) (count - 2) rest).map
        (UInt8.ofNat ((bits.toNat * 64 % 2 ^ 32 + p) / 2 ^ (count - 2)) :: ·) := by
  rw [decodeLoop, idxOf_digit hp]
  dsimp only
  rw [if_pos (by omega), show count + 6 - 8 = count - 2 by omega, toUInt8_shr _ (by omega),
    toNat_shl_or_index bits hp]

theorem decodeLoop_encode (bits : UInt32) (bytes : Bytes) :
    decodeLoop bits 0 (Base64.encode bytes) = some bytes := by
  induction bytes using Base64.encode.induct generalizing bits with
  | case1 => rfl
  | case2 a =>
    have ha := a.toNat_lt
    rw [Base64.encode, decodeLoop_zero _ (by omega), decodeLoop_emit _ (by omega) (by decide)
      (by decide), toNat_shl_or_index _ (by omega), decodeLoop, Option.map_some,
      ofNat_eq_of_mod (a := a) (by omega)]
  | case3 a b =>
    have ha := a.toNat_lt
    have hb := b.toNat_lt
    rw [Base64.encode, decodeLoop_zero _ (by omega), decodeLoop_emit _ (by omega) (by decide)
      (by decide), decodeLoop_emit _ (by omega) (by decide) (by decide), decodeLoop,
      toNat_shl_or_index _ (by omega), toNat_shl_or_index _ (by omega), Option.map_some,
      Option.map_some, ofNat_eq_of_mod (a := a) (by omega), ofNat_eq_of_mod (a := b) (by omega)]
  | case4 a b c rest ih =>
    have ha := a.toNat_lt
    have hb := b.toNat_lt
    have hc := c.toNat_lt
    rw [Base64.encode, decodeLoop_zero _ (by omega), decodeLoop_emit _ (by omega) (by decide)
      (by decide), decodeLoop_emit _ (by omega) (by decide) (by decide),
      decodeLoop_emit _ (by omega) (by decide) (by decide), ih, Option.map_some, Option.map_some,
      Option.map_some, show 6 - 2 - 2 - 2 = 0 from rfl, Nat.pow_zero, Nat.div_one]
    simp (disch := omega) only [toNat_shl_or_index]
    rw [ofNat_eq_of_mod (a := a) (by omega), ofNat_eq_of_mod (a := b) (by omega),
      ofNat_eq_of_mod (a := c) (by omega)]

theorem encode_eq (bytes : Bytes) : encode bytes = String.ofList (Base64.encode bytes) := by
  rw [encode, encodeLoop_eq]

theorem length_utf8_encode (bytes : Bytes) :
    (utf8 (encode bytes)).length = (Base64.encode bytes).length := by
  rw [utf8, encode_eq, String.toList_ofList]
  exact Base64.length_utf8_encode bytes

theorem decode_encode {bytes : Bytes} (hne : bytes ≠ [])
    (hlen : (Base64.encode bytes).length ≤ 65536) : decode (encode bytes) = some bytes := by
  have hpos : 0 < bytes.length := List.length_pos_of_ne_nil hne
  have hlength := Base64.length_encode bytes
  unfold decode
  dsimp only
  rw [length_utf8_encode, if_neg (by omega)]
  rw [show (encode bytes).toList = Base64.encode bytes by rw [encode_eq, String.toList_ofList],
    decodeLoop_encode]
  simp

/-- The compact form of a header, a payload and a signature. -/
def join (header payload signature : Bytes) : String :=
  String.ofList (Base64.dotted header payload signature)

theorem compactParts_join (header payload signature : Bytes) :
    compactParts (join header payload signature) =
      some (encode header, encode payload, encode signature) := by
  rw [compactParts, join, String.toList_ofList, Base64.splitOn_dotted]
  simp only [encode_eq]

theorem length_utf8_join (header payload signature : Bytes) :
    (utf8 (join header payload signature)).length =
      (Base64.encode header).length + (Base64.encode payload).length +
        (Base64.encode signature).length + 2 := by
  rw [utf8, join, String.toList_ofList]
  exact Base64.length_utf8_dotted header payload signature

theorem encode_of_decode {text : String} {bytes : Bytes} (h : decode text = some bytes) :
    text = encode bytes := by
  unfold decode at h
  dsimp only at h
  split at h
  · cases h
  split at h
  · cases h
  split at h
  · next hencode => exact Option.some.inj h ▸ hencode.symm
  · cases h

/-- What the three parts of a compact text decode to. -/
def segments (compact : String) : Option (Bytes × Bytes × Bytes) := do
  let (header, payload, signature) ← compactParts compact
  return (← decode header, ← decode payload, ← decode signature)

theorem eq_join_of_segments {compact : String} {header payload signature : Bytes}
    (h : segments compact = some (header, payload, signature)) :
    compact = join header payload signature := by
  simp only [segments, Option.bind_eq_bind, Option.bind_eq_some_iff, Option.pure_def,
    Option.some.injEq, Prod.mk.injEq] at h
  obtain ⟨_, hparts, _, ha, _, hb, _, hc, rfl, rfl, rfl⟩ := h
  unfold compactParts at hparts
  split at hparts
  · next hsplit =>
    obtain rfl := Option.some.inj hparts
    have ha := String.ofList_injective ((encode_of_decode ha).trans (encode_eq _))
    have hb := String.ofList_injective ((encode_of_decode hb).trans (encode_eq _))
    have hc := String.ofList_injective ((encode_of_decode hc).trans (encode_eq _))
    rw [join, Base64.dotted, ← ha, ← hb, ← hc, ← hsplit, List.intercalate_splitOn,
      String.ofList_toList]
  · cases hparts

theorem segments_of_verifyJws {P : Primitives} {compact type : String} {key : PublicKey} {jws : Jws}
    (h : verifyJws P compact key type = .ok jws) : (segments compact).isSome := by
  obtain ⟨_, _, _, signature, hparts, hsignature, -, hheader, hpayload⟩ := (verifyJws_signed h).verified
  obtain ⟨header, hheader, -⟩ := Option.bind_eq_some_iff.mp hheader
  obtain ⟨payload, hpayload, -⟩ := Option.bind_eq_some_iff.mp hpayload
  simp [segments, hparts, hheader, hpayload, hsignature]

/-- The decoder gives back what was encoded and reads nothing else, so that no text, and no token
that verifies, has a second spelling. -/
theorem decode_inverts_encode :
    (∀ bytes, bytes ≠ [] → (encode bytes).length ≤ 65536 → decode (encode bytes) = some bytes) ∧
    (∀ text bytes, decode text = some bytes → text = encode bytes) ∧
    (∀ text text' bytes, decode text = some bytes → decode text' = some bytes → text = text') ∧
    (∀ P compact key type jws, verifyJws P compact key type = .ok jws → (segments compact).isSome) ∧
    ∀ compact compact' parts, segments compact = some parts → segments compact' = some parts →
      compact = compact' := by
  refine ⟨fun bytes hne hlength => decode_encode hne ?_, fun _ _ => encode_of_decode,
    fun _ _ _ h h' => (encode_of_decode h).trans (encode_of_decode h').symm,
    fun _ _ _ _ _ => segments_of_verifyJws,
    fun _ _ _ h h' => (eq_join_of_segments h).trans (eq_join_of_segments h').symm⟩
  rwa [encode_eq, String.length_ofList] at hlength

/-- The text that is signed. -/
def signed (header payload : Bytes) : Bytes := utf8 (encode header ++ "." ++ encode payload)

theorem length_signed (header payload : Bytes) :
    (signed header payload).length =
      (Base64.encode header).length + (Base64.encode payload).length + 1 := by
  have hheader := length_utf8_encode header
  have hpayload := length_utf8_encode payload
  have hdot : (utf8 ".").length = 1 := by decide
  unfold utf8 at hheader hpayload hdot
  simp only [signed, utf8, String.toList_append, List.flatMap_append, List.length_append, hheader,
    hpayload, hdot]
  omega

/-- The header that the verifier wants for a key and a type. -/
structure HeaderFits (P : Primitives) (header : Json) (key : PublicKey) (type : String) : Prop where
  alg : sameString (header.get "alg") "ES256"
  typ : sameString (header.get "typ") type
  names : ((header.members?.getD []).any fun m => m.1 ∉ headerNames) = false
  kid : header.isMember "kid" → sameString (header.get "kid") key.thumbprint
  jwk : header.isMember "jwk" →
    (publicKey P (header.get "jwk")).toOption.map PublicKey.xy = some key.xy

theorem verifyJws_join {P : Primitives} {headerBytes payload signature : Bytes} {header claims : Json}
    {key : PublicKey} {type : String} (hheader : headerBytes ≠ []) (hpayload : payload ≠ [])
    (hsignature : signature.length = 64)
    (hsize : (utf8 (join headerBytes payload signature)).length ≤ 65536)
    (hread : strictJson P headerBytes 65536 = some header) (hfits : HeaderFits P header key type)
    (hcurve : P.onCurve (key.xy.take 32) (key.xy.drop 32))
    (hverify : P.ecdsaVerify (P.sha256 (signed headerBytes payload)) key.xy signature)
    (hclaims : strictJson P payload 65536 = some claims) :
    verifyJws P (join headerBytes payload signature) key type = .ok ⟨header, claims⟩ := by
  have hlength := length_utf8_join headerBytes payload signature
  have hnonempty : join headerBytes payload signature ≠ "" := by
    intro hempty
    rw [hempty] at hlength
    simp [utf8] at hlength
  have hsignature' : signature ≠ [] := by
    rintro rfl
    simp at hsignature
  have hmessage := length_signed headerBytes payload
  have hok : verifySignature P (signed headerBytes payload) key signature = .ok () := by
    have hfull : ¬ (signed headerBytes payload).isEmpty := by
      intro hempty
      rw [List.isEmpty_iff.mp hempty, List.length_nil] at hmessage
      omega
    unfold verifySignature
    rw [if_neg (by rintro (h | h | h); exacts [hfull h, by omega, h hsignature]),
      if_neg (by simp [hcurve]), if_neg (by simp [hverify])]
  unfold verifyJws
  rw [if_neg (by simp [hnonempty, hsize]), compactParts_join]
  dsimp only
  rw [decode_encode hheader (by omega), decode_encode hpayload (by omega),
    decode_encode hsignature' (by omega)]
  dsimp only
  rw [if_neg (by simp [hsignature]), hread]
  dsimp only
  rw [if_neg (by simp [hfits.alg, hfits.typ]), hfits.names, if_neg (by simp),
    if_neg (by rintro ⟨hmember, hkid⟩; exact hkid (hfits.kid hmember)),
    if_neg (by rintro ⟨hmember, hjwk⟩; exact hjwk (hfits.jwk hmember)), ← signed, hok]
  dsimp only
  rw [hclaims]

end HomeTunnel.Remote.Auth
