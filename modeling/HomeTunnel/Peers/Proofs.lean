import HomeTunnel.Files.Wire
import HomeTunnel.Host.Jws
import HomeTunnel.Native.Reader
import HomeTunnel.Peers.Identity

/-! # The transcript of a session

What the host service signs as its proof of a session. `signPeerProof` takes the text from
the worker apart with a cursor and compares each part with what the service knows; the two
native ends put the text together by `proofTranscript`.
-/

namespace HomeTunnel.Host.Peers

open Remote (readU32 byteAt)
open Remote.Peers (proofTranscript lengthPrefixed u32Bytes proofDomain)

/-- The closure `part`: the next part and where the cursor stands after it. A part that does
not fit is nil and leaves the cursor. -/
def part (data : Bytes) (offset size : Nat) : Bytes × Nat :=
  if offset + 4 + size > data.length ∨ (readU32 data offset).toNat ≠ size then ([], offset)
  else ((data.drop (offset + 4)).take size, offset + 4 + size)

/-- `hex.DecodeString`. -/
def hexDecode : List Char → Option Bytes
  | [] => some []
  | [_] => none
  | a :: b :: rest =>
    match JsonText.hexValue a, JsonText.hexValue b, hexDecode rest with
    | some high, some low, some bytes => some (UInt8.ofNat (high * 16 + low) :: bytes)
    | _, _, _ => none

/-- The running session as `signPeerProof` looks at it. -/
structure Proving where
  sessionId : String
  connectionEpoch : Int
  hostNonce : Bytes
  offerJws : String
  answerJws : String
  ticketJws : String
  closing : Bool := false
  proofs : List String := []
deriving DecidableEq, Repr

/-- Each text is set and the next part is its digest. -/
def digestsMatch (C : Curve) (data : Bytes) : Nat → List String → Bool
  | _, [] => true
  | offset, text :: texts =>
    text != "" && (part data offset 32).1 == C.sha256 (utf8 text) &&
      digestsMatch C data (part data offset 32).2 texts

/-- The parts after the session's bytes: the epoch, which has no length, the controller's nonce,
which may be any, and what the host knows. -/
def tailMatches (C : Curve) (r : Proving) (data : Bytes) (offset : Nat) : Bool :=
  offset + 4 ≤ data.length && ((readU32 data offset).toNat : Int) == r.connectionEpoch &&
  (part data (offset + 4) 32).1.length == 32 &&
  (part data (part data (offset + 4) 32).2 32).1 == r.hostNonce &&
  digestsMatch C data (part data (part data (offset + 4) 32).2 32).2
    [r.offerJws, r.answerJws, r.ticketJws]

def transcriptMatches (C : Curve) (r : Proving) (data : Bytes) : Bool :=
  data.length == 222 && (part data 0 14).1 == utf8 "ht-rd-proof-v1" &&
  (match hexDecode (r.sessionId.toList.filter (· ≠ '-')) with
    | none => false
    | some sessionBytes =>
      (part data (part data 0 14).2 16).1 == sessionBytes &&
      tailMatches C r data (part data (part data 0 14).2 16).2)

/-- The request is one that may still be answered; `current` is whether the session is the
active one. -/
def Proving.open (r : Proving) (current : Bool) (requestId : String) : Bool :=
  current && !r.closing && requestId != "" && (utf8 requestId).length ≤ 128 &&
  requestId ∉ r.proofs && r.proofs.length < 8

/-- The bytes that are signed, with the request remembered. -/
def signPeerProof (C : Curve) (r : Proving) (current : Bool) (requestId : String)
    (data : Bytes) : Option (Proving × Bytes) :=
  if r.open current requestId && transcriptMatches C r data then
    some ({ r with proofs := requestId :: r.proofs }, data)
  else none

theorem length_u32Bytes (value : UInt32) : (u32Bytes value).length = 4 := rfl

theorem length_lengthPrefixed (bytes : Bytes) : (lengthPrefixed bytes).length = 4 + bytes.length := by
  rw [lengthPrefixed, List.length_append, length_u32Bytes]

theorem toNat_shiftByte (value shift : UInt32) (k : Nat) (hshift : shift.toNat = k)
    (hk : k < 32) : ((value >>> shift).toUInt8).toNat = value.toNat / 2 ^ k % 256 := by
  rw [UInt32.toNat_toUInt8, UInt32.toNat_shiftRight, hshift, Nat.mod_eq_of_lt hk,
    Nat.shiftRight_eq_div_pow]

theorem readU32_u32Bytes (value : UInt32) (rest : Bytes) :
    readU32 (u32Bytes value ++ rest) 0 = value := by
  have hvalue := value.toNat_lt
  have h24 := toNat_shiftByte value 24 24 rfl (by decide)
  have h16 := toNat_shiftByte value 16 16 rfl (by decide)
  have h8 := toNat_shiftByte value 8 8 rfl (by decide)
  have h0 : value.toUInt8.toNat = value.toNat % 256 := UInt32.toNat_toUInt8 value
  apply UInt32.toNat_inj.mp
  rw [Remote.toNat_readU32]
  simp only [u32Bytes, byteAt, List.cons_append, List.nil_append, List.getD_cons_zero,
    List.getD_cons_succ, Nat.zero_add, h24, h16, h8, h0]
  omega

theorem u32Bytes_readU32 (a b c d : UInt8) (rest : Bytes) :
    u32Bytes (readU32 (a :: b :: c :: d :: rest) 0) = [a, b, c, d] := by
  have ha := a.toNat_lt
  have hb := b.toNat_lt
  have hc := c.toNat_lt
  have hd := d.toNat_lt
  have hread := Remote.toNat_readU32 (a :: b :: c :: d :: rest) 0
  simp only [byteAt, List.getD_cons_zero, List.getD_cons_succ, Nat.zero_add] at hread
  generalize readU32 (a :: b :: c :: d :: rest) 0 = value at hread
  unfold u32Bytes
  rw [List.cons.injEq, List.cons.injEq, List.cons.injEq, List.cons.injEq]
  refine ⟨UInt8.toNat_inj.mp ?_, UInt8.toNat_inj.mp ?_, UInt8.toNat_inj.mp ?_,
    UInt8.toNat_inj.mp ?_, rfl⟩
  · rw [toNat_shiftByte value 24 24 rfl (by decide), hread]
    omega
  · rw [toNat_shiftByte value 16 16 rfl (by decide), hread]
    omega
  · rw [toNat_shiftByte value 8 8 rfl (by decide), hread]
    omega
  · rw [UInt32.toNat_toUInt8, hread]
    omega

theorem readU32_drop (data : Bytes) (offset : Nat) :
    readU32 (data.drop offset) 0 = readU32 data offset := by
  simp [readU32, byteAt, List.getD_eq_getElem?_getD]

variable {data id : Bytes} {offset : Nat} {epoch : UInt32} {C : Curve}

/-- A word of the data, as the bytes it stands in. -/
theorem readU32_eq_iff (h : offset + 4 ≤ data.length) {value : UInt32} :
    readU32 data offset = value ↔ data.drop offset = u32Bytes value ++ data.drop (offset + 4) := by
  have hrest : data.drop (offset + 4) = (data.drop offset).drop 4 := by rw [List.drop_drop]
  have hlength : 4 ≤ (data.drop offset).length := by
    rw [List.length_drop]
    omega
  rw [← readU32_drop, hrest]
  generalize data.drop offset = bytes at hlength
  match bytes, hlength with
  | a :: b :: c :: d :: rest, _ =>
    constructor
    · rintro rfl
      rw [u32Bytes_readU32]
      rfl
    · intro h
      rw [h]
      exact readU32_u32Bytes value _

/-- A part is read exactly where it stands with its length in front. -/
theorem part_eq_iff {p : Bytes} {size : Nat} (hp : p.length = size) (hpos : 0 < size)
    (hsmall : size < 2 ^ 32) :
    (part data offset size).1 = p ↔
      data.drop offset = lengthPrefixed p ++ data.drop (offset + 4 + size) := by
  have hvalue : size.toUInt32.toNat = size := by
    rw [Nat.toUInt32_eq, UInt32.toNat_ofNat', Nat.mod_eq_of_lt hsmall]
  constructor
  · intro h
    unfold part at h
    split at h
    · rw [← h] at hp
      simp at hp
      omega
    · rename_i hfits
      rw [not_or, not_not] at hfits
      obtain ⟨hlength, hword⟩ := hfits
      have hword' : readU32 data offset = size.toUInt32 := UInt32.toNat_inj.mp (hword.trans hvalue.symm)
      rw [readU32_eq_iff (by omega)] at hword'
      have htake : (data.drop (offset + 4)).take size = p := h
      have hsplit : data.drop (offset + 4) = p ++ data.drop (offset + 4 + size) := by
        have hdrop : data.drop (offset + 4 + size) = (data.drop (offset + 4)).drop size := by
          rw [List.drop_drop]
        rw [← htake, hdrop, List.take_append_drop]
      rw [hword', lengthPrefixed, hp, List.append_assoc, ← hsplit]
  · intro h
    have hlength := congrArg List.length h
    rw [List.length_append, length_lengthPrefixed, List.length_drop, List.length_drop, hp] at hlength
    have hword : readU32 data offset = size.toUInt32 := by
      rw [← readU32_drop, h, lengthPrefixed, hp, List.append_assoc, readU32_u32Bytes]
    unfold part
    rw [if_neg]
    · rw [← List.drop_drop, h, lengthPrefixed, List.append_assoc]
      show List.take size (List.drop 4 (u32Bytes p.length.toUInt32 ++ (p ++ _))) = p
      rw [List.drop_left' (length_u32Bytes _), ← hp, List.take_left]
    · rw [not_or, not_not, hword]
      exact ⟨by omega, hvalue⟩

/-- After a part that was read the cursor stands behind it. -/
theorem part_next {p : Bytes} {size : Nat} (hp : p.length = size) (hpos : 0 < size)
    (h : (part data offset size).1 = p) : (part data offset size).2 = offset + 4 + size := by
  rw [← h] at hp
  unfold part at hp ⊢
  split at hp
  · simp at hp
    omega
  · rename_i hfits
    rw [if_neg hfits]

theorem hexValue_nibble {c : Char} {value : UInt8} (h : Remote.Files.nibble c = some value) :
    JsonText.hexValue c = some value.toNat ∧ c ≠ '-' := by
  have hminus : ∀ low : Char, 45 < low.toNat → low ≤ c → c ≠ '-' := by
    rintro low hlow hle rfl
    rw [Char.le_def, UInt32.le_iff_toNat_le] at hle
    exact absurd hle (Nat.not_le.mpr hlow)
  unfold Remote.Files.nibble at h
  unfold JsonText.hexValue
  split at h
  · rename_i hdigit
    rw [if_pos hdigit]
    have hhigh : c.toNat ≤ 57 := hdigit.2
    cases h
    refine ⟨?_, hminus '0' (by decide) hdigit.1⟩
    rw [UInt8.toNat_ofNat', Nat.mod_eq_of_lt (by omega)]
  · rename_i hdigit
    rw [if_neg hdigit]
    split at h
    · rename_i hletter
      rw [if_pos hletter]
      have hhigh : c.toNat ≤ 102 := hletter.2
      cases h
      refine ⟨?_, hminus 'a' (by decide) hletter.1⟩
      rw [UInt8.toNat_ofNat', Nat.mod_eq_of_lt (by omega)]
    · cases h

/-- The positions of dashes that the reader of an identifier meets. -/
def dashesFrom : Nat → Nat → Nat
  | _, 0 => 0
  | n, 1 => if n = 8 ∨ n = 13 ∨ n = 18 ∨ n = 23 then 1 else 0
  | n, k + 2 =>
    if n = 8 ∨ n = 13 ∨ n = 18 ∨ n = 23 then dashesFrom (n + 1) (k + 1) + 1
    else dashesFrom (n + 2) k

theorem uuidLoop_hexDecode (n : Nat) (chars : List Char) {bytes : Bytes}
    (h : Remote.Files.uuidLoop n chars = some bytes) :
    hexDecode (chars.filter (· ≠ '-')) = some bytes ∧
      2 * bytes.length + dashesFrom n chars.length = chars.length := by
  induction n, chars using Remote.Files.uuidLoop.induct generalizing bytes with
  | case1 n =>
    cases h
    exact ⟨rfl, rfl⟩
  | case2 n c hdash =>
    rw [Remote.Files.uuidLoop, if_pos hdash] at h
    cases h
    simp [hdash.2, hexDecode, dashesFrom, hdash.1]
  | case3 n c hdash =>
    rw [Remote.Files.uuidLoop, if_neg hdash] at h
    cases h
  | case4 n c d rest hdash hc =>
    simp [Remote.Files.uuidLoop, hdash, hc] at h
  | case5 n c d rest hdash hc ih =>
    rw [not_not] at hc
    rw [Remote.Files.uuidLoop, if_pos hdash, if_neg (not_not.mpr hc)] at h
    obtain ⟨hdecode, hlength⟩ := ih h
    subst hc
    refine ⟨by simpa using hdecode, ?_⟩
    simp only [List.length_cons, dashesFrom, if_pos hdash] at hlength ⊢
    omega
  | case6 n c d rest hdash high low hlow hhigh ih =>
    rw [Remote.Files.uuidLoop, if_neg hdash, hhigh, hlow] at h
    obtain ⟨tail, htail, rfl⟩ := Option.map_eq_some_iff.mp h
    obtain ⟨hdecode, hlength⟩ := ih htail
    obtain ⟨hc, hcne⟩ := hexValue_nibble hhigh
    obtain ⟨hd, hdne⟩ := hexValue_nibble hlow
    have hbyte : UInt8.ofNat (high.toNat * 16 + low.toNat) = high * 16 + low := by
      apply UInt8.toNat_inj.mp
      simp
    constructor
    · rw [List.filter_cons_of_pos (by simpa using hcne), List.filter_cons_of_pos (by simpa using hdne),
        hexDecode, hc, hd, hdecode]
      dsimp only
      rw [hbyte]
    · simp only [List.length_cons, dashesFrom, if_neg hdash]
      omega
  | case7 n c d rest hdash hnone =>
    rw [Remote.Files.uuidLoop, if_neg hdash] at h
    split at h
    · rename_i high low hhigh hlow
      exact absurd hlow (hnone high low hhigh)
    · cases h

/-- The service and the worker read an identifier as the same sixteen bytes. -/
theorem hexDecode_uuid {text : String} (h : Remote.Files.uuidBytes text = some id) :
    hexDecode (text.toList.filter (· ≠ '-')) = some id ∧ id.length = 16 := by
  unfold Remote.Files.uuidBytes at h
  split at h
  · cases h
  · rename_i hsize
    rw [not_not] at hsize
    obtain ⟨hdecode, hlength⟩ := uuidLoop_hexDecode 0 text.toList h
    have hdashes : dashesFrom 0 36 = 4 := by decide
    rw [hsize, hdashes] at hlength
    exact ⟨hdecode, by omega⟩

/-- The transcript cut at the positions where the cursor of `signPeerProof` stands. -/
theorem eq_transcript_iff {nonce host offer answer ticket : Bytes} (hid : id.length = 16)
    (hnonce : nonce.length = 32) (hhost : host.length = 32) (hoffer : offer.length = 32)
    (hanswer : answer.length = 32) (hticket : ticket.length = 32) :
    data = proofTranscript id epoch [nonce, host, offer, answer, ticket] ↔
      data.length = 222 ∧ data.drop 0 = lengthPrefixed proofDomain ++ data.drop 18 ∧
      data.drop 18 = lengthPrefixed id ++ data.drop 38 ∧
      data.drop 38 = u32Bytes epoch ++ data.drop 42 ∧
      data.drop 42 = lengthPrefixed nonce ++ data.drop 78 ∧
      data.drop 78 = lengthPrefixed host ++ data.drop 114 ∧
      data.drop 114 = lengthPrefixed offer ++ data.drop 150 ∧
      data.drop 150 = lengthPrefixed answer ++ data.drop 186 ∧
      data.drop 186 = lengthPrefixed ticket ++ data.drop 222 := by
  have hdomain : proofDomain.length = 14 := by decide
  have hframe : ∀ {bytes : Bytes} {n : Nat}, bytes.length = n →
      (lengthPrefixed bytes).length = 4 + n := by
    rintro bytes n rfl
    exact length_lengthPrefixed bytes
  have hnext : ∀ {front back : Bytes} {a n : Nat}, data.drop a = front ++ back →
      front.length = n → data.drop a = front ++ data.drop (a + n) ∧ data.drop (a + n) = back := by
    intro front back a n h hlength
    have hback : data.drop (a + n) = back := by
      rw [← List.drop_drop, h, List.drop_left' hlength]
    exact ⟨by rw [hback]; exact h, hback⟩
  constructor
  · intro h
    have hlength : data.length = 222 := by
      rw [h, proofTranscript]
      simp [hframe hdomain, hframe hid, hframe hnonce, hframe hhost, hframe hoffer, hframe hanswer,
        hframe hticket, length_u32Bytes]
    have h0 : data.drop 0 = lengthPrefixed proofDomain ++ (lengthPrefixed id ++ (u32Bytes epoch ++
        (lengthPrefixed nonce ++ (lengthPrefixed host ++ (lengthPrefixed offer ++
          (lengthPrefixed answer ++ (lengthPrefixed ticket ++ []))))))) := by
      rw [List.drop_zero, h, proofTranscript]
      simp [List.append_assoc]
    obtain ⟨h0, h18⟩ := hnext h0 (hframe hdomain)
    obtain ⟨h18, h38⟩ := hnext h18 (hframe hid)
    obtain ⟨h38, h42⟩ := hnext h38 (length_u32Bytes epoch)
    obtain ⟨h42, h78⟩ := hnext h42 (hframe hnonce)
    obtain ⟨h78, h114⟩ := hnext h78 (hframe hhost)
    obtain ⟨h114, h150⟩ := hnext h114 (hframe hoffer)
    obtain ⟨h150, h186⟩ := hnext h150 (hframe hanswer)
    obtain ⟨h186, _⟩ := hnext h186 (hframe hticket)
    exact ⟨hlength, h0, h18, h38, h42, h78, h114, h150, h186⟩
  · rintro ⟨hlength, h0, h18, h38, h42, h78, h114, h150, h186⟩
    have hend : data.drop 222 = [] := List.drop_eq_nil_of_le (by omega)
    rw [← List.drop_zero (l := data), h0, h18, h38, h42, h78, h114, h150, h186, hend, proofTranscript]
    simp [List.append_assoc]

theorem digestsMatch_iff (hsha : ∀ message, (C.sha256 message).length = 32) {text : String}
    {texts : List String} (htext : text ≠ "") :
    digestsMatch C data offset (text :: texts) = true ↔
      data.drop offset = lengthPrefixed (C.sha256 (utf8 text)) ++ data.drop (offset + 4 + 32) ∧
        digestsMatch C data (offset + 4 + 32) texts = true := by
  have hsize : (C.sha256 (utf8 text)).length = 32 := hsha _
  rw [digestsMatch, Bool.and_eq_true, Bool.and_eq_true, beq_iff_eq,
    ← part_eq_iff hsize (by decide) (by decide)]
  constructor
  · rintro ⟨⟨_, hpart⟩, hrest⟩
    rw [part_next hsize (by decide) hpart] at hrest
    exact ⟨hpart, hrest⟩
  · rintro ⟨hpart, hrest⟩
    rw [part_next hsize (by decide) hpart]
    exact ⟨⟨by simpa using htext, hpart⟩, hrest⟩

/-- The session is one whose transcript can be proved. -/
structure Proving.Ready (r : Proving) (id : Bytes) (epoch : UInt32) : Prop where
  uuid : Remote.Files.uuidBytes r.sessionId = some id
  epoch : r.connectionEpoch = epoch.toNat
  nonce : r.hostNonce.length = 32
  offer : r.offerJws ≠ ""
  answer : r.answerJws ≠ ""
  ticket : r.ticketJws ≠ ""

theorem transcriptMatches_iff (hsha : ∀ message, (C.sha256 message).length = 32) {r : Proving}
    (h : r.Ready id epoch) :
    transcriptMatches C r data = true ↔ ∃ nonce : Bytes, nonce.length = 32 ∧
      data = proofTranscript id epoch [nonce, r.hostNonce, C.sha256 (utf8 r.offerJws),
        C.sha256 (utf8 r.answerJws), C.sha256 (utf8 r.ticketJws)] := by
  obtain ⟨huuid, hepoch, hnonce, hoffer, hanswer, hticket⟩ := h
  obtain ⟨hdecode, hid⟩ := hexDecode_uuid huuid
  have hdomain : (utf8 "ht-rd-proof-v1").length = 14 := by decide
  have hsame : utf8 "ht-rd-proof-v1" = proofDomain := rfl
  unfold transcriptMatches tailMatches
  rw [hdecode]
  simp only [Bool.and_eq_true, beq_iff_eq, decide_eq_true_eq]
  constructor
  · rintro ⟨⟨hlength, hpart0⟩, hpart1, ⟨⟨⟨hroom, hword⟩, hsize⟩, hhost⟩, hdigests⟩
    have hnext0 := part_next hdomain (by decide) hpart0
    rw [hnext0] at hpart1 hroom hword hsize hhost hdigests
    have hnext1 := part_next hid (by decide) hpart1
    rw [hnext1] at hroom hword hsize hhost hdigests
    have hnext2 := part_next hsize (by decide) rfl
    rw [hnext2] at hhost hdigests
    have hnext3 := part_next hnonce (by decide) hhost
    rw [hnext3, digestsMatch_iff hsha hoffer, digestsMatch_iff hsha hanswer,
      digestsMatch_iff hsha hticket] at hdigests
    have hwordEq : readU32 data (0 + 4 + 14 + 4 + 16) = epoch := by
      apply UInt32.toNat_inj.mp
      have hcast := hword.trans hepoch
      exact_mod_cast hcast
    refine ⟨_, hsize, (eq_transcript_iff hid hsize hnonce (hsha _) (hsha _) (hsha _)).mpr
      ⟨hlength, ?_, ?_, ?_, ?_, ?_, hdigests.1, hdigests.2.1, hdigests.2.2.1⟩⟩
    · exact hsame ▸ (part_eq_iff hdomain (by decide) (by decide)).mp hpart0
    · exact (part_eq_iff hid (by decide) (by decide)).mp hpart1
    · exact (readU32_eq_iff hroom).mp hwordEq
    · exact (part_eq_iff hsize (by decide) (by decide)).mp rfl
    · exact (part_eq_iff hnonce (by decide) (by decide)).mp hhost
  · rintro ⟨nonce, hsize, heq⟩
    obtain ⟨hlength, h0, h18, h38, h42, h78, h114, h150, h186⟩ :=
      (eq_transcript_iff hid hsize hnonce (hsha _) (hsha _) (hsha _)).mp heq
    have hpart0 := (part_eq_iff hdomain (by decide) (by decide)).mpr (hsame ▸ h0)
    have hnext0 := part_next hdomain (by decide) hpart0
    have hpart1 := (part_eq_iff hid (by decide) (by decide)).mpr h18
    have hnext1 := part_next hid (by decide) hpart1
    have hpart2 := (part_eq_iff hsize (by decide) (by decide)).mpr h42
    have hnext2 := part_next hsize (by decide) hpart2
    have hpart3 := (part_eq_iff hnonce (by decide) (by decide)).mpr h78
    have hnext3 := part_next hnonce (by decide) hpart3
    have hword := (readU32_eq_iff (by omega)).mpr h38
    refine ⟨⟨hlength, hpart0⟩, ?_⟩
    rw [hnext0]
    refine ⟨hpart1, ?_⟩
    rw [hnext1]
    refine ⟨⟨⟨⟨by omega, ?_⟩, ?_⟩, ?_⟩, ?_⟩
    · rw [hword, hepoch]
    · rw [hpart2, hsize]
    · rw [hnext2]
      exact hpart3
    · rw [hnext2, hnext3, digestsMatch_iff hsha hoffer, digestsMatch_iff hsha hanswer,
        digestsMatch_iff hsha hticket]
      exact ⟨h114, h150, h186, rfl⟩

theorem signPeerProof_isSome_iff (hsha : ∀ message, (C.sha256 message).length = 32) {r : Proving}
    (h : r.Ready id epoch) {current : Bool} {requestId : String}
    (hopen : r.open current requestId = true) :
    (signPeerProof C r current requestId data).isSome = true ↔ ∃ nonce : Bytes,
      nonce.length = 32 ∧
      data = proofTranscript id epoch [nonce, r.hostNonce, C.sha256 (utf8 r.offerJws),
        C.sha256 (utf8 r.answerJws), C.sha256 (utf8 r.ticketJws)] := by
  rw [← transcriptMatches_iff hsha h]
  unfold signPeerProof
  rw [hopen, Bool.true_and]
  split <;> simp_all

theorem lengthPrefixed_append_inj {a b rest : Bytes} (hlength : a.length = b.length)
    (h : lengthPrefixed a ++ rest = lengthPrefixed b ++ rest) : a = b := by
  have hframe := List.append_cancel_right h
  rw [lengthPrefixed, lengthPrefixed, hlength] at hframe
  exact List.append_cancel_left hframe

theorem u32Bytes_append_inj {a b : UInt32} {rest : Bytes}
    (h : u32Bytes a ++ rest = u32Bytes b ++ rest) : a = b := by
  have hread := readU32_u32Bytes a rest
  rw [h, readU32_u32Bytes] at hread
  exact hread.symm

/-- The arguments of a transcript, of the sizes that its types fix. -/
structure Arguments where
  id : Bytes
  epoch : UInt32
  controllerNonce : Bytes
  hostNonce : Bytes
  offer : Bytes
  answer : Bytes
  ticket : Bytes
  id_size : id.length = 16
  controllerNonce_size : controllerNonce.length = 32
  hostNonce_size : hostNonce.length = 32
  offer_size : offer.length = 32
  answer_size : answer.length = 32
  ticket_size : ticket.length = 32

def Arguments.transcript (a : Arguments) : Bytes :=
  proofTranscript a.id a.epoch [a.controllerNonce, a.hostNonce, a.offer, a.answer, a.ticket]

theorem transcript_injective : Function.Injective Arguments.transcript := by
  intro a b h
  obtain ⟨_, _, a18, a38, a42, a78, a114, a150, a186⟩ :=
    (eq_transcript_iff a.id_size a.controllerNonce_size a.hostNonce_size a.offer_size a.answer_size
      a.ticket_size).mp rfl
  obtain ⟨_, _, b18, b38, b42, b78, b114, b150, b186⟩ :=
    (eq_transcript_iff b.id_size b.controllerNonce_size b.hostNonce_size b.offer_size b.answer_size
      b.ticket_size).mp h
  have hid : a.id = b.id :=
    lengthPrefixed_append_inj (a.id_size.trans b.id_size.symm) (a18.symm.trans b18)
  have hepoch : a.epoch = b.epoch := u32Bytes_append_inj (a38.symm.trans b38)
  have hcontroller : a.controllerNonce = b.controllerNonce :=
    lengthPrefixed_append_inj (a.controllerNonce_size.trans b.controllerNonce_size.symm)
      (a42.symm.trans b42)
  have hhost : a.hostNonce = b.hostNonce :=
    lengthPrefixed_append_inj (a.hostNonce_size.trans b.hostNonce_size.symm) (a78.symm.trans b78)
  have hoffer : a.offer = b.offer :=
    lengthPrefixed_append_inj (a.offer_size.trans b.offer_size.symm) (a114.symm.trans b114)
  have hanswer : a.answer = b.answer :=
    lengthPrefixed_append_inj (a.answer_size.trans b.answer_size.symm) (a150.symm.trans b150)
  have hticket : a.ticket = b.ticket :=
    lengthPrefixed_append_inj (a.ticket_size.trans b.ticket_size.symm) (a186.symm.trans b186)
  cases a
  cases b
  simp only at hid hepoch hcontroller hhost hoffer hanswer hticket
  subst hid hepoch hcontroller hhost hoffer hanswer hticket
  rfl

end HomeTunnel.Host.Peers

namespace HomeTunnel.Remote.Peers

open Auth
open Host.Peers (Proving Arguments signPeerProof)

/-- Two ends of one session that have the same offer, answer and ticket and are about to
exchange their first messages. -/
structure AboutToGreet (host : PeerIdentity) (controller : ControllerIdentity) (id : Bytes) :
    Prop where
  hostAuthorized : host.authorized = true
  controllerAuthorized : controller.authorized = true
  sessionId : controller.binding.sessionId = host.binding.sessionId
  epoch : controller.binding.epoch = host.binding.epoch
  uuid : Files.uuidBytes host.binding.sessionId = some id
  ticket : controller.ticketJws = host.ticketJws
  permissions : controller.permissions = host.permissions
  offer : controller.offerJws = host.offerJws
  offerSet : host.offerJws ≠ ""
  answer : controller.answerJws = host.answerJws
  answerSet : host.answerJws ≠ ""
  hostFresh : host.transcript = []
  controllerFresh : controller.transcript = []
  hostNonce : host.hostNonce.length = 32
  controllerNonce : controller.controllerNonce.length = 32

variable {P : Primitives}

/-- The nonce of a greeting of the same ticket and permissions is read back. -/
theorem helloNonce_helloOf {nonce : Bytes} (h : nonce.length = 32) (ticketJws : String)
    (permissions : Json) :
    helloNonce P (helloOf P nonce ticketJws permissions) ticketJws permissions = some nonce := by
  have hdecode : decode (encode nonce) = some nonce := by
    apply decode_encode
    · rintro rfl
      cases h
    · rw [Base64.length_encode, h]
      decide
  unfold helloNonce helloOf
  simp [Json.get, List.lookup, number, sameString, hdecode, h]

theorem helloOf_fields (nonce : Bytes) (ticketJws : String) (permissions : Json) :
    fields (helloOf P nonce ticketJws permissions)
        ["nonce", "ticket_hash", "protocol", "capability_hash"] = true ∧
      fields ((helloOf P nonce ticketJws permissions).get "protocol") ["major", "minor"] = true := by
  unfold helloOf
  simp [fields, Json.get, Json.isMember, List.lookup]

/-- What both ends build when each processes the other's greeting. -/
def sessionTranscript (P : Primitives) (host : PeerIdentity) (controller : ControllerIdentity)
    (id : Bytes) : Bytes :=
  proofTranscript id host.binding.epoch [controller.controllerNonce, host.hostNonce,
    digest P host.offerJws, digest P host.answerJws, digest P host.ticketJws]

theorem host_hello {host : PeerIdentity} {controller : ControllerIdentity} {id : Bytes}
    (h : AboutToGreet host controller id) :
    ∃ host', host.hello P (controller.helloBody P) = .ok host' ∧
      host'.transcript = sessionTranscript P host controller id := by
  unfold PeerIdentity.hello ControllerIdentity.helloBody
  rw [if_pos h.controllerAuthorized, h.ticket, h.permissions,
    helloNonce_helloOf h.controllerNonce, h.uuid]
  simp only [h.hostAuthorized, h.hostFresh, h.offerSet, h.answerSet]
  exact ⟨_, rfl, rfl⟩

theorem controller_hello {host : PeerIdentity} {controller : ControllerIdentity} {id : Bytes}
    (h : AboutToGreet host controller id) :
    ∃ controller', controller.hello P (host.helloBody P) = .ok controller' ∧
      controller'.transcript = sessionTranscript P host controller id := by
  obtain ⟨hfields, hprotocol⟩ := helloOf_fields (P := P) host.hostNonce host.ticketJws host.permissions
  unfold ControllerIdentity.hello PeerIdentity.helloBody
  rw [h.ticket, h.permissions, helloNonce_helloOf h.hostNonce, h.sessionId, h.uuid]
  simp only [h.controllerAuthorized, h.controllerFresh, h.offer, h.offerSet, h.answer, h.answerSet,
    hfields, hprotocol, h.epoch]
  exact ⟨_, rfl, rfl⟩

/-- The host service signs exactly the transcripts of its session, a transcript fixes all its
parts, and both native ends build the same one, which the service signs. -/
theorem peer_transcript_signed_exactly (P : Primitives)
    (hsha : ∀ message, (P.sha256 message).length = 32) :
    (∀ (r : Proving) (id data : Bytes) (epoch : UInt32) (current : Bool) (requestId : String),
      r.Ready id epoch → r.open current requestId = true →
      ((signPeerProof P.toCurve r current requestId data).isSome = true ↔
        ∃ nonce : Bytes, nonce.length = 32 ∧ data = proofTranscript id epoch [nonce, r.hostNonce,
          digest P r.offerJws, digest P r.answerJws, digest P r.ticketJws])) ∧
    Function.Injective Arguments.transcript ∧
    ∀ (host : PeerIdentity) (controller : ControllerIdentity) (id : Bytes),
      AboutToGreet host controller id →
      ∃ host' controller', host.hello P (controller.helloBody P) = .ok host' ∧
        controller.hello P (host.helloBody P) = .ok controller' ∧
        host'.transcript = controller'.transcript ∧
        ∀ (r : Proving) (current : Bool) (requestId : String),
          r.Ready id host.binding.epoch → r.open current requestId = true →
          r.hostNonce = host.hostNonce → r.offerJws = host.offerJws →
          r.answerJws = host.answerJws → r.ticketJws = host.ticketJws →
          (signPeerProof P.toCurve r current requestId host'.transcript).isSome = true := by
  refine ⟨fun r id data epoch current requestId hready hopen =>
    Host.Peers.signPeerProof_isSome_iff hsha hready hopen, Host.Peers.transcript_injective, ?_⟩
  intro host controller id hgreet
  obtain ⟨host', hhost, hhostTranscript⟩ := host_hello (P := P) hgreet
  obtain ⟨controller', hcontroller, hcontrollerTranscript⟩ := controller_hello (P := P) hgreet
  refine ⟨host', controller', hhost, hcontroller,
    hhostTranscript.trans hcontrollerTranscript.symm, ?_⟩
  intro r current requestId hready hopen hnonce hoffer hanswer hticket
  rw [Host.Peers.signPeerProof_isSome_iff hsha hready hopen]
  refine ⟨controller.controllerNonce, hgreet.controllerNonce, ?_⟩
  rw [hhostTranscript, hnonce, hoffer, hanswer, hticket]
  rfl

def greetingId : Bytes := List.replicate 15 0 ++ [1]

def greetingBinding : Binding := ⟨"00000000-0000-0000-0000-000000000001", 1, "host", "controller", "ticket"⟩

def greetingHost : PeerIdentity where
  binding := greetingBinding
  authorized := true
  hostKey := ⟨[], ""⟩
  controllerKey := ⟨[], ""⟩
  ticketJws := "ticket"
  permissions := .arr [.str "view"]
  hostNonce := List.replicate 32 1
  offerJws := "offer"
  answerJws := "answer"

def greetingController : ControllerIdentity where
  binding := greetingBinding
  authorized := true
  hostKey := ⟨[], ""⟩
  controllerKey := ⟨[], ""⟩
  ticketJws := "ticket"
  permissions := .arr [.str "view"]
  controllerNonce := List.replicate 32 2
  offerJws := "offer"
  answerJws := "answer"

def greetingService : Proving where
  sessionId := greetingBinding.sessionId
  connectionEpoch := 1
  hostNonce := List.replicate 32 1
  offerJws := "offer"
  answerJws := "answer"
  ticketJws := "ticket"

theorem greeting_aboutToGreet : AboutToGreet greetingHost greetingController greetingId := by
  constructor <;> decide

theorem greeting_ready : greetingService.Ready greetingId 1 := by
  constructor <;> decide

theorem greeting_transcript_signed :
    ∃ host' controller',
      greetingHost.hello Reader.primitives (greetingController.helloBody Reader.primitives) =
        .ok host' ∧
      greetingController.hello Reader.primitives (greetingHost.helloBody Reader.primitives) =
        .ok controller' ∧
      host'.transcript = controller'.transcript ∧
      (signPeerProof Reader.primitives.toCurve greetingService true "1" host'.transcript).isSome =
        true := by
  obtain ⟨_, _, hnative⟩ := peer_transcript_signed_exactly Reader.primitives fun _ => rfl
  obtain ⟨host', controller', hhost, hcontroller, hsame, hsigned⟩ :=
    hnative greetingHost greetingController greetingId greeting_aboutToGreet
  exact ⟨host', controller', hhost, hcontroller, hsame,
    hsigned greetingService true "1" greeting_ready (by decide) rfl rfl rfl rfl⟩

end HomeTunnel.Remote.Peers
