import HomeTunnel.Native.GateAuthority
import HomeTunnel.Native.GateLedger
import HomeTunnel.Native.Reader
import HomeTunnel.Native.SessionClaims

/-! # The verifier and the gate on the same lease

`sessionClaims` and `leaseDeadline` check one lease with separately written
inequalities. They agree on everything but the time of issue: the verifier
tolerates a lease issued up to five seconds ahead of the wall clock, the gate
none.
-/

namespace HomeTunnel.Remote

namespace Auth

/-- A lease that the verifier accepts at `now`, with the claim it was issued at. -/
structure LeaseChecked (expected : ExpectedSession) (now : Int) (iat : Nat)
    (lease : VerifiedLease) : Prop where
  epoch : lease.connectionEpoch = expected.connectionEpoch
  sequence : lease.sequence ≠ 0
  known : lease.permissions &&& ~~~Protocol.allPermissions = 0
  view : lease.permissions &&& Protocol.permissionView ≠ 0
  issued : lease.issuedAtUnixMs = (iat : Int) * 1000
  live : now < lease.expiresAtUnixMs
  ordered : lease.issuedAtUnixMs < lease.expiresAtUnixMs
  span : lease.expiresAtUnixMs - lease.issuedAtUnixMs ≤ 900000

variable {now : Int} {P : Primitives}

theorem sessionClaims_spec {value : Jws} {expected : ExpectedSession} {signer : SigningKey}
    {lease : VerifiedLease} (h : sessionClaims value expected signer now true = .ok lease) :
    ∃ iat, integer (value.claims.get "iat") = some iat ∧ LeaseChecked expected now iat lease := by
  obtain ⟨iat, exp, hchecked⟩ := sessionClaims_checked h
  obtain ⟨hknown, hview⟩ := permissions_spec hchecked.permissions
  have hforce := hchecked.inForce
  have hordered := hforce.ordered
  have hspan : exp - iat ≤ 900 := hforce.span
  have hlive := hforce.live
  have hissued := hchecked.issuedAt
  have hexpires := hchecked.expiresAt
  exact ⟨iat, hforce.issued, hchecked.epoch, (hchecked.sequence rfl).2, hknown, hview, hissued,
    by omega, by omega, by omega⟩

/-- The claims of a compact JWS, read without its signature. -/
def claimsOf (P : Primitives) (compact : String) : Option Json :=
  match compactParts compact with
  | none => none
  | some (_, payloadText, _) => (decode payloadText).bind (strictJson P · 65536)

/-- The `iat` claim of a compact JWS. -/
def issuedAtClaim (P : Primitives) (compact : String) : Option Nat :=
  (claimsOf P compact).bind fun claims => integer (claims.get "iat")

theorem verifyJws_claims {compact type : String} {key : PublicKey} {jws : Jws}
    (h : verifyJws P compact key type = .ok jws) : claimsOf P compact = some jws.claims := by
  obtain ⟨_, _, _, _, hparts, -, -, -, hclaims⟩ := (verifyJws_signed h).verified
  simp [claimsOf, hparts, hclaims]

theorem verifyLease_spec {compact : String} {keys : Json} {expected : ExpectedSession}
    {lease : VerifiedLease} (h : verifyLease P compact keys expected now = .ok lease) :
    ∃ iat, issuedAtClaim P compact = some iat ∧ LeaseChecked expected now iat lease := by
  unfold verifyLease at h
  dsimp only at h
  split at h
  · simp at h
  split at h
  · simp at h
  split at h
  · split at h
    · simp at h
    split at h
    · simp at h
    rename_i jws hjws
    obtain ⟨iat, hiat, hchecked⟩ := sessionClaims_spec h
    exact ⟨iat, by simp [issuedAtClaim, verifyJws_claims hjws, hiat], hchecked⟩
  · simp at h

theorem verifyAuthorization_spec {ticket lease grant : String} {signer : SigningKey}
    {hostKey : PublicKey} {expected : ExpectedSession} {verified : VerifiedLease}
    (h : verifyAuthorization P ticket lease grant signer hostKey expected now = .ok verified) :
    expected.connectionEpoch ≠ 0 ∧
    ∃ iat, issuedAtClaim P lease = some iat ∧ LeaseChecked expected now iat verified := by
  obtain ⟨hepoch, -, -, _, _, _, _, _, -, hlease, -, -, hclaims, -⟩ := verifyAuthorization_inv h
  obtain ⟨iat, hiat, hchecked⟩ := sessionClaims_spec hclaims
  exact ⟨hepoch, iat, by simp [issuedAtClaim, verifyJws_claims hlease, hiat], hchecked⟩

end Auth

open Auth Session

variable {wall : Int} {iat : Nat} {now : UInt64}

/-- The gate's own check of a lease that the verifier accepted turns on the time
of issue alone. -/
theorem leaseDeadline_isSome_iff {expected : ExpectedSession} {lease : VerifiedLease}
    (h : LeaseChecked expected wall iat lease) (hepoch : expected.connectionEpoch ≠ 0)
    (hroom : (now.toNat : Int) + (lease.expiresAtUnixMs - wall) < 2 ^ 64) :
    (SessionGate.leaseDeadline lease wall now).isSome ↔ (iat : Int) * 1000 ≤ wall := by
  have hpermissions : lease.permissions ≠ 0 := by
    intro hzero
    have hview := h.view
    simp [hzero] at hview
  have hlive := h.live
  have hordered := h.ordered
  have hspan := h.span
  have hissued := h.issued
  unfold SessionGate.leaseDeadline
  split
  · rename_i hrefused
    simp only [Option.isSome_none, Bool.false_eq_true, false_iff]
    rcases hrefused with he | hs | hp | hk | hv | hn | hi | hx | ho | hd
    · exact absurd (h.epoch ▸ he) hepoch
    · exact absurd hs h.sequence
    · exact absurd hp hpermissions
    · exact absurd h.known hk
    · exact absurd hv h.view
    all_goals omega
  · rename_i hchecks
    push Not at hchecks
    obtain ⟨-, -, -, -, -, -, hwall, -⟩ := hchecks
    have hfit : (lease.expiresAtUnixMs - wall).toNat < UInt64.size := by
      unfold UInt64.size
      omega
    have hmax : (0xffffffffffffffff - now).toNat = 0xffffffffffffffff - now.toNat := by
      rw [UInt64.toNat_sub_of_le]
      · rfl
      · exact UInt64.le_iff_toNat_le.mpr (by have := now.toNat_lt; simp; omega)
    have hle : ¬ UInt64.ofNat (lease.expiresAtUnixMs - wall).toNat > 0xffffffffffffffff - now := by
      rw [gt_iff_lt, UInt64.lt_iff_toNat_lt, UInt64.toNat_ofNat_of_lt' hfit, hmax]
      omega
    dsimp only
    rw [if_neg hle]
    simp only [Option.isSome_some, true_iff]
    omega


theorem authorize_ok_iff {expected : ExpectedSession} {lease : VerifiedLease}
    (h : LeaseChecked expected wall iat lease) (hepoch : expected.connectionEpoch ≠ 0)
    (hroom : (now.toNat : Int) + (lease.expiresAtUnixMs - wall) < 2 ^ 64) :
    (authorize lease wall now {}).1 = .ok ↔ (iat : Int) * 1000 ≤ wall := by
  rw [← leaseDeadline_isSome_iff h hepoch hroom]
  unfold authorize
  rw [if_neg (by simp)]
  cases SessionGate.leaseDeadline lease wall now <;> simp

/-- A gate that is open and neither expired nor set back. -/
structure Unexpired (s : Session) (now : UInt64) : Prop where
  isOpen : s.gate.closed = false
  monotone : s.gate.lastNow ≤ now
  beforeDeadline : now < s.gate.deadline

theorem Unexpired.tick {s : Session} (h : Unexpired s now) (sink : InputSink) :
    ∃ s', tick sink now s = (.ok, s') ∧ s'.gate.epoch = s.gate.epoch ∧
      s'.gate.leaseSequence = s.gate.leaseSequence ∧
      s'.gate.permissions = s.gate.permissions := by
  have hlate : ¬ (now < s.gate.lastNow ∨ now ≥ s.gate.deadline) := by
    rintro (hlt | hge)
    · exact UInt64.not_lt.mpr h.monotone hlt
    · exact UInt64.not_le.mpr h.beforeDeadline hge
  unfold Session.tick
  rw [if_neg (by simp [h.isOpen]), if_neg hlate]
  dsimp only
  split
  · exact ⟨_, rfl, by simp, by simp, by simp⟩
  split
  · exact ⟨_, rfl, by simp, by simp, by simp⟩
  · exact ⟨_, rfl, rfl, rfl, rfl⟩

theorem renew_ok_iff {expected : ExpectedSession} {lease : VerifiedLease} (sink : InputSink)
    {s : Session} (h : LeaseChecked expected wall iat lease) (hlive : Unexpired s now)
    (hset : s.gate.epoch ≠ 0) (hepoch : lease.connectionEpoch = s.gate.epoch)
    (hsequence : s.gate.leaseSequence < lease.sequence)
    (hpermissions : lease.permissions = s.gate.permissions)
    (hroom : (now.toNat : Int) + (lease.expiresAtUnixMs - wall) < 2 ^ 64) :
    stepResult sink s (.renew lease wall now) = some .ok ↔ (iat : Int) * 1000 ≤ wall := by
  have hne : expected.connectionEpoch ≠ 0 := by
    rw [← h.epoch, hepoch]
    exact hset
  rw [← leaseDeadline_isSome_iff h hne hroom]
  have hmarked : Unexpired (s.mark (.called (.renew lease wall now))) now :=
    ⟨hlive.isOpen, hlive.monotone, hlive.beforeDeadline⟩
  obtain ⟨s', htick, he, hs, hp⟩ := hmarked.tick sink
  have hchecks : ¬ (lease.connectionEpoch ≠ s'.gate.epoch ∨
      lease.sequence ≤ s'.gate.leaseSequence ∨
      lease.permissions &&& ~~~s'.gate.permissions ≠ 0) := by
    rw [he, hs, hp]
    rintro (hbad | hbad | hbad)
    · exact hbad hepoch
    · exact UInt64.not_le.mpr hsequence hbad
    · exact hbad (by simp [hpermissions])
  simp only [stepResult, perform, afterTick, htick, Option.some.injEq]
  unfold renewBody
  rw [if_neg hchecks]
  cases SessionGate.leaseDeadline lease wall now <;> simp

/-- A lease that the verifier accepts is taken by the gate, at the same instants,
exactly when its `iat` claim does not lie ahead of the wall clock: both when a
fresh gate is authorized with it and when a later one renews any session. -/
theorem gate_accepts_verified_lease_iff (P : Primitives) :
    (∀ ticket lease grant signer hostKey expected wall verified,
      verifyAuthorization P ticket lease grant signer hostKey expected wall = .ok verified →
      ∀ now : UInt64, (now.toNat : Int) + (verified.expiresAtUnixMs - wall) < 2 ^ 64 →
        ((authorize verified wall now {}).1 = .ok ↔
          ∃ iat, issuedAtClaim P lease = some iat ∧ (iat : Int) * 1000 ≤ wall)) ∧
    ∀ compact keys expected wall verified,
      verifyLease P compact keys expected wall = .ok verified →
      ∀ sink ops (now : UInt64), Unexpired (run sink ops) now →
        verified.connectionEpoch = (run sink ops).gate.epoch →
        (run sink ops).gate.leaseSequence < verified.sequence →
        verified.permissions = (run sink ops).gate.permissions →
        (now.toNat : Int) + (verified.expiresAtUnixMs - wall) < 2 ^ 64 →
        (stepResult sink (run sink ops) (.renew verified wall now) = some .ok ↔
          ∃ iat, issuedAtClaim P compact = some iat ∧ (iat : Int) * 1000 ≤ wall) := by
  constructor
  · intro ticket lease grant signer hostKey expected wall verified hverified now hroom
    obtain ⟨hepoch, iat, hiat, hchecked⟩ := verifyAuthorization_spec hverified
    rw [authorize_ok_iff hchecked hepoch hroom]
    simp [hiat]
  · intro compact keys expected wall verified hverified sink ops now hlive hepoch hsequence
      hpermissions hroom
    obtain ⟨iat, hiat, hchecked⟩ := verifyLease_spec hverified
    have hrun : RunInv (run sink ops) := foldl_step_inv sink ops runInv_initial
    have hset : (run sink ops).gate.epoch ≠ 0 := by
      intro hzero
      have hclosed := (hrun.inv.unopened hzero).1
      simp [hlive.isOpen] at hclosed
    rw [renew_ok_iff sink hchecked hlive hset hepoch hsequence hpermissions hroom]
    simp [hiat]

namespace Ahead

open JsonText Auth.Reader

def sessionMembers (audience : String) : List (List Piece × Doc) :=
  [(name "iss", text "i"), (name "server_instance_id", text "v"), (name "session_id", text "s"),
    (name "session_request_id", text "r"), (name "owner_user_id", text "o"),
    (name "host_endpoint_id", text "h"), (name "controller_endpoint_id", text "c"),
    (name "host_jkt", text "k"), (name "controller_jkt", text "j"), (name "grant_id", text "g"),
    (name "restore_epoch", number 1), (name "connection_epoch", number 1),
    (name "grant_version", number 1), (name "user_token_version", number 1),
    (name "jti", text "t"), (name "permissions", .arr [text "view"]), (name "iat", number 1003),
    (name "nbf", number 1003), (name "exp", number 1063), (name "aud", text audience)]

def ticket : Doc := .obj (sessionMembers "ht-rd-start")

def lease : Doc := .obj (sessionMembers "ht-rd-use" ++ [(name "lease_seq", number 1)])

def grant : Doc :=
  .obj [(name "id", text "g"), (name "server_instance_id", text "v"), (name "owner_user_id", text "o"),
    (name "host_endpoint_id", text "h"), (name "controller_endpoint_id", text "c"),
    (name "host_jkt", text "k"), (name "controller_jkt", text "j"), (name "scope", .arr [text "view"]),
    (name "mode", text "persistent"), (name "one_session_request_id", .null),
    (name "grant_version", number 1), (name "expires_at", .null)]

def key : PublicKey := ⟨List.replicate 64 0, "k"⟩

def signer : SigningKey := ⟨key, 0, 10000000⟩

def expected : ExpectedSession :=
  ⟨"i", "v", "s", "r", "o", "h", "c", "k", "j", "g", 1, 1, 1, 1, Protocol.allPermissions⟩

def verified : VerifiedLease := ⟨1, 1, 1, 1003000, 1063000⟩

theorem verifies :
    verifyAuthorization primitives (compact "ht-rd-ticket+jwt" "k" ticket)
      (compact "ht-rd-lease+jwt" "k" lease) (compact "ht-rd-grant+jwt" "k" grant) signer key
      expected 1000000 = .ok verified := by
  have hticket : verifyJws primitives (compact "ht-rd-ticket+jwt" "k" ticket) key
      "ht-rd-ticket+jwt" = .ok ⟨_, ticket.value.sorted⟩ :=
    compact_verifies rfl (by decide +kernel) (by decide +kernel)
  have hlease : verifyJws primitives (compact "ht-rd-lease+jwt" "k" lease) key
      "ht-rd-lease+jwt" = .ok ⟨_, lease.value.sorted⟩ :=
    compact_verifies rfl (by decide +kernel) (by decide +kernel)
  have hgrant : verifyJws primitives (compact "ht-rd-grant+jwt" "k" grant) key
      "ht-rd-grant+jwt" = .ok ⟨_, grant.value.sorted⟩ :=
    compact_verifies rfl (by decide +kernel) (by decide +kernel)
  unfold verifyAuthorization
  rw [if_neg (by decide +kernel), show signer.key = key from rfl, hticket, hlease, hgrant]
  decide +kernel

end Ahead

open Auth.Reader in
/-- The verifier accepts a lease issued three seconds after its `now`; a fresh gate
refuses it at the same instant. -/
theorem gate_refuses_verified_lease :
    verifyAuthorization primitives (compact "ht-rd-ticket+jwt" "k" Ahead.ticket)
        (compact "ht-rd-lease+jwt" "k" Ahead.lease) (compact "ht-rd-grant+jwt" "k" Ahead.grant)
        Ahead.signer Ahead.key Ahead.expected 1000000 = .ok Ahead.verified ∧
      (authorize Ahead.verified 1000000 0 {}).1 ≠ .ok :=
  ⟨Ahead.verifies, by decide⟩

end HomeTunnel.Remote
