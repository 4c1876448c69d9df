import HomeTunnel.Host.Store

/-! # Checks against the store

What a session or a pairing has to show before the host acts on it: `grantFor`,
`checkAuthority` and the checks of `loadPairing` and `ApprovePairing`. All of them read a
snapshot of the store.
-/

namespace HomeTunnel.Host.Grants

open JsonText GoJson
open Rfc3339 (Time)
open Engine (decodeRaw rawBytes)

/-- Something is wanted, all of it is there, nothing twice, and viewing is part of it. -/
def subset (have' want : List String) : Bool :=
  want ≠ [] && want.all (fun x => have'.contains x) && decide want.Nodup && want.contains "view"

def sameScopes (a b : List String) : Bool := a.length == b.length && subset a b

inductive SessionState
  | pendingApproval | reconnecting
  | other (name : String)
deriving DecidableEq, Repr

/-- A session as the server describes it. -/
structure Session extends SessionRef where
  sessionRequestId : String
  id : String
  state : SessionState
  stateVersion : Int
  hostEndpointId : String
  controllerEndpointId : String
  permissions : List String
  ticketJws : String
  leaseJws : String
  grantJws : String
  hostPublicJwk : Bytes
  controllerPublicJwk : Bytes
  leaseSeq : Int
  approvalExpiresAt : Time
deriving DecidableEq

/-- The claims of a ticket or a lease. -/
structure Authority where
  iss : String := ""
  aud : String := ""
  serverInstance : String := ""
  restoreEpoch : Int := 0
  sessionId : String := ""
  requestId : String := ""
  epoch : Int := 0
  owner : String := ""
  host : String := ""
  controller : String := ""
  hostJkt : String := ""
  controllerJkt : String := ""
  permissions : List String := []
  grantId : String := ""
  grantVersion : Int := 0
  userVersion : Int := 0
  iat : Int := 0
  nbf : Int := 0
  exp : Int := 0
  leaseSeq : Int := 0
  jti : String := ""
deriving DecidableEq, Repr

def Authority.fields : List (RecordField Authority) :=
  [field "iss" decodeString (·.iss) (fun a v => { a with iss := v }),
    field "aud" decodeString (·.aud) (fun a v => { a with aud := v }),
    field "server_instance_id" decodeString (·.serverInstance) (fun a v => { a with serverInstance := v }),
    field "restore_epoch" decodeInt64 (·.restoreEpoch) (fun a v => { a with restoreEpoch := v }),
    field "session_id" decodeString (·.sessionId) (fun a v => { a with sessionId := v }),
    field "session_request_id" decodeString (·.requestId) (fun a v => { a with requestId := v }),
    field "connection_epoch" decodeInt64 (·.epoch) (fun a v => { a with epoch := v }),
    field "owner_user_id" decodeString (·.owner) (fun a v => { a with owner := v }),
    field "host_endpoint_id" decodeString (·.host) (fun a v => { a with host := v }),
    field "controller_endpoint_id" decodeString (·.controller) (fun a v => { a with controller := v }),
    field "host_jkt" decodeString (·.hostJkt) (fun a v => { a with hostJkt := v }),
    field "controller_jkt" decodeString (·.controllerJkt) (fun a v => { a with controllerJkt := v }),
    field "permissions" (decodeSlice decodeString "") (·.permissions)
      (fun a v => { a with permissions := v }),
    field "grant_id" decodeString (·.grantId) (fun a v => { a with grantId := v }),
    field "grant_version" decodeInt64 (·.grantVersion) (fun a v => { a with grantVersion := v }),
    field "user_token_version" decodeInt64 (·.userVersion) (fun a v => { a with userVersion := v }),
    field "iat" decodeInt64 (·.iat) (fun a v => { a with iat := v }),
    field "nbf" decodeInt64 (·.nbf) (fun a v => { a with nbf := v }),
    field "exp" decodeInt64 (·.exp) (fun a v => { a with exp := v }),
    field "lease_seq" decodeInt64 (·.leaseSeq) (fun a v => { a with leaseSeq := v }),
    field "jti" decodeString (·.jti) (fun a v => { a with jti := v })]

def decodeAuthority : Decoder Authority := decodeStruct Authority.fields true

/-- The parts of a running session that `checkAuthority` reads. -/
structure Checked where
  session : Session
  grant : LocalGrant
  started : Bool

structure Times where
  iat : Int := 0
  exp : Int := 0

def decodeTimes : Decoder Times :=
  decodeStruct [field "iat" decodeInt64 (·.iat) (fun t v => { t with iat := v }),
    field "exp" decodeInt64 (·.exp) (fun t v => { t with exp := v })] false

def secondNanos : Int := 1000000000

/-- `verifyServerJWS`: by the first key of the keyset that the header names, and within its
lifetime. -/
def verifyServerJws (C : Curve) (compact typ : String) (keys : Keyset) : Option Bytes :=
  match compact.toList.splitOn '.' with
  | [headerText, _, _] => do
      let headerBytes ← Base64.decode headerText
      let header ← strictDecode headerBytes decodeHeaderHint {}
      let key ← keys.keys.find? fun key => key.kid = header.kid
      let raw ← verifyJws C compact key.publicJwk typ
      let times ← strictDecode raw decodeTimes {}
      if times.iat * secondNanos < key.notBefore.instant ∨ times.exp * secondNanos > key.notAfter.instant
        then none
      else some raw
  | _ => none

/-- What the service is: its own key, where its server is, and the copy through JSON. -/
structure Identity (B : Type) where
  curve : Curve
  codec : Codec B
  key : PublicJwk
  origin : String

section Checks

variable {B : Type} (I : Identity B)

structure GrantClaim where
  id : String := ""
  version : Int := 0

def decodeGrantClaim : Decoder GrantClaim :=
  decodeStruct [field "id" decodeString (·.id) (fun c v => { c with id := v }),
    field "grant_version" decodeInt64 (·.version) (fun c v => { c with version := v })] false

/-- What `grantFor` asks of the grant that a session names. -/
def LocalGrant.serves (g : LocalGrant) (d : DiskState) (session : Session) (claim : GrantClaim)
    (now : Int) : Bool :=
  !(g.revoked || g.version != claim.version || g.grantJws != session.grantJws ||
    !(g.expiresAt.instant > now) || g.controllerEndpointId != session.controllerEndpointId ||
    !subset g.permissions session.permissions || (g.mode == .persistent && !d.unattendedEnabled) ||
    (g.mode == .oneSession && (g.oneSessionRequestId != session.sessionRequestId ||
      (g.sessionId != "" && g.sessionId != session.sessionId))))

def grantFor (store : Store B) (session : Session) (now : Int) : Option LocalGrant := do
  let d := store.snapshot I.codec
  let raw ← verifyJws I.curve session.grantJws I.key "ht-rd-grant+jwt"
  let claim ← strictDecode raw decodeGrantClaim {}
  let g ← d.grants[claim.id]?
  if g.serves d session claim now then some g else none

/-- What is asked of a ticket or a lease by itself. -/
def Authority.bound (a : Authority) (d : DiskState) (keys : Keyset) (r : Checked)
    (host controller : PublicJwk) (aud : String) (late : Bool) (now : Int) : Bool :=
  a.iss == I.origin && a.aud == aud && a.serverInstance == keys.serverInstanceId &&
  a.restoreEpoch == keys.restoreEpoch && a.sessionId == r.session.sessionId &&
  a.requestId == r.session.sessionRequestId && a.epoch == r.session.connectionEpoch &&
  a.owner == d.ownerUserId && a.host == d.endpointId && a.controller == r.grant.controllerEndpointId &&
  a.hostJkt == host.thumbprint I.curve && a.controllerJkt == controller.thumbprint I.curve &&
  a.grantId == r.grant.id && a.grantVersion == r.grant.version &&
  sameScopes a.permissions r.session.permissions && subset r.grant.permissions a.permissions &&
  !(a.iat > now + 60) && !(a.nbf > now + 60) && (!(a.exp ≤ now) || late) && !(a.exp - a.iat > 900) &&
  !(a.exp ≤ a.iat) && a.jti != "" &&
  !(r.grant.mode == .oneSession && a.requestId != r.grant.oneSessionRequestId)

/-- One of the two signatures; only a ticket of a started session may have run out. -/
def readAuthority (d : DiskState) (keys : Keyset) (r : Checked) (host controller : PublicJwk)
    (compact typ aud : String) (now : Int) : Option Authority := do
  let raw ← verifyServerJws I.curve compact typ keys
  let a ← strictDecode raw decodeAuthority {}
  if a.bound I d keys r host controller aud (typ == "ht-rd-ticket+jwt" && r.started) now then some a
  else none

/-- The grant of a running session is still in force. -/
def LocalGrant.inForce (g : LocalGrant) (d : DiskState) (grant : LocalGrant) (now : Int) : Bool :=
  !(g.revoked || g.version != grant.version || g.grantJws != grant.grantJws ||
    !(g.expiresAt.instant > now) || (g.mode == .persistent && !d.unattendedEnabled))

/-- The ticket and the time at which the lease ends; `now` is in nanoseconds. -/
def checkAuthority (store : Store B) (r : Checked) (now : Int) : Option (Authority × Int) := do
  let d := store.snapshot I.codec
  let g ← d.grants[r.grant.id]?
  if ¬ d.enabled ∨ ¬ g.inForce d r.grant now then none
  else
    let keys ← parseKeyset I.curve (rawBytes d.keyset)
    let controller ← strictDecode r.session.controllerPublicJwk decodePublicJwk {}
    if controller.thumbprint I.curve ≠ r.grant.controllerJkt then none
    else
      let host ← strictDecode r.session.hostPublicJwk decodePublicJwk {}
      if host.thumbprint I.curve ≠ I.key.thumbprint I.curve then none
      else
        let seconds := now / secondNanos
        let ticket ← readAuthority I d keys r host controller r.session.ticketJws "ht-rd-ticket+jwt"
          "ht-rd-start" seconds
        let lease ← readAuthority I d keys r host controller r.session.leaseJws "ht-rd-lease+jwt"
          "ht-rd-use" seconds
        if ticket.exp - ticket.iat > 60 ∨ lease.leaseSeq ≠ r.session.leaseSeq ∨ lease.leaseSeq < 1 ∨
            ticket.userVersion < 0 ∨ ticket.userVersion ≠ lease.userVersion then none
        else some (ticket, lease.exp * secondNanos)

variable {I}

theorem grantFor_eq_some {store : Store B} {session : Session} {now : Int} {g : LocalGrant}
    (h : grantFor I store session now = some g) :
    ∃ id : String, store.data.grants[id]? = some g ∧ g.revoked = false ∧
      (g.mode = .oneSession → g.sessionId = "" ∨ g.sessionId = session.sessionId) := by
  simp only [grantFor, Option.bind_eq_bind, Option.bind_eq_some_iff] at h
  obtain ⟨raw, _, claim, _, g', hg, h⟩ := h
  split at h
  · rename_i hserves
    cases h
    refine ⟨claim.id, ?_, ?_, ?_⟩
    · rcases store.snapshot_cases I.codec with hsnapshot | hsnapshot
      · rw [hsnapshot] at hg
        exact hg
      · rw [hsnapshot] at hg
        simp at hg
    · simp only [LocalGrant.serves, Bool.not_eq_true', Bool.or_eq_false_iff] at hserves
      tauto
    · intro hmode
      simp only [LocalGrant.serves, hmode, Bool.not_eq_true', Bool.or_eq_false_iff, beq_self_eq_true,
        Bool.true_and, Bool.and_eq_false_iff, bne_eq_false_iff_eq] at hserves
      exact hserves.2.2
  · cases h

theorem checkAuthority_eq_some {store : Store B} {r : Checked} {now : Int} {result : Authority × Int}
    (h : checkAuthority I store r now = some result) :
    ∃ g, store.data.grants[r.grant.id]? = some g ∧ g.revoked = false ∧ g.version = r.grant.version := by
  simp only [checkAuthority, Option.bind_eq_bind, Option.bind_eq_some_iff] at h
  obtain ⟨g, hg, h⟩ := h
  split at h
  · cases h
  rename_i hforce
  rw [not_or, not_not, not_not] at hforce
  refine ⟨g, ?_, ?_⟩
  · rcases store.snapshot_cases I.codec with hsnapshot | hsnapshot
    · rw [hsnapshot] at hg
      exact hg
    · rw [hsnapshot] at hg
      simp at hg
  · have hin := hforce.2
    simp only [LocalGrant.inForce, Bool.not_eq_true', Bool.or_eq_false_iff, bne_eq_false_iff_eq] at hin
    exact ⟨hin.1.1.1.1, hin.1.1.1.2⟩

end Checks

end HomeTunnel.Host.Grants
