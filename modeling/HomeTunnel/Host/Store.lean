import HomeTunnel.Engine.Raw
import HomeTunnel.Host.CloseAck
import HomeTunnel.Host.Keyset

/-! # The protected store

`diskState`, the one way in which the service changes it, `Store.update`, and the callbacks
that its callers hand to it. A callback works on a copy that went through JSON, so the state in
memory and the saved bytes change together or not at all.
-/

namespace HomeTunnel.Host.Grants

open JsonText GoJson
open Rfc3339 (Time)

inductive Mode
  | oneSession | persistent
  | other (name : String)
deriving DecidableEq, Repr

/-- A grant; its version starts at 1 and counts the revocations. -/
structure LocalGrant where
  id : String := ""
  assistInviteId : String := ""
  controllerEndpointId : String := ""
  controllerJkt : String := ""
  permissions : List String := []
  mode : Mode := .other ""
  oneSessionRequestId : String := ""
  sessionId : String := ""
  version : Int := 0
  expiresAt : Time := zeroTime
  revoked : Bool := false
  grantJws : String := ""
deriving DecidableEq

abbrev GrantMap := Std.ExtTreeMap String LocalGrant

/-- Invite ids with the time at which they expire. -/
abbrev InviteMap := Std.ExtTreeMap String Time

structure DiskState where
  serviceManaged : Bool := false
  origin : String := ""
  endpointId : String := ""
  ownerUserId : String := ""
  keyPkcs8 : String := ""
  initialTrust : Option Doc := none
  keyset : Option Doc := none
  enabled : Bool := false
  unattendedEnabled : Bool := false
  unattendedControllerId : String := ""
  unattendedControllerJkt : String := ""
  capabilityVersion : Int := 0
  grants : GrantMap := ∅
  assistInvites : InviteMap := ∅
  fixedRevision : Int := 0
  fixedInvites : InviteMap := ∅
  emergencyKey : String := ""
  closeAcks : Std.ExtTreeMap String StoppedAck := ∅

/-- What JSON makes of a raw message: none becomes `null`, and strings are escaped for HTML. -/
def copiedRaw (raw : Option Doc) : Option Doc := some (html (raw.getD .null))

/-- The state after it has been written and read. -/
def DiskState.copied (d : DiskState) : DiskState :=
  { d with initialTrust := copiedRaw d.initialTrust, keyset := copiedRaw d.keyset }

/-- `json.Marshal` and `json.Unmarshal` on the state. -/
structure Codec (B : Type) where
  encode : DiskState → Option B
  decode : B → Option DiskState
  decode_encode : ∀ d b, encode d = some b → decode b = some d.copied

/-- The state in memory and the bytes of the protected backend. -/
structure Store (B : Type) where
  data : DiskState
  saved : Option B

section Update

variable {B : Type} (K : Codec B)

/-- The copy through JSON. -/
def copyState (d : DiskState) : Option DiskState := (K.encode d).bind K.decode

/-- `snapshot`; both errors are ignored, so what could not be read is empty. -/
def Store.snapshot (s : Store B) : DiskState := (copyState K s.data).getD {}

/-- `update` with a callback; `saves` says what the backend does. The first part of the result is
whether the call succeeded. -/
def Store.update (work : DiskState → Option DiskState) (saves : Bool) (s : Store B) : Bool × Store B :=
  match copyState K s.data with
  | none => (false, s)
  | some next =>
    match work next with
    | none => (false, s)
    | some next =>
      match K.encode next with
      | none => (false, s)
      | some bytes => if saves then (true, ⟨next, some bytes⟩) else (false, s)

end Update

def LocalGrant.revoke (g : LocalGrant) : LocalGrant := { g with revoked := true, version := g.version + 1 }

/-- The loop that revokes the grants of a kind which are not revoked yet. -/
def revokeWhere (kind : LocalGrant → Bool) (grants : GrantMap) : GrantMap :=
  grants.map fun _ g => if !kind g || g.revoked then g else g.revoke

def revokeGrant (id : String) (d : DiskState) : Option DiskState :=
  match d.grants[id]? with
  | none => none
  | some g => some { d with grants := d.grants.insert id g.revoke }

def revokeAssistGrants (inviteId : String) (d : DiskState) : DiskState :=
  { d with
    assistInvites := d.assistInvites.erase inviteId
    grants := revokeWhere (·.assistInviteId = inviteId) d.grants }

def revokeFixedGrants (d : DiskState) : DiskState :=
  { d with
    grants := revokeWhere (fun g => d.fixedInvites.contains g.assistInviteId) d.grants
    assistInvites := d.assistInvites.filter fun id _ => !d.fixedInvites.contains id
    fixedInvites := ∅
    fixedRevision := 0 }

def revokePersistentGrants (d : DiskState) : DiskState :=
  { d with unattendedEnabled := false, grants := revokeWhere (·.mode = .persistent) d.grants }

def disableLocally (d : DiskState) : DiskState :=
  { revokePersistentGrants { d with enabled := false } with assistInvites := ∅, fixedInvites := ∅ }

/-- The section of `ApprovePairing` that adds its grant. -/
def insertGrant (grant : LocalGrant) (d : DiskState) : Option DiskState :=
  if d.grants.contains grant.id ∨ (grant.mode = .persistent ∧ ¬ d.unattendedEnabled) then none
  else some { d with grants := d.grants.insert grant.id grant }

/-- The section of `approveSession` that binds a one-session grant to the session. A grant that is
not there reads as the empty one. -/
def bindSession (grant : LocalGrant) (id : String) (d : DiskState) : Option DiskState :=
  let g := (d.grants[grant.id]?).getD {}
  if ¬ d.enabled ∨ g.revoked ∨ g.version ≠ grant.version ∨
      (g.sessionId ≠ "" ∧ g.sessionId ≠ id ∧ g.mode = .oneSession) then none
  else
    let g := if g.mode = .oneSession then { g with sessionId := id } else g
    some { d with grants := d.grants.insert g.id g }

/-- What `Enroll`, `RefreshKeys` and `SetEnabled(false)` share. -/
def disableHost (d : DiskState) : DiskState :=
  { revokePersistentGrants { d with enabled := false } with assistInvites := ∅ }

/-- The callbacks of `Store.update`, apart from the two that approvals make. -/
inductive Callback
  | revokeGrant (id : String)
  | revokeAssistGrants (inviteId : String)
  | revokeFixedGrants
  | disableLocally
  | enroll (origin endpointId ownerUserId : String) (trust : Doc)
  | refreshKeys (keyset : Doc) (changed : Bool)
  | disable
  | commitEnabled (enabled : Bool) (capabilityVersion : Int)
  | setFixedRevision (revision : Int)
  | trustAccessInvite (id : String) (expires : Time) (fixedRevision : Int)
  | createAssistInvite (id : String) (expires : Time) (now : Int)
  | setEmergencyKey (key : String)
  | exportForService
  | setUnattendedController (id jkt : String)
  | disableUnattended
  | commitUnattended (enabled stale : Bool) (capabilityVersion : Int)

def Callback.work : Callback → DiskState → Option DiskState
  | .revokeGrant id, d => Grants.revokeGrant id d
  | .revokeAssistGrants inviteId, d => some (Grants.revokeAssistGrants inviteId d)
  | .revokeFixedGrants, d => some (Grants.revokeFixedGrants d)
  | .disableLocally, d => some (Grants.disableLocally d)
  | .enroll origin endpointId ownerUserId trust, d =>
    some (disableHost { d with
      origin := origin, endpointId := endpointId, ownerUserId := ownerUserId
      initialTrust := some trust, keyset := some trust })
  | .refreshKeys keyset changed, d =>
    some (if changed then disableHost { d with keyset := some keyset }
      else { d with keyset := some keyset })
  | .disable, d => some (disableHost d)
  | .commitEnabled enabled capabilityVersion, d =>
    some { d with enabled := enabled, capabilityVersion := capabilityVersion }
  | .setFixedRevision revision, d =>
    if d.enabled then some { d with fixedRevision := revision } else none
  | .trustAccessInvite id expires fixedRevision, d =>
    if ¬ d.enabled ∨ (fixedRevision > 0 ∧ d.fixedRevision ≠ fixedRevision) then none
    else some { d with
      assistInvites := d.assistInvites.insert id expires
      fixedInvites :=
        if fixedRevision > 0 then d.fixedInvites.insert id expires else d.fixedInvites }
  | .createAssistInvite id expires now, d =>
    if d.enabled then
      some { d with
        assistInvites := (d.assistInvites.filter fun _ expiry => expiry.instant > now).insert id expires }
    else none
  | .setEmergencyKey key, d => some { d with emergencyKey := key }
  | .exportForService, d =>
    if d.endpointId = "" ∨ d.origin = "" then none else some { d with serviceManaged := true }
  | .setUnattendedController id jkt, d =>
    if d.unattendedEnabled ∧ (d.unattendedControllerId ≠ id ∨ d.unattendedControllerJkt ≠ jkt) then none
    else some { d with unattendedControllerId := id, unattendedControllerJkt := jkt }
  | .disableUnattended, d =>
    some { revokePersistentGrants d with unattendedControllerId := "", unattendedControllerJkt := "" }
  | .commitUnattended enabled stale capabilityVersion, d =>
    some { d with
      capabilityVersion := capabilityVersion
      unattendedEnabled := enabled && !stale && d.enabled }

section Effect

variable {B : Type} {K : Codec B}

theorem copyState_eq {d next : DiskState} (h : copyState K d = some next) : next = d.copied := by
  obtain ⟨b, hb, hnext⟩ := Option.bind_eq_some_iff.mp h
  rw [K.decode_encode d b hb] at hnext
  exact (Option.some.inj hnext).symm

/-- A call fails and has changed nothing, or it has run its callback and saved what that made. -/
theorem Store.update_cases (K : Codec B) (work : DiskState → Option DiskState) (saves : Bool)
    (s : Store B) :
    s.update K work saves = (false, s) ∨ ∃ next bytes, s.update K work saves = (true, ⟨next, some bytes⟩) ∧
      work s.data.copied = some next ∧ K.encode next = some bytes := by
  unfold Store.update
  cases hcopy : copyState K s.data with
  | none => exact Or.inl rfl
  | some copy =>
    dsimp only
    rw [copyState_eq hcopy]
    cases hwork : work s.data.copied with
    | none => exact Or.inl rfl
    | some next =>
      dsimp only
      cases hencode : K.encode next with
      | none => exact Or.inl rfl
      | some bytes =>
        cases saves with
        | false => exact Or.inl rfl
        | true => exact Or.inr ⟨next, bytes, rfl, rfl, hencode⟩

theorem Store.update_failed {work : DiskState → Option DiskState} {saves : Bool} {s : Store B}
    (h : (s.update K work saves).1 = false) : (s.update K work saves).2 = s := by
  rcases s.update_cases K work saves with hupdate | ⟨_, _, hupdate, _⟩
  · rw [hupdate]
  · rw [hupdate] at h
    cases h

/-- A snapshot has the grants of the state, or it is empty. -/
theorem Store.snapshot_cases (K : Codec B) (s : Store B) :
    s.snapshot K = s.data.copied ∨ s.snapshot K = {} := by
  unfold Store.snapshot
  cases hcopy : copyState K s.data with
  | none => exact Or.inr rfl
  | some copy =>
    rw [copyState_eq hcopy]
    exact Or.inl rfl

end Effect

end HomeTunnel.Host.Grants
