import HomeTunnel.Host.Authority

/-! # Pairings

A pairing that the server presents becomes a grant of the store: `loadPairing` and the checks of
`ApprovePairing` up to the section that adds the grant.
-/

namespace HomeTunnel.Host.Grants

open JsonText GoJson
open Rfc3339 (Time)
open Engine (decodeRaw rawBytes)

inductive PairingState
  | pending
  | other (name : String)
deriving DecidableEq, Repr

structure Pairing where
  id : String
  state : PairingState
  expiresAt : Time
  transcript : Bytes
deriving DecidableEq

structure Transcript where
  domain : String := ""
  serverInstance : String := ""
  pairingId : String := ""
  hostId : String := ""
  controllerId : String := ""
  assistInviteId : String := ""
  hostOwnerId : String := ""
  controllerOwnerId : String := ""
  hostJkt : String := ""
  controllerJkt : String := ""
  hostNonce : Option String := none
  controllerNonce : String := ""
  scope : List String := []
  mode : Mode := .other ""
  requestId : String := ""
  expiresAt : Time := zeroTime
deriving DecidableEq

def Mode.ofText (text : String) : Mode :=
  if text = "one_session" then .oneSession
  else if text = "persistent" then .persistent
  else .other text

def Mode.text : Mode → String
  | .oneSession => "one_session"
  | .persistent => "persistent"
  | .other name => name

def decodeMode : Decoder Mode := fun doc old => (decodeString doc old.text).map Mode.ofText

def Transcript.fields : List (RecordField Transcript) :=
  [field "domain" decodeString (·.domain) (fun t v => { t with domain := v }),
    field "server_instance_id" decodeString (·.serverInstance) (fun t v => { t with serverInstance := v }),
    field "pairing_id" decodeString (·.pairingId) (fun t v => { t with pairingId := v }),
    field "host_endpoint_id" decodeString (·.hostId) (fun t v => { t with hostId := v }),
    field "controller_endpoint_id" decodeString (·.controllerId) (fun t v => { t with controllerId := v }),
    field "assist_invite_id" decodeString (·.assistInviteId) (fun t v => { t with assistInviteId := v }),
    field "host_owner_user_id" decodeString (·.hostOwnerId) (fun t v => { t with hostOwnerId := v }),
    field "controller_owner_user_id" decodeString (·.controllerOwnerId)
      (fun t v => { t with controllerOwnerId := v }),
    field "host_jkt" decodeString (·.hostJkt) (fun t v => { t with hostJkt := v }),
    field "controller_jkt" decodeString (·.controllerJkt) (fun t v => { t with controllerJkt := v }),
    field "nonce_host" (decodePointer decodeString "") (·.hostNonce) (fun t v => { t with hostNonce := v }),
    field "nonce_controller" decodeString (·.controllerNonce) (fun t v => { t with controllerNonce := v }),
    field "scope" (decodeSlice decodeString "") (·.scope) (fun t v => { t with scope := v }),
    field "mode" decodeMode (·.mode) (fun t v => { t with mode := v }),
    field "session_request_id" decodeString (·.requestId) (fun t v => { t with requestId := v }),
    field "expires_at" decodeTime (·.expiresAt) (fun t v => { t with expiresAt := v })]

def decodeTranscript : Decoder Transcript := decodeStruct Transcript.fields true

section Pairing

variable {B : Type} (I : Identity B)

/-- The owners that a transcript names: none, or those of an assist invite. -/
def Transcript.ownersAccepted (t : Transcript) (d : DiskState) : Bool :=
  if t.assistInviteId = "" then t.hostOwnerId == "" && t.controllerOwnerId == ""
  else
    t.hostOwnerId == d.ownerUserId && t.controllerOwnerId != "" &&
      t.controllerOwnerId != d.ownerUserId && t.mode == .oneSession

def Transcript.accepted (t : Transcript) (d : DiskState) (keys : Keyset) (id : String) (p : Pairing)
    (now : Int) : Bool :=
  p.id == id && p.state == .pending && p.expiresAt.instant > now && t.domain == "ht-rd-pairing-v1" &&
  t.serverInstance == keys.serverInstanceId && t.pairingId == id && t.hostId == d.endpointId &&
  t.hostJkt == I.key.thumbprint I.curve && t.controllerId != d.endpointId &&
  (utf8 t.controllerJkt).length == 43 && (utf8 t.controllerNonce).length == 43 &&
  t.expiresAt.instant == p.expiresAt.instant && (t.mode == .oneSession || t.mode == .persistent) &&
  t.ownersAccepted d

/-- `loadPairing` from the server's answer on. -/
def loadPairing (store : Store B) (id : String) (p : Pairing) (now : Int) : Option Transcript := do
  let t ← strictDecode p.transcript decodeTranscript {}
  let d := store.snapshot I.codec
  let keys ← parseKeyset I.curve (rawBytes d.keyset)
  if t.accepted I d keys id p now then some t else none

structure Capabilities where
  available : Bool
  permissions : List String
  unattendedEnabled : Bool

/-- The decision of the local user, and what the machine answers: the engine's capabilities and the
check for an administrator, where there is one. -/
structure Decision where
  selected : List String
  mode : Mode
  expires : Option Time
  capabilities : Option Capabilities
  admin : Option Bool

inductive PairingError
  | authorization | localApproval | unavailable | historyFull
deriving DecidableEq, Repr

def maximumGrants : Nat := 128

def thirtyDays : Int := 30 * 24 * 60 * minuteNanos

/-- A persistent grant needs unattended access for this very controller. -/
def unattendedFor (d : DiskState) (t : Transcript) (decision : Decision) : Bool :=
  d.unattendedEnabled && decision.admin == some true && t.controllerId == d.unattendedControllerId &&
    t.controllerJkt == d.unattendedControllerJkt

/-- The checks of `ApprovePairing` on a snapshot and the grant that it goes on to add. The signature
and the time ten minutes from now are given. -/
def pairingGrant (d : DiskState) (id : String) (t : Transcript) (decision : Decision) (now : Int)
    (later : Time) (grantJws : String) : Except PairingError LocalGrant :=
  let mode := decision.mode
  let expires := decision.expires.getD later
  if ¬ d.enabled ∨ mode ≠ t.mode ∨ ¬ sameScopes t.scope decision.selected then .error .localApproval
  else if mode = .persistent ∧ ¬ unattendedFor d t decision then .error .localApproval
  else
    match decision.capabilities with
    | none => .error .unavailable
    | some caps =>
      if ¬ caps.available ∨ ¬ subset caps.permissions decision.selected ∨
          (mode = .persistent ∧ ¬ caps.unattendedEnabled) then .error .unavailable
      else if ¬ expires.instant > now ∨ expires.instant > now + thirtyDays then .error .localApproval
      else if (d.grants[id]?).any fun old => old.revoked || old.grantJws != "" then .error .authorization
      else if d.grants.size ≥ maximumGrants then .error .historyFull
      else .ok
        { id := id
          assistInviteId := t.assistInviteId
          controllerEndpointId := t.controllerId
          controllerJkt := t.controllerJkt
          permissions := t.scope
          mode := mode
          oneSessionRequestId := if mode = .oneSession then t.requestId else ""
          version := 1
          expiresAt := expires
          grantJws := grantJws }

variable {I}

end Pairing

end HomeTunnel.Host.Grants
