import HomeTunnel.Files.Worker
import HomeTunnel.Peers.Sequences

/-! # Peer identities

What the two ends of a session keep to authenticate each other: `PeerIdentity` in the host
worker and `ControllerIdentity` in the controller. Both check the signed envelopes of the
other end against one session and remember the sequence numbers they took; from the first
messages of the handshake both build the text that is signed as proof of the session.
-/

namespace HomeTunnel.Remote.Peers

open Auth

/-- The session that envelopes are checked against, as `authorize` has fixed it. -/
structure Binding where
  sessionId : String
  epoch : UInt32
  hostEndpointId : String
  controllerEndpointId : String
  ticketJti : String
deriving DecidableEq, Repr

/-- `isUInt64` and equal; documents read strictly hold no other numbers. -/
def number (value : Json) (expected : Nat) : Bool := value == .int expected

def isObject : Json → Bool
  | .obj _ => true
  | _ => false

section Envelopes

variable (P : Primitives)

/-- The claims are those of this session, sent from one endpoint to the other, within a minute
of now. -/
def claimsBound (b : Binding) (claims type : Json) (sender recipient : String) (now : Int) : Bool :=
  number (claims.get "v") 1 && claims.get "type" == type &&
  sameString (claims.get "session_id") b.sessionId &&
  number (claims.get "connection_epoch") b.epoch.toNat &&
  sameString (claims.get "from_endpoint_id") sender &&
  sameString (claims.get "to_endpoint_id") recipient &&
  sameString (claims.get "ticket_jti") b.ticketJti &&
  (match isoTime (claims.get "created_at") with
    | some created => !(created > now + 60000 || created < now - 60000)
    | none => false) &&
  isObject (claims.get "payload")

/-- The checks of an envelope that both identities make: what it claims, and its number. -/
def checkEnvelope (b : Binding) (envelope : Json) (key : PublicKey) (sender recipient : String)
    (now : Int) : Except Error (Jws × UInt64) :=
  match envelope.get "type", envelope.get "payload_jws" with
  | .str type, .str compact =>
    if ¬ number (envelope.get "v") 1 ∨ ¬ sameString (envelope.get "session_id") b.sessionId ∨
        ¬ number (envelope.get "connection_epoch") b.epoch.toNat then .error .identity
    else
      match verifyJws P compact key "ht-rd-peer+jwt" with
      | .error e => .error e
      | .ok proof =>
        if ¬ claimsBound b proof.claims (.str type) sender recipient now then .error .identity
        else
          match proof.claims.get "seq" with
          | .str text =>
            match sequenceNumber text with
            | some n => if n = 0 then .error .malformed else .ok (proof, n)
            | none => .error .malformed
          | _ => .error .identity
  | _, _ => .error .identity

end Envelopes

def u32Bytes (value : UInt32) : Bytes :=
  [(value >>> 24).toUInt8, (value >>> 16).toUInt8, (value >>> 8).toUInt8, value.toUInt8]

/-- `append`: a part with its length in front. -/
def lengthPrefixed (part : Bytes) : Bytes := u32Bytes part.length.toUInt32 ++ part

def proofDomain : Bytes := utf8 "ht-rd-proof-v1"

def proofTranscript (id : Bytes) (epoch : UInt32) (fields : List Bytes) : Bytes :=
  lengthPrefixed proofDomain ++ lengthPrefixed id ++ u32Bytes epoch ++ fields.flatMap lengthPrefixed

structure PeerIdentity where
  binding : Binding
  authorized : Bool
  hostKey : PublicKey
  controllerKey : PublicKey
  ticketJws : String
  permissions : Json
  hostNonce : Bytes
  controllerNonce : Bytes := List.replicate 32 0
  answerPayload : Json := .null
  offerJws : String := ""
  answerJws : String := ""
  transcript : Bytes := []
  sequences : Sequences := Sequences.empty

/-- What a peer message that was accepted gives: its number and its payload. -/
structure Accepted where
  number : UInt64
  payload : Json

section Digests

variable (P : Primitives)

def digest (text : String) : Bytes := P.sha256 (utf8 text)

def capabilityHash (permissions : Json) : String :=
  encode (P.sha256 (Worker.json (.obj [("permissions", permissions)])))

/-- The body of the first handshake message of either end. -/
def helloOf (nonce : Bytes) (ticketJws : String) (permissions : Json) : Json :=
  .obj [("capability_hash", .str (capabilityHash P permissions)), ("nonce", .str (encode nonce)),
    ("protocol", .obj [("major", .int 1), ("minor", .int 0)]),
    ("ticket_hash", .str (encode (digest P ticketJws)))]

/-- The nonce of the other end's first message, if the message fits this session. -/
def helloNonce (body : Json) (ticketJws : String) (permissions : Json) : Option Bytes :=
  if ¬ number ((body.get "protocol").get "major") 1 ∨ ¬ number ((body.get "protocol").get "minor") 0 ∨
      ¬ sameString (body.get "ticket_hash") (encode (digest P ticketJws)) ∨
      ¬ sameString (body.get "capability_hash") (capabilityHash P permissions) then none
  else
    match body.get "nonce" with
    | .str text =>
      match decode text with
      | some nonce => if nonce.length = 32 then some nonce else none
      | none => none
    | _ => none

end Digests

namespace PeerIdentity

variable (P : Primitives)

/-- `signal` for a message of the controller. -/
def signal (s : PeerIdentity) (envelope : Json) (now : Int) :
    Except Error (Jws × UInt64 × PeerIdentity) :=
  if ¬ s.authorized then .error .identity
  else
    match checkEnvelope P s.binding envelope s.controllerKey s.binding.controllerEndpointId
        s.binding.hostEndpointId now with
    | .error e => .error e
    | .ok (proof, n) =>
      if n ∈ s.sequences.numbers ∨ behind s.sequences.highest n ∨
          (proof.claims.get "type" ≠ .str "peer.candidates" ∧ n ≤ s.sequences.highest) then
        .error .identity
      else .ok (proof, n, { s with sequences := s.sequences.insert n })

def peerSignal (s : PeerIdentity) (envelope : Json) (now : Int) :
    Except Error Accepted × PeerIdentity :=
  match s.signal P envelope now with
  | .error e => (.error e, s)
  | .ok (proof, n, s) =>
    let payload := proof.claims.get "payload"
    match envelope.get "type", envelope.get "payload_jws" with
    | .str "peer.offer", .str compact =>
      if s.offerJws ≠ "" ∨ ¬ sameString (payload.get "type") "offer" then (.error .identity, s)
      else (.ok ⟨n, payload⟩, { s with offerJws := compact })
    | .str type, _ =>
      if type ≠ "peer.candidates" ∧ type ≠ "peer.candidates_done" then (.error .identity, s)
      else (.ok ⟨n, payload⟩, s)
    | _, _ => (.error .identity, s)

def expectAnswer (s : PeerIdentity) (payload : Json) : PeerIdentity :=
  { s with answerPayload := payload }

/-- The service's signature of the answer; `signal` with `local` looks at no window. -/
def signedAnswer (s : PeerIdentity) (envelope : Json) (now : Int) : Except Error PeerIdentity :=
  if s.answerJws ≠ "" ∨ s.answerPayload = .null ∨ s.offerJws = "" ∨ ¬ s.authorized then
    .error .identity
  else
    match checkEnvelope P s.binding envelope s.hostKey s.binding.hostEndpointId
        s.binding.controllerEndpointId now with
    | .error e => .error e
    | .ok (proof, _) =>
      match envelope.get "type", envelope.get "payload_jws" with
      | .str "peer.answer", .str compact =>
        if proof.claims.get "payload" ≠ s.answerPayload then .error .identity
        else .ok { s with answerJws := compact }
      | _, _ => .error .identity

def helloBody (s : PeerIdentity) : Json := helloOf P s.hostNonce s.ticketJws s.permissions

def hello (s : PeerIdentity) (body : Json) : Except Error PeerIdentity :=
  if ¬ s.authorized ∨ s.transcript ≠ [] ∨ s.offerJws = "" ∨ s.answerJws = "" then .error .identity
  else
    match helloNonce P body s.ticketJws s.permissions, Files.uuidBytes s.binding.sessionId with
    | some nonce, some id =>
      .ok { s with
        controllerNonce := nonce
        transcript := proofTranscript id s.binding.epoch
          [nonce, s.hostNonce, digest P s.offerJws, digest P s.answerJws, digest P s.ticketJws] }
    | _, _ => .error .identity

end PeerIdentity

/-- `description`: a session description of the given type. -/
def description (value : Json) (type : String) : Bool :=
  fields value ["type", "sdp"] && sameString (value.get "type") type &&
  (match value.get "sdp" with
    | .str sdp => "v=0".toList.isPrefixOf sdp.toList && (utf8 sdp).length ≤ 24576
    | _ => false)

/-- The nonce that the inner identity draws is the controller's own. -/
structure ControllerIdentity where
  binding : Binding
  authorized : Bool
  hostKey : PublicKey
  controllerKey : PublicKey
  ticketJws : String
  permissions : Json
  controllerNonce : Bytes
  hostNonce : Bytes := List.replicate 32 0
  offerPayload : Json := .null
  offerJws : String := ""
  answerJws : String := ""
  transcript : Bytes := []
  sequences : Sequences := Sequences.empty

namespace ControllerIdentity

variable (P : Primitives)

def expectOffer (s : ControllerIdentity) (payload : Json) : ControllerIdentity :=
  if s.authorized ∧ s.offerPayload = .null ∧ description payload "offer" then
    { s with offerPayload := payload }
  else s

def signedOffer (s : ControllerIdentity) (envelope : Json) (now : Int) :
    Except Error ControllerIdentity :=
  if s.offerJws ≠ "" ∨ s.offerPayload = .null ∨ ¬ s.authorized then .error .identity
  else
    match checkEnvelope P s.binding envelope s.controllerKey s.binding.controllerEndpointId
        s.binding.hostEndpointId now with
    | .error e => .error e
    | .ok (proof, _) =>
      match envelope.get "type", envelope.get "payload_jws" with
      | .str "peer.offer", .str compact =>
        if proof.claims.get "payload" ≠ s.offerPayload then .error .identity
        else .ok { s with offerJws := compact }
      | _, _ => .error .identity

def candidate (type : String) : Bool := type == "peer.candidates" || type == "peer.candidates_done"

/-- The window is looked at after the type, so that only accepted numbers are remembered. -/
def peerSignal (s : ControllerIdentity) (envelope : Json) (now : Int) :
    Except Error (Accepted × ControllerIdentity) :=
  if s.offerJws = "" ∨ ¬ s.authorized then .error .identity
  else
    match checkEnvelope P s.binding envelope s.hostKey s.binding.hostEndpointId
        s.binding.controllerEndpointId now with
    | .error e => .error e
    | .ok (proof, n) =>
      let payload := proof.claims.get "payload"
      match envelope.get "type", envelope.get "payload_jws" with
      | .str type, .str compact =>
        if (type = "peer.answer" ∧ (s.answerJws ≠ "" ∨ ¬ description payload "answer")) ∨
            (type ≠ "peer.answer" ∧ ¬ candidate type) ∨
            n ∈ s.sequences.numbers ∨ behind s.sequences.highest n ∨
            (¬ candidate type ∧ n ≤ s.sequences.highest) then .error .identity
        else
          .ok (⟨n, payload⟩, { s with
            sequences := s.sequences.insert n
            answerJws := if type = "peer.answer" then compact else s.answerJws })
      | _, _ => .error .identity

def helloBody (s : ControllerIdentity) : Json :=
  if s.authorized then helloOf P s.controllerNonce s.ticketJws s.permissions else .null

def hello (s : ControllerIdentity) (body : Json) : Except Error ControllerIdentity :=
  if ¬ s.authorized ∨ s.transcript ≠ [] ∨ s.offerJws = "" ∨ s.answerJws = "" ∨
      ¬ fields body ["nonce", "ticket_hash", "protocol", "capability_hash"] ∨
      ¬ fields (body.get "protocol") ["major", "minor"] then .error .identity
  else
    match helloNonce P body s.ticketJws s.permissions, Files.uuidBytes s.binding.sessionId with
    | some nonce, some id =>
      .ok { s with
        hostNonce := nonce
        transcript := proofTranscript id s.binding.epoch
          [s.controllerNonce, nonce, digest P s.offerJws, digest P s.answerJws,
            digest P s.ticketJws] }
    | _, _ => .error .identity

end ControllerIdentity

end HomeTunnel.Remote.Peers
