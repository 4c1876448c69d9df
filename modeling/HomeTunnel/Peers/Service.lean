import HomeTunnel.Engine.Raw
import HomeTunnel.Host.Keyset
import HomeTunnel.Peers.Sequences

/-! # Peer messages in the service

The host service takes the controller's messages from its run loop, checks them and hands
them to the engine. Before the engine has started they wait in a queue, which the approval
of the session empties once it has; `handlePeer` is entered by both goroutines. A step here
is one section under `s.mu` or one call of the engine.
-/

namespace HomeTunnel.Host.Peers

open JsonText GoJson ReplayWindow
open Remote.Peers (sequenceRank sequenceNumber behind)

/-- A message as `incomingPeer` gets it and the queue keeps it. -/
structure Message where
  raw : Bytes
  kind : String
  id : String
  epoch : Int
  compact : String
deriving DecidableEq, Repr

/-- What the controller signs. -/
structure Claims where
  v : Int := 0
  type : String := ""
  sessionId : String := ""
  epoch : Int := 0
  sender : String := ""
  recipient : String := ""
  seq : String := ""
  ticketJti : String := ""
  created : Rfc3339.Time := zeroTime
  payload : Option Doc := none

def Claims.fields : List (RecordField Claims) :=
  [field "v" decodeInt64 (·.v) (fun c v => { c with v := v }),
    field "type" decodeString (·.type) (fun c v => { c with type := v }),
    field "session_id" decodeString (·.sessionId) (fun c v => { c with sessionId := v }),
    field "connection_epoch" decodeInt64 (·.epoch) (fun c v => { c with epoch := v }),
    field "from_endpoint_id" decodeString (·.sender) (fun c v => { c with sender := v }),
    field "to_endpoint_id" decodeString (·.recipient) (fun c v => { c with recipient := v }),
    field "seq" decodeString (·.seq) (fun c v => { c with seq := v }),
    field "ticket_jti" decodeString (·.ticketJti) (fun c v => { c with ticketJti := v }),
    field "created_at" decodeTime (·.created) (fun c v => { c with created := v }),
    field "payload" Engine.decodeRaw (·.payload) (fun c v => { c with payload := v })]

def decodeClaims : Decoder Claims := decodeStruct Claims.fields true

/-- `strconv.ParseUint`, with the text as `FormatUint` writes it. -/
def parseSeq (text : String) : Option UInt64 := sequenceNumber text

def minute : Int := 60000000000

/-- The session that messages are checked against; its ticket is the one that was verified. -/
structure Session where
  sessionId : String
  connectionEpoch : Int
  controllerEndpointId : String
  hostEndpointId : String
  controllerPublicJwk : Bytes
  ticketJti : String
deriving DecidableEq, Repr

def peerKinds : List String := ["peer.offer", "peer.candidates", "peer.candidates_done"]

def Claims.bound (c : Claims) (s : Session) (m : Message) (now : Int) : Bool :=
  c.v == 1 && c.type == m.kind && c.sessionId == m.id && c.epoch == m.epoch &&
  c.sender == s.controllerEndpointId && c.recipient == s.hostEndpointId &&
  c.ticketJti == s.ticketJti && !(now - c.created.instant > minute) &&
  !(c.created.instant - now > minute) && m.kind ∈ peerKinds

/-- The part of `handlePeer` outside of the locks: the number of a good message. -/
def verifyPeer (C : Curve) (s : Session) (m : Message) (now : Int) : Option UInt64 :=
  match strictDecode s.controllerPublicJwk decodePublicJwk {} with
  | none => none
  | some key =>
    match verifyJws C m.compact key "ht-rd-peer+jwt" with
    | none => none
    | some payload =>
      match strictDecode payload decodeClaims {} with
      | none => none
      | some claims =>
        match parseSeq claims.seq with
        | none => none
        | some seq => if claims.bound s m now then some seq else none

abbrev PeerWindow := Window sequenceRank 32

/-- The parts of a running session that peer messages touch; `peers` is `PeerSeen` with
`PeerMaximum`. -/
structure Running where
  session : Session
  closing : Bool := false
  started : Bool := false
  peerFlushing : Bool := false
  peerQueue : List Message := []
  peers : PeerWindow := Window.empty 0
  offerJws : String := ""

namespace Running

/-- The session that a message is for; `current` is whether the service still has it as its
active one. -/
def available (r : Running) (current : Bool) (m : Message) : Bool :=
  current && !r.closing && r.session.sessionId == m.id && r.session.connectionEpoch == m.epoch

/-- The message has to wait for the engine, or behind the messages that are being flushed. -/
def waits (r : Running) (flushing : Bool) : Bool := !r.started || (r.peerFlushing && !flushing)

def enqueue (r : Running) (m : Message) : Running := { r with peerQueue := r.peerQueue ++ [m] }

def queueAllows (r : Running) (m : Message) : Bool :=
  m.raw.length ≤ 65536 && r.peerQueue.length < 32

/-- The section after the verification. -/
def letIn (r : Running) (current : Bool) (m : Message) (seq : UInt64) : Option Running :=
  if !current || r.closing || seq ∈ r.peers.seen || behind r.peers.highest seq ||
      (m.kind == "peer.offer" && r.offerJws != "") then none
  else
    some { r with
      peers := r.peers.take seq
      offerJws := if m.kind = "peer.offer" then m.compact else r.offerJws }

end Running

/-! ## The two goroutines -/

/-- Where the run loop is. -/
inductive Loop
  | waiting
  | verifying (m : Message)
  | signalling (m : Message)

/-- Where the approval is, from the start of the engine on. -/
inductive Flush
  | starting
  | looping
  | entering (m : Message)
  | verifying (m : Message)
  | signalling (m : Message)
  | returned (ok : Bool)

/-- `arrived` has the messages that the run loop was given and `signalled` the calls of
`Engine.OnSignal`, both in order. -/
structure State where
  running : Running
  current : Bool := true
  loop : Loop := .waiting
  flush : Flush := .starting
  arrived : List Message := []
  signalled : List Message := []
  refused : Bool := false

inductive Action
  | arrive (m : Message)
  | admitArrived (now : Int)
  | signalArrived (ok : Bool)
  | start
  | next
  | enterQueued
  | admitQueued (now : Int)
  | signalQueued (ok : Bool)
  -- a section elsewhere that marks the session, or takes it out of the active slot
  | stop (released : Bool)

namespace State

/-- `Engine.OnSignal`; an error of the engine is a refusal as well. -/
def signal (s : State) (m : Message) (ok : Bool) : State :=
  { s with signalled := s.signalled ++ [m], refused := s.refused || !ok }

/-- The run loop's error ends this delivery. -/
def refuseArrived (s : State) : State := { s with loop := .waiting, refused := true }

/-- The approval's error ends the flush. -/
def refuseQueued (s : State) : State := { s with flush := .returned false, refused := true }

def arrive (s : State) (m : Message) : State :=
  let s := { s with arrived := s.arrived ++ [m] }
  if ¬ s.running.available s.current m then s.refuseArrived
  else if s.running.waits false then
    if s.running.queueAllows m then { s with running := s.running.enqueue m } else s.refuseArrived
  else { s with loop := .verifying m }

/-- The verification of a message and the section that follows it. -/
def letIn (C : Curve) (s : State) (m : Message) (now : Int) : Option (UInt64 × Running) :=
  match verifyPeer C s.running.session m now with
  | none => none
  | some seq => (s.running.letIn s.current m seq).map fun r => (seq, r)

def startSession (s : State) : State :=
  if !s.current || s.running.closing then { s with flush := .returned false }
  else
    { s with
      running := { s.running with started := true, peerFlushing := true }
      flush := .looping }

/-- One turn of `flushPeer`. -/
def nextQueued (s : State) : State :=
  if !s.current || s.running.closing then { s with flush := .returned false }
  else
    match s.running.peerQueue with
    | [] => { s with running := { s.running with peerFlushing := false }, flush := .returned true }
    | m :: queue => { s with running := { s.running with peerQueue := queue }, flush := .entering m }

def step (C : Curve) (s : State) (action : Action) : State :=
  match action with
  | .arrive m =>
    match s.loop with
    | .waiting => s.arrive m
    | _ => s
  | .admitArrived now =>
    match s.loop with
    | .verifying m =>
      match s.letIn C m now with
      | none => s.refuseArrived
      | some (_, r) => { s with running := r, loop := .signalling m }
    | _ => s
  | .signalArrived ok =>
    match s.loop with
    | .signalling m => { s.signal m ok with loop := .waiting }
    | _ => s
  | .start =>
    match s.flush with
    | .starting => s.startSession
    | _ => s
  | .next =>
    match s.flush with
    | .looping => s.nextQueued
    | _ => s
  | .enterQueued =>
    match s.flush with
    | .entering m =>
      if s.running.available s.current m ∧ ¬ s.running.waits true then
        { s with flush := .verifying m }
      else s.refuseQueued
    | _ => s
  | .admitQueued now =>
    match s.flush with
    | .verifying m =>
      match s.letIn C m now with
      | none => s.refuseQueued
      | some (_, r) => { s with running := r, flush := .signalling m }
    | _ => s
  | .signalQueued ok =>
    match s.flush with
    | .signalling m =>
      { s.signal m ok with flush := if ok then .looping else .returned false }
    | _ => s
  | .stop released =>
    { s with running := { s.running with closing := true }, current := s.current && !released }

/-- A session that `approveSession` has just made. -/
def fresh (session : Session) : State := { running := { session := session } }

end State

end HomeTunnel.Host.Peers
