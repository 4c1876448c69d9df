import HomeTunnel.Lib.Decimal

/-! # Stopped-session debt

A host that has stopped a session owes the server a signed acknowledgement. The
debt lives in the store, which replacement services share; senders settle it
over a network that may answer anything, and each disk write may fail. The
system is run one critical section or network wait at a time.
-/

namespace HomeTunnel.Host

structure SessionRef where
  sessionId : String
  connectionEpoch : Int
deriving DecidableEq, Repr

structure StoppedAck extends SessionRef where
  leaseSeq : Int
  signedProof : String
deriving DecidableEq, Repr

def SessionRef.key (ref : SessionRef) : String :=
  ref.sessionId ++ ":" ++ String.ofList (Decimal.intText ref.connectionEpoch)

def maximumCloseAcks : Nat := 64

/-- The part of the store that holds the debt, and what the last successful write saved of it. -/
structure CloseStore where
  closeAcks : Std.ExtTreeMap String StoppedAck := ∅
  saved : Std.ExtTreeMap String StoppedAck := ∅

namespace CloseStore

def persist (store : CloseStore) (saves : Bool) : CloseStore :=
  if saves then { store with saved := store.closeAcks } else store

def put (store : CloseStore) (key : String) (ack : StoppedAck) : CloseStore :=
  { store with closeAcks := store.closeAcks.insert key ack }

def remove (store : CloseStore) (key : String) : CloseStore :=
  { store with closeAcks := store.closeAcks.erase key }

/-- The acknowledgement that is returned, `none` for the empty one, and whether the
call succeeded. The debt is kept in memory even if the write fails. -/
def rememberCloseAck (store : CloseStore) (ack : StoppedAck) (saves : Bool) :
    (Option StoppedAck × Bool) × CloseStore :=
  match store.closeAcks[ack.key]? with
  | some old =>
    if old.leaseSeq ≥ ack.leaseSeq then ((some old, saves), store.persist saves)
    else ((some ack, saves), (store.put ack.key ack).persist saves)
  | none =>
    if store.closeAcks.size ≥ maximumCloseAcks then ((none, false), store)
    else ((some ack, saves), (store.put ack.key ack).persist saves)

/-- Whether the entry changed, and whether the call succeeded. -/
def changeCloseAck (store : CloseStore) (old : StoppedAck) (replacement : Option StoppedAck)
    (saves : Bool) : (Bool × Bool) × CloseStore :=
  if store.closeAcks[old.key]? ≠ some old then ((false, true), store)
  else
    match replacement with
    | none => ((true, saves), (store.remove old.key).persist saves)
    | some replacement =>
      if replacement.toSessionRef ≠ old.toSessionRef ∨ replacement.leaseSeq ≤ old.leaseSeq then
        ((false, false), store)
      else ((true, saves), (store.put old.key replacement).persist saves)

end CloseStore

structure RunningSession extends SessionRef where
  leaseSeq : Int
  closing : Bool := false
  stopped : Bool := false
  superseded : Bool := false

/-- A service's running sessions are named by an index that stands for their address. -/
structure Service where
  active : Option Nat := none
  running : Nat → RunningSession
  pending : Std.ExtTreeMap String SessionRef := ∅

/-- `makeCloseAck`; the proof is whatever the signer returns, also when it fails. -/
def makeCloseAck (ref : SessionRef) (sequence : Int) (proof : String) : StoppedAck :=
  { ref with leaseSeq := sequence, signedProof := proof }

/-- What a stopped session leaves behind in its service. -/
def Service.release (service : Service) (r : Nat) : Service :=
  let snapshot := service.running r
  { service with
    active := none
    running := Function.update service.running r { snapshot with stopped := true, closing := true }
    pending :=
      if ¬ snapshot.superseded ∧
          service.pending[snapshot.sessionId]? = some snapshot.toSessionRef then
        service.pending.erase snapshot.sessionId
      else service.pending }

/-- The acknowledgement to send, with the service and the store after the call. -/
def recordStopped (service : Service) (r : Nat) (proof : String) (signs saves : Bool)
    (store : CloseStore) : Option StoppedAck × Service × CloseStore :=
  let snapshot := service.running r
  if service.active ≠ some r ∨ snapshot.stopped then (none, service, store)
  else if snapshot.superseded then (none, service.release r, store)
  else
    let ack := makeCloseAck snapshot.toSessionRef snapshot.leaseSeq proof
    if signs then
      match store.rememberCloseAck ack saves with
      | ((none, _), store) => (none, service, store)
      | ((some ack, _), store) =>
        if ack.signedProof = "" then (none, service, store)
        else (some ack, service.release r, store)
    else if proof = "" then (none, service, store)
    else (some ack, service.release r, store)

/-- How the server answers a request. -/
inductive Answer
  | ok
  | rejected (status : Nat) (code : String)
  | failed
deriving DecidableEq, Repr

def Answer.isNotFound (a : Answer) : Bool := a == .rejected 404 "RD_NOT_FOUND"

def Answer.isConflict (a : Answer) : Bool := a == .rejected 409 "RD_STATE_CONFLICT"

/-- A session as the server reports it. -/
structure Loaded where
  connectionEpoch : Int
  leaseSeq : Int
  state : String
deriving DecidableEq, Repr

/-- The reported session is over, or has moved on from the epoch of `ack`. -/
def Loaded.settles (current : Loaded) (ack : StoppedAck) : Bool :=
  current.connectionEpoch > ack.connectionEpoch || current.state == "closed" ||
    current.state == "failed" || current.state == "expired"

/-- Where a sender stands: before the close gate, or behind it at a wait or a store
access. -/
inductive Phase
  | waiting
  | posted
  | loading
  | replacing (leaseSeq : Int)
  | reposted
  | settling
deriving DecidableEq, Repr

/-- A call of `sendCloseAck`, with the acknowledgements that its flush has left. -/
structure Sender where
  ack : StoppedAck
  phase : Phase
  rest : List StoppedAck
deriving DecidableEq, Repr

inductive AckEvent
  | answered (ack : StoppedAck) (answer : Answer)
  | loaded (ack : StoppedAck) (current : Loaded)
deriving DecidableEq, Repr

/-- The server has settled exactly this acknowledgement. -/
def Evidence (log : List AckEvent) (ack : StoppedAck) : Prop :=
  (∃ answer, .answered ack answer ∈ log ∧ (answer = .ok ∨ answer.isNotFound)) ∨
  ((∃ answer, .answered ack answer ∈ log ∧ answer.isConflict) ∧
    ∃ current, .loaded ack current ∈ log ∧ current.settles ack)

structure System where
  store : CloseStore := {}
  services : Nat → Service
  senders : Nat → Option Sender := fun _ => none
  /-- The sender inside the close gate; `none` inside it is some other request. -/
  gate : Option (Option Nat) := none
  log : List AckEvent := []

/-- What a sender's wait or store access may come back with. -/
inductive Input
  | acquired
  | cancelled
  | answered (answer : Answer)
  | loaded (current : Option Loaded)
  | signed (proof : String) (signs saves : Bool)
  | saved (saves : Bool)
deriving DecidableEq, Repr

inductive Action
  /-- Everything else that services do, replacing an instance included. -/
  | serve (i : Nat) (service : Service)
  /-- `recordStopped`; `acknowledgeStopped` goes on to send on the given thread. -/
  | stop (i r : Nat) (proof : String) (signs saves : Bool) (thread : Option Nat)
  /-- `flushOwedAcks` over the store's entries, in the order in which the map yields them. -/
  | flush (thread : Nat) (order : List StoppedAck)
  | send (thread : Nat) (input : Input)
  /-- Another request takes or leaves the close gate. -/
  | gate (enters : Bool)

namespace System

def setSender (s : System) (thread : Nat) (sender : Option Sender) : System :=
  { s with senders := Function.update s.senders thread sender }

/-- Start sending a list of acknowledgements on a thread. -/
def start (s : System) (thread : Nat) : List StoppedAck → System
  | [] => s.setSender thread none
  | ack :: rest => s.setSender thread (some ⟨ack, .waiting, rest⟩)

/-- `sendCloseAck` returns, and its flush stops at the first error. -/
def finish (s : System) (thread : Nat) (sender : Sender) (ok : Bool) : System :=
  { s with gate := none }.start thread (if ok then sender.rest else [])

def goTo (s : System) (thread : Nat) (sender : Sender) (phase : Phase) : System :=
  s.setSender thread (some { sender with phase := phase })

def note (s : System) (event : AckEvent) : System := { s with log := event :: s.log }

def sendStep (s : System) (thread : Nat) (sender : Sender) (input : Input) : System :=
  match sender.phase, input with
  | .waiting, .acquired =>
    if s.gate = none then
      { s with gate := some (some thread) }.goTo thread sender .posted
    else s
  | .waiting, .cancelled => s.setSender thread none
  | .posted, .answered answer =>
    let s := s.note (.answered sender.ack answer)
    if answer = .ok ∨ answer.isNotFound then s.goTo thread sender .settling
    else if answer.isConflict then s.goTo thread sender .loading
    else s.finish thread sender false
  | .loading, .loaded none => s.finish thread sender false
  | .loading, .loaded (some current) =>
    let s := s.note (.loaded sender.ack current)
    if current.settles sender.ack then s.goTo thread sender .settling
    else if current.connectionEpoch = sender.ack.connectionEpoch ∧
        current.leaseSeq > sender.ack.leaseSeq then
      s.goTo thread sender (.replacing current.leaseSeq)
    else s.finish thread sender false
  | .replacing sequence, .signed proof signs saves =>
    if signs then
      let replacement := makeCloseAck sender.ack.toSessionRef sequence proof
      match s.store.changeCloseAck sender.ack (some replacement) saves with
      | ((changed, saved), store) =>
        let s := { s with store := store }
        if ¬ changed ∨ ¬ saved then s.finish thread sender saved
        else s.goTo thread { sender with ack := replacement } .reposted
    else s.finish thread sender false
  | .reposted, .answered answer =>
    let s := s.note (.answered sender.ack answer)
    if answer = .ok then s.goTo thread sender .settling else s.finish thread sender false
  | .settling, .saved saves =>
    match s.store.changeCloseAck sender.ack none saves with
    | ((_, saved), store) => { s with store := store }.finish thread sender saved
  | _, _ => s

def step (s : System) : Action → System
  | .serve i service => { s with services := Function.update s.services i service }
  | .stop i r proof signs saves thread =>
    match recordStopped (s.services i) r proof signs saves s.store with
    | (ack, service, store) =>
      let s := { s with services := Function.update s.services i service, store := store }
      match ack, thread with
      | some ack, some thread =>
        if s.senders thread = none then s.start thread [ack] else s
      | _, _ => s
  | .flush thread order =>
    if s.senders thread = none ∧ order.Perm s.store.closeAcks.values then s.start thread order
    else s
  | .send thread input =>
    match s.senders thread with
    | none => s
    | some sender => s.sendStep thread sender input
  | .gate enters =>
    if enters then if s.gate = none then { s with gate := some none } else s
    else if s.gate = some none then { s with gate := none } else s

def run (s : System) (actions : List Action) : System := actions.foldl step s

end System

end HomeTunnel.Host
