import HomeTunnel.Lib.Runs

/-! # The mailbox of worker events

`enqueueEvent`, `removeEventLocked` and `dispatchEvents`. A step is one section under the lock
of the mailbox or one choice of the dispatcher's `select`; the consumer may receive whenever
the dispatcher offers. Every call of `enqueueEvent` has a number, and an item is known by the
number of the call that made it. An error of `enqueueEvent` ends the engine.
-/

namespace HomeTunnel.Engine

inductive FileKind
  | offer
  | progress
  | complete
  | cancelled
  | error
deriving DecidableEq, Repr

/-- A valid event, with what `nativeFileEvent` reads of a file event. -/
structure Event (Key Body : Type) where
  file : Option (Key × FileKind)
  body : Body
deriving DecidableEq, Repr

def criticalEventLimit : Nat := 256

def progressEventLimit : Nat := 64

variable {Key Body : Type}

/-- The file whose progress the event is. -/
def Event.progress (e : Event Key Body) : Option Key :=
  match e.file with
  | some (key, .progress) => some key
  | _ => none

/-- The file that the event ends. -/
def Event.terminal (e : Event Key Body) : Option Key :=
  match e.file with
  | some (key, .complete) | some (key, .cancelled) | some (key, .error) => some key
  | _ => none

/-- An event and the number of its call. -/
abbrev Entry (Key Body : Type) := Nat × Event Key Body

structure Item (Key Body : Type) where
  id : Nat
  entry : Entry Key Body
deriving DecidableEq, Repr

/-- The item of that number gets a newer value. -/
def Item.renew (item : Item Key Body) (id : Nat) (entry : Entry Key Body) : Item Key Body :=
  if item.id = id then ⟨id, entry⟩ else item

inductive Dispatcher (Key Body : Type)
  | looking
  | resting
  | offering (id : Nat) (copy : Entry Key Body)
  | removing (id : Nat)
deriving DecidableEq, Repr

structure Mailbox (Key Body : Type) where
  queue : List (Item Key Body) := []
  progress : List (Key × Nat) := []
  critical : Nat := 0
  wake : Bool := false
  dispatcher : Dispatcher Key Body := .looking
  alive : Bool := true
  -- the number of the next call, what was taken in and what the consumer received
  next : Nat := 0
  accepted : List (Entry Key Body) := []
  delivered : List (Entry Key Body) := []

inductive Action (Key Body : Type)
  | enqueue (e : Event Key Body)
  | look
  | wakeUp
  | send
  | remove
deriving DecidableEq, Repr

variable [DecidableEq Key]

namespace Mailbox

def removeEventLocked (s : Mailbox Key Body) (id : Nat) : Mailbox Key Body :=
  match s.queue.find? (·.id = id) with
  | none => s
  | some item =>
    let s := { s with queue := s.queue.filter (·.id ≠ id) }
    match item.entry.2.progress with
    | some key => { s with progress := s.progress.filter (·.1 ≠ key) }
    | none => { s with critical := s.critical - 1 }

def pending (s : Mailbox Key Body) (key : Key) : Option Nat :=
  (s.progress.find? (·.1 = key)).map (·.2)

/-- The progress of a file that has ended is dropped. -/
def settle (s : Mailbox Key Body) (e : Event Key Body) : Mailbox Key Body :=
  match e.terminal.bind s.pending with
  | some id => s.removeEventLocked id
  | none => s

/-- The item goes to the end of the queue. -/
def append (s : Mailbox Key Body) (e : Event Key Body) : Mailbox Key Body :=
  { s with
    queue := s.queue ++ [⟨s.next, s.next, e⟩]
    accepted := s.accepted ++ [(s.next, e)]
    next := s.next + 1
    wake := true }

def overwrite (s : Mailbox Key Body) (id : Nat) (e : Event Key Body) : Mailbox Key Body :=
  { s with
    queue := s.queue.map (·.renew id (s.next, e))
    accepted := s.accepted ++ [(s.next, e)]
    next := s.next + 1
    wake := true }

def enqueueEvent (s : Mailbox Key Body) (e : Event Key Body) : Mailbox Key Body :=
  match e.progress with
  | some key =>
    match s.pending key with
    | some id => s.overwrite id e
    | none =>
      if progressEventLimit ≤ s.progress.length then { s with next := s.next + 1, wake := true }
      else { s with progress := s.progress ++ [(key, s.next)] }.append e
  | none =>
    let s := s.settle e
    if criticalEventLimit ≤ s.critical then
      { s with next := s.next + 1, wake := true, alive := false }
    else { s with critical := s.critical + 1 }.append e

def step (s : Mailbox Key Body) (action : Action Key Body) : Mailbox Key Body :=
  if s.alive = false then s
  else
    match action, s.dispatcher with
    | .enqueue e, _ => s.enqueueEvent e
    | .look, .looking =>
      match s.queue with
      | [] => { s with dispatcher := .resting }
      | item :: _ => { s with dispatcher := .offering item.id item.entry }
    | .wakeUp, .resting | .wakeUp, .offering _ _ =>
      if s.wake then { s with wake := false, dispatcher := .looking } else s
    | .send, .offering id copy =>
      { s with delivered := s.delivered ++ [copy], dispatcher := .removing id }
    | .remove, .removing id => { s.removeEventLocked id with dispatcher := .looking }
    | _, _ => s

end Mailbox

end HomeTunnel.Engine
