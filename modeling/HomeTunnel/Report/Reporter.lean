import HomeTunnel.Lib.Runs
import HomeTunnel.Lib.Trace

/-! # The reporter of session events

One task sends heartbeats and the session events that its channel accepted. A step is what
happens between two waits: a wait ends with an answer, a timeout or the cancellation. An
accepted event is known by its number, since two events may have the same text.
-/

namespace HomeTunnel.Report

open Trace

variable {Event : Type}

/-- An accepted event with its number. -/
abbrev Entry (Event : Type) := Nat × Event

def retrySeconds : Nat → Nat
  | 0 => 30
  | 1 => 60
  | _ => 300

def channelCapacity : Nat := 256

def isSuccess (code : Nat) : Bool := decide (200 ≤ code ∧ code < 300)

def isClientError (code : Nat) : Bool := decide (400 ≤ code ∧ code < 500)

/-- An event with this answer is invalid and is not sent again. -/
def isRejection (code : Nat) : Bool :=
  isClientError code && code != 409 && code != 429 && code != 401

/-- What the task waits for. -/
inductive Wait (Event : Type)
  | payload
  | heartbeat
  | heartbeatPause (seconds : Nat)
  | event
  | session (entry : Entry Event)
  | sessionPause (seconds : Nat)
  | ended
deriving DecidableEq, Repr

/-- An answer without a status is a failure of the transport. -/
inductive Note (Event : Type)
  | accepted (entry : Entry Event)
  | beat (status : Option Nat)
  | post (entry : Entry Event)
  | answer (status : Option Nat)
deriving DecidableEq, Repr

structure State (Event : Type) where
  wait : Wait Event := .payload
  failures : Nat := 0
  eventFailures : Nat := 0
  pending : Option (Entry Event) := none
  queue : List (Entry Event) := []
  count : Nat := 0
  trace : List (Note Event) := []
deriving DecidableEq, Repr

inductive Action (Event : Type)
  | send (event : Event)
  | payload (found : Bool)
  | heartbeat (status : Option Nat)
  | wake
  | receive
  | deadline
  | disconnected
  | answer (status : Option Nat) (late : Bool)
  | cancel
deriving DecidableEq, Repr

namespace State

/-- The channel takes an event while it has room and the task lives. -/
def send (s : State Event) (event : Event) : State Event :=
  match s.wait with
  | .ended => s
  | _ =>
    if s.queue.length < channelCapacity then
      { s with
        queue := s.queue ++ [(s.count, event)]
        count := s.count + 1
        trace := .accepted (s.count, event) :: s.trace }
    else s

def heartbeatFailed (s : State Event) : State Event :=
  { s with wait := .heartbeatPause (retrySeconds s.failures), failures := s.failures + 1 }

def postSession (s : State Event) (entry : Entry Event) : State Event :=
  { s with wait := .session entry, trace := .post entry :: s.trace }

/-- The head of the inner loop. -/
def nextEvent (s : State Event) : State Event :=
  match s.pending with
  | some entry => { s with pending := none }.postSession entry
  | none => { s with wait := .event }

def heartbeatAnswer (s : State Event) (status : Option Nat) : State Event :=
  let s := { s with trace := .beat status :: s.trace }
  match status with
  | some code => if isSuccess code then { s with failures := 0 }.nextEvent else s.heartbeatFailed
  | none => s.heartbeatFailed

/-- The end of the inner loop's body. -/
def moveOn (s : State Event) (late : Bool) : State Event :=
  if late then { s with wait := .payload } else s.nextEvent

def postpone (s : State Event) (entry : Entry Event) : State Event :=
  { s with
    pending := some entry
    wait := .sessionPause (retrySeconds s.eventFailures)
    eventFailures := s.eventFailures + 1 }

def sessionAnswer (s : State Event) (entry : Entry Event) (status : Option Nat) (late : Bool) :
    State Event :=
  let s := { s with trace := .answer status :: s.trace }
  match status with
  | some code =>
    if isSuccess code then { s with eventFailures := 0 }.moveOn late
    else if isRejection code then s.moveOn late
    else s.postpone entry
  | none => s.postpone entry

/-- What does not fit the wait does not happen. -/
def step (s : State Event) (action : Action Event) : State Event :=
  match action, s.wait with
  | .send event, _ => s.send event
  | .cancel, _ => { s with wait := .ended }
  | .payload true, .payload => { s with wait := .heartbeat }
  | .payload false, .payload => s.heartbeatFailed
  | .heartbeat status, .heartbeat => s.heartbeatAnswer status
  | .wake, .heartbeatPause _ | .wake, .sessionPause _ => { s with wait := .payload }
  | .receive, .event =>
    match s.queue with
    | [] => s
    | entry :: rest => { s with queue := rest }.postSession entry
  | .deadline, .event => { s with wait := .payload }
  | .disconnected, .event => { s with wait := .ended }
  | .answer status late, .session entry => s.sessionAnswer entry status late
  | _, _ => s

end State

/-- The accepted events, newest first. -/
def accepted (trace : List (Note Event)) : List (Entry Event) :=
  trace.filterMap fun
    | .accepted entry => some entry
    | _ => none

/-- The posted events, newest first. -/
def posts (trace : List (Note Event)) : List (Entry Event) :=
  trace.filterMap fun
    | .post entry => some entry
    | _ => none

/-- The event is delivered or rejected with this answer. -/
def settles : Option Nat → Bool
  | some code => isSuccess code || isRejection code
  | none => false

/-- The event of the latest post, if no answer has settled it. -/
def unsettled : List (Note Event) → Option (Entry Event)
  | [] => none
  | .post entry :: _ => some entry
  | .answer status :: past => if settles status then none else unsettled past
  | .accepted _ :: past | .beat _ :: past => unsettled past

def Note.Beats : Note Event → Prop
  | .beat (some code) => isSuccess code = true
  | _ => False

def Note.Fails : Note Event → Prop
  | .answer status => settles status = false
  | _ => False

/-- A post repeats the unsettled event, and a heartbeat succeeded since the last failure. -/
def RightPost (note : Note Event) (past : List (Note Event)) : Prop :=
  ∀ entry, note = .post entry →
    (∀ other, unsettled past = some other → entry = other) ∧ Since Note.Beats Note.Fails past

theorem posts_of_unsettled {trace : List (Note Event)} {entry : Entry Event}
    (h : unsettled trace = some entry) : ∃ rest, posts trace = entry :: rest := by
  induction trace with
  | nil => cases h
  | cons note past ih =>
    cases note with
    | post other =>
      cases h
      exact ⟨posts past, rfl⟩
    | answer status =>
      rw [unsettled] at h
      split at h
      · cases h
      · exact ih h
    | accepted _ | beat _ => exact ih h

variable [DecidableEq Event]

/-- What was accepted has been posted, in its order, or waits in the channel. -/
structure Ledger (queue : List (Entry Event)) (count : Nat) (trace : List (Note Event)) : Prop where
  order : accepted trace = queue.reverse ++ (posts trace).destutter (· ≠ ·)
  numbered : ∀ entry ∈ accepted trace, entry.1 < count
  nodup : (accepted trace).Nodup
  right : Each RightPost trace

variable {queue : List (Entry Event)} {count : Nat} {trace : List (Note Event)}
  {entry : Entry Event}

theorem Ledger.accept (h : Ledger queue count trace) (event : Event) :
    Ledger (queue ++ [(count, event)]) (count + 1) (.accepted (count, event) :: trace) := by
  have hnew : (count, event) ∉ accepted trace := fun hmem =>
    Nat.lt_irrefl _ (h.numbered _ hmem)
  refine ⟨?_, ?_, List.nodup_cons.mpr ⟨hnew, h.nodup⟩, nofun, h.right⟩
  · change _ :: accepted trace = (queue ++ [_]).reverse ++ _
    rw [List.reverse_append, h.order]
    rfl
  · intro entry hentry
    rcases List.mem_cons.mp hentry with rfl | hentry
    · exact Nat.lt_succ_self _
    · exact (h.numbered entry hentry).trans (Nat.lt_succ_self _)

/-- Heartbeats and answers leave the ledger as it is. -/
theorem Ledger.beat (h : Ledger queue count trace) (status : Option Nat) :
    Ledger queue count (.beat status :: trace) :=
  ⟨h.order, h.numbered, h.nodup, nofun, h.right⟩

theorem Ledger.answer (h : Ledger queue count trace) (status : Option Nat) :
    Ledger queue count (.answer status :: trace) :=
  ⟨h.order, h.numbered, h.nodup, nofun, h.right⟩

theorem Ledger.post_again (h : Ledger queue count trace) (hheld : unsettled trace = some entry)
    (hbeaten : Since Note.Beats Note.Fails trace) : Ledger queue count (.post entry :: trace) := by
  obtain ⟨rest, hrest⟩ := posts_of_unsettled hheld
  refine ⟨?_, h.numbered, h.nodup, ?_, h.right⟩
  · change accepted trace = queue.reverse ++ (entry :: posts trace).destutter _
    rw [h.order, hrest, List.destutter_cons_cons, if_neg (by simp)]
    rfl
  · rintro _ ⟨⟩
    refine ⟨fun other hother => ?_, hbeaten⟩
    rw [hheld] at hother
    exact Option.some.inj hother

/-- The next accepted event is posted. It is new, so it is not merged with the last post. -/
theorem Ledger.post_next (h : Ledger (entry :: queue) count trace) (hheld : unsettled trace = none)
    (hbeaten : Since Note.Beats Note.Fails trace) : Ledger queue count (.post entry :: trace) := by
  have horder := h.order
  rw [List.reverse_cons, List.append_assoc, List.singleton_append] at horder
  refine ⟨?_, h.numbered, h.nodup, ?_, h.right⟩
  · change accepted trace = queue.reverse ++ (entry :: posts trace).destutter _
    rw [horder]
    cases hposts : posts trace with
    | nil => rfl
    | cons last earlier =>
      have hne : entry ≠ last := by
        rintro rfl
        have hnodup := (List.nodup_append.mp (horder ▸ h.nodup)).2.1
        rw [hposts] at hnodup
        exact (List.nodup_cons.mp hnodup).1 (List.mem_destutter' _ _ _)
      rw [List.destutter_cons_cons, if_pos hne]
      rfl
  · rintro _ ⟨⟩
    refine ⟨fun other hother => ?_, hbeaten⟩
    rw [hheld] at hother
    cases hother

/-- What the task has in hand while it waits there. -/
def State.Position (s : State Event) : Prop :=
  match s.wait with
  | .ended => True
  | .session entry => unsettled s.trace = some entry ∧ s.pending = none ∧
      Since Note.Beats Note.Fails s.trace
  | .event => unsettled s.trace = none ∧ s.pending = none ∧ Since Note.Beats Note.Fails s.trace
  | _ => unsettled s.trace = s.pending

structure Inv (s : State Event) : Prop where
  ledger : Ledger s.queue s.count s.trace
  position : s.Position

variable {s : State Event}

theorem Inv.nextEvent (h : Ledger s.queue s.count s.trace) (hheld : unsettled s.trace = s.pending)
    (hbeaten : Since Note.Beats Note.Fails s.trace) : Inv s.nextEvent := by
  unfold State.nextEvent
  cases hpending : s.pending with
  | none => exact ⟨h, hheld.trans hpending, rfl, hbeaten⟩
  | some entry => exact ⟨h.post_again (hheld.trans hpending) hbeaten, rfl, rfl, hbeaten.cons id⟩

theorem Inv.moveOn (h : Ledger s.queue s.count s.trace) (hheld : unsettled s.trace = s.pending)
    (hbeaten : Since Note.Beats Note.Fails s.trace) (late : Bool) : Inv (s.moveOn late) := by
  unfold State.moveOn
  split
  · exact ⟨h, hheld⟩
  · exact Inv.nextEvent h hheld hbeaten

theorem Inv.heartbeatAnswer (h : Ledger s.queue s.count s.trace)
    (hheld : unsettled s.trace = s.pending) (status : Option Nat) :
    Inv (s.heartbeatAnswer status) := by
  have hledger := h.beat status
  unfold State.heartbeatAnswer
  cases status with
  | none => exact ⟨hledger, hheld⟩
  | some code =>
    by_cases hcode : isSuccess code = true
    · simp only [hcode, if_true]
      exact Inv.nextEvent hledger hheld (Since.now hcode)
    · simp only [hcode]
      exact ⟨hledger, hheld⟩

theorem Inv.sessionAnswer (h : Ledger s.queue s.count s.trace)
    (hheld : unsettled s.trace = some entry) (hpending : s.pending = none)
    (hbeaten : Since Note.Beats Note.Fails s.trace) (status : Option Nat) (late : Bool) :
    Inv (s.sessionAnswer entry status late) := by
  have hledger := h.answer status
  have hpostponed (hfails : settles status = false) :
      unsettled (.answer status :: s.trace) = some entry := by
    rw [unsettled, hfails]
    exact hheld
  have hsettled (hsettles : settles status = true) :
      unsettled (.answer status :: s.trace) = s.pending ∧
        Since Note.Beats Note.Fails (.answer status :: s.trace) := by
    refine ⟨by rw [unsettled, if_pos hsettles, hpending], hbeaten.cons ?_⟩
    intro hfails
    rw [Note.Fails, hsettles] at hfails
    cases hfails
  unfold State.sessionAnswer
  cases status with
  | none => exact ⟨hledger, hpostponed rfl⟩
  | some code =>
    by_cases hsuccess : isSuccess code = true
    · simp only [hsuccess, if_true]
      obtain ⟨hnone, hsince⟩ := hsettled (by rw [settles, hsuccess, Bool.true_or])
      exact Inv.moveOn hledger hnone hsince late
    · by_cases hrejected : isRejection code = true
      · simp only [hsuccess, hrejected, if_true]
        obtain ⟨hnone, hsince⟩ := hsettled (by rw [settles, hrejected, Bool.or_true])
        exact Inv.moveOn hledger hnone hsince late
      · simp only [hsuccess, hrejected]
        exact ⟨hledger, hpostponed (by simp [settles, hsuccess, hrejected])⟩

theorem Inv.send (h : Inv s) (event : Event) : Inv (s.send event) := by
  obtain ⟨hledger, hposition⟩ := h
  unfold State.send
  cases hwait : s.wait with
  | ended => exact ⟨hledger, hposition⟩
  | _ =>
    simp only
    split
    · refine ⟨hledger.accept event, ?_⟩
      simp only [State.Position, hwait] at hposition ⊢
      first
        | exact hposition
        | exact ⟨hposition.1, hposition.2.1, hposition.2.2.cons id⟩
    · exact ⟨hledger, hposition⟩

theorem Inv.step (h : Inv s) (action : Action Event) : Inv (s.step action) := by
  have hledger := h.ledger
  have hposition := h.position
  unfold State.Position at hposition
  unfold State.step
  split
  · exact h.send _
  · exact ⟨hledger, trivial⟩
  · next hwait =>
    rw [hwait] at hposition
    exact ⟨hledger, hposition⟩
  · next hwait =>
    rw [hwait] at hposition
    exact ⟨hledger, hposition⟩
  · next hwait =>
    rw [hwait] at hposition
    exact Inv.heartbeatAnswer hledger hposition _
  · next hwait =>
    rw [hwait] at hposition
    exact ⟨hledger, hposition⟩
  · next hwait =>
    rw [hwait] at hposition
    exact ⟨hledger, hposition⟩
  · next hwait =>
    rw [hwait] at hposition
    obtain ⟨hheld, hpending, hbeaten⟩ := hposition
    cases hqueue : s.queue with
    | nil => exact h
    | cons entry rest =>
      rw [hqueue] at hledger
      exact ⟨hledger.post_next hheld hbeaten, rfl, hpending, hbeaten.cons id⟩
  · next hwait =>
    rw [hwait] at hposition
    exact ⟨hledger, hposition.1.trans hposition.2.1.symm⟩
  · exact ⟨hledger, trivial⟩
  · next hwait =>
    rw [hwait] at hposition
    obtain ⟨hheld, hpending, hbeaten⟩ := hposition
    exact Inv.sessionAnswer hledger hheld hpending hbeaten _ _
  · exact h

/-- With repetitions merged, the posted events are the first of the accepted ones, in their order
(traces are newest first). The task leaves an event only after an answer that settles it, and
posts only after a heartbeat that succeeded later than any failed post. -/
theorem session_events_in_order (actions : List (Action Event)) :
    Runs.Always State.step (fun s : State Event =>
      (posts s.trace).destutter (· ≠ ·) <:+ accepted s.trace ∧ Each RightPost s.trace)
      {} actions := by
  have hstart : Inv ({} : State Event) := ⟨⟨rfl, nofun, List.nodup_nil, trivial⟩, rfl⟩
  have halways : Runs.Always State.step Inv {} actions :=
    Runs.always_of_step (fun s action h => h.step action) hstart
  refine halways.mono fun s h => ?_
  exact ⟨⟨_, h.ledger.order.symm⟩, h.ledger.right⟩

end HomeTunnel.Report
