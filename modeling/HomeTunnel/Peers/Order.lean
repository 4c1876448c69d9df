import HomeTunnel.Lib.Runs
import HomeTunnel.Peers.Service

/-! # Early messages keep their order

The run loop delivers peer messages while the approval starts the engine and empties the
queue. What has arrived is at every moment what was signalled, followed by what the flush
holds, the queue and what the run loop holds: a message in the run loop's own hands means
that the flush is over and the queue empty.
-/

namespace HomeTunnel.Host.Peers

def Loop.held : Loop → List Message
  | .waiting => []
  | .verifying m | .signalling m => [m]

def Flush.held : Flush → List Message
  | .entering m | .verifying m | .signalling m => [m]
  | .starting | .looping | .returned _ => []

namespace State

/-- Messages that have arrived and have not been signalled, in order. -/
def underWay (s : State) : List Message := s.flush.held ++ s.running.peerQueue ++ s.loop.held

/-- No message was refused and the session is not stopped. -/
structure Undisturbed (s : State) : Prop where
  accepted : s.refused = false
  current : s.current = true
  running : s.running.closing = false

/-- What the position of the flush says of the session and of the run loop. -/
def Phase (s : State) : Prop :=
  match s.flush with
  | .starting => s.running.started = false ∧ s.loop = .waiting
  | .looping | .entering _ | .verifying _ | .signalling _ =>
    s.running.started = true ∧ s.running.peerFlushing = true ∧ s.loop = .waiting
  | .returned ok =>
    ok = true ∧ s.running.started = true ∧ s.running.peerFlushing = false ∧
      s.running.peerQueue = []

/-- Nothing is lost, doubled or overtaken. -/
structure InOrder (s : State) : Prop where
  balance : s.arrived = s.signalled ++ s.underWay
  phase : s.Phase

theorem inOrder_fresh (session : Session) : (fresh session).InOrder := ⟨rfl, rfl, rfl⟩

/-- What admitting a message leaves alone. -/
structure SameQueue (r t : Running) : Prop where
  closing : t.closing = r.closing
  started : t.started = r.started
  flushing : t.peerFlushing = r.peerFlushing
  queue : t.peerQueue = r.peerQueue

variable {C : Curve} {s : State} {m : Message} {now : Int}

theorem letIn_sameQueue {result : UInt64 × Running} (h : s.letIn C m now = some result) :
    SameQueue s.running result.2 := by
  unfold State.letIn at h
  split at h
  · cases h
  · obtain ⟨t, ht, rfl⟩ := Option.map_eq_some_iff.mp h
    unfold Running.letIn at ht
    split at ht
    · cases ht
    · cases ht
      exact ⟨rfl, rfl, rfl, rfl⟩

/-- An arrival is queued while the flush goes on, and taken in hand when it is over. -/
theorem arrive_inOrder (hloop : s.loop = .waiting) (hs : s.Undisturbed → s.InOrder)
    (hafter : (s.arrive m).Undisturbed) : (s.arrive m).InOrder := by
  unfold State.arrive at hafter ⊢
  dsimp only at hafter ⊢
  split at hafter
  · cases hafter.accepted
  rename_i havailable
  rw [if_neg havailable]
  split at hafter
  · rename_i hwaits
    rw [if_pos hwaits]
    split at hafter
    · rename_i hallows
      rw [if_pos hallows]
      obtain ⟨hbalance, hphase⟩ := hs ⟨hafter.accepted, hafter.current, hafter.running⟩
      constructor
      · simp only [underWay, Running.enqueue, hbalance, hloop, Loop.held]
        simp
      · unfold Phase at hphase ⊢
        cases hflush : s.flush with
        | returned ok =>
          simp only [hflush] at hphase
          simp [Running.waits, hphase] at hwaits
        | _ => simpa [hflush, Running.enqueue] using hphase
    · cases hafter.accepted
  · rename_i hgoes
    rw [if_neg hgoes]
    obtain ⟨hbalance, hphase⟩ := hs ⟨hafter.accepted, hafter.current, hafter.running⟩
    unfold Phase at hphase
    cases hflush : s.flush with
    | returned ok =>
      simp only [hflush] at hphase
      constructor
      · simp [underWay, hbalance, hloop, Loop.held, hflush, Flush.held, hphase.2.2.2]
      · unfold Phase
        simpa only [hflush] using hphase
    | _ =>
      simp only [hflush] at hphase
      simp [Running.waits, hphase] at hgoes

/-- The run loop's message moves on in its hands. -/
theorem admitArrived_inOrder (hloop : s.loop = .verifying m) (hs : s.Undisturbed → s.InOrder)
    (hafter : (s.step C (.admitArrived now)).Undisturbed) :
    (s.step C (.admitArrived now)).InOrder := by
  unfold State.step at hafter ⊢
  simp only [hloop] at hafter ⊢
  cases hletIn : s.letIn C m now with
  | none =>
    rw [hletIn] at hafter
    cases hafter.accepted
  | some result =>
    rw [hletIn] at hafter
    have hsame := letIn_sameQueue hletIn
    obtain ⟨hbalance, hphase⟩ :=
      hs ⟨hafter.accepted, hafter.current, hsame.closing.symm.trans hafter.running⟩
    constructor
    · simpa [underWay, hloop, Loop.held, hsame.queue] using hbalance
    · unfold Phase at hphase ⊢
      cases hflush : s.flush with
      | returned ok => simpa [hflush, hsame.started, hsame.flushing, hsame.queue] using hphase
      | _ => simp [hflush, hloop] at hphase

theorem signalArrived_inOrder {ok : Bool} (hloop : s.loop = .signalling m)
    (hs : s.Undisturbed → s.InOrder) (hafter : (s.step C (.signalArrived ok)).Undisturbed) :
    (s.step C (.signalArrived ok)).InOrder := by
  unfold State.step at hafter ⊢
  simp only [hloop] at hafter ⊢
  have haccepted : s.refused = false := (Bool.or_eq_false_iff.mp hafter.accepted).1
  obtain ⟨hbalance, hphase⟩ := hs ⟨haccepted, hafter.current, hafter.running⟩
  unfold Phase at hphase
  cases hflush : s.flush with
  | returned ok' =>
    simp only [hflush] at hphase
    constructor
    · simp [underWay, State.signal, hbalance, hloop, Loop.held, hflush, Flush.held, hphase.2.2.2]
    · unfold Phase
      simpa only [State.signal, hflush] using hphase
  | _ => simp [hflush, hloop] at hphase

/-- Starting and emptying the queue go on in one section each. -/
theorem start_inOrder (hflush : s.flush = .starting) (hs : s.Undisturbed → s.InOrder)
    (hafter : s.startSession.Undisturbed) : s.startSession.InOrder := by
  unfold State.startSession at hafter ⊢
  split at hafter
  · rename_i hstopped
    have hcurrent : s.current = true := hafter.current
    have hrunning : s.running.closing = false := hafter.running
    simp [hcurrent, hrunning] at hstopped
  · rename_i hgoes
    rw [if_neg hgoes]
    obtain ⟨hbalance, hphase⟩ := hs ⟨hafter.accepted, hafter.current, hafter.running⟩
    unfold Phase at hphase
    rw [hflush] at hphase
    constructor
    · simpa [underWay, hflush, Flush.held] using hbalance
    · exact ⟨rfl, rfl, hphase.2⟩

theorem next_inOrder (hflush : s.flush = .looping) (hs : s.Undisturbed → s.InOrder)
    (hafter : s.nextQueued.Undisturbed) : s.nextQueued.InOrder := by
  unfold State.nextQueued at hafter ⊢
  split at hafter
  · rename_i hstopped
    have hcurrent : s.current = true := hafter.current
    have hrunning : s.running.closing = false := hafter.running
    simp [hcurrent, hrunning] at hstopped
  · rename_i hgoes
    rw [if_neg hgoes]
    cases hqueue : s.running.peerQueue with
    | nil =>
      simp only [hqueue] at hafter
      obtain ⟨hbalance, hphase⟩ := hs ⟨hafter.accepted, hafter.current, hafter.running⟩
      unfold Phase at hphase
      rw [hflush] at hphase
      constructor
      · simpa [underWay, hflush, Flush.held, hqueue] using hbalance
      · exact ⟨rfl, hphase.1, rfl, hqueue⟩
    | cons m queue =>
      simp only [hqueue] at hafter
      obtain ⟨hbalance, hphase⟩ := hs ⟨hafter.accepted, hafter.current, hafter.running⟩
      unfold Phase at hphase
      rw [hflush] at hphase
      constructor
      · simpa [underWay, hflush, Flush.held, hqueue] using hbalance
      · exact hphase

theorem admitQueued_inOrder (hflush : s.flush = .verifying m) (hs : s.Undisturbed → s.InOrder)
    (hafter : (s.step C (.admitQueued now)).Undisturbed) :
    (s.step C (.admitQueued now)).InOrder := by
  unfold State.step at hafter ⊢
  simp only [hflush] at hafter ⊢
  cases hletIn : s.letIn C m now with
  | none =>
    rw [hletIn] at hafter
    cases hafter.accepted
  | some result =>
    rw [hletIn] at hafter
    have hsame := letIn_sameQueue hletIn
    obtain ⟨hbalance, hphase⟩ :=
      hs ⟨hafter.accepted, hafter.current, hsame.closing.symm.trans hafter.running⟩
    unfold Phase at hphase
    rw [hflush] at hphase
    constructor
    · simpa [underWay, hflush, Flush.held, hsame.queue] using hbalance
    · exact ⟨hsame.started.trans hphase.1, hsame.flushing.trans hphase.2.1, hphase.2.2⟩

theorem signalQueued_inOrder {ok : Bool} (hflush : s.flush = .signalling m)
    (hs : s.Undisturbed → s.InOrder) (hafter : (s.step C (.signalQueued ok)).Undisturbed) :
    (s.step C (.signalQueued ok)).InOrder := by
  unfold State.step at hafter ⊢
  simp only [hflush] at hafter ⊢
  obtain ⟨haccepted, hok⟩ := Bool.or_eq_false_iff.mp hafter.accepted
  obtain ⟨hbalance, hphase⟩ := hs ⟨haccepted, hafter.current, hafter.running⟩
  unfold Phase at hphase
  rw [hflush] at hphase
  rw [Bool.not_eq_false'] at hok
  subst hok
  constructor
  · simp [underWay, State.signal, hbalance, hflush, Flush.held]
  · exact hphase

/-- An action that is not due changes nothing. -/
theorem inOrder_of_same {t : State} (h : t = s) (hs : s.Undisturbed → s.InOrder)
    (hafter : t.Undisturbed) : t.InOrder := by
  subst h
  exact hs hafter

theorem step_inOrder (C : Curve) (s : State) (action : Action) (hs : s.Undisturbed → s.InOrder)
    (hafter : (s.step C action).Undisturbed) : (s.step C action).InOrder := by
  cases action with
  | arrive m =>
    cases hloop : s.loop with
    | waiting =>
      have hstep : s.step C (.arrive m) = s.arrive m := by simp [State.step, hloop]
      rw [hstep] at hafter ⊢
      exact arrive_inOrder hloop hs hafter
    | _ => exact inOrder_of_same (by simp [State.step, hloop]) hs hafter
  | admitArrived now =>
    cases hloop : s.loop with
    | verifying m => exact admitArrived_inOrder hloop hs hafter
    | _ => exact inOrder_of_same (by simp [State.step, hloop]) hs hafter
  | signalArrived ok =>
    cases hloop : s.loop with
    | signalling m => exact signalArrived_inOrder hloop hs hafter
    | _ => exact inOrder_of_same (by simp [State.step, hloop]) hs hafter
  | start =>
    cases hflush : s.flush with
    | starting =>
      have hstep : s.step C .start = s.startSession := by simp [State.step, hflush]
      rw [hstep] at hafter ⊢
      exact start_inOrder hflush hs hafter
    | _ => exact inOrder_of_same (by simp [State.step, hflush]) hs hafter
  | next =>
    cases hflush : s.flush with
    | looping =>
      have hstep : s.step C .next = s.nextQueued := by simp [State.step, hflush]
      rw [hstep] at hafter ⊢
      exact next_inOrder hflush hs hafter
    | _ => exact inOrder_of_same (by simp [State.step, hflush]) hs hafter
  | enterQueued =>
    cases hflush : s.flush with
    | entering m =>
      unfold State.step at hafter ⊢
      simp only [hflush] at hafter ⊢
      split at hafter
      · rename_i henters
        rw [if_pos henters]
        obtain ⟨hbalance, hphase⟩ := hs ⟨hafter.accepted, hafter.current, hafter.running⟩
        unfold Phase at hphase
        rw [hflush] at hphase
        constructor
        · simpa [underWay, hflush, Flush.held] using hbalance
        · exact hphase
      · cases hafter.accepted
    | _ => exact inOrder_of_same (by simp [State.step, hflush]) hs hafter
  | admitQueued now =>
    cases hflush : s.flush with
    | verifying m => exact admitQueued_inOrder hflush hs hafter
    | _ => exact inOrder_of_same (by simp [State.step, hflush]) hs hafter
  | signalQueued ok =>
    cases hflush : s.flush with
    | signalling m => exact signalQueued_inOrder hflush hs hafter
    | _ => exact inOrder_of_same (by simp [State.step, hflush]) hs hafter
  | stop released => cases hafter.running

/-- The goroutine that is next when nothing else happens: the approval, then the run loop. -/
def due (s : State) (now : Int) : Action :=
  match s.flush with
  | .starting => .start
  | .looping => .next
  | .entering _ => .enterQueued
  | .verifying _ => .admitQueued now
  | .signalling _ => .signalQueued true
  | .returned _ =>
    match s.loop with
    | .signalling _ => .signalArrived true
    | _ => .admitArrived now

/-- Both goroutines go on by themselves, with the given readings of the clock. -/
def settle (C : Curve) (s : State) : List Int → State
  | [] => s
  | now :: times => settle C (s.step C (s.due now)) times

/-- How many steps the two goroutines have before them. -/
def work (s : State) : Nat :=
  let queued := 4 * s.running.peerQueue.length
  (match s.flush with
    | .starting => queued + 2
    | .looping => queued + 1
    | .entering _ => queued + 4
    | .verifying _ => queued + 3
    | .signalling _ => queued + 2
    | .returned _ => 0) +
  (match s.loop with
    | .waiting => 0
    | .verifying _ => 2
    | .signalling _ => 1)

/-- Neither goroutine has anything in hand and the flush is over. -/
def Idle (s : State) : Prop := s.loop = .waiting ∧ ∃ ok, s.flush = .returned ok

theorem idle_of_work (h : s.work = 0) : s.Idle := by
  unfold work at h
  cases hflush : s.flush with
  | returned ok =>
    cases hloop : s.loop with
    | waiting => exact ⟨hloop, ok, hflush⟩
    | _ => simp [hflush, hloop] at h
  | _ => simp [hflush] at h

/-- The goroutine that is due does some of the work, and nothing arrives. -/
theorem step_due (C : Curve) (s : State) (now : Int) :
    (s.step C (s.due now)).work ≤ s.work - 1 ∧ (s.step C (s.due now)).arrived = s.arrived := by
  cases hflush : s.flush with
  | starting =>
    simp only [due, hflush, State.step, State.startSession]
    split <;> refine ⟨?_, rfl⟩ <;> simp only [work, hflush] <;> omega
  | looping =>
    simp only [due, hflush, State.step, State.nextQueued]
    split
    · refine ⟨?_, rfl⟩
      simp only [work, hflush]
      omega
    · split
      · refine ⟨?_, rfl⟩
        simp only [work, hflush]
        omega
      · rename_i m queue hqueue
        refine ⟨?_, rfl⟩
        simp only [work, hflush, hqueue, List.length_cons]
        omega
  | entering m =>
    simp only [due, hflush, State.step]
    split <;> refine ⟨?_, rfl⟩ <;> simp only [work, hflush, State.refuseQueued] <;> omega
  | verifying m =>
    simp only [due, hflush, State.step]
    cases hletIn : s.letIn C m now with
    | none =>
      refine ⟨?_, rfl⟩
      simp only [work, hflush, State.refuseQueued]
      omega
    | some result =>
      refine ⟨?_, rfl⟩
      simp only [work, hflush, (letIn_sameQueue hletIn).queue]
      omega
  | signalling m =>
    simp only [due, hflush, State.step, State.signal]
    refine ⟨?_, trivial⟩
    simp only [work, ↓reduceIte, hflush]
    omega
  | returned ok =>
    cases hloop : s.loop with
    | waiting => simp [due, hflush, State.step, hloop, work]
    | verifying m =>
      simp only [due, hflush, State.step, hloop]
      cases hletIn : s.letIn C m now with
      | none => simp [work, hflush, State.refuseArrived]
      | some result => simp [work, hflush, hloop]
    | signalling m => simp [due, hflush, State.step, hloop, State.signal, work]

/-- Left to themselves the two goroutines come to rest. -/
theorem settle_idle (C : Curve) (times : List Int) (s : State) (h : s.work ≤ times.length) :
    (s.settle C times).Idle := by
  induction times generalizing s with
  | nil => exact idle_of_work (Nat.le_zero.mp h)
  | cons now times ih =>
    rw [settle]
    apply ih
    have hstep := (step_due C s now).1
    rw [List.length_cons] at h
    omega

theorem settle_inOrder (C : Curve) (times : List Int) (s : State)
    (hs : s.Undisturbed → s.InOrder) :
    ((s.settle C times).Undisturbed → (s.settle C times).InOrder) ∧
      (s.settle C times).arrived = s.arrived := by
  induction times generalizing s with
  | nil => exact ⟨hs, rfl⟩
  | cons now times ih =>
    rw [settle]
    obtain ⟨hinOrder, harrived⟩ := ih (s.step C (s.due now)) (step_inOrder C s _ hs)
    exact ⟨hinOrder, harrived.trans (step_due C s now).2⟩

theorem signalled_of_idle (h : s.InOrder) (hidle : s.Idle) : s.signalled = s.arrived := by
  obtain ⟨hbalance, hphase⟩ := h
  obtain ⟨hloop, ok, hflush⟩ := hidle
  unfold Phase at hphase
  rw [hflush] at hphase
  rw [hbalance, underWay, hflush, hloop, hphase.2.2.2]
  simp [Flush.held, Loop.held]

end State

/-- Every state of an undisturbed run: what was signalled is the beginning of what arrived, and
the rest is under way in its order. Left to themselves the two goroutines come to rest, and then
everything that arrived has been signalled, once and in its order. -/
theorem peer_messages_signalled_in_order (C : Curve) (session : Session) (actions : List Action) :
    Runs.Always (State.step C)
      (fun s =>
        (s.Undisturbed → s.arrived = s.signalled ++ s.underWay) ∧
        ∀ times : List Int, s.work ≤ times.length →
          (s.settle C times).Idle ∧
          ((s.settle C times).Undisturbed → (s.settle C times).signalled = s.arrived))
      (State.fresh session) actions := by
  have hinvariant : Runs.Always (State.step C) (fun s => s.Undisturbed → s.InOrder)
      (State.fresh session) actions :=
    Runs.always_of_step (fun s action hs => State.step_inOrder C s action hs)
      fun _ => State.inOrder_fresh session
  refine hinvariant.mono fun s hs => ⟨fun h => (hs h).balance, fun times htimes => ?_⟩
  have hidle := State.settle_idle C times s htimes
  obtain ⟨hinOrder, harrived⟩ := State.settle_inOrder C times s hs
  refine ⟨hidle, fun h => ?_⟩
  rw [← harrived]
  exact State.signalled_of_idle (hinOrder h) hidle

end HomeTunnel.Host.Peers
