import HomeTunnel.Host.Approvals

/-! # Approvals and the worker

The approvals of a service together with the worker that they talk to. The worker knows sessions
by their references only, and several running records may share one: a session whose first
approval failed may be approved again. Closing a session that the worker holds produces one
`closed` event, which the run loop delivers later; closing any other one is answered and does
nothing. A call that is cancelled or times out ends the worker, and its events are lost.
-/

namespace HomeTunnel.Host.Sessions

open Approvals (Pc)

/-- What has happened on the service and on its engine. -/
inductive Entry (Who Ref : Type)
  | claim (w : Who)
  | prepare (w : Who)
  | start (w : Who)
  | close (ref : Ref)
  -- a `Stop` or a newer epoch of the session marks the active record
  | stop (w : Who)
deriving DecidableEq, Repr

/-- The service and its worker. `stops` are the calls that have marked a record and still have to
make their `Engine.Close`, `confirms` those whose close has failed; `deadline` says which records
have one; the log has the newest entry first. -/
structure Service (Who Ref : Type) where
  generation : UInt64
  disabled : Bool
  active : Option Who
  closing : Who → Bool
  stopped : Who → Bool
  superseded : Who → Bool
  deadline : Who → Bool
  engineMu : Option Who
  stops : List Who
  confirms : List Who
  pc : Who → Pc Who
  -- whether the engine has failed, the session that its worker holds and the undelivered events
  failed : Bool
  worker : Option Ref
  events : List Ref
  -- the record whose event the run loop has looked up and is about to acknowledge
  acknowledging : Option Who
  log : List (Entry Who Ref)

section Machine

variable {Who Ref : Type} [DecidableEq Who] [DecidableEq Ref] (ref : Who → Ref)

namespace Service

def moveTo (s : Service Who Ref) (w : Who) (pc : Pc Who) : Service Who Ref :=
  { s with pc := Function.update s.pc w pc }

def note (s : Service Who Ref) (entry : Entry Who Ref) : Service Who Ref :=
  { s with log := entry :: s.log }

def unlock (s : Service Who Ref) : Service Who Ref := { s with engineMu := none }

/-- A wait for `engineMu`. -/
def lock (s : Service Who Ref) (w : Who) (pc : Pc Who) : Service Who Ref :=
  match s.engineMu with
  | some _ => s
  | none => { s with engineMu := some w }.moveTo w pc

def stale (s : Service Who Ref) (w : Who) (generation : UInt64) : Bool :=
  s.active ≠ some w || s.closing w || generation != s.generation || s.disabled

/-- The worker's session ends, and the worker says so. -/
def workerCloses (s : Service Who Ref) (r : Ref) : Service Who Ref :=
  if s.worker = some r then { s with worker := none, events := s.events ++ [r] } else s

def engineClose (s : Service Who Ref) (r : Ref) : Service Who Ref :=
  (s.note (.close r)).workerCloses r

/-- An accepted `PrepareSession`; the session that was there before is replaced. -/
def enginePrepare (s : Service Who Ref) (r : Ref) : Service Who Ref :=
  { s with worker := some r, events := s.events ++ s.worker.toList }

/-- The answer to `Start`: only the session that is held can be started, and a refusal ends it. -/
def engineStart (s : Service Who Ref) (r : Ref) (ok : Bool) : Bool × Service Who Ref :=
  if s.worker = some r then
    if ok then (true, s) else (false, s.workerCloses r)
  else (false, s)

/-- The section of `stopLocal`: the generation moves on and the active record is marked. -/
def mark (s : Service Who Ref) : Service Who Ref :=
  match s.active with
  | none => { s with generation := s.generation + 1 }
  | some r =>
    { s with
      generation := s.generation + 1
      closing := Function.update s.closing r true }.note (.stop r)

/-- `recordStopped`; it gives up when there is no proof to keep, unless a newer epoch has replaced
the session. -/
def recordStopped (s : Service Who Ref) (r : Who) (proof : Bool) : Service Who Ref :=
  if s.active ≠ some r ∨ s.stopped r ∨ (!s.superseded r && !proof) then s
  else
    { s with
      active := none
      closing := Function.update s.closing r true
      stopped := Function.update s.stopped r true }

/-- One section of `approveSession`; `ok` is how a wait, an engine call or a check of what it
returned ends. -/
def approve (s : Service Who Ref) (w : Who) (ok : Bool) : Service Who Ref :=
  match s.pc w with
  | .sample => if s.disabled then s.moveTo w .done else s.moveTo w (.load s.generation)
  | .load g => s.moveTo w (if ok then .claim g else .done)
  | .claim g =>
    if s.active.isSome ∨ g ≠ s.generation ∨ s.disabled then s.moveTo w .done
    else ({ s with active := some w }.note (.claim w)).moveTo w (.lockPrepare g)
  | .lockPrepare g => s.lock w (.checkPrepare g)
  | .checkPrepare g =>
    if s.stale w g then s.unlock.moveTo w .cleanup
    else (s.note (.prepare w)).moveTo w (.prepare g)
  | .prepare g =>
    if ok && !s.failed then (s.enginePrepare (ref w)).unlock.moveTo w (.bindGrant g)
    else s.unlock.moveTo w .cleanup
  | .bindGrant g => s.moveTo w (if ok then .decision g else .cleanup)
  | .decision g => s.moveTo w (if ok then .iceServers g else .cleanup)
  | .iceServers g => s.moveTo w (if ok then .lockStart g else .cleanup)
  | .lockStart g => s.lock w (.commit g)
  | .commit g =>
    if s.stale w g then s.unlock.moveTo w .cleanup
    else
      ({ s with deadline := Function.update s.deadline w true }.note (.start w)).moveTo w
        (.start g)
  | .start g =>
    let (started, s) := s.engineStart (ref w) ok
    s.moveTo w (.started g started)
  | .started g started =>
    s.unlock.moveTo w (if started && !s.stale w g then .flush else .cleanup)
  | .flush =>
    if s.active ≠ some w ∨ s.closing w then s.moveTo w .cleanup
    else s.moveTo w (if ok then .done else .cleanup)
  | .cleanup =>
    match s.active with
    | none => s.mark.moveTo w .done
    | some r => s.mark.moveTo w (.close r)
  | .close r =>
    match s.engineMu with
    | some _ => s
    | none => (s.engineClose (ref r)).moveTo w (if s.failed then .confirm r else .done)
  | .confirm r => (s.recordStopped r ok).moveTo w .done
  | .done => s

end Service

/-- What happens next. -/
inductive Action (Who : Type)
  | approve (w : Who) (ok : Bool)
  -- the two halves of any other `Stop`, also of the one inside of `DisableLocally`
  | stop
  | stopClose (r : Who)
  -- what follows a close that has failed; `proof` is whether the exit of the worker is verified
  -- and the proof of it kept
  | confirm (r : Who) (proof : Bool)
  -- the first section of `DisableLocally` or of `SetEnabled(false)`, and the last of
  -- `SetEnabled(true)`
  | disable (bump : Bool)
  | enable
  | supersede
  -- the run loop takes the next `closed` event, and then acknowledges it; `proof` is whether one
  -- can be made and kept
  | deliver
  | acknowledge (proof : Bool)
  | workerEnds
  | fail
  | release
deriving DecidableEq, Repr

/-- The record that an event of the worker is about. -/
def Service.addressed (s : Service Who Ref) (r : Ref) : Option Who :=
  s.active.filter fun w => ref w = r

def Service.step (s : Service Who Ref) : Action Who → Service Who Ref
  | .approve w ok => s.approve ref w ok
  | .stop =>
    match s.active with
    | none => s.mark
    | some r => { s.mark with stops := r :: s.stops }
  | .stopClose r =>
    if r ∈ s.stops ∧ s.engineMu = none then
      { s.engineClose (ref r) with
        stops := s.stops.erase r
        confirms := if s.failed then r :: s.confirms else s.confirms }
    else s
  | .confirm r proof =>
    if r ∈ s.confirms then { s with confirms := s.confirms.erase r }.recordStopped r proof
    else s
  | .disable bump =>
    { s with generation := if bump then s.generation + 1 else s.generation, disabled := true }
  | .enable => { s with disabled := false }
  | .supersede =>
    match s.active with
    | none => s
    | some r =>
      { s.mark with superseded := Function.update s.superseded r true, stops := r :: s.stops }
  | .deliver =>
    match s.acknowledging, s.events with
    | none, r :: events => { s with events := events, acknowledging := s.addressed ref r }
    | _, _ => s
  | .acknowledge proof =>
    match s.acknowledging with
    | none => s
    | some w => { s with acknowledging := none }.recordStopped w proof
  | .workerEnds =>
    match s.worker with
    | none => s
    | some r => s.workerCloses r
  | .fail => { s with failed := true, worker := none, events := [] }
  | .release =>
    match s.active with
    | none => s
    | some r => if s.deadline r ∧ s.closing r then { s with active := none } else s

end Machine

/-- The next sections of an approval, all of which go well. -/
def sections {Who : Type} (w : Who) (n : Nat) : List (Action Who) :=
  List.replicate n (.approve w true)

/-- A service on which no approval has begun, with a worker that has just started. -/
def Service.idle {Who Ref : Type} (generation : UInt64) (disabled : Bool) : Service Who Ref where
  generation := generation
  disabled := disabled
  active := none
  closing := fun _ => false
  stopped := fun _ => false
  superseded := fun _ => false
  deadline := fun _ => false
  engineMu := none
  stops := []
  confirms := []
  pc := fun _ => .sample
  failed := false
  worker := none
  events := []
  acknowledging := none
  log := []

namespace Service

section Worker

variable {Who Ref : Type} [DecidableEq Ref]

/-- The worker's side changes, the service's does not. -/
theorem workerCloses_frame (s : Service Who Ref) (r : Ref) :
    s.workerCloses r =
      { s with worker := (s.workerCloses r).worker, events := (s.workerCloses r).events } := by
  unfold workerCloses
  split <;> rfl

theorem engineStart_frame (s : Service Who Ref) (r : Ref) (ok : Bool) :
    (s.engineStart r ok).2 =
      { s with
        worker := (s.engineStart r ok).2.worker, events := (s.engineStart r ok).2.events } := by
  unfold engineStart
  split
  · cases ok
    · exact workerCloses_frame s r
    · rfl
  · rfl

end Worker

section Slot

variable {Who Ref : Type} [DecidableEq Who]

theorem moveTo_pc_self (s : Service Who Ref) (w : Who) (pc : Pc Who) : (s.moveTo w pc).pc w = pc :=
  Function.update_self ..

theorem moveTo_pc_of_ne (s : Service Who Ref) {v w : Who} (pc : Pc Who) (h : v ≠ w) :
    (s.moveTo w pc).pc v = s.pc v :=
  Function.update_of_ne h ..

theorem mark_frame (s : Service Who Ref) :
    s.mark =
      { s with
        generation := s.mark.generation, closing := s.mark.closing, log := s.mark.log } := by
  unfold mark note
  split <;> rfl

theorem recordStopped_frame (s : Service Who Ref) (r : Who) (proof : Bool) :
    s.recordStopped r proof =
      { s with
        active := (s.recordStopped r proof).active
        closing := (s.recordStopped r proof).closing
        stopped := (s.recordStopped r proof).stopped } := by
  unfold recordStopped
  split <;> rfl

theorem recordStopped_active {s : Service Who Ref} {r w : Who} {proof : Bool}
    (h : (s.recordStopped r proof).active = some w) : s.active = some w := by
  unfold recordStopped at h
  split at h
  · exact h
  · cases h

end Slot

end Service

/-- The approval is in a part that runs under `engineMu`. -/
def holdsEngine {Who : Type} : Pc Who → Bool
  | .checkPrepare _ | .prepare _ | .commit _ | .start _ | .started _ _ => true
  | _ => false

/-- Whoever is in such a part has the lock. -/
def Locked {Who Ref : Type} (s : Service Who Ref) : Prop :=
  ∀ w, holdsEngine (s.pc w) = true → s.engineMu = some w

section Lock

variable {Who Ref : Type} [DecidableEq Who]

variable {s t : Service Who Ref}

theorem Locked.leave (h : Locked s) {w : Who} {pc : Pc Who} (hpc : t.pc = s.pc)
    (hmu : holdsEngine (s.pc w) = true ∨ t.engineMu = s.engineMu) (hfree : holdsEngine pc = false) :
    Locked (t.moveTo w pc) := by
  intro v hv
  by_cases hvw : v = w
  · subst hvw
    rw [Service.moveTo_pc_self, hfree] at hv
    cases hv
  · rw [Service.moveTo_pc_of_ne t pc hvw, hpc] at hv
    rcases hmu with hheld | hsame
    · cases (h v hv).symm.trans (h w hheld)
      exact absurd rfl hvw
    · exact hsame.trans (h v hv)

theorem Locked.stay (h : Locked s) {w : Who} {pc : Pc Who} (hpc : t.pc = s.pc)
    (hmu : t.engineMu = s.engineMu) (hheld : holdsEngine (s.pc w) = true) :
    Locked (t.moveTo w pc) := by
  intro v hv
  by_cases hvw : v = w
  · subst hvw
    exact hmu.trans (h v hheld)
  · rw [Service.moveTo_pc_of_ne t pc hvw, hpc] at hv
    exact hmu.trans (h v hv)

theorem Locked.lock (h : Locked s) (w : Who) (pc : Pc Who) : Locked (s.lock w pc) := by
  unfold Service.lock
  split
  · exact h
  · next hmu =>
    intro v hv
    by_cases hvw : v = w
    · exact hvw ▸ rfl
    · rw [Service.moveTo_pc_of_ne _ pc hvw] at hv
      cases hmu.symm.trans (h v hv)

omit [DecidableEq Who] in
theorem Locked.frame (h : Locked s) (hpc : t.pc = s.pc) (hmu : t.engineMu = s.engineMu) :
    Locked t := by
  intro w hw
  rw [hpc] at hw
  exact hmu.trans (h w hw)

variable [DecidableEq Ref] {ref : Who → Ref}

theorem Locked.approve (h : Locked s) (w : Who) (ok : Bool) : Locked (s.approve ref w ok) := by
  unfold Service.approve
  cases hpc : s.pc w with
  | sample | claim g =>
    dsimp only
    split <;> exact h.leave rfl (.inr rfl) rfl
  | load g | bindGrant g | decision g | iceServers g =>
    cases ok <;> exact h.leave rfl (.inr rfl) rfl
  | lockPrepare g | lockStart g => exact h.lock w _
  | checkPrepare g | commit g =>
    have hheld : holdsEngine (s.pc w) = true := by rw [hpc]; rfl
    dsimp only
    split
    · exact h.leave rfl (.inl hheld) rfl
    · exact h.stay rfl rfl hheld
  | prepare g =>
    have hheld : holdsEngine (s.pc w) = true := by rw [hpc]; rfl
    dsimp only
    split <;> exact h.leave rfl (.inl hheld) rfl
  | start g =>
    have hheld : holdsEngine (s.pc w) = true := by rw [hpc]; rfl
    dsimp only
    exact h.stay (by rw [Service.engineStart_frame]) (by rw [Service.engineStart_frame]) hheld
  | started g started =>
    have hheld : holdsEngine (s.pc w) = true := by rw [hpc]; rfl
    refine h.leave rfl (.inl hheld) ?_
    split <;> rfl
  | flush =>
    dsimp only
    split
    · exact h.leave rfl (.inr rfl) rfl
    · cases ok <;> exact h.leave rfl (.inr rfl) rfl
  | cleanup =>
    dsimp only
    split <;> exact h.leave (by rw [Service.mark_frame]) (.inr (by rw [Service.mark_frame])) rfl
  | close r =>
    dsimp only
    split
    · exact h
    · refine h.leave (by rw [Service.engineClose, Service.workerCloses_frame]; rfl)
        (.inr (by rw [Service.engineClose, Service.workerCloses_frame]; rfl)) ?_
      split <;> rfl
  | confirm r =>
    exact h.leave (by rw [Service.recordStopped_frame])
      (.inr (by rw [Service.recordStopped_frame])) rfl
  | done => exact h

/-- What is not a section of an approval moves none, and leaves the lock and the deadlines. -/
theorem step_frame (s : Service Who Ref) {action : Action Who}
    (h : ∀ w ok, action ≠ .approve w ok) :
    (s.step ref action).pc = s.pc ∧ (s.step ref action).engineMu = s.engineMu ∧
      (s.step ref action).deadline = s.deadline := by
  cases action with
  | approve w ok => exact absurd rfl (h w ok)
  | stop | supersede =>
    dsimp only [Service.step]
    split
    · first | exact ⟨rfl, rfl, rfl⟩ | (rw [Service.mark_frame]; exact ⟨rfl, rfl, rfl⟩)
    · rw [Service.mark_frame]
      exact ⟨rfl, rfl, rfl⟩
  | stopClose r =>
    dsimp only [Service.step]
    split
    · rw [Service.engineClose, Service.workerCloses_frame]
      exact ⟨rfl, rfl, rfl⟩
    · exact ⟨rfl, rfl, rfl⟩
  | confirm r proof =>
    dsimp only [Service.step]
    split
    · rw [Service.recordStopped_frame]
      exact ⟨rfl, rfl, rfl⟩
    · exact ⟨rfl, rfl, rfl⟩
  | disable bump | enable | fail => exact ⟨rfl, rfl, rfl⟩
  | deliver =>
    dsimp only [Service.step]
    split <;> exact ⟨rfl, rfl, rfl⟩
  | acknowledge proof =>
    dsimp only [Service.step]
    split
    · exact ⟨rfl, rfl, rfl⟩
    · rw [Service.recordStopped_frame]
      exact ⟨rfl, rfl, rfl⟩
  | workerEnds =>
    dsimp only [Service.step]
    split
    · exact ⟨rfl, rfl, rfl⟩
    · rw [Service.workerCloses_frame]
      exact ⟨rfl, rfl, rfl⟩
  | release =>
    dsimp only [Service.step]
    split
    · exact ⟨rfl, rfl, rfl⟩
    · split <;> exact ⟨rfl, rfl, rfl⟩

theorem Locked.step (h : Locked s) (action : Action Who) : Locked (s.step ref action) := by
  by_cases happrove : ∃ w ok, action = .approve w ok
  · obtain ⟨w, ok, rfl⟩ := happrove
    exact h.approve w ok
  · have hframe := @step_frame Who Ref _ _ ref s action fun w ok heq => happrove ⟨w, ok, heq⟩
    exact h.frame hframe.1 hframe.2.1

omit [DecidableEq Who] [DecidableEq Ref] in
theorem locked_idle (generation : UInt64) (disabled : Bool) :
    Locked (Service.idle generation disabled : Service Who Ref) :=
  fun _ h => by cases h

end Lock

end HomeTunnel.Host.Sessions
