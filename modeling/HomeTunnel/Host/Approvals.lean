import HomeTunnel.Lib.Runs

/-! # Approvals that overlap

Any number of `approveSession` calls on one service, each for its own session,
with `Stop`, the release of an expired session and the engine's `closed` events
in between. Every call advances one atomic section at a time: a section under
`s.mu`, an engine call under `engineMu`, a store update or a network wait. The
question is whom the clean-up of a failed approval stops.
-/

namespace HomeTunnel.Host.Approvals

/-- Where an approval stands; the generation is the one it sampled. -/
inductive Pc (Who : Type)
  | sample
  | load (generation : UInt64)
  | claim (generation : UInt64)
  | lockPrepare (generation : UInt64)
  | checkPrepare (generation : UInt64)
  | prepare (generation : UInt64)
  | bindGrant (generation : UInt64)
  | decision (generation : UInt64)
  | iceServers (generation : UInt64)
  | lockStart (generation : UInt64)
  | commit (generation : UInt64)
  | start (generation : UInt64)
  | started (generation : UInt64) (ok : Bool)
  | flush
  -- the deferred `Stop`: its section under `s.mu`, `Engine.Close` and what follows it
  | cleanup
  | close (r : Who)
  | confirm (r : Who)
  | done
deriving DecidableEq, Repr

variable {Who : Type}

namespace Pc

def inProgress : Pc Who → Bool
  | .sample | .done => false
  | _ => true

/-- The approval has taken the active slot and has not returned. -/
def claimed : Pc Who → Bool
  | .sample | .load _ | .claim _ | .done => false
  | _ => true

/-- The approval is in its deferred `Stop`. -/
def cleaning : Pc Who → Bool
  | .cleanup | .close _ | .confirm _ => true
  | _ => false

/-- The generation that a later section still compares. -/
def generation? : Pc Who → Option UInt64
  | .load g | .claim g | .lockPrepare g | .checkPrepare g | .prepare g | .bindGrant g
  | .decision g | .iceServers g | .lockStart g | .commit g | .start g | .started g _ => some g
  | .sample | .flush | .cleanup | .close _ | .confirm _ | .done => none

/-- The record that the deferred `Stop` has taken. -/
def target : Pc Who → Option Who
  | .close r | .confirm r => some r
  | _ => none

variable {pc : Pc Who}

theorem inProgress_of_generation {g : UInt64} (h : pc.generation? = some g) :
    pc.inProgress = true := by
  cases pc <;> first | rfl | cases h

theorem inProgress_of_claimed (h : pc.claimed = true) : pc.inProgress = true := by
  cases pc <;> first | rfl | cases h

theorem claimed_of_cleaning (h : pc.cleaning = true) : pc.claimed = true := by
  cases pc <;> first | rfl | cases h

theorem inProgress_of_target {r : Who} (h : pc.target = some r) : pc.inProgress = true := by
  cases pc <;> first | rfl | cases h

end Pc

/-- The service. A running record is named by the approval that made it; `closes` has every
`Engine.Close` so far, newest first, and `stops` the `Stop` calls that still have to make
theirs. -/
structure Service (Who : Type) where
  generation : UInt64
  disabled : Bool
  active : Option Who
  closing : Who → Bool
  stopped : Who → Bool
  engineMu : Option Who
  closes : List Who
  stops : List Who
  pc : Who → Pc Who

variable [DecidableEq Who]

namespace Service

def moveTo (s : Service Who) (w : Who) (pc : Pc Who) : Service Who :=
  { s with pc := Function.update s.pc w pc }

def stale (s : Service Who) (w : Who) (generation : UInt64) : Bool :=
  s.active ≠ some w || s.closing w || generation != s.generation || s.disabled

/-- The section of `stopLocal`: the generation moves on and the active record is marked. -/
def mark (s : Service Who) : Service Who :=
  { s with
    generation := s.generation + 1
    closing := fun r => s.closing r || s.active == some r }

def engineClose (s : Service Who) (r : Who) : Service Who := { s with closes := r :: s.closes }

/-- `recordStopped`; it gives up when there is no proof to keep. -/
def recordStopped (s : Service Who) (r : Who) (proof : Bool) : Service Who :=
  if s.active ≠ some r ∨ s.stopped r ∨ !proof then s
  else
    { s with
      active := none
      closing := Function.update s.closing r true
      stopped := Function.update s.stopped r true }

def unlock (s : Service Who) : Service Who := { s with engineMu := none }

/-- A wait for `engineMu`. -/
def lock (s : Service Who) (w : Who) (pc : Pc Who) : Service Who :=
  match s.engineMu with
  | some _ => s
  | none => { s with engineMu := some w }.moveTo w pc

/-- One section of `approveSession`; `ok` is how a wait, an engine call or a check of what
it returned ends. A failure after the claim leads to the deferred `Stop`. -/
def approve (s : Service Who) (w : Who) (ok : Bool) : Service Who :=
  match s.pc w with
  | .sample => if s.disabled then s.moveTo w .done else s.moveTo w (.load s.generation)
  | .load g => s.moveTo w (if ok then .claim g else .done)
  | .claim g =>
    if s.active.isSome then s.moveTo w .done
    else if g ≠ s.generation ∨ s.disabled then s.moveTo w .done
    else { s with active := some w }.moveTo w (.lockPrepare g)
  | .lockPrepare g => s.lock w (.checkPrepare g)
  | .checkPrepare g =>
    if s.stale w g then s.unlock.moveTo w .cleanup else s.moveTo w (.prepare g)
  | .prepare g => s.unlock.moveTo w (if ok then .bindGrant g else .cleanup)
  | .bindGrant g => s.moveTo w (if ok then .decision g else .cleanup)
  | .decision g => s.moveTo w (if ok then .iceServers g else .cleanup)
  | .iceServers g => s.moveTo w (if ok then .lockStart g else .cleanup)
  | .lockStart g => s.lock w (.commit g)
  | .commit g => if s.stale w g then s.unlock.moveTo w .cleanup else s.moveTo w (.start g)
  | .start g => s.moveTo w (.started g ok)
  | .started g started =>
    s.unlock.moveTo w (if started && !s.stale w g then .flush else .cleanup)
  | .flush =>
    if s.active ≠ some w ∨ s.closing w then s.moveTo w .cleanup
    else s.moveTo w (if ok then .done else .cleanup)
  | .cleanup =>
    match s.active with
    | none => s.mark.moveTo w .done
    | some r => s.mark.moveTo w (.close r)
  | .close r =>
    match s.engineMu with
    | some _ => s
    | none => (s.engineClose r).moveTo w (.confirm r)
  | .confirm r => (s.recordStopped r ok).moveTo w .done
  | .done => s

end Service

/-- What happens next on the service. -/
inductive Action (Who : Type)
  | approve (w : Who) (ok : Bool)
  -- the two halves of any other `Stop`
  | stop
  | stopClose (r : Who)
  -- the engine's `closed` event, or a `Stop` that has verified the exit of the worker
  | closed (r : Who) (proof : Bool)
  | release
deriving DecidableEq, Repr

def Service.step (s : Service Who) : Action Who → Service Who
  | .approve w ok => s.approve w ok
  | .stop =>
    match s.active with
    | none => s.mark
    | some r => { s.mark with stops := r :: s.stops }
  | .stopClose r =>
    if r ∈ s.stops ∧ s.engineMu = none then
      { s.engineClose r with stops := s.stops.erase r }
    else s
  | .closed r proof => s.recordStopped r proof
  | .release =>
    match s.active with
    | none => s
    | some r => if s.closing r then { s with active := none } else s

/-- A service on which no approval has begun. -/
def Service.idle (generation : UInt64) (disabled : Bool) : Service Who where
  generation := generation
  disabled := disabled
  active := none
  closing := fun _ => false
  stopped := fun _ => false
  engineMu := none
  closes := []
  stops := []
  pc := fun _ => .sample

/-! ## What a clean-up must leave alone -/

/-- The approval of `b` still depends on the generation as it is. -/
def Service.Depends (s : Service Who) (b : Who) : Prop :=
  (s.pc b).generation? = some s.generation

/-- The step from `s` to `t` does not stop `b`: its record is not marked, the engine is not
told to close it, and the generation its approval depends on stays. -/
structure Spares (b : Who) (s t : Service Who) : Prop where
  closing : t.closing b = s.closing b
  closes : t.closes.count b = s.closes.count b
  generation : s.Depends b → t.generation = s.generation

/-- The clean-up of an approval spares every other one. -/
def CleanupSpares (s : Service Who) : Action Who → Prop
  | .approve a ok => (s.pc a).cleaning = true → ∀ b, b ≠ a → Spares b s (s.approve a ok)
  | _ => True

/-- An approval begins only while no other one is in progress. -/
def BeginsAlone (s : Service Who) : Action Who → Prop
  | .approve w _ => s.pc w = .sample → ∀ v, v ≠ w → (s.pc v).inProgress = false
  | _ => True

/-- One approval at a time; one that has claimed the slot finds nobody else in it, and its
deferred `Stop` has taken its own record. -/
structure Alone (s : Service Who) : Prop where
  single : ∀ v w, v ≠ w → (s.pc v).inProgress = true → (s.pc w).inProgress = false
  slot : ∀ w r, (s.pc w).claimed = true → s.active = some r → r = w
  target : ∀ w r, (s.pc w).target = some r → r = w

omit [DecidableEq Who] in
theorem alone_idle (generation : UInt64) (disabled : Bool) :
    Alone (Service.idle generation disabled : Service Who) :=
  ⟨fun _ _ _ _ => rfl, fun _ _ h => (by cases h), fun _ _ h => (by cases h)⟩

variable {s t : Service Who} {w : Who}

omit [DecidableEq Who] in
/-- Only the program counters count, and a slot that is emptied. -/
theorem Alone.of_active (h : Alone s) (hpc : t.pc = s.pc)
    (hactive : ∀ r, t.active = some r → s.active = some r) : Alone t := by
  refine ⟨?_, ?_, ?_⟩
  · rw [hpc]
    exact h.single
  · rw [hpc]
    exact fun w r hclaimed hr => h.slot w r hclaimed (hactive r hr)
  · rw [hpc]
    exact h.target

theorem recordStopped_pc (s : Service Who) (r : Who) (proof : Bool) :
    (s.recordStopped r proof).pc = s.pc := by
  unfold Service.recordStopped
  split <;> rfl

theorem recordStopped_active {r : Who} {proof : Bool} {r' : Who}
    (h : (s.recordStopped r proof).active = some r') : s.active = some r' := by
  unfold Service.recordStopped at h
  split at h
  · exact h
  · cases h

theorem alone_of_self (hothers : ∀ v, v ≠ w → (s.pc v).inProgress = false)
    (hslot : (s.pc w).claimed = true → ∀ r, s.active = some r → r = w)
    (htarget : ∀ r, (s.pc w).target = some r → r = w) : Alone s := by
  refine ⟨?_, ?_, ?_⟩
  · intro v v' hne hv
    by_cases hvw : v = w
    · exact hothers v' (fun h => hne (hvw.trans h.symm))
    · rw [hothers v hvw] at hv
      cases hv
  · intro v r hclaimed hr
    by_cases hvw : v = w
    · subst hvw
      exact hslot hclaimed r hr
    · cases (Pc.inProgress_of_claimed hclaimed).symm.trans (hothers v hvw)
  · intro v r hr
    by_cases hvw : v = w
    · subst hvw
      exact htarget r hr
    · cases (Pc.inProgress_of_target hr).symm.trans (hothers v hvw)

theorem moveTo_pc_self (s : Service Who) (w : Who) (pc : Pc Who) : (s.moveTo w pc).pc w = pc :=
  Function.update_self ..

theorem moveTo_pc_of_ne (s : Service Who) {v : Who} (pc : Pc Who) (h : v ≠ w) :
    (s.moveTo w pc).pc v = s.pc v :=
  Function.update_of_ne h ..

/-- What a section of `approveSession` does to the slot and to its own program counter. -/
structure Advances (s t : Service Who) (w : Who) : Prop where
  others : ∀ v, v ≠ w → t.pc v = s.pc v
  slot : (t.pc w).claimed = true → ∀ r, t.active = some r →
    r = w ∨ (s.pc w).claimed = true ∧ s.active = some r
  target : ∀ r, (t.pc w).target = some r →
    (s.pc w).target = some r ∨ (s.pc w).claimed = true ∧ s.active = some r

/-- A section that leaves the slot and moves on, before the claim or after it. -/
theorem advances_moveTo {pc : Pc Who} (hclaimed : pc.claimed = false ∨ (s.pc w).claimed = true)
    (htarget : ∀ r, pc.target = some r →
      (s.pc w).target = some r ∨ (s.pc w).claimed = true ∧ s.active = some r := by nofun)
    (hpc : t.pc = s.pc := by rfl)
    (hactive : ∀ r, t.active = some r → s.active = some r := by exact fun _ h => h) :
    Advances s (t.moveTo w pc) w := by
  refine ⟨?_, ?_, ?_⟩
  · intro v hv
    rw [moveTo_pc_of_ne t pc hv, hpc]
  · intro h r hr
    rw [moveTo_pc_self] at h
    rcases hclaimed with hbefore | hafter
    · cases hbefore.symm.trans h
    · exact .inr ⟨hafter, hactive r hr⟩
  · rw [moveTo_pc_self]
    exact htarget

omit [DecidableEq Who] in
theorem Advances.refl (s : Service Who) (w : Who) : Advances s s w :=
  ⟨fun _ _ => rfl, fun h _ hr => .inr ⟨h, hr⟩, fun _ h => .inl h⟩

theorem advances_lock {pc : Pc Who} (hclaimed : (s.pc w).claimed = true)
    (htarget : ∀ r, pc.target ≠ some r) : Advances s (s.lock w pc) w := by
  unfold Service.lock
  split
  · exact .refl s w
  · exact advances_moveTo (.inr hclaimed) fun r hr => absurd hr (htarget r)

theorem approve_advances (s : Service Who) (w : Who) (ok : Bool) :
    Advances s (s.approve w ok) w := by
  unfold Service.approve
  cases hpc : s.pc w with
  | sample =>
    dsimp only
    split
    · exact advances_moveTo (.inl rfl)
    · exact advances_moveTo (.inl rfl)
  | load g => cases ok <;> exact advances_moveTo (.inl rfl)
  | claim g =>
    dsimp only
    split
    · exact advances_moveTo (.inl rfl)
    · split
      · exact advances_moveTo (.inl rfl)
      · refine ⟨fun v hv => moveTo_pc_of_ne _ _ hv, fun _ r hr => .inl ?_, fun r hr => ?_⟩
        · cases hr
          rfl
        · rw [moveTo_pc_self] at hr
          cases hr
  | lockPrepare g | lockStart g => exact advances_lock (by rw [hpc]; rfl) nofun
  | checkPrepare g | commit g =>
    dsimp only
    split
    · exact advances_moveTo (.inr (by rw [hpc]; rfl))
    · exact advances_moveTo (.inr (by rw [hpc]; rfl))
  | prepare g | bindGrant g | decision g | iceServers g =>
    cases ok <;> exact advances_moveTo (.inr (by rw [hpc]; rfl))
  | start g => exact advances_moveTo (.inr (by rw [hpc]; rfl))
  | started g started =>
    refine advances_moveTo (.inr (by rw [hpc]; rfl)) ?_
    split <;> nofun
  | flush =>
    dsimp only
    split
    · exact advances_moveTo (.inr (by rw [hpc]; rfl))
    · cases ok <;> exact advances_moveTo (.inr (by rw [hpc]; rfl))
  | cleanup =>
    dsimp only
    split
    · exact advances_moveTo (.inr (by rw [hpc]; rfl))
    · next r hactive =>
      refine advances_moveTo (.inr (by rw [hpc]; rfl)) fun r' hr' => .inr ⟨by rw [hpc]; rfl, ?_⟩
      cases hr'
      exact hactive
  | close r =>
    dsimp only
    split
    · exact .refl s w
    · exact advances_moveTo (.inr (by rw [hpc]; rfl)) fun r' hr' => .inl (by rw [hpc]; exact hr')
  | confirm r =>
    exact advances_moveTo (.inl rfl) nofun (recordStopped_pc s r ok) fun _ => recordStopped_active
  | done => exact .refl s w

theorem Alone.approve (h : Alone s) {ok : Bool} (hbegins : BeginsAlone s (.approve w ok)) :
    Alone (s.approve w ok) := by
  have hadvances := approve_advances s w ok
  by_cases hdone : s.pc w = .done
  · simpa [Service.approve, hdone] using h
  · have hothers : ∀ v, v ≠ w → (s.pc v).inProgress = false := by
      intro v hv
      by_cases hsample : s.pc w = .sample
      · exact hbegins hsample v hv
      · refine h.single w v (Ne.symm hv) ?_
        cases hpc : s.pc w <;> first | rfl | exact absurd hpc hsample | exact absurd hpc hdone
    refine alone_of_self (w := w) ?_ ?_ ?_
    · intro v hv
      rw [hadvances.others v hv]
      exact hothers v hv
    · intro hclaimed r hr
      rcases hadvances.slot hclaimed r hr with rfl | ⟨hbefore, hactive⟩
      · rfl
      · exact h.slot w r hbefore hactive
    · intro r hr
      rcases hadvances.target r hr with hbefore | ⟨hclaimed, hactive⟩
      · exact h.target w r hbefore
      · exact h.slot w r hclaimed hactive

theorem Alone.step (h : Alone s) {action : Action Who} (hbegins : BeginsAlone s action) :
    Alone (s.step action) := by
  cases action with
  | approve w ok => exact h.approve hbegins
  | stop =>
    dsimp only [Service.step]
    split
    · exact h.of_active rfl fun _ hr => hr
    · exact h.of_active rfl fun _ hr => hr
  | stopClose r =>
    dsimp only [Service.step]
    split
    · exact h.of_active rfl fun _ hr => hr
    · exact h
  | closed r proof =>
    exact h.of_active (recordStopped_pc s r proof) fun _ => recordStopped_active
  | release =>
    dsimp only [Service.step]
    split
    · exact h
    · split
      · exact h.of_active rfl nofun
      · exact h

theorem Spares.of_same {b : Who} (hclosing : t.closing b = s.closing b)
    (hcloses : t.closes = s.closes) (hgeneration : t.generation = s.generation) : Spares b s t :=
  ⟨hclosing, by rw [hcloses], fun _ => hgeneration⟩

theorem Alone.cleanup_spares (h : Alone s) {a : Who} (hcleaning : (s.pc a).cleaning = true)
    (ok : Bool) {b : Who} (hb : b ≠ a) : Spares b s (s.approve a ok) := by
  have hclaimed := Pc.claimed_of_cleaning hcleaning
  have hidle : (s.pc b).inProgress = false :=
    h.single a b (Ne.symm hb) (Pc.inProgress_of_claimed hclaimed)
  have hfree : ¬ s.Depends b := by
    intro hdepends
    cases hidle.symm.trans (Pc.inProgress_of_generation hdepends)
  have hslot : s.active ≠ some b := fun hactive => hb (h.slot a b hclaimed hactive)
  unfold Service.approve
  cases hpc : s.pc a with
  | cleanup =>
    have hmark : Spares b s s.mark := by
      refine ⟨?_, rfl, fun hdepends => absurd hdepends hfree⟩
      simp [Service.mark, hslot]
    dsimp only
    split
    · exact ⟨hmark.closing, hmark.closes, hmark.generation⟩
    · exact ⟨hmark.closing, hmark.closes, hmark.generation⟩
  | close r =>
    have hr : r = a := h.target a r (by rw [hpc]; rfl)
    subst hr
    dsimp only
    split
    · exact .of_same rfl rfl rfl
    · refine ⟨rfl, ?_, fun _ => rfl⟩
      exact List.count_cons_of_ne (Ne.symm hb)
  | confirm r =>
    have hr : r = a := h.target a r (by rw [hpc]; rfl)
    subst hr
    have hrecord : Spares b s (s.recordStopped r ok) := by
      unfold Service.recordStopped
      split
      · exact .of_same rfl rfl rfl
      · exact .of_same (Function.update_of_ne hb ..) rfl rfl
    exact ⟨hrecord.closing, hrecord.closes, hrecord.generation⟩
  | sample | load _ | claim _ | lockPrepare _ | checkPrepare _ | prepare _ | bindGrant _
  | decision _ | iceServers _ | lockStart _ | commit _ | start _ | started _ _ | flush | done =>
    rw [hpc] at hcleaning
    cases hcleaning

/-- When every approval begins while no other one is in progress, the clean-up of a failed
approval never stops another session. -/
theorem cleanup_spares_others (generation : UInt64) (disabled : Bool) (actions : List (Action Who))
    (hactions : Runs.Along Service.step BeginsAlone (.idle generation disabled) actions) :
    Runs.Along Service.step CleanupSpares (Service.idle generation disabled : Service Who)
      actions := by
  refine Runs.along_of_invariant (fun _ _ h hbegins => h.step hbegins) ?_
    (alone_idle generation disabled) hactions
  intro s action h _
  cases action with
  | approve a ok => exact fun hcleaning b hb => h.cleanup_spares hcleaning ok hb
  | stop | stopClose r | closed r proof | release => trivial

inductive Session
  | first | second
deriving DecidableEq, Repr

/-- `approve` with a successful end of every wait, so many times. -/
def approves (w : Session) (count : Nat) : List (Action Session) :=
  List.replicate count (.approve w true)

/-- The first approval waits for the server's decision when it is stopped and the engine
confirms that; the second approval takes the slot, and then the first one's request fails. -/
def overlapping : List (Action Session) :=
  approves .first 7 ++ [.stop, .stopClose .first, .closed .first true] ++ approves .second 4 ++
    [.approve .first false]

/-- The clean-up of the first approval marks the second session as closing. -/
theorem overlapping_stops_second :
    let s := overlapping.foldl Service.step (.idle 0 false)
    s.pc .first = .cleanup ∧ s.active = some .second ∧ s.Depends .second ∧
      ¬ CleanupSpares s (.approve .first true) := by
  refine ⟨rfl, rfl, rfl, ?_⟩
  intro hspares
  have hclosing := (hspares rfl .second (by decide)).closing
  revert hclosing
  decide

/-- The same failure, with the second approval after the return of the first. -/
def serial : List (Action Session) :=
  approves .first 7 ++ [.stop, .stopClose .first, .closed .first true, .approve .first false] ++
    approves .first 1 ++ approves .second 14

instance (s : Service Session) : ∀ action, Decidable (BeginsAlone s action)
  | .approve w _ =>
    decidable_of_iff (s.pc w = .sample →
      (.first ≠ w → (s.pc .first).inProgress = false) ∧
        (.second ≠ w → (s.pc .second).inProgress = false))
      ⟨fun h hsample v => by cases v with
        | first => exact (h hsample).1
        | second => exact (h hsample).2,
      fun h hsample => ⟨h hsample .first, h hsample .second⟩⟩
  | .stop | .stopClose _ | .closed _ _ | .release => .isTrue trivial

theorem serial_spares_second :
    Runs.Along Service.step CleanupSpares (.idle 0 false) serial ∧
      (serial.foldl Service.step (.idle 0 false)).active = some Session.second ∧
      (serial.foldl Service.step (.idle 0 false)).closing Session.second = false :=
  ⟨cleanup_spares_others 0 false serial (by decide), rfl, rfl⟩

end HomeTunnel.Host.Approvals
