import HomeTunnel.Host.Sessions

/-! # A host that stays busy

Whether an approval that has failed gives the active slot back. The slot is emptied by the
`closed` event of a session that the worker really held, or by `tick` once the record has a
deadline, which only the last step before `Start` sets. An approval that fails before the worker
has taken its session has neither.
-/

namespace HomeTunnel.Host.Sessions

open Approvals (Pc)

section Statements

variable {Who Ref : Type} [DecidableEq Who] [DecidableEq Ref] (ref : Who → Ref)

/-- The event of the session is still on its way to the service. -/
def Reported (s : Service Who Ref) (w : Who) : Prop :=
  ref w ∈ s.events ∨ s.acknowledging = some w

/-- The worker holds the session, or has told of its end. -/
def Held (s : Service Who Ref) (w : Who) : Prop :=
  s.worker = some (ref w) ∨ Reported ref s w

/-- Once the approval has returned and the events of its session have been delivered, its record
is not active any more, or has a deadline: then two ticks after it let go of the record. -/
def Freed (s : Service Who Ref) : Prop :=
  ∀ w, s.pc w = .done → ref w ∉ s.events → s.acknowledging ≠ some w →
    s.active ≠ some w ∨
      s.deadline w = true ∧ ((s.step ref .stop).step ref .release).active = none

/-- No approval is overtaken before it prepares its session, the worker accepts every session that
it is asked to prepare, and the proof of every close can be kept. The engine does not fail. -/
def Answered (s : Service Who Ref) : Action Who → Prop
  | .approve w ok =>
    match s.pc w with
    | .checkPrepare g => s.stale w g = false
    | .prepare _ => ok = true
    | _ => True
  | .acknowledge proof =>
    match s.acknowledging with
    | none => True
    | some w => s.active = some w → s.superseded w = false → proof = true
  | .fail => False
  | _ => True

instance (s : Service Who Ref) : ∀ action, Decidable (Answered s action)
  | .approve w ok =>
    match h : s.pc w with
    | .checkPrepare g => decidable_of_iff (s.stale w g = false) (by rw [Answered, h])
    | .prepare _ => decidable_of_iff (ok = true) (by rw [Answered, h])
    | .sample | .load _ | .claim _ | .lockPrepare _ | .bindGrant _ | .decision _ | .iceServers _
    | .lockStart _ | .commit _ | .start _ | .started _ _ | .flush | .cleanup | .close _
    | .confirm _ | .done => .isTrue (by rw [Answered, h]; trivial)
  | .acknowledge proof =>
    match h : s.acknowledging with
    | none => .isTrue (by rw [Answered, h]; trivial)
    | some w =>
      decidable_of_iff (s.active = some w → s.superseded w = false → proof = true)
        (by rw [Answered, h])
  | .fail => .isFalse id
  | .stop | .stopClose _ | .confirm _ _ | .disable _ | .enable | .supersede | .deliver
  | .workerEnds | .release => .isTrue trivial

/-! ## What holds where an approval stands -/

/-- What is known of a record while its approval stands at the given place. -/
def Stage (s : Service Who Ref) (w : Who) : Pc Who → Prop
  | .sample | .load _ | .claim _ => s.active ≠ some w ∧ s.stopped w = false
  | .lockPrepare _ | .checkPrepare _ | .prepare _ => True
  | .bindGrant _ | .decision _ | .iceServers _ | .lockStart _ | .commit _ | .cleanup =>
    s.active = some w → Held ref s w
  | .start _ | .started _ _ | .flush =>
    s.deadline w = true ∧ (s.active = some w → Held ref s w)
  | .close r => s.active = some w → r = w ∧ Held ref s w
  | .confirm _ | .done => s.active = some w → s.deadline w = true ∨ Reported ref s w

/-- The change loses neither the session of the record nor an event of it, as long as the record
is active; only a record that lets go of the slot is stopped. -/
structure Carries (s t : Service Who Ref) (w : Who) : Prop where
  active : t.active = some w → s.active = some w
  stopped : t.stopped w = s.stopped w ∨ s.active = some w ∧ t.active ≠ some w
  deadline : s.deadline w = true → t.deadline w = true
  reported : t.active = some w → Reported ref s w → Reported ref t w
  held : t.active = some w → Held ref s w → Held ref t w

end Statements

section Carried

variable {Who Ref : Type} {ref : Who → Ref} {s t : Service Who Ref} {w : Who} {pc : Pc Who}

theorem Stage.carried (hcarries : Carries ref s t w) (h : Stage ref s w pc) : Stage ref t w pc := by
  cases pc with
  | sample | load g | claim g =>
    refine ⟨fun hactive => h.1 (hcarries.active hactive), ?_⟩
    rcases hcarries.stopped with hsame | ⟨hactive, _⟩
    · exact hsame.trans h.2
    · exact absurd hactive h.1
  | lockPrepare g | checkPrepare g | prepare g => trivial
  | bindGrant g | decision g | iceServers g | lockStart g | commit g | cleanup =>
    exact fun hactive => hcarries.held hactive (h (hcarries.active hactive))
  | start g | started g ok | flush =>
    exact ⟨hcarries.deadline h.1,
      fun hactive => hcarries.held hactive (h.2 (hcarries.active hactive))⟩
  | close r =>
    intro hactive
    obtain ⟨hown, hheld⟩ := h (hcarries.active hactive)
    exact ⟨hown, hcarries.held hactive hheld⟩
  | confirm r | done =>
    intro hactive
    rcases h (hcarries.active hactive) with hdeadline | hreported
    · exact .inl (hcarries.deadline hdeadline)
    · exact .inr (hcarries.reported hactive hreported)

/-- A change of the marks, the lists of calls, the lock or the log. -/
theorem Carries.of_same (hactive : t.active = some w → s.active = some w := by exact id)
    (hdeadline : s.deadline w = true → t.deadline w = true := by exact id)
    (hstopped : t.stopped = s.stopped := by rfl) (hworker : t.worker = s.worker := by rfl)
    (hevents : t.events = s.events := by rfl)
    (hacknowledging : t.acknowledging = s.acknowledging := by rfl) : Carries ref s t w := by
  refine ⟨hactive, .inl (by rw [hstopped]), hdeadline, ?_, ?_⟩
  · intro _ hreported
    rwa [Reported, hevents, hacknowledging]
  · intro _ hheld
    rwa [Held, Reported, hworker, hevents, hacknowledging]

theorem carries_enginePrepare (s : Service Who Ref) (r : Ref) (w : Who) :
    Carries ref s (s.enginePrepare r) w := by
  refine ⟨id, .inl rfl, id, ?_, ?_⟩
  · intro _ hreported
    exact hreported.imp (List.mem_append_left s.worker.toList) id
  · intro _ hheld
    rcases hheld with hworker | hreported
    · exact .inr (.inl (by simp [Service.enginePrepare, hworker]))
    · exact .inr (hreported.imp (List.mem_append_left s.worker.toList) id)

theorem carries_recordStopped [DecidableEq Who] (s : Service Who Ref) (r : Who) (proof : Bool)
    (w : Who) : Carries ref s (s.recordStopped r proof) w := by
  unfold Service.recordStopped
  split
  · exact .of_same
  · next hguard =>
    refine ⟨nofun, ?_, id, nofun, nofun⟩
    by_cases hwr : w = r
    · subst hwr
      exact .inr ⟨not_not.mp fun hne => hguard (.inl hne), nofun⟩
    · exact .inl (Function.update_of_ne hwr ..)

end Carried

section Worker

variable {Who Ref : Type} [DecidableEq Ref] {ref : Who → Ref} {s : Service Who Ref} {w : Who}

theorem carries_workerCloses (s : Service Who Ref) (r : Ref) (w : Who) :
    Carries ref s (s.workerCloses r) w := by
  unfold Service.workerCloses
  split
  · next hworker =>
    refine ⟨id, .inl rfl, id, ?_, ?_⟩
    · intro _ hreported
      exact hreported.imp (List.mem_append_left [r]) id
    · intro _ hheld
      rcases hheld with hheld | hreported
      · cases hworker.symm.trans hheld
        exact .inr (.inl (by simp))
      · exact .inr (hreported.imp (List.mem_append_left [r]) id)
  · exact .of_same

theorem carries_engineClose (s : Service Who Ref) (r : Ref) (w : Who) :
    Carries ref s (s.engineClose r) w := by
  have h := @carries_workerCloses Who Ref _ ref (s.note (.close r)) r w
  exact ⟨h.active, h.stopped, h.deadline, h.reported, h.held⟩

/-- A session that is closed is not held any more: there is an event of it. -/
theorem reported_of_engineClose (h : Held ref s w) : Reported ref (s.engineClose (ref w)) w := by
  unfold Service.engineClose Service.workerCloses
  rcases h with hworker | hreported
  · rw [if_pos (show (s.note (.close (ref w))).worker = some (ref w) from hworker)]
    exact .inl (by simp)
  · split
    · exact hreported.imp (List.mem_append_left [ref w]) id
    · exact hreported

theorem carries_engineStart (s : Service Who Ref) (r : Ref) (ok : Bool) (w : Who) :
    Carries ref s (s.engineStart r ok).2 w := by
  unfold Service.engineStart
  split
  · cases ok
    · exact carries_workerCloses s r w
    · exact .of_same
  · exact .of_same

end Worker

section Places

variable {Who Ref : Type} (ref : Who → Ref)

/-- The engine lives, an active record has not been stopped, and every record is as the place of
its approval says. -/
structure Releasable (s : Service Who Ref) : Prop where
  alive : s.failed = false
  kept : ∀ w, s.active = some w → s.stopped w = false
  stage : ∀ w, Stage ref s w (s.pc w)

variable {ref} {s t : Service Who Ref} {w : Who}

theorem Releasable.kept_carried (h : Releasable ref s) (hcarries : Carries ref s t w)
    (hactive : t.active = some w) : t.stopped w = false := by
  rcases hcarries.stopped with hsame | ⟨_, hleft⟩
  · exact hsame.trans (h.kept w (hcarries.active hactive))
  · exact absurd hactive hleft

theorem Releasable.carried (h : Releasable ref s) (hcarries : ∀ w, Carries ref s t w)
    (hfailed : t.failed = s.failed := by rfl) (hpc : t.pc = s.pc := by rfl) :
    Releasable ref t := by
  refine ⟨hfailed.trans h.alive, fun w => h.kept_carried (hcarries w), ?_⟩
  intro w
  rw [hpc]
  exact (h.stage w).carried (hcarries w)

theorem releasable_idle (generation : UInt64) (disabled : Bool) :
    Releasable ref (Service.idle generation disabled) :=
  ⟨rfl, nofun, fun _ => ⟨nofun, rfl⟩⟩

end Places

section Slot

variable {Who Ref : Type} [DecidableEq Who] {ref : Who → Ref} {s t : Service Who Ref} {w : Who}
  {pc : Pc Who}

/-- A section of an approval: the other records are carried over, its own is looked at. -/
theorem Releasable.move (h : Releasable ref s) (hcarries : ∀ v, v ≠ w → Carries ref s t v)
    (hkept : t.active = some w → t.stopped w = false) (hself : Stage ref t w pc)
    (hfailed : t.failed = s.failed := by rfl) (hpc : t.pc = s.pc := by rfl) :
    Releasable ref (t.moveTo w pc) := by
  refine ⟨hfailed.trans h.alive, ?_, ?_⟩
  · intro v hactive
    by_cases hvw : v = w
    · subst hvw
      exact hkept hactive
    · have hstopped : t.stopped v = false := h.kept_carried (hcarries v hvw) hactive
      exact hstopped
  · intro v
    by_cases hvw : v = w
    · subst hvw
      rw [Service.moveTo_pc_self]
      exact hself
    · rw [Service.moveTo_pc_of_ne t pc hvw, hpc]
      have hstage : Stage ref t v (s.pc v) := (h.stage v).carried (hcarries v hvw)
      cases hplace : s.pc v <;> rw [hplace] at hstage <;> exact hstage

theorem Releasable.advance (h : Releasable ref s) (hself : Stage ref t w pc)
    (hcarries : ∀ v, Carries ref s t v := by exact fun _ => .of_same)
    (hfailed : t.failed = s.failed := by rfl) (hpc : t.pc = s.pc := by rfl) :
    Releasable ref (t.moveTo w pc) :=
  h.move (fun v _ => hcarries v) (h.kept_carried (hcarries w)) hself hfailed hpc

end Slot

section Step

variable {Who Ref : Type} [DecidableEq Who] [DecidableEq Ref] {ref : Who → Ref}
  {s : Service Who Ref} {w : Who}

theorem Releasable.approve (h : Releasable ref s) {ok : Bool}
    (hanswered : Answered s (.approve w ok)) : Releasable ref (s.approve ref w ok) := by
  have hstage := h.stage w
  unfold Service.approve
  cases hpc : s.pc w with
  | sample =>
    rw [hpc] at hstage
    dsimp only
    split
    · exact h.advance fun hactive => absurd hactive hstage.1
    · exact h.advance hstage
  | load g =>
    rw [hpc] at hstage
    cases ok with
    | true => exact h.advance hstage
    | false => exact h.advance fun hactive => absurd hactive hstage.1
  | claim g =>
    rw [hpc] at hstage
    dsimp only
    split
    · exact h.advance fun hactive => absurd hactive hstage.1
    · refine h.move (fun v hvw => ?_) (fun _ => hstage.2) trivial
      have hother : ¬ (some w = some v) := fun heq => hvw (Option.some.inj heq).symm
      exact ⟨fun heq => absurd heq hother, .inl rfl, id, fun heq => absurd heq hother,
        fun heq => absurd heq hother⟩
  | lockPrepare g =>
    dsimp only [Service.lock]
    split
    · exact h
    · exact h.advance trivial
  | checkPrepare g =>
    rw [Answered, hpc] at hanswered
    dsimp only
    rw [hanswered, if_neg Bool.false_ne_true]
    exact h.advance trivial
  | prepare g =>
    rw [Answered, hpc] at hanswered
    dsimp only
    rw [hanswered, h.alive, if_pos (by rfl)]
    refine h.advance (fun _ => .inl rfl) fun v => ?_
    have hcarries := @carries_enginePrepare Who Ref ref s (ref w) v
    exact ⟨hcarries.active, hcarries.stopped, hcarries.deadline, hcarries.reported, hcarries.held⟩
  | bindGrant g | decision g | iceServers g =>
    rw [hpc] at hstage
    cases ok <;> exact h.advance hstage
  | lockStart g =>
    rw [hpc] at hstage
    dsimp only [Service.lock]
    split
    · exact h
    · exact h.advance (hstage.carried .of_same)
  | commit g =>
    rw [hpc] at hstage
    dsimp only
    split
    · exact h.advance (hstage.carried .of_same)
    · refine h.advance ⟨Function.update_self .., hstage⟩ fun v => .of_same id fun hdeadline => ?_
      by_cases hvw : v = w
      · subst hvw
        exact Function.update_self ..
      · exact (Function.update_of_ne hvw ..).trans hdeadline
  | start g =>
    rw [hpc] at hstage
    have hcarries := @carries_engineStart Who Ref _ ref s (ref w) ok
    have hstarted : Stage ref _ w (.start g) := hstage.carried (hcarries w)
    exact h.advance (t := (s.engineStart (ref w) ok).2) hstarted hcarries
      (by rw [Service.engineStart_frame]) (by rw [Service.engineStart_frame])
  | started g started =>
    rw [hpc] at hstage
    refine h.advance ?_
    split
    · exact hstage
    · exact hstage.2
  | flush =>
    rw [hpc] at hstage
    dsimp only
    split
    · exact h.advance hstage.2
    · cases ok with
      | true => exact h.advance fun _ => .inl hstage.1
      | false => exact h.advance hstage.2
  | cleanup =>
    rw [hpc] at hstage
    dsimp only
    rw [Service.mark_frame]
    split
    · next hnone => exact h.advance fun hactive => by cases hnone.symm.trans hactive
    · next r hr =>
      exact h.advance fun hactive =>
        ⟨Option.some.inj (hr.symm.trans hactive), hstage hactive⟩
  | close r =>
    rw [hpc] at hstage
    dsimp only
    split
    · exact h
    · rw [h.alive, if_neg Bool.false_ne_true]
      have hframe := Service.workerCloses_frame (s.note (.close (ref r))) (ref r)
      have hcarries := @carries_engineClose Who Ref _ ref s (ref r)
      refine h.advance (fun hactive => .inr ?_) hcarries (by rw [Service.engineClose, hframe]; rfl)
        (by rw [Service.engineClose, hframe]; rfl)
      obtain ⟨rfl, hheld⟩ := hstage ((hcarries w).active hactive)
      exact reported_of_engineClose hheld
  | confirm r =>
    rw [hpc] at hstage
    exact h.advance
      (@Stage.carried Who Ref ref s _ w (.confirm r) (carries_recordStopped s r ok w) hstage)
      (carries_recordStopped s r ok) (by rw [Service.recordStopped_frame])
      (by rw [Service.recordStopped_frame])
  | done => exact h

/-- Taking an event off the queue keeps it on its way to the active record. -/
theorem Releasable.deliver (h : Releasable ref s) : Releasable ref (s.step ref .deliver) := by
  dsimp only [Service.step]
  split
  · next r events hnone hevents =>
    have hreported : ∀ w, s.active = some w → Reported ref s w →
        Reported ref { s with events := events, acknowledging := s.addressed ref r } w := by
      intro w hactive hreported
      rcases hreported with hmem | hacknowledging
      · rw [hevents] at hmem
        rcases List.mem_cons.mp hmem with heq | hmem
        · exact .inr (by simp [Service.addressed, hactive, heq])
        · exact .inl hmem
      · cases hnone.symm.trans hacknowledging
    exact h.carried fun w => ⟨id, .inl rfl, id, hreported w,
      fun hactive hheld => hheld.imp id (hreported w hactive)⟩
  · exact h

/-- The record whose event is acknowledged lets go of the slot, so nothing of it is lost. -/
theorem Releasable.acknowledge (h : Releasable ref s) {proof : Bool}
    (hanswered : Answered s (.acknowledge proof)) :
    Releasable ref (s.step ref (.acknowledge proof)) := by
  dsimp only [Service.step]
  split
  · exact h
  · next v hv =>
    rw [Answered, hv] at hanswered
    have hstops := @carries_recordStopped Who Ref ref _ { s with acknowledging := none } v proof
    have hother : ∀ w, ({ s with acknowledging := none }.recordStopped v proof).active = some w →
        w ≠ v := by
      intro w hactive hwv
      subst hwv
      have hw : s.active = some w := (hstops w).active hactive
      have hguard : ¬ (s.active ≠ some w ∨ s.stopped w ∨ (!s.superseded w && !proof)) := by
        rw [h.kept w hw]
        cases hsuperseded : s.superseded w with
        | true => simp [hw]
        | false => simp [hw, hanswered hw hsuperseded]
      rw [Service.recordStopped, if_neg hguard] at hactive
      cases hactive
    have hreported : ∀ w, w ≠ v → Reported ref s w →
        Reported ref ({ s with acknowledging := none }.recordStopped v proof) w := by
      intro w hwv hreported
      rw [Service.recordStopped_frame]
      rcases hreported with hmem | hacknowledging
      · exact .inl hmem
      · exact absurd (Option.some.inj (hacknowledging.symm.trans hv)) hwv
    refine h.carried (fun w => ⟨(hstops w).active, (hstops w).stopped, (hstops w).deadline,
      fun hactive => hreported w (hother w hactive), fun hactive hheld => ?_⟩)
      (by rw [Service.recordStopped_frame]) (by rw [Service.recordStopped_frame])
    rcases hheld with hworker | hheld
    · rw [Service.recordStopped_frame]
      exact .inl hworker
    · exact .inr (hreported w (hother w hactive) hheld)

theorem Releasable.step (h : Releasable ref s) {action : Action Who} (hanswered : Answered s action)
    : Releasable ref (s.step ref action) := by
  cases action with
  | approve w ok => exact h.approve hanswered
  | deliver => exact h.deliver
  | acknowledge proof => exact h.acknowledge hanswered
  | fail => exact hanswered.elim
  | stop =>
    dsimp only [Service.step]
    rw [Service.mark_frame]
    split <;> exact h.carried fun _ => .of_same
  | supersede =>
    dsimp only [Service.step]
    split
    · exact h
    · rw [Service.mark_frame]
      exact h.carried fun _ => .of_same
  | stopClose r =>
    dsimp only [Service.step]
    split
    · have hframe := Service.workerCloses_frame (s.note (.close (ref r))) (ref r)
      refine h.carried (fun w => ?_) (by rw [Service.engineClose, hframe]; rfl)
        (by rw [Service.engineClose, hframe]; rfl)
      have hcarries := @carries_engineClose Who Ref _ ref s (ref r) w
      exact ⟨hcarries.active, hcarries.stopped, hcarries.deadline, hcarries.reported,
        hcarries.held⟩
    · exact h
  | confirm r proof =>
    dsimp only [Service.step]
    split
    · have hcarries := @carries_recordStopped Who Ref ref _
        { s with confirms := s.confirms.erase r } r proof
      exact h.carried (fun w => ⟨(hcarries w).active, (hcarries w).stopped, (hcarries w).deadline,
        (hcarries w).reported, (hcarries w).held⟩) (by rw [Service.recordStopped_frame])
        (by rw [Service.recordStopped_frame])
    · exact h
  | disable bump | enable =>
    exact h.carried fun _ => .of_same
  | workerEnds =>
    dsimp only [Service.step]
    split
    · exact h
    · next r _ =>
      have hframe := Service.workerCloses_frame s r
      exact h.carried (carries_workerCloses s r) (by rw [hframe]) (by rw [hframe])
  | release =>
    dsimp only [Service.step]
    split
    · exact h
    · split
      · exact h.carried fun _ => .of_same (by simp)
      · exact h

/-- A record with a deadline goes with the second tick after it: the first one stops it. -/
theorem release_of_deadline (hactive : s.active = some w) (hdeadline : s.deadline w = true) :
    ((s.step ref .stop).step ref .release).active = none := by
  simp [Service.step, Service.mark, Service.note, hactive, hdeadline]

theorem Releasable.freed (h : Releasable ref s) : Freed ref s := by
  intro w hdone hevents hacknowledging
  have hstage := h.stage w
  rw [hdone] at hstage
  by_cases hactive : s.active = some w
  · rcases hstage hactive with hdeadline | hreported
    · exact .inr ⟨hdeadline, release_of_deadline hactive hdeadline⟩
    · rcases hreported with hmem | hacknowledged
      · exact absurd hmem hevents
      · exact absurd hacknowledged hacknowledging
  · exact .inl hactive

/-- In every run in which the worker takes every session it is asked for, no approval is overtaken
before that and every close is proved, a returned approval leaves the host free. -/
theorem returned_approval_frees_host (ref : Who → Ref) (generation : UInt64) (disabled : Bool)
    (actions : List (Action Who))
    (hanswered : Runs.Along (Service.step ref) Answered (Service.idle generation disabled)
      actions) :
    Runs.Always (Service.step ref) (Freed ref) (Service.idle generation disabled) actions := by
  have hreleasable : Runs.Always (Service.step ref) (Releasable ref)
      (Service.idle generation disabled) actions :=
    Runs.always_of_invariant (fun _ _ h hp => h.step hp) (releasable_idle generation disabled)
      hanswered
  exact hreleasable.mono fun _ h => h.freed

end Step

/-- An approval that goes through, a `Stop` and the event that follows it; at the end the session
is approved once more. -/
def approvedAndStopped : List (Action Bool) :=
  sections false 14 ++
    ([.stop, .stopClose false, .deliver, .acknowledge true] : List (Action Bool)) ++
    sections true 14

theorem approved_and_stopped_frees_host :
    Runs.Along (Service.step fun _ => ()) Answered (Service.idle 0 false) approvedAndStopped ∧
      Runs.Always (Service.step fun _ => ()) (Freed fun _ => ()) (Service.idle 0 false)
        approvedAndStopped :=
  have h : Runs.Along (Service.step fun _ => ()) Answered (Service.idle 0 false)
      approvedAndStopped := by decide +kernel
  ⟨h, returned_approval_frees_host (fun _ => ()) 0 false approvedAndStopped h⟩

/-- The worker refuses to prepare the session. The approval returns, and its clean-up closes a
session that the worker does not hold: no event follows. -/
def refusedPreparation : List (Action Unit) :=
  sections () 5 ++ .approve () false :: sections () 2

/-- The record of the refused session stays in the slot, without a deadline. -/
theorem refused_preparation_keeps_host_busy :
    ¬ Runs.Always (Service.step fun _ => ()) (Freed fun _ => ()) (Service.idle 0 false)
      refusedPreparation := by
  intro h
  rcases h.last () (by decide +kernel) (by decide +kernel) (by decide +kernel) with
    hactive | ⟨hdeadline, _⟩
  · exact hactive (by decide +kernel)
  · exact absurd hdeadline (by decide +kernel)

end HomeTunnel.Host.Sessions
