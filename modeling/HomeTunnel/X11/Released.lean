import HomeTunnel.X11.Sink

/-! # Nothing that the sink pressed stays pressed

What is held is marked, the guard ends only with an empty ledger, and the sink presses nothing
once the guard has had the lock.
-/

namespace HomeTunnel.X11

/-- The host process is in a section under the lock. -/
def Pc.inside : Pc → Bool
  | .idle | .locking _ => false
  | _ => true

/-- The host process is past the check of the guard. -/
def Pc.busy : Pc → Bool
  | .turning _ | .pressing .. | .restoring .. | .releasing .. | .clearing .. => true
  | _ => false

/-- A press may follow without another check of the guard. -/
def Pc.mayPress : Pc → Bool
  | .turning _ | .pressing .. | .releasing _ (some _) | .clearing _ (some _) => true
  | _ => false

/-- What the entry that the host process works on looks like. -/
def State.Entry (s : State) : Prop :=
  match s.pc with
  | .locking (.press t _) | .checking (.press t _) => t ∈ everyTarget
  | .pressing t previous _ | .restoring t previous _ =>
    s.marks t = true ∧ (s.held t = true → previous = true)
  | .clearing t _ => s.held t = false
  | _ => True

structure Inv (s : State) : Prop where
  marked : ∀ t, s.held t = true → s.marks t = true
  listed : ∀ t, s.marks t = true → t ∈ everyTarget
  hostHolds : s.alive = true → s.pc.inside = true → s.holder = some .host
  guardHolds : ∀ rest empty, s.guard = .releasing rest empty → s.holder = some .guard
  inactive : s.guard ≠ .watching → s.active = false
  -- a pass that has met no failure leaves only the entries ahead of it
  swept : ∀ rest, s.guard = .releasing rest true → ∀ t, s.marks t = true → t ∈ rest
  finished : s.guard = .finished →
    (∀ t, s.marks t = false) ∧ (s.alive = true → s.pc.busy = false)
  entry : s.alive = true → s.Entry

theorem detentButton_mem (axis : Axis) (value : Int) :
    .button (detentButton axis value) ∈ everyTarget := by
  rw [mem_everyTarget_button]
  cases axis <;> unfold detentButton <;> dsimp only <;> split <;> omega

theorem State.Entry.outside {s s' : State} (hpc : s'.pc = s.pc) (hout : s.pc.inside = false)
    (h : s.Entry) : s'.Entry := by
  unfold State.Entry at h ⊢
  rw [hpc]
  cases hp : s.pc with
  | idle => trivial
  | locking task =>
    rw [hp] at h
    cases task with
    | press t down => exact h
    | wheel => trivial
  | _ => simp [hp, Pc.inside] at hout

theorem Pc.busy_of_outside {pc : Pc} (h : pc.inside = false) : pc.busy = false := by
  cases pc <;> simp_all [Pc.inside, Pc.busy]

theorem Inv.init (failed : Bool) : Inv (State.init failed) := by
  constructor <;> simp [State.init, Pc.inside, State.Entry]

namespace Inv

variable {s : State} {keys : Nat → Fin 256}

theorem die (h : Inv s) : Inv { s with alive := false } :=
  ⟨h.marked, h.listed, nofun, h.guardHolds, h.inactive, h.swept,
    fun hf => ⟨(h.finished hf).1, nofun⟩, nofun⟩

theorem wake (h : Inv s) (expired : Bool) : Inv (s.wake expired) := by
  unfold State.wake
  split
  · exact ⟨h.marked, h.listed, h.hostHolds, nofun, fun _ => rfl, nofun, nofun, h.entry⟩
  · exact h

theorem guardLock (h : Inv s) (granted : Bool) : Inv (s.guardLock granted) := by
  unfold State.guardLock
  split
  · split
    · rename_i hl hg
      refine ⟨h.marked, h.listed, ?_, fun _ _ _ => rfl, fun _ => h.inactive (by simp [hl]), ?_,
        nofun, h.entry⟩
      · intro ha hi
        have hd : s.alive = false := by
          have hh := h.hostHolds ha hi
          simp only [hh, Option.isNone_some, beq_self_eq_true, Bool.true_and, Bool.false_or,
            Bool.and_eq_true, Bool.not_eq_true'] at hg
          exact hg.2
        exact absurd (ha.symm.trans hd) nofun
      · intro rest hr t ht
        cases hr
        exact h.listed t ht
    · exact ⟨h.marked, h.listed, h.hostHolds, nofun, nofun, nofun, nofun, h.entry⟩
  · exact h

theorem outside (h : Inv s) {rest : List Target} {empty : Bool}
    (hg : s.guard = .releasing rest empty) (ha : s.alive = true) : s.pc.inside = false := by
  cases hi : s.pc.inside with
  | false => rfl
  | true => exact absurd ((h.hostHolds ha hi).symm.trans (h.guardHolds _ _ hg)) nofun

theorem guardRelease (h : Inv s) (answer : Bool) : Inv (s.guardRelease answer) := by
  unfold State.guardRelease
  split
  · rename_i t rest empty hg
    have hactive : s.active = false := h.inactive (by simp [hg])
    split
    · split
      · refine ⟨?_, ?_, h.hostHolds, fun _ _ _ => h.guardHolds _ _ hg, fun _ => hactive, ?_,
          nofun, ?_⟩
        · intro u hu
          by_cases hut : u = t
          · simp [hut] at hu
          · simp only [Function.update_of_ne hut] at hu ⊢
            exact h.marked u hu
        · intro u hu
          by_cases hut : u = t
          · simp [hut] at hu
          · exact h.listed u (by simpa only [Function.update_of_ne hut] using hu)
        · intro rest' hr u hu
          cases hr
          by_cases hut : u = t
          · simp [hut] at hu
          · have := h.swept _ hg u (by simpa only [Function.update_of_ne hut] using hu)
            exact (List.mem_cons.1 this).resolve_left hut
        · intro ha
          exact State.Entry.outside (s := s) rfl (h.outside hg ha) (h.entry ha)
      · exact ⟨h.marked, h.listed, h.hostHolds, fun _ _ _ => h.guardHolds _ _ hg,
          fun _ => hactive, nofun, nofun, h.entry⟩
    · rename_i hm
      refine ⟨h.marked, h.listed, h.hostHolds, fun _ _ _ => h.guardHolds _ _ hg,
        fun _ => hactive, ?_, nofun, h.entry⟩
      intro rest' hr u hu
      cases hr
      refine (List.mem_cons.1 (h.swept _ hg u hu)).resolve_left ?_
      intro hut
      exact hm (hut ▸ hu)
  · rename_i empty hg
    have hactive : s.active = false := h.inactive (by simp [hg])
    refine ⟨h.marked, h.listed, ?_, ?_, fun _ => hactive, ?_, ?_, h.entry⟩
    · intro ha hi
      exact absurd (hi.symm.trans (h.outside hg ha)) nofun
    · intro rest e he
      cases empty <;> cases he
    · intro rest he
      cases empty <;> cases he
    · intro he
      cases empty with
      | false => cases he
      | true =>
        refine ⟨?_, ?_⟩
        · intro t
          cases ht : s.marks t with
          | false => rfl
          | true => exact absurd (h.swept _ hg t ht) List.not_mem_nil
        · exact fun ha => Pc.busy_of_outside (h.outside hg ha)
  · exact h

theorem watchdogStop (h : Inv s) : Inv { s with failed := true, active := false, stop := true } :=
  ⟨h.marked, h.listed, h.hostHolds, h.guardHolds, fun _ => rfl, h.swept, h.finished, h.entry⟩

/-- A step of the host outside the lock leaves the ledger as it is. -/
theorem of_outside (h : Inv s) {s' : State} (hout : s'.pc.inside = false) (hentry : s'.Entry)
    (hmarks : s'.marks = s.marks := by rfl) (hheld : s'.held = s.held := by rfl)
    (hactive : s'.active = s.active := by rfl) (hguard : s'.guard = s.guard := by rfl)
    (hholder : s'.holder = s.holder := by rfl) : Inv s' := by
  refine ⟨?_, ?_, fun _ hi => absurd (hi.symm.trans hout) nofun, ?_, ?_, ?_, ?_, fun _ => hentry⟩
  · rw [hmarks, hheld]
    exact h.marked
  · rw [hmarks]
    exact h.listed
  · rw [hguard, hholder]
    exact h.guardHolds
  · rw [hguard, hactive]
    exact h.inactive
  · rw [hguard, hmarks]
    exact h.swept
  · rw [hguard, hmarks]
    exact fun hf => ⟨(h.finished hf).1, fun _ => Pc.busy_of_outside hout⟩

theorem call {s' : State} (h : Inv s) (hidle : s.pc = .idle) (hcall : s.Called s') : Inv s' := by
  have hout : s.pc.inside = false := by rw [hidle]; rfl
  cases hcall with
  | same => exact h
  | failed | refused failed => exact h.of_outside hout (by simp [State.Entry, hidle])
  | press ht down => exact h.of_outside rfl ht
  | wheel dx dy => exact h.of_outside rfl trivial

theorem answer (h : Inv s) (sent : Bool) : Inv (s.answer sent) := by
  unfold State.answer
  split <;> exact h.of_outside rfl trivial

theorem lock (h : Inv s) (ha : s.alive = true) (granted : Bool) : Inv (s.lock granted) := by
  unfold State.lock
  split
  · rename_i task hpc
    split
    · rename_i hg
      have hfree : s.holder = none := by simpa using (Bool.and_eq_true_iff.1 hg).2
      have hguard : ∀ rest empty, s.guard ≠ .releasing rest empty := by
        intro rest empty he
        simp [h.guardHolds _ _ he] at hfree
      refine ⟨h.marked, h.listed, fun _ _ => rfl, fun rest empty he => absurd he (hguard _ _),
        h.inactive, h.swept, fun hf => ⟨(h.finished hf).1, fun _ => rfl⟩, ?_⟩
      intro _
      have := h.entry ha
      unfold State.Entry at this ⊢
      rw [hpc] at this
      cases task <;> exact this
    · exact h.answer false
  · exact h

/-- A step of the host under the lock, which the guard does not have. -/
theorem of_inside (h : Inv s) (ha : s.alive = true) (hi : s.pc.inside = true) {s' : State}
    (hguard : s'.guard = s.guard) (hholder : s'.holder = s.holder)
    (hactive : s'.active = true → s.active = true)
    (hmarked : ∀ t, s'.held t = true → s'.marks t = true)
    (hlisted : ∀ t, s'.marks t = true → t ∈ everyTarget)
    (hfinished : s.guard = .finished → s'.marks = s.marks ∧ s'.pc.busy = false)
    (hentry : s'.Entry) : Inv s' := by
  have hhost := h.hostHolds ha hi
  have hno : ∀ rest empty, s.guard ≠ .releasing rest empty := fun _ _ he =>
    absurd (hi.symm.trans (h.outside he ha)) nofun
  refine ⟨hmarked, hlisted, fun _ _ => hholder.trans hhost, ?_, ?_, ?_, ?_, fun _ => hentry⟩
  · rw [hguard]
    exact fun _ _ he => absurd he (hno _ _)
  · rw [hguard]
    intro hw
    have := h.inactive hw
    cases hs : s'.active with
    | false => rfl
    | true => exact absurd ((hactive hs).symm.trans this) nofun
  · rw [hguard]
    exact fun _ he => absurd he (hno _ _)
  · rw [hguard]
    intro hf
    rw [(hfinished hf).1]
    exact ⟨(h.finished hf).1, fun _ => (hfinished hf).2⟩

/-- A step under the lock that leaves the entries and the display alone. -/
theorem move (h : Inv s) (ha : s.alive = true) (hi : s.pc.inside = true) {pc : Pc}
    (hfinished : s.guard = .finished → pc.busy = false) (hentry : { s with pc := pc }.Entry) :
    Inv { s with pc := pc } :=
  h.of_inside ha hi rfl rfl id h.marked h.listed (fun hf => ⟨rfl, hfinished hf⟩) hentry

theorem not_finished (h : Inv s) (ha : s.alive = true) (hbusy : s.pc.busy = true) :
    s.guard ≠ .finished := fun hf =>
  absurd (hbusy.symm.trans ((h.finished hf).2 ha)) nofun

theorem wheel (h : Inv s) (wheel : Axis → Int) : Inv { s with wheel := wheel } :=
  ⟨h.marked, h.listed, h.hostHolds, h.guardHolds, h.inactive, h.swept, h.finished, h.entry⟩

theorem mark (h : Inv s) (ha : s.alive = true) (hi : s.pc.inside = true)
    (hg : s.guard ≠ .finished) {t : Target} (ht : t ∈ everyTarget) (axis : Option Axis) :
    Inv { s with marks := Function.update s.marks t true, pc := .pressing t (s.marks t) axis } := by
  refine h.of_inside ha hi rfl rfl id ?_ ?_ (fun hf => absurd hf hg) ?_
  · intro u hu
    by_cases hut : u = t
    · simp [hut]
    · simpa only [Function.update_of_ne hut] using h.marked u hu
  · intro u hu
    by_cases hut : u = t
    · exact hut ▸ ht
    · exact h.listed u (by simpa only [Function.update_of_ne hut] using hu)
  · exact ⟨Function.update_self .., h.marked t⟩

/-- The mark goes back to a value that still covers what is held. -/
theorem unmark (h : Inv s) (ha : s.alive = true) (hbusy : s.pc.busy = true)
    (hi : s.pc.inside = true) {t : Target} {value : Bool}
    (ht : value = true → s.marks t = true) (hvalue : s.held t = true → value = true) (pc : Pc)
    (hentry : { s with marks := Function.update s.marks t value, pc := pc }.Entry) :
    Inv { s with marks := Function.update s.marks t value, pc := pc } := by
  refine h.of_inside ha hi rfl rfl id ?_ ?_ (fun hf => absurd hf (h.not_finished ha hbusy)) hentry
  · intro u hu
    by_cases hut : u = t
    · simp only [hut, Function.update_self]
      exact hvalue (hut ▸ hu)
    · simpa only [Function.update_of_ne hut] using h.marked u hu
  · intro u hu
    by_cases hut : u = t
    · subst hut
      exact h.listed u (ht (by simpa using hu))
    · exact h.listed u (by simpa only [Function.update_of_ne hut] using hu)

theorem proceed (h : Inv s) (ha : s.alive = true) (answer : Bool) : Inv (s.proceed answer) := by
  have hentry := h.entry ha
  unfold State.Entry at hentry
  have hhealthy : s.healthy = true → s.guard ≠ .finished := fun hh hf => by
    simp [State.healthy, hf] at hh
  by_cases hi : s.pc.inside = true
  swap
  · have hsame : s.proceed answer = s := by
      unfold State.proceed
      cases hpc : s.pc <;> simp_all [Pc.inside]
    rw [hsame]
    exact h
  unfold State.proceed
  cases hpc : s.pc with
  | idle | locking task => exact h
  | checking task =>
    rw [hpc] at hentry
    cases task with
    | press t down =>
      dsimp only
      split
      · exact h.move ha hi (fun _ => rfl) trivial
      · rename_i hm
        split
        · rename_i hc
          rw [Bool.and_eq_true_iff] at hc
          cases down with
          | true => exact h.mark ha hi (hhealthy (by simpa using hc.2)) hentry none
          | false =>
            refine h.move ha hi ?_ trivial
            intro hf
            simp [(h.finished hf).1 t] at hm
        · exact h.move ha hi (fun _ => rfl) trivial
    | wheel =>
      dsimp only
      cases hh : s.healthy with
      | true => exact h.move ha hi (fun hf => absurd hf (hhealthy hh)) trivial
      | false => exact h.move ha hi (fun _ => rfl) trivial
  | turning axis =>
    have hg := h.not_finished ha (by rw [hpc]; rfl)
    dsimp only
    split
    · exact h.mark ha hi hg (detentButton_mem axis _) (some axis)
    · cases axis <;> exact h.move ha hi (fun hf => absurd hf hg) trivial
  | pressing t previous axis =>
    have hg := h.not_finished ha (by rw [hpc]; rfl)
    rw [hpc] at hentry
    dsimp only
    split
    · refine h.of_inside ha hi rfl rfl id ?_ h.listed (fun hf => absurd hf hg) ?_
      · intro u hu
        by_cases hut : u = t
        · exact hut ▸ hentry.1
        · exact h.marked u (by simpa only [Function.update_of_ne hut] using hu)
      · cases axis <;> trivial
    · exact h.move ha hi (fun hf => absurd hf hg) hentry
  | restoring t previous axis =>
    rw [hpc] at hentry
    have hback := h.unmark ha (by rw [hpc]; rfl) hi (fun _ => hentry.1) hentry.2 (.unlocking false)
    cases axis with
    | none => exact hback trivial
    | some axis => exact (hback trivial).wheel _
  | releasing t axis =>
    have hg := h.not_finished ha (by rw [hpc]; rfl)
    dsimp only
    split
    · refine h.of_inside ha hi rfl rfl id ?_ h.listed (fun hf => absurd hf hg) ?_
      · intro u hu
        by_cases hut : u = t
        · simp [hut] at hu
        · exact h.marked u (by simpa only [Function.update_of_ne hut] using hu)
      · exact Function.update_self ..
    · cases axis with
      | none => exact h.move ha hi (fun hf => absurd hf hg) trivial
      | some axis =>
        have hfail : Inv { s with active := false, stop := true, pc := .unlocking false } :=
          h.of_inside ha hi rfl rfl nofun h.marked h.listed (fun hf => absurd hf hg) trivial
        exact hfail.wheel _
  | clearing t axis =>
    rw [hpc] at hentry
    have hclear := h.unmark ha (by rw [hpc]; rfl) hi (show false = true → _ from nofun)
      (fun hh => absurd (hh.symm.trans hentry) nofun)
    cases axis with
    | none => exact hclear _ trivial
    | some axis => exact (hclear (.turning axis) trivial).wheel _
  | unlocking sent =>
    dsimp only [State.answer]
    split <;>
    · refine ⟨h.marked, h.listed, nofun, ?_, h.inactive, h.swept,
        fun hf => ⟨(h.finished hf).1, fun _ => rfl⟩, fun _ => trivial⟩
      exact fun _ _ he => absurd (hi.symm.trans (h.outside he ha)) nofun

theorem step (h : Inv s) (action : Action) : Inv (s.step keys action) :=
  State.step_cases h action (fun hidle _ => h.call hidle) (fun granted _ ha => h.lock ha granted)
    (fun answer _ ha => h.proceed ha answer) h.watchdogStop h.die h.wake h.guardLock h.guardRelease

end Inv

/-- The guard has declared the sink inactive and no press is under way. -/
def State.Quiet (s : State) : Prop :=
  s.active = false ∧ (s.alive = true → s.pc.mayPress = false)

/-- What a step keeps from then on. -/
def State.Silent (s s' : State) : Prop :=
  s'.Quiet ∧ s'.pressed = s.pressed

namespace State.Quiet

variable {s : State} {keys : Nat → Fin 256}

theorem call {s' : State} (h : s.Quiet) (hcall : s.Called s') : s.Silent s' := by
  cases hcall with
  | same | failed | refused failed => exact ⟨h, rfl⟩
  | press ht down | wheel dx dy => exact ⟨⟨h.1, fun _ => rfl⟩, rfl⟩

theorem answer (h : s.active = false) (sent : Bool) : s.Silent (s.answer sent) := by
  unfold State.answer
  split <;> exact ⟨⟨h, fun _ => rfl⟩, rfl⟩

theorem lock (h : s.Quiet) (granted : Bool) : s.Silent (s.lock granted) := by
  unfold State.lock
  split
  · split
    · exact ⟨⟨h.1, fun _ => rfl⟩, rfl⟩
    · exact answer h.1 false
  · exact ⟨h, rfl⟩

theorem proceed (h : s.Quiet) (ha : s.alive = true) (answer : Bool) :
    s.Silent (s.proceed answer) := by
  have hpress := h.2 ha
  have hunhealthy : s.healthy = false := by simp [State.healthy, h.1]
  unfold State.proceed
  cases hpc : s.pc with
  | idle | locking task => exact ⟨h, rfl⟩
  | checking task =>
    cases task with
    | press t down =>
      dsimp only
      rw [hunhealthy]
      cases down <;> cases answer <;> cases s.marks t <;> exact ⟨⟨h.1, fun _ => rfl⟩, rfl⟩
    | wheel =>
      dsimp only
      rw [hunhealthy]
      exact ⟨⟨h.1, fun _ => rfl⟩, rfl⟩
  | turning axis | pressing t previous axis => simp [hpc, Pc.mayPress] at hpress
  | restoring t previous axis => cases axis <;> exact ⟨⟨h.1, fun _ => rfl⟩, rfl⟩
  | releasing t axis =>
    cases axis with
    | none => cases answer <;> exact ⟨⟨h.1, fun _ => rfl⟩, rfl⟩
    | some axis => simp [hpc, Pc.mayPress] at hpress
  | clearing t axis =>
    cases axis with
    | none => exact ⟨⟨h.1, fun _ => rfl⟩, rfl⟩
    | some axis => simp [hpc, Pc.mayPress] at hpress
  | unlocking sent => exact State.Quiet.answer (s := { s with holder := none }) h.1 sent

theorem step (h : s.Quiet) (action : Action) : s.Silent (s.step keys action) := by
  refine State.step_cases ⟨h, rfl⟩ action (fun _ _ => h.call) (fun granted _ _ => h.lock granted)
    (fun answer _ ha => h.proceed ha answer) ⟨⟨rfl, h.2⟩, rfl⟩ ⟨⟨h.1, nofun⟩, rfl⟩
    (fun expired => ?_) (fun granted => ?_) fun answer => ?_
  · unfold State.wake
    split
    · exact ⟨⟨rfl, h.2⟩, rfl⟩
    · exact ⟨h, rfl⟩
  · unfold State.guardLock
    split
    · split <;> exact ⟨h, rfl⟩
    · exact ⟨h, rfl⟩
  · unfold State.guardRelease
    split
    · split
      · split <;> exact ⟨h, rfl⟩
      · exact ⟨h, rfl⟩
    · exact ⟨h, rfl⟩
    · exact ⟨h, rfl⟩

theorem run (h : s.Quiet) (actions : List Action) :
    (actions.foldl (State.step keys) s).pressed = s.pressed := by
  induction actions generalizing s with
  | nil => rfl
  | cons action rest ih =>
    have hs := @step _ keys h action
    exact (ih hs.1).trans hs.2

end State.Quiet

theorem Inv.quiet {s : State} (h : Inv s) {rest : List Target} {empty : Bool}
    (hg : s.guard = .releasing rest empty) : s.Quiet := by
  refine ⟨h.inactive (by simp [hg]), fun ha => ?_⟩
  have hout := h.outside hg ha
  cases hpc : s.pc <;> simp_all [Pc.inside, Pc.mayPress]

/-- In every run of the two processes, what the sink pressed and is still held is marked, a
guard that has finished leaves nothing held, and once the guard is at a release, the last one
as any other, the sink presses nothing more. -/
theorem no_press_outlives_the_guard (keys : Nat → Fin 256) (failed : Bool)
    (actions more : List Action) :
    (∀ t, (actions.foldl (State.step keys) (State.init failed)).held t = true →
      (actions.foldl (State.step keys) (State.init failed)).marks t = true) ∧
    ((actions.foldl (State.step keys) (State.init failed)).guard = .finished →
      ∀ t, (actions.foldl (State.step keys) (State.init failed)).held t = false) ∧
    (∀ rest empty,
      (actions.foldl (State.step keys) (State.init failed)).guard = .releasing rest empty →
      ((actions ++ more).foldl (State.step keys) (State.init failed)).pressed =
        (actions.foldl (State.step keys) (State.init failed)).pressed) := by
  have h : Inv (actions.foldl (State.step keys) (State.init failed)) :=
    (Runs.always_of_step (q := Inv) (fun _ action hi => hi.step action) (Inv.init failed)).last
  refine ⟨h.marked, ?_, ?_⟩
  · intro hf t
    cases ht : (actions.foldl (State.step keys) (State.init failed)).held t with
    | false => rfl
    | true => exact absurd ((h.marked t ht).symm.trans ((h.finished hf).1 t)) nofun
  · intro rest empty hg
    rw [List.foldl_append]
    exact (h.quiet hg).run more

/-- In every state of every run the two processes are not both under the lock, the guard goes
through every entry that may be marked, and a pass that has met no failure still has ahead of
it whatever is held. -/
theorem guard_has_held_ahead (keys : Nat → Fin 256) (failed : Bool) (actions : List Action) :
    Runs.Always (State.step keys) (fun s =>
      (∀ rest empty, s.guard = .releasing rest empty → s.alive = true → s.pc.inside = false) ∧
      (∀ t, s.marks t = true → t ∈ everyTarget) ∧
      ∀ rest, s.guard = .releasing rest true → ∀ t, s.held t = true → t ∈ rest)
      (State.init failed) actions := by
  have hinv : Runs.Always (State.step keys) Inv (State.init failed) actions :=
    Runs.always_of_step (fun _ action h => h.step action) (Inv.init failed)
  exact hinv.mono fun s h => ⟨fun _ _ hguard => h.outside hguard, h.listed,
    fun rest hguard t ht => h.swept rest hguard t (h.marked t ht)⟩

end HomeTunnel.X11
