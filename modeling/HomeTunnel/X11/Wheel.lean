import HomeTunnel.X11.Sink

/-! # What the wheel adds up

`wheel` adds the deltas to the remainders before it has the lock. As long as nothing fails
after that, the detents sent and the remainders are exactly the deltas of the calls that
returned true.
-/

namespace HomeTunnel.X11

/-- Less than a detent. -/
def Small (value : Int) : Prop :=
  -120 < value ∧ value < 120

/-- Between two calls the books are exact: a call that returned false has left nothing behind,
and one that returned true less than a detent. -/
def State.Exact (s : State) : Prop :=
  s.pc = .idle →
    (∀ a, 120 * s.emitted a + s.wheel a = s.credited a) ∧
    (s.returned = some false → s.wheel = s.started) ∧
    (s.returned = some true → ∀ a, Small (s.wheel a))

/-- Once `wheel` has added its deltas, it gets the lock, finds the guard healthy and every one
of its requests is carried out. -/
def Unfailing (s : State) (action : Action) : Prop :=
  match s.pc, action with
  | .locking .wheel, .lock granted => granted = true ∧ s.holder = none
  | .checking .wheel, .proceed _ => s.healthy = true
  | .pressing _ _ (some _), .proceed answer => answer = true
  | .releasing _ (some _), .proceed answer => answer = true
  | _, _ => True

instance : DecidableRel Unfailing := fun s action => by
  unfold Unfailing
  split <;> infer_instance

/-- The detent that is sent but not yet taken off the remainder. -/
def Pc.lag (pc : Pc) (wheel : Axis → Int) (a : Axis) : Int :=
  match pc with
  | .releasing _ (some axis) | .clearing _ (some axis) =>
    if axis = a then detent (wheel axis) else 0
  | _ => 0

/-- The call under way is a `wheel` call at the given axis, or another call. -/
def At (wheel : Axis → Int) (calling : Option (Axis → Int)) : Option Axis → Prop
  | none => calling = none
  | some axis => calling ≠ none ∧ (axis = .y → Small (wheel .x))

def Pc.Stage (pc : Pc) (wheel : Axis → Int) (calling : Option (Axis → Int)) : Prop :=
  match pc with
  | .idle | .locking (.press ..) | .checking (.press ..) => calling = none
  | .locking .wheel | .checking .wheel => calling ≠ none
  | .turning axis => At wheel calling (some axis)
  | .pressing _ _ axis | .releasing _ axis | .clearing _ axis => At wheel calling axis
  | .restoring _ _ axis => axis = none ∧ calling = none
  | .unlocking sent => calling = none ∨ calling ≠ none ∧ sent = true ∧ ∀ a, Small (wheel a)

def State.books (s : State) :=
  (s.wheel, s.emitted, s.credited, s.calling, s.returned, s.started)

structure Tally (s : State) : Prop where
  balance : ∀ a, 120 * s.emitted a + s.wheel a =
    s.credited a + s.calling.elim 0 (fun deltas => deltas a) + 120 * s.pc.lag s.wheel a
  stage : s.pc.Stage s.wheel s.calling
  lost : s.calling = none → s.returned = some false → s.wheel = s.started
  done : s.calling = none → s.returned = some true → ∀ a, Small (s.wheel a)

namespace Tally

variable {s : State} {keys : Nat → Fin 256}

theorem init (failed : Bool) : Tally (State.init failed) := by
  constructor <;> simp [State.init, Pc.lag, Pc.Stage]

theorem exact (h : Tally s) : s.Exact := by
  intro hpc
  have hc : s.calling = none := by simpa [Pc.Stage, hpc] using h.stage
  refine ⟨fun a => ?_, h.lost hc, h.done hc⟩
  simpa [hc, Pc.lag, hpc] using h.balance a

/-- A step that leaves the record of the calls. -/
theorem move (h : Tally s) {s' : State} (hbooks : s'.books = s.books)
    (hlag : s'.pc.lag s.wheel = s.pc.lag s.wheel) (hstage : s'.pc.Stage s.wheel s.calling) :
    Tally s' := by
  simp only [State.books, Prod.mk.injEq] at hbooks
  obtain ⟨hwheel, hemitted, hcredited, hcalling, hreturned, hstarted⟩ := hbooks
  refine ⟨?_, ?_, ?_, ?_⟩
  · rw [hwheel, hemitted, hcredited, hcalling, hlag]
    exact h.balance
  · rwa [hwheel, hcalling]
  · rw [hcalling, hreturned, hwheel, hstarted]
    exact h.lost
  · rw [hcalling, hreturned, hwheel]
    exact h.done

theorem call {s' : State} (h : Tally s) (hidle : s.pc = .idle) (hcall : s.Called s') :
    Tally s' := by
  have hstage := h.stage
  rw [hidle] at hstage
  have hc : s.calling = none := hstage
  cases hcall with
  | same => exact h
  | failed => exact h.move rfl rfl h.stage
  | press ht down => exact h.move rfl (by rw [hidle]; rfl) hstage
  | refused failed => exact ⟨h.balance, h.stage, fun _ _ => rfl, nofun⟩
  | wheel dx dy =>
    refine ⟨fun a => ?_, nofun, nofun, nofun⟩
    have := h.balance a
    rw [hidle, hc] at this
    simp only [Pc.lag, Option.elim] at this ⊢
    omega

theorem answer (h : Tally s) (sent : Bool) (hlag : ∀ a, s.pc.lag s.wheel a = 0)
    (hsent : s.calling ≠ none → sent = true ∧ ∀ a, Small (s.wheel a)) :
    Tally (s.answer sent) := by
  unfold State.answer
  split
  · rename_i hc
    exact h.move rfl (funext fun a => (hlag a).symm) hc
  · rename_i deltas hc
    obtain ⟨rfl, hsmall⟩ := hsent (by simp [hc])
    refine ⟨fun a => ?_, rfl, nofun, fun _ _ => hsmall⟩
    have := h.balance a
    rw [hc, hlag a] at this
    simp only [Option.elim, Pc.lag, ↓reduceIte] at this ⊢
    omega

theorem lock (h : Tally s) {granted : Bool} (hu : Unfailing s (.lock granted)) :
    Tally (s.lock granted) := by
  have hstage := h.stage
  unfold State.lock
  split
  · rename_i task hpc
    rw [hpc] at hstage
    cases task with
    | press t down =>
      split
      · exact h.move rfl (by rw [hpc]; rfl) hstage
      · exact h.answer false (fun a => by rw [hpc]; rfl)
          fun hc => absurd hstage hc
    | wheel =>
      unfold Unfailing at hu
      rw [hpc] at hu
      obtain ⟨rfl, hfree⟩ := hu
      rw [if_pos (by simp [hfree])]
      exact h.move rfl (by rw [hpc]; rfl) hstage
  · exact h

theorem turned (h : Tally s) {axis : Axis}
    (hlag : ∀ a, s.pc.lag s.wheel a = if axis = a then detent (s.wheel axis) else 0)
    (hat : At s.wheel s.calling (some axis)) : Tally (s.turned axis true) := by
  have hc : s.calling ≠ none := hat.1
  refine ⟨fun a => ?_, ⟨hc, fun hy => ?_⟩, fun h => absurd h hc, fun h => absurd h hc⟩
  · have := h.balance a
    rw [hlag a] at this
    simp only [State.turned, Pc.lag, ↓reduceIte]
    by_cases ha : axis = a
    · subst ha
      rw [if_pos rfl] at this
      rw [Function.update_self]
      omega
    · rw [if_neg ha] at this
      rw [Function.update_of_ne (Ne.symm ha)]
      exact this
  · subst hy
    exact hat.2 rfl

theorem proceed (h : Tally s) {answer : Bool} (hu : Unfailing s (.proceed answer)) :
    Tally (s.proceed answer) := by
  have hstage := h.stage
  unfold Unfailing at hu
  unfold State.proceed
  cases hpc : s.pc with
  | idle | locking task => exact h
  | checking task =>
    rw [hpc] at hstage hu
    cases task with
    | press t down =>
      dsimp only
      split
      · exact h.move rfl (by rw [hpc]; rfl) (.inl hstage)
      · split
        · cases down <;> exact h.move rfl (by rw [hpc]; rfl) hstage
        · exact h.move rfl (by rw [hpc]; rfl) (.inl hstage)
    | wheel =>
      dsimp only
      rw [if_pos hu]
      exact h.move rfl (by rw [hpc]; rfl) ⟨hstage, nofun⟩
  | turning axis =>
    rw [hpc] at hstage
    dsimp only
    split
    · exact h.move rfl (by rw [hpc]; rfl) hstage
    · rename_i hsmall
      have hsmall : Small (s.wheel axis) := by
        unfold Small
        omega
      cases axis with
      | x => exact h.move rfl (by rw [hpc]; rfl) ⟨hstage.1, fun _ => hsmall⟩
      | y =>
        refine h.move rfl (by rw [hpc]; rfl) (.inr ⟨hstage.1, rfl, fun a => ?_⟩)
        cases a with
        | x => exact hstage.2 rfl
        | y => exact hsmall
  | pressing t previous axis =>
    rw [hpc] at hstage hu
    cases axis with
    | none =>
      cases answer with
      | false => exact h.move rfl (by rw [hpc]; rfl) ⟨rfl, hstage⟩
      | true => exact h.move rfl (by rw [hpc]; rfl) (.inl hstage)
    | some axis =>
      obtain rfl : answer = true := hu
      have hc : s.calling ≠ none := hstage.1
      refine ⟨fun a => ?_, hstage, fun h => absurd h hc, fun h => absurd h hc⟩
      have := h.balance a
      rw [hpc] at this
      simp only [Pc.lag, reduceCtorEq, ↓reduceIte] at this ⊢
      by_cases ha : axis = a
      · subst ha
        rw [Function.update_self, if_pos rfl]
        omega
      · rw [Function.update_of_ne (Ne.symm ha), if_neg ha]
        exact this
  | restoring t previous axis =>
    rw [hpc] at hstage
    obtain ⟨rfl, hc⟩ := hstage
    exact h.move rfl (by rw [hpc]; rfl) (.inl hc)
  | releasing t axis =>
    rw [hpc] at hstage hu
    cases axis with
    | none =>
      cases answer with
      | false => exact h.move rfl (by rw [hpc]; rfl) (.inl hstage)
      | true => exact h.move rfl (by rw [hpc]; rfl) hstage
    | some axis =>
      obtain rfl : answer = true := hu
      exact h.move rfl (by rw [hpc]; rfl) hstage
  | clearing t axis =>
    rw [hpc] at hstage
    cases axis with
    | none => exact h.move rfl (by rw [hpc]; rfl) (.inl hstage)
    | some axis =>
      have hclear : Tally { s with marks := Function.update s.marks t false } :=
        h.move rfl rfl h.stage
      exact hclear.turned (fun a => by simp only [hpc, Pc.lag]) hstage
  | unlocking sent =>
    rw [hpc] at hstage
    have hfree : Tally { s with holder := none } := h.move rfl rfl h.stage
    refine hfree.answer sent (fun a => by simp only [hpc, Pc.lag]) fun hc => ?_
    obtain hn | hs := hstage
    · exact absurd hn hc
    · exact hs.2

theorem step (h : Tally s) {action : Action} (hu : Unfailing s action) :
    Tally (s.step keys action) := by
  refine State.step_cases h action (fun hidle _ => h.call hidle)
    (fun granted heq _ => h.lock (heq ▸ hu)) (fun answer heq _ => h.proceed (heq ▸ hu))
    (h.move rfl rfl h.stage) (h.move rfl rfl h.stage) (fun expired => ?_) (fun granted => ?_) fun answer => ?_
  · unfold State.wake
    split
    · exact h.move rfl rfl h.stage
    · exact h
  · unfold State.guardLock
    split
    · split <;> exact h.move rfl rfl h.stage
    · exact h
  · unfold State.guardRelease
    split
    · split
      · split <;> exact h.move rfl rfl h.stage
      · exact h.move rfl rfl h.stage
    · exact h.move rfl rfl h.stage
    · exact h

end Tally

/-- In every run in which nothing fails a `wheel` call after it has added its deltas, the books
are exact between any two calls. -/
theorem wheel_exact_of_unfailing (keys : Nat → Fin 256) (failed : Bool) (actions : List Action)
    (hu : Runs.Along (State.step keys) Unfailing (State.init failed) actions) :
    Runs.Always (State.step keys) State.Exact (State.init failed) actions :=
  (Runs.always_of_invariant (q := Tally) (fun _ _ h hu => h.step hu) (Tally.init failed) hu).mono
    fun _ h => h.exact

/-- A call of 200 sends one detent and leaves 80. -/
theorem wheel_exact_one_detent : Runs.Always (State.step fun _ => 0) State.Exact (State.init false)
    [.call (.wheel 200 0) true true, .lock true, .proceed true, .proceed true, .proceed true,
      .proceed true, .proceed true, .proceed true, .proceed true, .proceed true] :=
  wheel_exact_of_unfailing _ _ _ (by decide)

/-- A call of 60 that waits in vain for the lock returns false; the next call of 60 then sends a
detent. -/
theorem timed_out_delta_is_sent_later : ¬ Runs.Always (State.step fun _ => 0) State.Exact
    (State.init false)
    [.call (.wheel 60 0) true true, .lock false,
      .call (.wheel 60 0) true true, .lock true, .proceed true, .proceed true, .proceed true,
      .proceed true, .proceed true, .proceed true, .proceed true, .proceed true] := by
  intro h
  have := (h.last (by decide)).1 .x
  revert this
  decide

end HomeTunnel.X11
