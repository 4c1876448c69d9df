import Mathlib

/-! # Runs of a step function

A condition on the steps of a run (`Along`) and on the states it passes through
(`Always`), with the rule that carries an invariant along.
-/

namespace HomeTunnel.Runs

variable {State Action : Type*} (step : State → Action → State)

/-- Every action of the run meets `p` in the state it is taken in. -/
def Along (p : State → Action → Prop) : State → List Action → Prop
  | _, [] => True
  | s, action :: rest => p s action ∧ Along p (step s action) rest

instance Along.decidable (p : State → Action → Prop) [∀ s action, Decidable (p s action)] :
    ∀ (s : State) (actions : List Action), Decidable (Along step p s actions)
  | _, [] => .isTrue trivial
  | s, action :: rest =>
    have := Along.decidable p (step s action) rest
    inferInstanceAs (Decidable (p s action ∧ Along step p (step s action) rest))

/-- Every state that the run passes through meets `q`. -/
def Always (q : State → Prop) : State → List Action → Prop
  | s, [] => q s
  | s, action :: rest => q s ∧ Always q (step s action) rest

variable {step}

variable {q : State → Prop} {s : State} {actions : List Action}

theorem Always.mono {r : State → Prop} (hqr : ∀ s, q s → r s) (h : Always step q s actions) :
    Always step r s actions := by
  induction actions generalizing s with
  | nil => exact hqr s h
  | cons action rest ih => exact ⟨hqr s h.1, ih h.2⟩

theorem Always.head (h : Always step q s actions) : q s := by
  cases actions with
  | nil => exact h
  | cons action rest => exact h.1

/-- A condition that every step preserves holds in every state. -/
theorem always_of_invariant {p : State → Action → Prop}
    (hstep : ∀ s action, q s → p s action → q (step s action)) (hs : q s)
    (hp : Along step p s actions) : Always step q s actions := by
  induction actions generalizing s with
  | nil => exact hs
  | cons action rest ih => exact ⟨hs, ih (hstep s action hs hp.1) hp.2⟩

theorem always_of_step (hstep : ∀ s action, q s → q (step s action)) (hs : q s) :
    Always step q s actions := by
  induction actions generalizing s with
  | nil => exact hs
  | cons action rest ih => exact ⟨hs, ih (hstep s action hs)⟩

theorem always_of_all (h : ∀ s, q s) (s : State) (actions : List Action) :
    Always step q s actions :=
  always_of_step (fun s action _ => h (step s action)) (h s)

/-- What the invariant and the condition give of a step holds of every step. -/
theorem along_of_invariant {p r : State → Action → Prop}
    (hstep : ∀ s action, q s → p s action → q (step s action))
    (hright : ∀ s action, q s → p s action → r s action) (hs : q s) (hp : Along step p s actions) :
    Along step r s actions := by
  induction actions generalizing s with
  | nil => trivial
  | cons action rest ih => exact ⟨hright s action hs hp.1, ih (hstep s action hs hp.1) hp.2⟩

/-- The last state of a run is one of its states. -/
theorem Always.last (h : Always step q s actions) : q (actions.foldl step s) := by
  induction actions generalizing s with
  | nil => exact h
  | cons action rest ih => exact ih h.2

end HomeTunnel.Runs
