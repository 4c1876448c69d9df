import Mathlib

/-! # Replay windows

A receiver of numbered messages remembers the numbers it took, but only those close below
the highest one, and refuses what it remembers and what lies further below. Forgetting is
safe because the edge behind which numbers are forgotten is the one behind which they are
refused. Numbers are of any type that is ranked by the naturals.
-/

namespace HomeTunnel.ReplayWindow

variable {α : Type*} {rank : α ↪ ℕ} {span : ℕ}

/-- The number lies `span` or more below the highest one. -/
def Far (rank : α ↪ ℕ) (span : ℕ) (highest n : α) : Prop := rank n + span ≤ rank highest

instance Far.decidable (rank : α ↪ ℕ) (span : ℕ) (highest n : α) :
    Decidable (Far rank span highest n) :=
  inferInstanceAs (Decidable (_ ≤ _))

/-- The higher of two numbers. -/
def higher (rank : α ↪ ℕ) (highest n : α) : α := if rank highest < rank n then n else highest

theorem rank_higher (highest n : α) :
    rank (higher rank highest n) = max (rank highest) (rank n) := by
  unfold higher
  split <;> omega

/-- What is far behind one number is far behind every higher one. -/
theorem Far.higher {highest m : α} (h : Far rank span highest m) (n : α) :
    Far rank span (higher rank highest n) m := by
  unfold Far at h ⊢
  rw [rank_higher]
  omega

/-- The numbers that are remembered, all of them close below the highest one. -/
structure Window (rank : α ↪ ℕ) (span : ℕ) where
  seen : Finset α
  highest : α
  inside : ∀ n ∈ seen, rank n ≤ rank highest ∧ ¬ Far rank span highest n

namespace Window

/-- Windows with the same numbers are the same. -/
theorem ext_fields {v w : Window rank span} (hseen : v.seen = w.seen)
    (hhighest : v.highest = w.highest) : v = w := by
  cases v
  cases w
  cases hseen
  cases hhighest
  rfl

def empty (zero : α) : Window rank span := ⟨∅, zero, by simp⟩

/-- The window never holds more numbers than its span. -/
theorem card_le_span (w : Window rank span) : w.seen.card ≤ span := by
  have hsub : w.seen.map rank ⊆ Finset.Icc (rank w.highest + 1 - span) (rank w.highest) := by
    intro k hk
    obtain ⟨n, hn, rfl⟩ := Finset.mem_map.mp hk
    have hinside := w.inside n hn
    unfold Far at hinside
    rw [Finset.mem_Icc]
    omega
  have hcard := Finset.card_le_card hsub
  rw [Finset.card_map, Nat.card_Icc] at hcard
  omega

variable [DecidableEq α]

/-- Neither remembered nor too far below. -/
def Admits (w : Window rank span) (n : α) : Prop := n ∉ w.seen ∧ ¬ Far rank span w.highest n

def take (w : Window rank span) (n : α) : Window rank span where
  seen := (insert n w.seen).filter fun m => ¬ Far rank span (higher rank w.highest n) m
  highest := higher rank w.highest n
  inside := by
    intro m hm
    obtain ⟨hmem, hfar⟩ := Finset.mem_filter.mp hm
    refine ⟨?_, hfar⟩
    rw [rank_higher]
    rcases Finset.mem_insert.mp hmem with rfl | hmem
    · exact le_max_right _ _
    · exact le_trans (w.inside m hmem).1 (le_max_left _ _)

theorem mem_take {w : Window rank span} {n m : α} :
    m ∈ (w.take n).seen ↔
      (m = n ∨ m ∈ w.seen) ∧ ¬ Far rank span (higher rank w.highest n) m := by
  simp [take]

@[simp] theorem take_highest (w : Window rank span) (n : α) :
    (w.take n).highest = higher rank w.highest n := rfl

/-- What has been taken is not admitted any more, however many numbers follow. -/
theorem not_admits_of_take {w : Window rank span} {n m : α} (h : m = n ∨ ¬ w.Admits m) :
    ¬ (w.take n).Admits m := by
  rintro ⟨hseen, hfar⟩
  rw [mem_take] at hseen
  rw [take_highest] at hfar
  apply hseen
  refine ⟨?_, hfar⟩
  rcases h with hnew | hold
  · exact Or.inl hnew
  · by_contra hnot
    apply hold
    refine ⟨fun hmem => hnot (Or.inr hmem), fun h => hfar (h.higher n)⟩

end Window

section Runs

variable [DecidableEq α] {σ ε : Type*}

/-- What the receiver may do to its window in one step: nothing, or take a number. -/
def Moves (v w : Window rank span) : Prop := w = v ∨ ∃ n, v.Admits n ∧ w = v.take n

theorem Moves.not_admits {v w : Window rank span} (h : Moves v w) {m : α} (hm : ¬ v.Admits m) :
    ¬ w.Admits m := by
  rcases h with rfl | ⟨n, _, rfl⟩
  · exact hm
  · exact Window.not_admits_of_take (Or.inr hm)

/-- A receiver that keeps a window: a step accepts a number only by taking it. -/
structure Receiver (window : σ → Window rank span) (step : σ → ε → σ)
    (accepted : σ → ε → Option α) : Prop where
  takes : ∀ s e n, accepted s e = some n →
    (window s).Admits n ∧ window (step s e) = (window s).take n
  moves : ∀ s e, Moves (window s) (window (step s e))

/-- It is enough to say of each step that it leaves the window alone, or takes a number which is
then the only one it may accept. -/
theorem Receiver.of_steps {window : σ → Window rank span} {step : σ → ε → σ}
    {accepted : σ → ε → Option α}
    (h : ∀ s e, accepted s e = none ∧ window (step s e) = window s ∨
      ∃ n, (window s).Admits n ∧ window (step s e) = (window s).take n ∧
        ∀ k, accepted s e = some k → k = n) :
    Receiver window step accepted := by
  constructor
  · intro s e n hn
    rcases h s e with ⟨hnone, _⟩ | ⟨k, hadmits, htake, honly⟩
    · rw [hnone] at hn
      cases hn
    · rw [honly n hn]
      exact ⟨hadmits, htake⟩
  · intro s e
    rcases h s e with ⟨_, hsame⟩ | ⟨k, hadmits, htake, _⟩
    · exact Or.inl hsame
    · exact Or.inr ⟨k, hadmits, htake⟩

/-- The numbers accepted over a run, in order. -/
def acceptedOver (step : σ → ε → σ) (accepted : σ → ε → Option α) : σ → List ε → List α
  | _, [] => []
  | s, e :: es => (accepted s e).toList ++ acceptedOver step accepted (step s e) es

variable {window : σ → Window rank span} {step : σ → ε → σ} {accepted : σ → ε → Option α}

/-- A number that is not admitted now is not accepted later. -/
theorem Receiver.not_mem_acceptedOver (h : Receiver window step accepted) {m : α} (es : List ε)
    (s : σ) (hm : ¬ (window s).Admits m) : m ∉ acceptedOver step accepted s es := by
  induction es generalizing s with
  | nil => simp [acceptedOver]
  | cons e es ih =>
    rw [acceptedOver, List.mem_append, not_or]
    constructor
    · intro hnow
      rw [Option.mem_toList] at hnow
      exact hm (h.takes s e m hnow).1
    · exact ih (step s e) ((h.moves s e).not_admits hm)

/-- No number is accepted twice over a whole run. -/
theorem Receiver.nodup (h : Receiver window step accepted) (es : List ε) (s : σ) :
    (acceptedOver step accepted s es).Nodup := by
  induction es generalizing s with
  | nil => simp [acceptedOver]
  | cons e es ih =>
    rw [acceptedOver]
    cases hnow : accepted s e with
    | none => simpa using ih (step s e)
    | some n =>
      have htake := (h.takes s e n hnow).2
      have hlater : n ∉ acceptedOver step accepted (step s e) es := by
        apply h.not_mem_acceptedOver
        rw [htake]
        exact Window.not_admits_of_take (Or.inl rfl)
      simpa using ⟨hlater, ih (step s e)⟩

end Runs

end HomeTunnel.ReplayWindow
