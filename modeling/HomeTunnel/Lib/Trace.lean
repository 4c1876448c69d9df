import Mathlib

/-! # Traces read backwards

A trace lists events newest first, so a new event is a `cons` and the suffixes
of a trace are its pasts. `Since good bad` is the past-time operator: a `good`
event happened and no `bad` event came after it. The latest value that an
event reports is `List.findSome?`.
-/

namespace HomeTunnel.Trace

variable {ε α : Type*} {good bad : ε → Prop} {event : ε} {trace : List ε}

/-- Some event of the trace is `good` and none of the later ones is `bad`. -/
def Since (good bad : ε → Prop) (trace : List ε) : Prop :=
  ∃ later event earlier, trace = later ++ event :: earlier ∧ good event ∧ ∀ e ∈ later, ¬ bad e

theorem Since.now (h : good event) : Since good bad (event :: trace) :=
  ⟨[], event, trace, rfl, h, by simp⟩

theorem Since.cons (h : Since good bad trace) (hb : ¬ bad event) :
    Since good bad (event :: trace) := by
  obtain ⟨later, e, earlier, rfl, hg, hl⟩ := h
  refine ⟨event :: later, e, earlier, rfl, hg, ?_⟩
  intro x hx
  rcases List.mem_cons.mp hx with rfl | hx
  · exact hb
  · exact hl x hx

variable {later : List ε}

theorem Since.append (h : Since good bad trace) (hb : ∀ e ∈ later, ¬ bad e) :
    Since good bad (later ++ trace) := by
  induction later with
  | nil => exact h
  | cons e later ih =>
    exact (ih fun x hx => hb x (List.mem_cons_of_mem e hx)).cons (hb e List.mem_cons_self)

theorem Since.of_cons (h : Since good bad (event :: trace)) (hg : ¬ good event) :
    ¬ bad event ∧ Since good bad trace := by
  obtain ⟨later, e, earlier, heq, hgood, hl⟩ := h
  cases later with
  | nil =>
    rw [List.nil_append, List.cons.injEq] at heq
    exact absurd (heq.1 ▸ hgood) hg
  | cons first later =>
    rw [List.cons_append, List.cons.injEq] at heq
    obtain ⟨rfl, rfl⟩ := heq
    exact ⟨hl event List.mem_cons_self, later, e, earlier, rfl, hgood,
      fun x hx => hl x (List.mem_cons_of_mem event hx)⟩

theorem Since.of_append (h : Since good bad (later ++ trace)) (hg : ∀ e ∈ later, ¬ good e) :
    Since good bad trace := by
  induction later with
  | nil => exact h
  | cons e later ih =>
    have hrest := (h.of_cons (hg e List.mem_cons_self)).2
    exact ih hrest fun x hx => hg x (List.mem_cons_of_mem e hx)

/-- Like `Since`, where `good` also looks at the past of the event. -/
def SinceWhere (good : ε → List ε → Prop) (bad : ε → Prop) (trace : List ε) : Prop :=
  ∃ later event earlier, trace = later ++ event :: earlier ∧ good event earlier ∧
    ∀ e ∈ later, ¬ bad e

theorem SinceWhere.now {good : ε → List ε → Prop} (h : good event trace) :
    SinceWhere good bad (event :: trace) := ⟨[], event, trace, rfl, h, by simp⟩

theorem SinceWhere.append {good : ε → List ε → Prop} (h : SinceWhere good bad trace)
    (hb : ∀ e ∈ later, ¬ bad e) : SinceWhere good bad (later ++ trace) := by
  obtain ⟨mid, e, earlier, rfl, hg, hl⟩ := h
  refine ⟨later ++ mid, e, earlier, by rw [List.append_assoc], hg, ?_⟩
  intro x hx
  rcases List.mem_append.mp hx with hx | hx
  · exact hb x hx
  · exact hl x hx

theorem SinceWhere.cons {good : ε → List ε → Prop} (h : SinceWhere good bad trace)
    (hb : ¬ bad event) : SinceWhere good bad (event :: trace) := by
  rw [← List.singleton_append]
  apply h.append
  intro e he
  rw [List.mem_singleton.mp he]
  exact hb

/-- Every event of the trace is right about its past. -/
def Each (p : ε → List ε → Prop) : List ε → Prop
  | [] => True
  | event :: past => p event past ∧ Each p past

instance Each.decidable (p : ε → List ε → Prop) [∀ event past, Decidable (p event past)] :
    ∀ trace : List ε, Decidable (Each p trace)
  | [] => .isTrue trivial
  | event :: past =>
    have := Each.decidable p past
    inferInstanceAs (Decidable (p event past ∧ Each p past))

theorem each_iff {p : ε → List ε → Prop} :
    Each p trace ↔ ∀ later event earlier, trace = later ++ event :: earlier → p event earlier := by
  induction trace with
  | nil => simp [Each]
  | cons first past ih =>
    constructor
    · rintro ⟨hfirst, hpast⟩ later event earlier heq
      cases later with
      | nil =>
        rw [List.nil_append, List.cons.injEq] at heq
        obtain ⟨rfl, rfl⟩ := heq
        exact hfirst
      | cons e later =>
        rw [List.cons_append, List.cons.injEq] at heq
        exact ih.mp hpast later event earlier heq.2
    · intro h
      exact ⟨h [] first past rfl, ih.mpr fun later event earlier heq =>
        h (first :: later) event earlier (by rw [heq, List.cons_append])⟩

/-- New events that are right about any past. -/
theorem Each.append {p : ε → List ε → Prop} (h : Each p trace) (hl : ∀ e ∈ later, ∀ past, p e past)
    : Each p (later ++ trace) := by
  induction later with
  | nil => exact h
  | cons e later ih =>
    exact ⟨hl e List.mem_cons_self _, ih fun x hx => hl x (List.mem_cons_of_mem e hx)⟩

/-- An event that is not among the new ones is found among the old ones. -/
theorem split_old {new earlier : List ε} (h : new ++ trace = later ++ event :: earlier)
    (hnew : event ∉ new) : ∃ mid, later = new ++ mid ∧ trace = mid ++ event :: earlier := by
  rcases List.append_eq_append_iff.mp h with ⟨mid, hlater, htrace⟩ | ⟨mid, hlater, htrace⟩
  · exact ⟨mid, hlater, htrace⟩
  · cases mid with
    | nil =>
      rw [List.append_nil] at hlater
      exact ⟨[], by rw [hlater, List.append_nil], htrace.symm⟩
    | cons first mid =>
      rw [List.cons_append, List.cons.injEq] at htrace
      exact absurd (by rw [hlater, ← htrace.1]; simp) hnew

end HomeTunnel.Trace
