import Mathlib

/-! # Enabling against disabling

One `SetEnabled(true)` runs against one disabling operation. Both advance one
atomic section at a time: a section under `s.mu`, a store update, a lock or a
wait. The schedule decides who advances next and how the waits end; a thread
that is blocked or finished stands still.
-/

namespace HomeTunnel.Host.Enable

inductive Who
  | enabling | disabling
deriving DecidableEq, Repr

/-- The operations that disable; the last is a `RefreshKeys` that has seen a changed
restore epoch. -/
inductive Disabling
  | setEnabled | disableLocally | refreshKeys
deriving DecidableEq, Repr

/-- What the two calls share: the service's fields under `s.mu`, the store's
persisted fields and the capability lock. -/
structure Shared where
  generation : UInt64
  disabled : Bool
  enabled : Bool
  enrolled : Bool
  capabilityVersion : Int
  capabilityMu : Option Who := none
deriving DecidableEq, Repr

/-! ## `SetEnabled(true)` -/

inductive EnablePc
  | sample
  | lock (generation : UInt64)
  | check (generation : UInt64)
  | capabilities (generation : UInt64)
  | snapshot (generation : UInt64)
  | request (generation : UInt64) (version : Int)
  | commit (generation : UInt64) (version : Int)
  | done
deriving DecidableEq, Repr

def unlock (shared : Shared) : Shared := { shared with capabilityMu := none }

def enableStep (shared : Shared) (ok : Bool) : EnablePc → EnablePc × Shared
  | .sample => (.lock shared.generation, shared)
  | .lock generation =>
    if shared.capabilityMu = none then
      (.check generation, { shared with capabilityMu := some .enabling })
    else (.lock generation, shared)
  | .check generation =>
    if generation ≠ shared.generation then (.done, unlock shared)
    else (.capabilities generation, shared)
  | .capabilities generation => if ok then (.snapshot generation, shared) else (.done, unlock shared)
  | .snapshot generation =>
    if shared.enrolled then (.request generation shared.capabilityVersion, shared)
    else (.done, unlock shared)
  | .request generation version =>
    if ok then (.commit generation version, shared) else (.done, unlock shared)
  | .commit generation version =>
    let stale := generation ≠ shared.generation
    (.done, unlock { shared with
      enabled := !stale
      capabilityVersion := version + 1
      disabled := if stale then shared.disabled else false })
  | .done => (.done, shared)

/-! ## The disabling operations -/

inductive DisablePc
  /-- The network wait of `RefreshKeys`. -/
  | fetch
  /-- The entry section of `SetEnabled(false)` and the last one of `RefreshKeys` before `Stop`:
  `disabled = true`. -/
  | flag
  /-- The entry section of `DisableLocally`: the generation moves with the flag. -/
  | flagAndBump
  /-- The section of `stopLocal`. -/
  | stop
  | close
  /-- The store update, and whether the engine had stopped without an error. -/
  | store (engineOk : Bool)
  | settle (engineOk : Bool)
  | lock
  | capabilities
  | snapshot
  | request (version : Int)
  | commit (version : Int)
  | done
deriving DecidableEq, Repr

def Disabling.start : Disabling → DisablePc
  | .setEnabled => .flag
  | .disableLocally => .flagAndBump
  | .refreshKeys => .fetch

def disableStep (kind : Disabling) (shared : Shared) (ok : Bool) :
    DisablePc → DisablePc × Shared
  | .fetch => (.store true, shared)
  | .flag => (.stop, { shared with disabled := true })
  | .flagAndBump =>
    (.stop, { shared with disabled := true, generation := shared.generation + 1 })
  | .stop => (.close, { shared with generation := shared.generation + 1 })
  -- `RefreshKeys` has stored before, and only waits once `stopLocal` has returned
  | .close => (if kind = .refreshKeys then .settle ok else .store ok, shared)
  | .store engineOk =>
    let shared := { shared with enabled := false }
    match kind with
    | .setEnabled => (.settle engineOk, shared)
    | .disableLocally => (.done, shared)
    | .refreshKeys => (.flag, shared)
  | .settle engineOk =>
    if kind = .setEnabled ∧ engineOk then (.lock, shared) else (.done, shared)
  | .lock =>
    if shared.capabilityMu = none then
      (.capabilities, { shared with capabilityMu := some .disabling })
    else (.lock, shared)
  | .capabilities => (.snapshot, shared)
  | .snapshot =>
    if shared.enrolled then (.request shared.capabilityVersion, shared)
    else (.done, unlock shared)
  | .request version => if ok then (.commit version, shared) else (.done, unlock shared)
  | .commit version =>
    (.done, unlock { shared with enabled := false, capabilityVersion := version + 1 })
  | .done => (.done, shared)

structure System where
  shared : Shared
  enabling : EnablePc
  disabling : DisablePc
deriving DecidableEq, Repr

/-- Who advances, and whether the wait it stands at ends well. -/
abbrev Choice := Who × Bool

def step (kind : Disabling) (s : System) : Choice → System
  | (.enabling, ok) =>
    let (pc, shared) := enableStep s.shared ok s.enabling
    { s with enabling := pc, shared := shared }
  | (.disabling, ok) =>
    let (pc, shared) := disableStep kind s.shared ok s.disabling
    { s with disabling := pc, shared := shared }

def run (kind : Disabling) (s : System) (schedule : List Choice) : System :=
  schedule.foldl (step kind) s

/-! ## The gap

`RefreshKeys` stores `Enabled = false` before the generation moves. An enabling
call that commits in between is not stale and overwrites the stored value.
-/

/-- The disabling call stands between its store update and the generation's move. -/
def inGap (kind : Disabling) (pc : DisablePc) : Bool :=
  kind == .refreshKeys && (pc == .flag || pc == .stop)

def EnablePc.isCommit : EnablePc → Bool
  | .commit .. => true
  | _ => false

/-- The next choice lets the enabling call commit in the gap. -/
def commitsInGap (kind : Disabling) (s : System) (choice : Choice) : Prop :=
  choice.1 = .enabling ∧ s.enabling.isCommit ∧ inGap kind s.disabling

/-- Some choice of the schedule does. -/
def GapCommit (kind : Disabling) : System → List Choice → Prop
  | _, [] => False
  | s, choice :: rest => commitsInGap kind s choice ∨ GapCommit kind (step kind s choice) rest

/-! ## Where the disabling call stands -/

/-- The program counters of one operation, with the generation's moves so far and
whether `Enabled = false` has been stored. -/
def position (kind : Disabling) (pc : DisablePc) : Option (UInt64 × Bool) :=
  match kind, pc with
  | .setEnabled, .flag | .setEnabled, .stop => some (0, false)
  | .setEnabled, .close | .setEnabled, .store _ => some (1, false)
  | .setEnabled, .settle _ | .setEnabled, .lock | .setEnabled, .capabilities
  | .setEnabled, .snapshot | .setEnabled, .request _ | .setEnabled, .commit _
  | .setEnabled, .done => some (1, true)
  | .disableLocally, .flagAndBump => some (0, false)
  | .disableLocally, .stop => some (1, false)
  | .disableLocally, .close | .disableLocally, .store _ => some (2, false)
  | .disableLocally, .done => some (2, true)
  | .refreshKeys, .fetch | .refreshKeys, .store _ => some (0, false)
  | .refreshKeys, .flag | .refreshKeys, .stop => some (0, true)
  | .refreshKeys, .close | .refreshKeys, .settle _ | .refreshKeys, .done => some (1, true)
  | _, _ => none

def EnablePc.generation? : EnablePc → Option UInt64
  | .lock g | .check g | .capabilities g | .snapshot g | .request g _ | .commit g _ => some g
  | .sample | .done => none

/-- The enabling call can tell from its sample whether the generation has moved,
and the stored value is `false` once the disabling call has stored it. -/
structure Safe (kind : Disabling) (s : System) : Prop where
  sampled : s.enabling ≠ .sample
  placed : ∃ moves stored, position kind s.disabling = some (moves, stored) ∧
    (∀ g, s.enabling.generation? = some g → s.shared.generation = g + moves) ∧
    (stored → s.shared.enabled = false)

/-- The enabling call has had the last word. -/
structure Lost (kind : Disabling) (s : System) : Prop where
  isDone : s.enabling = .done
  isEnabled : s.shared.enabled
  isRefresh : kind = .refreshKeys
  isStored : ∃ moves, position kind s.disabling = some (moves, true)

/-- What a disabling step does to the generation and the stored value, in terms of
`position`. -/
structure DisableEffect (kind : Disabling) (before : Shared) (moves : UInt64) (stored : Bool)
    (outcome : DisablePc × Shared) : Prop where
  placed : ∃ moves' stored', position kind outcome.1 = some (moves', stored') ∧
    outcome.2.generation + moves = before.generation + moves' ∧
    (outcome.2.enabled = false ∨ stored' = stored ∧ outcome.2.enabled = before.enabled) ∧
    (stored → stored')
  refresh : kind = .refreshKeys → stored → outcome.2.enabled = before.enabled

theorem disableStep_effect {kind : Disabling} (shared : Shared) {pc : DisablePc}
    {moves : UInt64} {stored : Bool} (h : position kind pc = some (moves, stored)) (ok : Bool) :
    DisableEffect kind shared moves stored (disableStep kind shared ok pc) := by
  cases kind <;> cases pc <;>
    simp only [position, Option.some.injEq, Prod.mk.injEq, reduceCtorEq] at h
  all_goals
    obtain ⟨rfl, rfl⟩ := h
    constructor <;> simp only [disableStep, unlock]
  all_goals
    repeat' split
  all_goals
    simp_all [position]
  all_goals
    grind

/-- Once the value is stored, only in the gap has the generation not moved yet. -/
theorem position_stored {kind : Disabling} {pc : DisablePc} {moves : UInt64}
    (h : position kind pc = some (moves, true)) :
    (moves = 0 ∧ inGap kind pc) ∨ (moves ≠ 0 ∧ ¬ inGap kind pc) := by
  cases kind <;> cases pc <;> simp_all [position, inGap] <;> subst h <;> decide

theorem position_inGap {kind : Disabling} {pc : DisablePc} (h : inGap kind pc) :
    position kind pc = some (0, true) := by
  cases kind <;> cases pc <;> simp_all [position, inGap]

theorem position_done (kind : Disabling) : ∃ moves, position kind .done = some (moves, true) := by
  cases kind <;> simp [position]

theorem add_ne_self_of_ne_zero {g moves : UInt64} (h : moves ≠ 0) : g ≠ g + moves := by
  intro heq
  apply h
  grind

variable {kind : Disabling} {s : System}

theorem Safe.disable (h : Safe kind s) (ok : Bool) : Safe kind (step kind s (.disabling, ok)) := by
  obtain ⟨moves, stored, hpos, hgen, henabled⟩ := h.placed
  obtain ⟨moves', stored', hpos', hgen', hwrite, -⟩ :=
    (disableStep_effect s.shared hpos ok).placed
  refine ⟨h.sampled, moves', stored', hpos', ?_, ?_⟩
  · intro g hg
    have hold := hgen g hg
    simp only [step]
    grind
  · intro hs
    rcases hwrite with hfalse | ⟨rfl, hsame⟩
    · exact hfalse
    · simp only [step]
      rw [hsame]
      exact henabled hs

/-- The enabling call keeps its sample until it returns, and writes only when it commits. -/
theorem enableStep_spec (shared : Shared) {pc : EnablePc} (hsample : pc ≠ .sample)
    (hcommit : ¬ pc.isCommit) (ok : Bool) :
    (enableStep shared ok pc).1 ≠ .sample ∧
    (∀ g, (enableStep shared ok pc).1.generation? = some g → pc.generation? = some g) ∧
    (enableStep shared ok pc).2.generation = shared.generation ∧
    (enableStep shared ok pc).2.enabled = shared.enabled := by
  cases pc with
  | sample => exact absurd rfl hsample
  | commit g version => simp [EnablePc.isCommit] at hcommit
  | done => simp [enableStep]
  | _ =>
    simp only [enableStep]
    split <;> simp [EnablePc.generation?, unlock]

theorem Safe.enable (h : Safe kind s) (ok : Bool)
    (hgap : ¬ commitsInGap kind s (.enabling, ok)) :
    Safe kind (step kind s (.enabling, ok)) := by
  obtain ⟨moves, stored, hpos, hgen, henabled⟩ := h.placed
  by_cases hcommit : s.enabling.isCommit
  · cases hpc : s.enabling with
    | commit g version =>
      have hg := hgen g (by simp [hpc, EnablePc.generation?])
      refine ⟨by simp [step, hpc, enableStep], moves, stored, hpos, ?_, ?_⟩
      · simp [step, hpc, enableStep, EnablePc.generation?]
      · intro hs
        subst hs
        rcases position_stored hpos with ⟨-, hin⟩ | ⟨hmoved, -⟩
        · exact absurd ⟨rfl, hcommit, hin⟩ hgap
        · have hstale : g ≠ s.shared.generation := by
            rw [hg]
            exact add_ne_self_of_ne_zero hmoved
          simp [step, hpc, enableStep, unlock, hstale]
    | _ => simp [hpc, EnablePc.isCommit] at hcommit
  · obtain ⟨hs, hkeep, hg, he⟩ := enableStep_spec s.shared h.sampled hcommit ok
    refine ⟨hs, moves, stored, hpos, ?_, ?_⟩
    · intro g hpc
      simp only [step]
      rw [hg]
      exact hgen g (hkeep g hpc)
    · intro hst
      simp only [step]
      rw [he]
      exact henabled hst

theorem Safe.lost (h : Safe kind s) {choice : Choice} (hgap : commitsInGap kind s choice) :
    Lost kind (step kind s choice) := by
  obtain ⟨who, ok⟩ := choice
  obtain ⟨rfl, hcommit, hin⟩ := hgap
  obtain ⟨moves, stored, hpos, hgen, -⟩ := h.placed
  have hplace := position_inGap hin
  rw [hplace] at hpos
  obtain ⟨rfl, rfl⟩ := Prod.mk.inj (Option.some.inj hpos)
  cases hpc : s.enabling with
  | commit g version =>
    have hg := hgen g (by simp [hpc, EnablePc.generation?])
    have hfresh : g = s.shared.generation := by
      rw [hg]
      grind
    refine ⟨by simp [step, hpc, enableStep], by simp [step, hpc, enableStep, unlock, hfresh],
      ?_, 0, hplace⟩
    simp only [inGap, Bool.and_eq_true, beq_iff_eq] at hin
    exact hin.1
  | _ => simp [hpc, EnablePc.isCommit] at hcommit

theorem Lost.step (h : Lost kind s) (choice : Choice) : Lost kind (step kind s choice) := by
  obtain ⟨moves, hpos⟩ := h.isStored
  obtain ⟨who, ok⟩ := choice
  cases who with
  | enabling =>
    have heq : Enable.step kind s (.enabling, ok) = s := by
      simp [Enable.step, h.isDone, enableStep]
      rw [← h.isDone]
    rw [heq]
    exact h
  | disabling =>
    have heffect := disableStep_effect s.shared hpos ok
    obtain ⟨moves', stored', hpos', -, -, hstored⟩ := heffect.placed
    have hkept := heffect.refresh h.isRefresh rfl
    obtain rfl : stored' = true := hstored rfl
    refine ⟨h.isDone, ?_, h.isRefresh, moves', hpos'⟩
    simp only [Enable.step]
    rw [hkept]
    exact h.isEnabled

theorem Lost.run (h : Lost kind s) (schedule : List Choice) : Lost kind (run kind s schedule) := by
  induction schedule generalizing s with
  | nil => exact h
  | cons choice rest ih => exact ih (h.step choice)

/-- From a safe state a run ends lost if the enabling call commits in the gap, and
safe if it does not. -/
theorem Safe.run (h : Safe kind s) (schedule : List Choice) :
    (GapCommit kind s schedule → Lost kind (run kind s schedule)) ∧
    (¬ GapCommit kind s schedule → Safe kind (run kind s schedule)) := by
  induction schedule generalizing s with
  | nil => exact ⟨fun hgap => absurd hgap id, fun _ => h⟩
  | cons choice rest ih =>
    by_cases hgap : commitsInGap kind s choice
    · exact ⟨fun _ => (h.lost hgap).run rest, fun hnone => absurd (Or.inl hgap) hnone⟩
    · have hnext : Safe kind (step kind s choice) := by
        obtain ⟨who, ok⟩ := choice
        cases who with
        | enabling => exact h.enable ok hgap
        | disabling => exact h.disable ok
      obtain ⟨hlost, hsafe⟩ := ih hnext
      refine ⟨fun hsome => hlost (hsome.resolve_left hgap), fun hnone => hsafe fun hrest => ?_⟩
      exact hnone (Or.inr hrest)

theorem safe_sampled (kind : Disabling) (shared : Shared) (ok : Bool) :
    Safe kind (step kind ⟨shared, .sample, kind.start⟩ (.enabling, ok)) := by
  have hplace : position kind kind.start = some (0, false) := by
    cases kind <;> rfl
  refine ⟨by simp [step, enableStep], 0, false, hplace, ?_, by simp⟩
  intro g hg
  simp only [step, enableStep, EnablePc.generation?, Option.some.injEq] at hg ⊢
  rw [← hg]
  grind

/-- The enabling call samples first and both calls run to their end: the persisted
flag is `false` exactly when the enabling call did not commit between the store
update and the generation's move of a `RefreshKeys`. -/
theorem disable_wins_iff (kind : Disabling) (shared : Shared) (ok : Bool) (schedule : List Choice)
    (hdone : let final := run kind ⟨shared, .sample, kind.start⟩ ((.enabling, ok) :: schedule)
      final.enabling = .done ∧ final.disabling = .done) :
    (run kind ⟨shared, .sample, kind.start⟩ ((.enabling, ok) :: schedule)).shared.enabled = false ↔
      ¬ GapCommit kind ⟨shared, .sample, kind.start⟩ ((.enabling, ok) :: schedule) := by
  have hfirst : ¬ commitsInGap kind ⟨shared, .sample, kind.start⟩ (.enabling, ok) := by
    simp [commitsInGap, EnablePc.isCommit]
  obtain ⟨hlost, hsafe⟩ := (safe_sampled kind shared ok).run schedule
  rw [GapCommit, or_iff_right hfirst]
  by_cases hgap : GapCommit kind (step kind ⟨shared, .sample, kind.start⟩ (.enabling, ok)) schedule
  · have henabled := (hlost hgap).isEnabled
    simp only [run, List.foldl_cons] at henabled ⊢
    simp [henabled, hgap]
  · obtain ⟨moves, stored, hpos, -, hstored⟩ := (hsafe hgap).placed
    obtain ⟨moves', hend⟩ := position_done kind
    have hd := hdone.2
    simp only [run, List.foldl_cons] at hd hpos hstored ⊢
    rw [hd, hend] at hpos
    obtain ⟨rfl, rfl⟩ := Prod.mk.inj (Option.some.inj hpos)
    simp [hgap, hstored rfl]

/-- The enabling call gets to its commit, `RefreshKeys` stores, the commit follows,
and `RefreshKeys` finishes. -/
def overtaken : List Choice :=
  [(.enabling, true), (.enabling, true), (.enabling, true), (.enabling, true), (.enabling, true),
    (.enabling, true), (.disabling, true), (.disabling, true), (.enabling, true),
    (.disabling, true), (.disabling, true), (.disabling, true), (.disabling, true)]

def enrolledHost : Shared :=
  { generation := 7, disabled := false, enabled := false, enrolled := true, capabilityVersion := 3 }

/-- Both calls have returned and remote control is enabled after all. -/
theorem refreshKeys_overtaken :
    (run .refreshKeys ⟨enrolledHost, .sample, .fetch⟩ overtaken).enabling = .done ∧
    (run .refreshKeys ⟨enrolledHost, .sample, .fetch⟩ overtaken).disabling = .done ∧
    (run .refreshKeys ⟨enrolledHost, .sample, .fetch⟩ overtaken).shared.enabled = true := by
  decide

/-- The same schedule against `DisableLocally`, which moves the generation first. -/
theorem disable_wins_disableLocally :
    (run .disableLocally ⟨enrolledHost, .sample, .flagAndBump⟩ overtaken).shared.enabled = false ↔
      ¬ GapCommit .disableLocally ⟨enrolledHost, .sample, .flagAndBump⟩ overtaken :=
  disable_wins_iff .disableLocally enrolledHost true overtaken.tail (by decide)

end HomeTunnel.Host.Enable
