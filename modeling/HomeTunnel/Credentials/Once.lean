import HomeTunnel.Credentials.Store

/-! # A remembered login is used at most once

The state file never holds a generation again that it has held before, so whatever was saved
under a generation can be returned only while that generation lasts. A `consume` ends the
generation before it opens the record, and so does every other operation that takes a record
away before it returns.
-/

namespace HomeTunnel.Credentials

/-- The event ends the generation. -/
def Event.ends (event : Event) (generation : String) : Prop :=
  match event with
  | .begun _ | .cleared _ => True
  | .discarded _ transaction => transaction = generation
  | .saved _ _ | .consumed _ _ _ _ => False

/-- A record of the generation was returned, or the generation was ended after a save. -/
def Spent (log : List Event) (generation : String) : Prop :=
  (∃ w record v, .consumed w record v generation ∈ log) ∨
    ∃ later event before v, log = later ++ event :: before ∧ event.ends generation ∧
      .saved v generation ∈ before

/-- Nothing is returned of a generation that is spent. -/
def Lawful : List Event → Prop
  | [] => True
  | .consumed _ _ _ generation :: before => ¬ Spent before generation ∧ Lawful before
  | _ :: before => Lawful before

variable {log : List Event} {generation : String}

theorem spent_cons {event : Event} (h : Spent (event :: log) generation) :
    Spent log generation ∨
      (∃ w record v, event = .consumed w record v generation) ∨
      event.ends generation ∧ ∃ v, .saved v generation ∈ log := by
  rcases h with ⟨w, record, v, hmem⟩ | ⟨later, ended, before, v, hlog, hends, hsaved⟩
  · rcases List.mem_cons.mp hmem with heq | hold
    · exact .inr (.inl ⟨w, record, v, heq.symm⟩)
    · exact .inl (.inl ⟨w, record, v, hold⟩)
  · cases later with
    | nil =>
      cases hlog
      exact .inr (.inr ⟨hends, v, hsaved⟩)
    | cons _ later =>
      exact .inl (.inr ⟨later, ended, before, v, (List.cons.inj hlog).2, hends, hsaved⟩)

theorem not_spent_nil : ¬ Spent [] generation := by
  rintro (⟨_, _, _, hmem⟩ | ⟨later, _, _, _, hlog, _⟩)
  · cases hmem
  · cases later <;> cases hlog

theorem Spent.cons (h : Spent log generation) (event : Event) :
    Spent (event :: log) generation := by
  rcases h with ⟨w, record, v, hmem⟩ | ⟨later, ended, before, v, hlog, hends, hsaved⟩
  · exact .inl ⟨w, record, v, List.mem_cons_of_mem _ hmem⟩
  · exact .inr ⟨event :: later, ended, before, v, by rw [hlog]; rfl, hends, hsaved⟩

theorem Spent.append (h : Spent log generation) (later : List Event) :
    Spent (later ++ log) generation := by
  induction later with
  | nil => exact h
  | cons event _ ih => exact ih.cons event

theorem Lawful.tail {event : Event} (h : Lawful (event :: log)) : Lawful log := by
  cases event with
  | consumed _ _ _ _ => exact h.2
  | saved _ _ | begun _ | cleared _ | discarded _ _ => exact h

theorem Lawful.not_mem {later : List Event} (h : Lawful (later ++ log))
    (hspent : Spent log generation) (w : Nat) (record : Credential) (v : Nat) :
    .consumed w record v generation ∉ later := by
  induction later with
  | nil => exact List.not_mem_nil
  | cons event later ih =>
    intro hmem
    rcases List.mem_cons.mp hmem with rfl | hold
    · exact h.1 (hspent.append later)
    · exact ih h.tail hold

def Event.returns (event : Event) (v : Nat) : Bool :=
  match event with
  | .consumed _ _ savedBy _ => savedBy = v
  | _ => false

/-- If what was saved by `v` was saved under one generation, it is returned at most once. -/
theorem Lawful.countP_le (h : Lawful log) {v : Nat} (generation : String)
    (hunder : ∀ w record under, .consumed w record v under ∈ log → under = generation) :
    log.countP (·.returns v) ≤ 1 := by
  induction log with
  | nil => exact Nat.zero_le _
  | cons event before ih =>
    have hbefore := fun w record under hmem =>
      hunder w record under (List.mem_cons_of_mem event hmem)
    by_cases hreturns : event.returns v = true
    · cases event with
      | consumed w record savedBy under =>
        have hv : savedBy = v := of_decide_eq_true hreturns
        subst hv
        have hgeneration := hunder w record under (List.mem_cons_self ..)
        -- another return of the same record would be one of a spent generation
        have hnone : before.countP (·.returns savedBy) = 0 := by
          rw [List.countP_eq_zero]
          intro other hother hagain
          cases other with
          | consumed w' record' savedBy' under' =>
            have hv' : savedBy' = savedBy := of_decide_eq_true hagain
            subst hv'
            have hunder' := hbefore w' record' under' hother
            exact h.1 (.inl ⟨w', record', savedBy', by rw [hgeneration, ← hunder']; exact hother⟩)
          | saved _ _ | begun _ | cleared _ | discarded _ _ => cases hagain
        rw [List.countP_cons, hnone]
        split <;> omega
      | saved _ _ | begun _ | cleared _ | discarded _ _ => cases hreturns
    · rw [List.countP_cons, if_neg hreturns]
      exact ih h.tail hbefore

def Pc.locked : Pc → Bool
  | .idle | .waiting | .done _ | .crashed => false
  | _ => true

namespace Store

variable {Plain : Type} {lib : Library Plain} {s t : Store Plain}

/-- What holds of the files, the protected entries and the log. -/
structure Shared (lib : Library Plain) (s : Store Plain) : Prop where
  generated : ∀ g ∈ s.generated, isGeneration g
  state : ∀ g, s.stateFile = some g → g ∈ s.generated ∧ g ∉ s.retired
  retired : ∀ g ∈ s.retired, g ∈ s.generated
  entries : ∀ entry ∈ s.vault, ∃ record tx, s.tasks entry.savedBy = some (.save record tx) ∧
    entry.plain = lib.encode ⟨tx, record⟩ ∧ tx ∈ s.generated
  saved : ∀ v tx, .saved v tx ∈ s.log → tx ∈ s.retired ∨ s.stateFile = some tx
  saves : ∀ v tx, .saved v tx ∈ s.log → ∃ record, s.tasks v = some (.save record tx)
  spent : ∀ g, Spent s.log g → g ∈ s.retired
  consumed : ∀ w record v g, .consumed w record v g ∈ s.log →
    s.tasks v = some (.save record g)
  lawful : Lawful s.log

/-- What an operation may say when it returns. -/
def Settled (s : Store Plain) (task : Task) : Result → Prop
  | .error _ => True
  | .ok answer =>
    match task, answer with
    | .begin, _ | .clear, _ => ∀ v tx, .saved v tx ∈ s.log → tx ∈ s.retired
    | .discard tx, _ => ∀ v, .saved v tx ∈ s.log → tx ∈ s.retired
    | .consume, .lease record _ v g =>
      s.tasks v = some (.save record g) ∧ ¬ Spent s.log g ∧ g ∈ s.retired
    | _, _ => True

/-- What an operation knows at each of its steps under the lock. -/
def Sound (s : Store Plain) (task : Task) : Pc → Prop
  | .deleting result | .finishing result => Settled s task result
  | .rotating _ => task ≠ .consume
  | .exists | .state => task = .consume ∨ task = .peekAccount
  | .blob g => (task = .consume ∨ task = .peekAccount) ∧ s.readState = .ok g
  | .retiring g _ => task = .consume ∧ s.readState = .ok g
  | .decoding g _ _ => task = .consume ∧ ¬ Spent s.log g ∧ (g = "" ∨ g ∈ s.retired)
  | .peeking _ _ => task = .peekAccount
  | .protecting | .writing _ => ∃ record tx, task = .save record tx ∧ s.stateFile = some tx
  | .idle | .waiting | .spoiled _ | .comparing | .done _ | .crashed => True

structure Inv (lib : Library Plain) (s : Store Plain) : Prop where
  shared : s.Shared lib
  holder : ∀ w, (s.pcs w).locked → s.holder = some w
  pcs : ∀ w task, s.tasks w = some task → s.Sound task (s.pcs w)

theorem inv_fresh : Inv lib (fresh : Store Plain) where
  shared := ⟨fun _ h => (nomatch h), fun _ h => (nomatch h), fun _ h => (nomatch h),
    fun _ h => (nomatch h), fun _ _ h => (nomatch h), fun _ _ h => (nomatch h),
    fun _ h => absurd h not_spent_nil, fun _ _ _ _ h => (nomatch h), trivial⟩
  holder := fun _ h => by cases h
  pcs := fun _ _ h => by cases h

/-- Only the files, the entries, the log and the tasks matter, and tasks may be added. -/
theorem Shared.frame (h : s.Shared lib)
    (htasks : ∀ v task, s.tasks v = some task → t.tasks v = some task := by exact fun _ _ => id)
    (hstate : t.stateFile = s.stateFile := by rfl) (hvault : t.vault = s.vault := by rfl)
    (hgenerated : t.generated = s.generated := by rfl) (hretired : t.retired = s.retired := by rfl)
    (hlog : t.log = s.log := by rfl) : t.Shared lib := by
  refine ⟨hgenerated ▸ h.generated, ?_, ?_, ?_, ?_, ?_, ?_, ?_, hlog ▸ h.lawful⟩
  · rw [hstate, hgenerated, hretired]
    exact h.state
  · rw [hgenerated, hretired]
    exact h.retired
  · rw [hvault, hgenerated]
    intro entry hentry
    obtain ⟨record, tx, htask, hrest⟩ := h.entries entry hentry
    exact ⟨record, tx, htasks _ _ htask, hrest⟩
  · rw [hlog, hretired, hstate]
    exact h.saved
  · rw [hlog]
    intro v tx hsaved
    obtain ⟨record, htask⟩ := h.saves v tx hsaved
    exact ⟨record, htasks _ _ htask⟩
  · rw [hlog, hretired]
    exact h.spent
  · rw [hlog]
    exact fun w record v g hmem => htasks _ _ (h.consumed w record v g hmem)

variable {task : Task} {result : Result} {pc : Pc} {w : Nat} {g : String} {record : Credential}
  {input : Input}

theorem Settled.frame (h : s.Settled task result)
    (htasks : ∀ v task, s.tasks v = some task → t.tasks v = some task := by exact fun _ _ => id)
    (hretired : t.retired = s.retired := by rfl) (hlog : t.log = s.log := by rfl) :
    t.Settled task result := by
  cases result with
  | error failure => trivial
  | ok answer =>
    cases task with
    | begin | clear | discard tx =>
      simp only [Settled] at h ⊢
      rwa [hlog, hretired]
    | consume =>
      cases answer with
      | lease record _ v g =>
        simp only [Settled] at h ⊢
        rw [hlog, hretired]
        exact ⟨htasks _ _ h.1, h.2⟩
      | nothing | transaction _ | account _ _ _ _ => trivial
    | save _ _ | peekAccount => trivial

theorem Sound.frame (h : s.Sound task pc)
    (htasks : ∀ v task, s.tasks v = some task → t.tasks v = some task := by exact fun _ _ => id)
    (hstate : t.stateFile = s.stateFile := by rfl) (hretired : t.retired = s.retired := by rfl)
    (hlog : t.log = s.log := by rfl) : t.Sound task pc := by
  cases pc with
  | deleting result | finishing result => exact Settled.frame h htasks hretired hlog
  | blob g | retiring g _ =>
    simp only [Sound, readState] at h ⊢
    rwa [hstate]
  | rotating _ | «exists» | state | peeking _ _ => exact h
  | decoding g _ _ =>
    simp only [Sound] at h ⊢
    rwa [hlog, hretired]
  | protecting | writing _ =>
    simp only [Sound] at h ⊢
    rwa [hstate]
  | idle | waiting | spoiled _ | comparing | done _ | crashed => trivial

theorem sound_of_unlocked (h : pc.locked = false) : s.Sound task pc := by
  cases pc with
  | idle | waiting | done _ | crashed => trivial
  | _ => cases h

theorem move_self (s : Store Plain) (w : Nat) (pc : Pc) : (s.move w pc).pcs w = pc :=
  Function.update_self ..

/-- What a step of the operation `w` leaves alone, and that the state file only ever gets a
generation that is new. -/
structure StepOf (w : Nat) (s t : Store Plain) : Prop where
  tasks : t.tasks = s.tasks
  others : ∀ v, v ≠ w → t.pcs v = s.pcs v
  generated : ∀ g ∈ s.generated, g ∈ t.generated
  state : t.stateFile = s.stateFile ∨ ∃ g, g ∉ s.generated ∧ t.stateFile = some g

/-- A step of the operation `w` that keeps the invariant. -/
structure Goes (lib : Library Plain) (w : Nat) (s t : Store Plain) : Prop extends
    StepOf w s t where
  inv : t.Inv lib

theorem Goes.refl (h : s.Inv lib) : Goes lib w s s :=
  ⟨⟨rfl, fun _ _ => rfl, fun _ => id, .inl rfl⟩, h⟩

theorem Goes.of_inv (h : t.Inv lib) (hpcs : t.pcs = Function.update s.pcs w pc)
    (hgenerated : ∀ g ∈ s.generated, g ∈ t.generated := by exact fun _ => id)
    (hstate : t.stateFile = s.stateFile ∨ ∃ g, g ∉ s.generated ∧ t.stateFile = some g := by
      exact .inl rfl)
    (htasks : t.tasks = s.tasks := by rfl) : Goes lib w s t :=
  ⟨⟨htasks, fun _ hv => by rw [hpcs, Function.update_of_ne hv], hgenerated, hstate⟩, h⟩

/-- The operation `w` has the lock, for the task. -/
structure Holds (s : Store Plain) (w : Nat) (task : Task) : Prop where
  holder : s.holder = some w
  task : s.tasks w = some task

/-- A step of the operation that holds the lock: the others know nothing that it could
change. -/
theorem Inv.goes (h : s.Inv lib) (hw : s.Holds w task)
    (hpcs : t.pcs = Function.update s.pcs w pc) (hshared : t.Shared lib)
    (hsound : t.Sound task pc)
    (hgenerated : ∀ g ∈ s.generated, g ∈ t.generated := by exact fun _ => id)
    (hstate : t.stateFile = s.stateFile ∨ ∃ g, g ∉ s.generated ∧ t.stateFile = some g := by
      exact .inl rfl)
    (hholder : pc.locked → t.holder = s.holder := by exact fun _ => rfl)
    (htasks : t.tasks = s.tasks := by rfl) : Goes lib w s t := by
  have hothers : ∀ v, v ≠ w → (s.pcs v).locked = false := by
    intro v hne
    by_contra hlocked
    rw [Bool.not_eq_false] at hlocked
    exact hne (Option.some.inj ((h.holder v hlocked).symm.trans hw.holder))
  refine .of_inv ⟨hshared, fun v hlocked => ?_, fun v task htask => ?_⟩ hpcs hgenerated hstate
    htasks
  · by_cases hv : v = w
    · rw [hpcs, hv, Function.update_self] at hlocked
      rw [hv, hholder hlocked, hw.holder]
    · rw [hpcs, Function.update_of_ne hv, hothers v hv] at hlocked
      cases hlocked
  · by_cases hv : v = w
    · rw [hpcs, hv, Function.update_self]
      rw [htasks, hv] at htask
      cases hw.task.symm.trans htask
      exact hsound
    · rw [hpcs, Function.update_of_ne hv]
      exact sound_of_unlocked (hothers v hv)

theorem Inv.move (h : s.Inv lib) (hw : s.Holds w task) (pc : Pc) (hsound : s.Sound task pc) :
    Goes lib w s (s.move w pc) :=
  h.goes hw rfl h.shared.frame hsound.frame

theorem Inv.fail (h : s.Inv lib) (hw : s.Holds w task) (failure : Failure) :
    Goes lib w s (s.fail w failure) :=
  h.move hw (.finishing (.error failure)) trivial

theorem Shared.makeUp (h : s.Shared lib) (hform : isGeneration g) :
    Shared lib { s with generated := g :: s.generated } := by
  refine ⟨?_, ?_, ?_, ?_, h.saved, h.saves, h.spent, h.consumed, h.lawful⟩
  · intro old hmem
    rcases List.mem_cons.mp hmem with rfl | hmem
    · exact hform
    · exact h.generated old hmem
  · exact fun old hstate => ⟨List.mem_cons_of_mem _ (h.state old hstate).1, (h.state old hstate).2⟩
  · exact fun old hmem => List.mem_cons_of_mem _ (h.retired old hmem)
  · intro entry hentry
    obtain ⟨record, tx, htask, hplain, htx⟩ := h.entries entry hentry
    exact ⟨record, tx, htask, hplain, List.mem_cons_of_mem _ htx⟩

/-- A generation that the state file never had replaces the one it has. -/
theorem Shared.setState (h : s.Shared lib) (hmade : g ∈ s.generated)
    (hstate : s.stateFile ≠ some g) (hretired : g ∉ s.retired) :
    (s.setState g).Shared lib ∧
      ∀ v tx, .saved v tx ∈ s.log → tx ∈ (s.setState g).retired := by
  have hall : ∀ v tx, .saved v tx ∈ s.log → tx ∈ s.stateFile.toList ++ s.retired := by
    intro v tx hsaved
    rcases h.saved v tx hsaved with hretired | hstate
    · exact List.mem_append_right _ hretired
    · exact List.mem_append_left _ (Option.mem_toList.mpr hstate)
  refine ⟨⟨h.generated, ?_, ?_, h.entries, fun v tx hsaved => .inl (hall v tx hsaved), h.saves,
    fun old hspent => List.mem_append_right _ (h.spent old hspent), h.consumed, h.lawful⟩, hall⟩
  · rintro old hold
    cases hold
    refine ⟨hmade, fun hmem => ?_⟩
    rcases List.mem_append.mp hmem with hheld | hold
    · exact hstate (Option.mem_toList.mp hheld)
    · exact hretired hold
  · intro old hmem
    rcases List.mem_append.mp hmem with hheld | hold
    · exact (h.state old (Option.mem_toList.mp hheld)).1
    · exact h.retired old hold

/-- `_rotate` by the operation that holds the lock. What it goes on with must hold once
everything saved so far is of a generation that has ended. -/
theorem Inv.rotate (h : s.Inv lib) (hw : s.Holds w task) (input : Input) {next : Pc}
    (hsound : ∀ t : Store Plain, t.log = s.log → t.retired = s.stateFile.toList ++ s.retired →
      (∀ v tx, .saved v tx ∈ s.log → tx ∈ t.retired) → t.Sound task next) :
    Goes lib w s (s.rotate w input next) := by
  unfold Store.rotate
  split
  · exact .refl h
  · next hfresh =>
    rw [Bool.or_eq_true, not_or, Bool.not_eq_true', Bool.not_eq_false, List.contains_iff_mem]
      at hfresh
    obtain ⟨hform, hnew⟩ := hfresh
    have hmade := h.shared.makeUp hform
    obtain ⟨hshared, hall⟩ := hmade.setState (List.mem_cons_self ..)
      (fun hstate => hnew (h.shared.state _ hstate).1) fun hold => hnew (h.shared.retired _ hold)
    dsimp only
    split
    · exact h.goes hw rfl hshared.frame (hsound _ rfl rfl hall) (fun _ => List.mem_cons_of_mem _)
        (.inr ⟨_, hnew, rfl⟩)
    · exact h.goes hw rfl hmade.frame trivial fun _ => List.mem_cons_of_mem _
    · exact h.goes hw rfl hshared.frame trivial (fun _ => List.mem_cons_of_mem _)
        (.inr ⟨_, hnew, rfl⟩)

theorem Inv.deleteRecord (h : s.Inv lib) (hw : s.Holds w task) (input : Input)
    (hsettled : s.Settled task result) : Goes lib w s (s.deleteRecord w input result) := by
  unfold Store.deleteRecord
  split
  · exact h.goes hw rfl h.shared.frame (Settled.frame hsettled)
  · exact h.fail hw _
  · exact h.goes hw rfl h.shared.frame trivial

theorem validated_ok {now : Int} {valid : Credential} (h : validated lib now record = .ok valid) :
    valid = record := by
  unfold validated at h
  split at h
  · cases h
  · split at h
    · cases h
    · cases h
      rfl

/-- What opens under a generation was saved under it, as it is. -/
theorem Shared.decode (h : s.Shared lib) {blob : Bytes} {v : Nat}
    (hdecode : s.decode lib input blob g = .ok (record, v)) :
    s.tasks v = some (.save record g) ∧ g ∈ s.generated := by
  unfold Store.decode at hdecode
  split at hdecode
  · cases hdecode
  · split at hdecode
    · cases hdecode
    · next entry hentry =>
      obtain ⟨saved, tx, htask, hplain, htx⟩ :=
        h.entries entry (List.mem_of_find?_eq_some hentry)
      rw [hplain, lib.decode_encode] at hdecode
      dsimp only at hdecode
      split at hdecode
      · cases hdecode
      · next hgeneration =>
        have htx' : tx = g := not_not.mp hgeneration
        split at hdecode
        · cases hdecode
        · next valid hvalid =>
          cases hdecode
          rw [validated_ok hvalid, ← htx']
          exact ⟨htask, htx⟩

theorem Inv.protect (h : s.Inv lib) {transaction : String}
    (hw : s.Holds w (.save record transaction)) (hstate : s.stateFile = some transaction)
    (input : Input) : Goes lib w s (s.protect lib w record transaction input) := by
  unfold Store.protect
  split
  · exact h.fail hw _
  · split
    · exact .refl h
    · refine h.goes hw rfl ⟨h.shared.generated, h.shared.state, h.shared.retired, ?_,
        h.shared.saved, h.shared.saves, h.shared.spent, h.shared.consumed, h.shared.lawful⟩
        ⟨record, transaction, rfl, hstate⟩
      intro entry hentry
      rcases List.mem_cons.mp hentry with rfl | hold
      · exact ⟨record, transaction, hw.task, rfl, (h.shared.state _ hstate).1⟩
      · exact h.shared.entries entry hold

/-- What must hold for the event to be logged. -/
def Loggable (s : Store Plain) : Event → Prop
  | .saved v tx => s.stateFile = some tx ∧ ∃ record, s.tasks v = some (.save record tx)
  | .consumed _ record v g => s.tasks v = some (.save record g) ∧ ¬ Spent s.log g ∧ g ∈ s.retired
  | .begun _ | .cleared _ => ∀ v tx, .saved v tx ∈ s.log → tx ∈ s.retired
  | .discarded _ tx => ∀ v, .saved v tx ∈ s.log → tx ∈ s.retired

theorem Shared.logged (h : s.Shared lib) (event : Event) (hevent : s.Loggable event) :
    Shared lib { s with log := event :: s.log } := by
  refine ⟨h.generated, h.state, h.retired, h.entries, ?_, ?_, ?_, ?_, ?_⟩
  · intro v tx hmem
    rcases List.mem_cons.mp hmem with rfl | hold
    · exact .inr hevent.1
    · exact h.saved v tx hold
  · intro v tx hmem
    rcases List.mem_cons.mp hmem with rfl | hold
    · exact hevent.2
    · exact h.saves v tx hold
  · intro g hspent
    rcases spent_cons hspent with hold | ⟨w, record, v, rfl⟩ | ⟨hend, v, hmem⟩
    · exact h.spent g hold
    · exact hevent.2.2
    · cases event with
      | begun _ | cleared _ => exact hevent v g hmem
      | discarded _ tx =>
        cases hend
        exact hevent v hmem
      | saved _ _ | consumed _ _ _ _ => exact absurd hend id
  · intro w record v g hmem
    rcases List.mem_cons.mp hmem with rfl | hold
    · exact hevent.1
    · exact h.consumed w record v g hold
  · cases event with
    | consumed w record v g => exact ⟨hevent.2.1, h.lawful⟩
    | saved _ _ | begun _ | cleared _ | discarded _ _ => exact h.lawful

theorem Inv.write (h : s.Inv lib) {transaction : String}
    (hw : s.Holds w (.save record transaction)) (hstate : s.stateFile = some transaction)
    (bytes : Bytes) (input : Input) : Goes lib w s (s.write w transaction bytes input) := by
  have hshared := h.shared.logged (.saved w transaction) ⟨hstate, record, hw.task⟩
  unfold Store.write
  dsimp only
  split
  · exact h.goes hw rfl hshared.frame trivial
  · exact h.fail hw _
  · exact h.goes hw rfl hshared.frame trivial

theorem Shared.complete (h : s.Shared lib) (hsettled : s.Settled task result) :
    Shared lib { s with log := (completion w task result).toList ++ s.log } := by
  cases result with
  | error failure => exact h
  | ok answer =>
    cases task with
    | begin | clear | discard tx => exact h.logged _ hsettled
    | consume =>
      cases answer with
      | lease record tx v g => exact h.logged _ hsettled
      | nothing | transaction _ | account _ _ _ _ => exact h
    | save _ _ | peekAccount => exact h

theorem Inv.finish (h : s.Inv lib) (hw : s.Holds w task) (hsettled : s.Settled task result)
    (input : Input) : Goes lib w s (s.finish w task result input) := by
  unfold Store.finish
  dsimp only
  split
  · exact h.goes hw rfl (h.shared.complete hsettled).frame trivial (fun _ => id) (.inl rfl) nofun
  · exact h.goes hw rfl h.shared.frame trivial (fun _ => id) (.inl rfl) nofun

theorem Inv.readFailed (h : s.Inv lib) (hw : s.Holds w task) (failure : Failure) :
    Goes lib w s (s.readFailed w task failure) := by
  unfold Store.readFailed
  split
  · exact h.move hw (.spoiled failure) trivial
  · exact h.fail hw failure

/-- The files and what is protected. -/
structure SameFiles (s t : Store Plain) : Prop where
  state : t.stateFile = s.stateFile
  record : t.record = s.record
  vault : t.vault = s.vault

theorem readState_ok (h : s.readState = .ok g) : g = "" ∨ s.stateFile = some g := by
  unfold readState at h
  split at h
  · exact .inl (Except.ok.inj h).symm
  · next value hvalue =>
    split at h
    · exact .inr (hvalue.trans (congrArg some (Except.ok.inj h)))
    · cases h

theorem stateFile_of_isCurrent {tx : String} (h : s.isCurrent tx input = .ok true) :
    s.stateFile = some tx := by
  unfold isCurrent at h
  split at h
  · cases h
  · next hform =>
    split at h
    · next value _ hvalue =>
      have heq : value = tx := of_decide_eq_true (Except.ok.inj h)
      rw [heq] at hvalue
      refine (readState_ok hvalue).resolve_left ?_
      rintro rfl
      exact hform rfl
    · cases h
    · cases h

/-- A transaction that is not current is not in the state file. -/
theorem stateFile_ne_of_isCurrent (h : s.Shared lib) {tx : String}
    (hstale : s.isCurrent tx input = .ok false) : s.stateFile ≠ some tx := by
  intro hstate
  have hform := h.generated tx (h.state tx hstate).1
  unfold isCurrent at hstale
  rw [readState, hstate, hform] at hstale
  cases hinput : input.outcome <;> simp [hinput, hform] at hstale

theorem Inv.compare (h : s.Inv lib) (hw : s.Holds w task) (input : Input) :
    Goes lib w s (s.compare w task input) := by
  unfold Store.compare
  split
  · next record transaction =>
    split
    · exact h.fail hw _
    · exact h.fail hw _
    · next hcurrent => exact h.move hw _ ⟨record, transaction, rfl, stateFile_of_isCurrent hcurrent⟩
  · next transaction =>
    split
    · exact h.fail hw _
    · next hstale =>
      refine h.move hw (.finishing _) fun v hsaved => ?_
      exact (h.shared.saved v _ hsaved).resolve_right (stateFile_ne_of_isCurrent h.shared hstale)
    · exact h.move hw (.rotating _) nofun
  · exact .refl h

theorem Inv.retire (h : s.Inv lib) (hw : s.Holds w .consume) (hread : s.readState = .ok g)
    (blob : Except Failure Bytes) (input : Input) :
    Goes lib w s (s.rotate w input (.decoding g blob input.generation)) := by
  refine h.rotate hw input fun t hlog hretired _ => ⟨rfl, fun hspent => ?_, ?_⟩
  · rw [hlog] at hspent
    have hold := h.shared.spent g hspent
    rcases readState_ok hread with rfl | hstate
    · exact absurd (h.shared.generated "" (h.shared.retired "" hold)) (by decide)
    · exact (h.shared.state g hstate).2 hold
  · rw [hretired]
    exact (readState_ok hread).imp_right fun hstate =>
      List.mem_append_left _ (Option.mem_toList.mpr hstate)

theorem Inv.open (h : s.Inv lib) (hw : s.Holds w .consume) (hunspent : ¬ Spent s.log g)
    (hended : g = "" ∨ g ∈ s.retired) (bytes : Bytes) (transaction : String) (input : Input) :
    Goes lib w s
      (s.move w (.deleting (leaseResult transaction g (s.decode lib input bytes g)))) := by
  refine h.move hw _ ?_
  cases hdecode : s.decode lib input bytes g with
  | error failure => trivial
  | ok opened =>
    obtain ⟨record, v⟩ := opened
    obtain ⟨hsaved, hgenerated⟩ := h.shared.decode hdecode
    refine ⟨hsaved, hunspent, hended.resolve_left fun hempty => ?_⟩
    rw [hempty] at hgenerated
    exact absurd (h.shared.generated "" hgenerated) (by decide)

/-- A step of an operation that does not hold the lock, or gives it up. It may add its task. -/
theorem Inv.of_free (h : s.Inv lib) (hpcs : t.pcs = Function.update s.pcs w pc)
    (hholder : ∀ v, v ≠ w → s.holder = some v → t.holder = some v)
    (hself : pc.locked → t.holder = some w)
    (hsound : ∀ task, t.tasks w = some task → t.Sound task pc)
    (hkept : ∀ v task, s.tasks v = some task → t.tasks v = some task := by exact fun _ _ => id)
    (htasks : ∀ v, v ≠ w → t.tasks v = s.tasks v := by exact fun _ _ => rfl)
    (hstate : t.stateFile = s.stateFile := by rfl) (hvault : t.vault = s.vault := by rfl)
    (hgenerated : t.generated = s.generated := by rfl) (hretired : t.retired = s.retired := by rfl)
    (hlog : t.log = s.log := by rfl) : t.Inv lib := by
  refine ⟨h.shared.frame hkept hstate hvault hgenerated hretired hlog, fun v hlocked => ?_,
    fun v task htask => ?_⟩
  · rw [hpcs] at hlocked
    by_cases hv : v = w
    · rw [hv, Function.update_self] at hlocked
      exact hv ▸ hself hlocked
    · rw [Function.update_of_ne hv] at hlocked
      exact hholder v hv (h.holder v hlocked)
  · rw [hpcs]
    by_cases hv : v = w
    · rw [hv, Function.update_self]
      exact hsound task (hv ▸ htask)
    · rw [Function.update_of_ne hv]
      exact (h.pcs v task (htasks v hv ▸ htask)).frame hkept hstate hretired hlog

theorem Inv.moveFree (h : s.Inv lib) (hpc : pc.locked = false) : Goes lib w s (s.move w pc) :=
  .of_inv (h.of_free rfl (fun _ _ => id) (fun hlocked => nomatch hpc.symm.trans hlocked)
    fun _ _ => sound_of_unlocked hpc) rfl

theorem Inv.lock (h : s.Inv lib) (htask : s.tasks w = some task) (input : Input) :
    Goes lib w s (s.lock w task input) := by
  unfold Store.lock
  split
  · split
    · next hnone =>
      refine .of_inv (h.of_free rfl (fun v _ hheld => nomatch hnone.symm.trans hheld)
        (fun _ => rfl) fun task' htask' => ?_) rfl
      cases htask.symm.trans htask'
      cases task with
      | begin | clear => exact fun hconsume => nomatch hconsume
      | consume => exact .inl rfl
      | peekAccount => exact .inr rfl
      | save _ _ | discard _ => trivial
    · exact .refl h
  · exact h.moveFree rfl
  · exact h.moveFree rfl

theorem Inv.go (h : s.Inv lib) (htask : s.tasks w = some task) (input : Input) :
    Goes lib w s (s.go lib w task input) := by
  have hpc := h.pcs w task htask
  have hw : (s.pcs w).locked → s.Holds w task := fun hlocked => ⟨h.holder w hlocked, htask⟩
  unfold Store.go
  generalize s.pcs w = pc at hpc hw
  cases pc with
  | idle | done _ | crashed => exact .refl h
  | waiting => exact h.lock htask input
  | rotating answer =>
    refine h.rotate (hw rfl) input fun t hlog _ hall => ?_
    cases task with
    | begin | clear =>
      intro v tx hsaved
      exact hall v tx (hlog ▸ hsaved)
    | discard tx => exact fun v hsaved => hall v tx (hlog ▸ hsaved)
    | consume => exact absurd rfl hpc
    | save _ _ | peekAccount => trivial
  | spoiled failure => exact h.rotate (hw rfl) input fun _ _ _ _ => trivial
  | deleting result => exact h.deleteRecord (hw rfl) input hpc
  | «exists» =>
    dsimp only
    split
    · exact h.fail (hw rfl) _
    · split
      · refine h.move (hw rfl) _ ?_
        rcases hpc with rfl | rfl <;> trivial
      · exact h.move (hw rfl) _ hpc
  | state =>
    dsimp only
    split
    · next hread => exact h.move (hw rfl) _ ⟨hpc, hread⟩
    · exact h.readFailed (hw rfl) _
    · exact h.readFailed (hw rfl) _
  | blob generation =>
    dsimp only
    split
    · exact h.readFailed (hw rfl) _
    · split
      · next hpeek =>
        split
        · exact h.readFailed (hw rfl) _
        · exact h.move (hw rfl) _ hpeek
      · next hpeek => exact h.move (hw rfl) _ ⟨hpc.1.resolve_right hpeek, hpc.2⟩
  | retiring generation blob =>
    obtain ⟨rfl, hread⟩ := hpc
    exact h.retire (hw rfl) hread blob input
  | decoding generation blob transaction =>
    obtain ⟨rfl, hunspent, hended⟩ := hpc
    cases blob with
    | error failure => exact h.move (hw rfl) (.deleting (.error failure)) trivial
    | ok bytes => exact h.open (hw rfl) hunspent hended bytes transaction input
  | peeking generation bytes =>
    cases hpc
    dsimp only
    split
    · next failure _ => exact h.move (hw rfl) (.spoiled failure) trivial
    · exact h.move (hw rfl) (.finishing (.ok (.account _ _ _ _))) trivial
  | comparing => exact h.compare (hw rfl) input
  | protecting =>
    obtain ⟨record, transaction, rfl, hstate⟩ := hpc
    exact h.protect (hw rfl) hstate input
  | writing bytes =>
    obtain ⟨record, transaction, rfl, hstate⟩ := hpc
    exact h.write (hw rfl) hstate bytes input
  | finishing result => exact h.finish (hw rfl) hpc input

theorem Inv.start (h : s.Inv lib) (w : Nat) (task : Task) : (s.start lib w task).Inv lib := by
  unfold Store.start
  split
  · exact h
  · next hnone =>
    have hkept : ∀ v other, s.tasks v = some other →
        Function.update s.tasks w (some task) v = some other := by
      intro v other hother
      rw [Function.update_of_ne, hother]
      rintro rfl
      rw [hnone] at hother
      cases hother
    have hmove : ∀ {pc : Pc}, pc.locked = false →
        ({ s with tasks := Function.update s.tasks w (some task) }.move w pc).Inv lib :=
      fun hpc => h.of_free rfl (fun _ _ => id) (fun hlocked => nomatch hpc.symm.trans hlocked)
        (fun _ _ => sound_of_unlocked hpc) hkept fun _ hv => Function.update_of_ne hv ..
    dsimp only
    split
    · split <;> exact hmove rfl
    · exact hmove rfl

theorem Inv.crash (h : s.Inv lib) (w : Nat) : Goes lib w s (s.crash w) := by
  refine .of_inv (h.of_free rfl (fun v hv hheld => ?_) nofun fun _ _ => trivial) rfl
  dsimp only [Store.crash, Store.move]
  rw [if_neg (by rw [hheld]; exact fun heq => hv (Option.some.inj heq)), hheld]

theorem Inv.step (h : s.Inv lib) (action : Action) : (s.step lib action).Inv lib := by
  cases action with
  | tick elapsed | replace record =>
    exact ⟨h.shared.frame, h.holder, fun w task htask => (h.pcs w task htask).frame⟩
  | start w task => exact h.start w task
  | go w input =>
    dsimp only [Store.step]
    split
    · exact h
    · next task htask => exact (h.go htask input).inv
  | crash w => exact (h.crash w).inv

theorem Inv.run (h : s.Inv lib) (actions : List Action) :
    (actions.foldl (Store.step lib) s).Inv lib :=
  (Runs.always_of_step (fun _ action h => h.step action) h).last

end Store

/-- A save or a discard with this transaction. -/
def Task.usesOnly (task : Task) (transaction : String) : Prop :=
  task = .discard transaction ∨ ∃ record, task = .save record transaction

/-- The places of a save or discard whose transaction is not current. -/
def Pc.idles : Pc → Bool
  | .idle | .waiting | .comparing | .finishing _ | .done _ | .crashed => true
  | _ => false

namespace Store

variable {Plain : Type} {lib : Library Plain} {s t : Store Plain}

variable {w : Nat} {transaction : String} {task : Task}

/-- The transaction has been made up and is not current, and `w` works with it. -/
structure Stale (lib : Library Plain) (w : Nat) (transaction : String) (s : Store Plain) :
    Prop where
  inv : s.Inv lib
  generated : transaction ∈ s.generated
  state : s.stateFile ≠ some transaction
  task : ∀ task, s.tasks w = some task → task.usesOnly transaction
  idles : (s.pcs w).idles

theorem Stale.compare (h : s.Stale lib w transaction) (hon : task.usesOnly transaction)
    (input : Input) :
    SameFiles s (s.compare w task input) ∧ ((s.compare w task input).pcs w).idles := by
  have hfail : ∀ failure, SameFiles s (s.fail w failure) ∧ ((s.fail w failure).pcs w).idles :=
    fun failure => ⟨⟨rfl, rfl, rfl⟩, by rw [Store.fail, move_self]; rfl⟩
  have hcurrent : s.isCurrent transaction input ≠ .ok true :=
    fun hcurrent => h.state (stateFile_of_isCurrent hcurrent)
  rcases hon with rfl | ⟨record, rfl⟩
  · dsimp only [Store.compare]
    split
    · exact hfail _
    · exact ⟨⟨rfl, rfl, rfl⟩, by rw [move_self]; rfl⟩
    · next heq => exact absurd heq hcurrent
  · dsimp only [Store.compare]
    split
    · exact hfail _
    · exact hfail _
    · next heq => exact absurd heq hcurrent

theorem Stale.go (h : s.Stale lib w transaction) (htask : s.tasks w = some task) (input : Input) :
    SameFiles s (s.go lib w task input) ∧ ((s.go lib w task input).pcs w).idles := by
  have hon := h.task task htask
  have hidles := h.idles
  have hdone : ∀ {pc : Pc}, pc.idles → ((s.move w pc).pcs w).idles :=
    fun hpc => by rwa [move_self]
  unfold Store.go
  cases hpc : s.pcs w with
  | idle | done _ | crashed => exact ⟨⟨rfl, rfl, rfl⟩, hidles⟩
  | waiting =>
    dsimp only [Store.lock]
    split
    · split
      · refine ⟨⟨rfl, rfl, rfl⟩, hdone ?_⟩
        rcases hon with rfl | ⟨record, rfl⟩ <;> rfl
      · exact ⟨⟨rfl, rfl, rfl⟩, hidles⟩
    · exact ⟨⟨rfl, rfl, rfl⟩, hdone rfl⟩
    · exact ⟨⟨rfl, rfl, rfl⟩, hdone rfl⟩
  | comparing => exact h.compare hon input
  | finishing result =>
    dsimp only [Store.finish]
    split <;> exact ⟨⟨rfl, rfl, rfl⟩, hdone rfl⟩
  | _ =>
    rw [hpc] at hidles
    cases hidles

theorem Stale.of_goes {v : Nat} (h : s.Stale lib w transaction) (hstep : Goes lib v s t)
    (hidles : v = w → (t.pcs w).idles) : t.Stale lib w transaction := by
  refine ⟨hstep.inv, hstep.generated _ h.generated, ?_, hstep.tasks ▸ h.task, ?_⟩
  · rcases hstep.state with hstate | ⟨g, hg, hstate⟩
    · rw [hstate]
      exact h.state
    · rw [hstate]
      intro heq
      exact hg (Option.some.inj heq ▸ h.generated)
  · by_cases hv : v = w
    · exact hidles hv
    · rw [hstep.others w (Ne.symm hv)]
      exact h.idles

theorem start_frame (lib : Library Plain) (s : Store Plain) (v : Nat) (task : Task) :
    (s.start lib v task).generated = s.generated ∧
      (s.start lib v task).stateFile = s.stateFile ∧
      (s.start lib v task = s ∨
        (s.start lib v task).tasks = Function.update s.tasks v (some task) ∧
          ∃ pc, pc.idles ∧ (s.start lib v task).pcs = Function.update s.pcs v pc) := by
  unfold Store.start
  split
  · exact ⟨rfl, rfl, .inl rfl⟩
  · dsimp only
    split
    · split <;> exact ⟨rfl, rfl, .inr ⟨rfl, _, by rfl, rfl⟩⟩
    · exact ⟨rfl, rfl, .inr ⟨rfl, _, by rfl, rfl⟩⟩

theorem Stale.start (h : s.Stale lib w transaction) {v : Nat}
    (hstart : v = w → task.usesOnly transaction) :
    (s.start lib v task).Stale lib w transaction := by
  obtain ⟨hgenerated, hstate, hsame | ⟨htasks, pc, hpc, hpcs⟩⟩ := start_frame lib s v task
  · rw [hsame]
    exact h
  refine ⟨h.inv.start v task, hgenerated ▸ h.generated, hstate ▸ h.state, ?_, ?_⟩
  · intro task' htask'
    rw [htasks] at htask'
    by_cases hv : v = w
    · rw [hv, Function.update_self] at htask'
      exact Option.some.inj htask' ▸ hstart hv
    · rw [Function.update_of_ne (Ne.symm hv)] at htask'
      exact h.task task' htask'
  · rw [hpcs]
    by_cases hv : v = w
    · rw [hv, Function.update_self]
      exact hpc
    · rw [Function.update_of_ne (Ne.symm hv)]
      exact h.idles

theorem Stale.crash (h : s.Stale lib w transaction) (v : Nat) :
    (s.crash v).Stale lib w transaction := by
  refine h.of_goes (h.inv.crash v) ?_
  rintro rfl
  rw [Store.crash, move_self]
  rfl

/-- A stale transaction stays stale, whatever is done, as long as `w` only ever works with it. -/
theorem Stale.step (h : s.Stale lib w transaction) {action : Action}
    (hstart : ∀ task, action = .start w task → task.usesOnly transaction) :
    (s.step lib action).Stale lib w transaction := by
  cases action with
  | tick elapsed | replace record =>
    exact ⟨h.inv.step _, h.generated, h.state, h.task, h.idles⟩
  | start v task => exact h.start fun hv => hstart task (hv ▸ rfl)
  | crash v => exact h.crash v
  | go v input =>
    dsimp only [Store.step]
    split
    · exact h
    · next task htask =>
      refine h.of_goes (h.inv.go htask input) ?_
      rintro rfl
      exact (h.go htask input).2

theorem Stale.run (actions : List Action) :
    ∀ {s : Store Plain}, s.Stale lib w transaction →
      (∀ task, .start w task ∈ actions → task.usesOnly transaction) →
      (actions.foldl (Store.step lib) s).Stale lib w transaction := by
  induction actions with
  | nil => exact fun h _ => h
  | cons action rest ih =>
    intro s h hstart
    refine ih (h.step fun task haction => hstart task ?_) fun task htask =>
      hstart task (List.mem_cons_of_mem _ htask)
    rw [haction]
    exact List.mem_cons_self

/-- A step of a save or discard with a stale transaction changes no file. -/
theorem Stale.sameFiles (h : s.Stale lib w transaction) (input : Input) :
    SameFiles s (s.step lib (.go w input)) := by
  dsimp only [Store.step]
  split
  · exact ⟨rfl, rfl, rfl⟩
  · next htask => exact (h.go htask input).1

theorem idles_of_unlocked {pc : Pc} (h : pc.locked = false) : pc.idles := by
  cases pc with
  | idle | waiting | done _ | crashed => rfl
  | _ => cases h

/-- In every run, with failures and crashes anywhere: a saved record is returned at most once,
and never after its generation was ended; an operation with a transaction that is not current,
and that does not have the lock yet, changes no file however it goes on; and what is returned
is what was saved. -/
theorem remembered_login_used_once (lib : Library Plain) (actions : List Action) :
    let s := actions.foldl (Store.step lib) fresh
    (∀ v, s.log.countP (·.returns v) ≤ 1) ∧
      (∀ later event before v transaction, s.log = later ++ event :: before →
        event.ends transaction → .saved v transaction ∈ before →
        ∀ w record under, .consumed w record v under ∉ later) ∧
      (∀ w transaction, transaction ∈ s.generated → s.stateFile ≠ some transaction →
        (s.pcs w).locked = false →
        (∀ task, s.tasks w = some task → task.usesOnly transaction) →
        ∀ more : List Action, (∀ task, .start w task ∈ more → task.usesOnly transaction) →
        ∀ input,
        let t := more.foldl (Store.step lib) s
        t.SameFiles (t.step lib (.go w input))) ∧
      ∀ w record v under, .consumed w record v under ∈ s.log →
        s.tasks v = some (.save record under) := by
  intro s
  have hinv : s.Inv lib := inv_fresh.run actions
  have hshared := hinv.shared
  refine ⟨fun v => ?_,
    fun later event before v transaction hlog hends hsaved w record under hmem => ?_,
    fun w transaction hgenerated hstate hlocked htask more hstart input => ?_, hshared.consumed⟩
  · -- all that was saved by `v` was saved under the transaction of its one task
    cases htask : s.tasks v with
    | none =>
      refine hshared.lawful.countP_le "" fun w record under hmem => ?_
      cases htask.symm.trans (hshared.consumed w record v under hmem)
    | some task =>
      cases task with
      | save _ transaction =>
        refine hshared.lawful.countP_le transaction fun w record under hmem => ?_
        cases htask.symm.trans (hshared.consumed w record v under hmem)
        rfl
      | begin | clear | consume | discard _ | peekAccount =>
        refine hshared.lawful.countP_le "" fun w record under hmem => ?_
        cases htask.symm.trans (hshared.consumed w record v under hmem)
  · have hwhole : .saved v transaction ∈ s.log := by
      rw [hlog]
      exact List.mem_append_right _ (List.mem_cons_of_mem _ hsaved)
    obtain ⟨saved, htask⟩ := hshared.saves v transaction hwhole
    have hunder := hshared.consumed w record v under
      (by rw [hlog]; exact List.mem_append_left _ hmem)
    cases htask.symm.trans hunder
    have hspent : Spent (event :: before) transaction :=
      .inr ⟨[], event, before, v, rfl, hends, hsaved⟩
    exact Lawful.not_mem (hlog ▸ hshared.lawful) hspent w record v hmem
  · have hstale : s.Stale lib w transaction :=
      ⟨hinv, hgenerated, hstate, htask, idles_of_unlocked hlocked⟩
    exact (hstale.run more hstart).sameFiles input

/-- In every run, with failures and crashes anywhere: at most one operation is past the lock,
the state file can be read and never gets a generation back, and a save that is about to write
its record does so under the generation that is current. -/
theorem saved_under_current_generation (lib : Library Plain) (actions : List Action) :
    let s := actions.foldl (Store.step lib) fresh
    {w | (s.pcs w).locked = true}.Subsingleton ∧
      (∀ g, s.stateFile = some g → s.readState = .ok g ∧ g ∉ s.retired) ∧
      ∀ w bytes record transaction, s.pcs w = .writing bytes →
        s.tasks w = some (.save record transaction) → s.stateFile = some transaction := by
  intro s
  have hinv : s.Inv lib := inv_fresh.run actions
  refine ⟨fun v hv w hw => ?_, fun g hg => ?_, fun w bytes record transaction hpc htask => ?_⟩
  · exact Option.some.inj ((hinv.holder v hv).symm.trans (hinv.holder w hw))
  · obtain ⟨hmade, hnew⟩ := hinv.shared.state g hg
    exact ⟨by simp [readState, hg, hinv.shared.generated g hmade], hnew⟩
  · have hsound := hinv.pcs w _ htask
    rw [hpc] at hsound
    obtain ⟨_, _, heq, hstate⟩ := hsound
    cases heq
    exact hstate

def plainLibrary : Library Envelope := ⟨fun _ => true, id, some, fun _ => rfl⟩

def homeRecord : Credential :=
  ⟨"https://home.example", "01234567-89ab-cdef-0123-456789abcdef", "ada", "Ada",
    "0123456789abcdef", 1000, 1⟩

def firstGeneration : String := "first______________________________________"

def secondGeneration : String := "second_____________________________________"

def answered (generation : String) (bytes : Bytes) : Input := ⟨.ok, generation, bytes⟩

/-- A login is remembered and used, and then asked for again. -/
def rememberedRun : List Action :=
  [Action.start 0 .begin] ++ List.replicate 4 (Action.go 0 (answered firstGeneration [])) ++
    [Action.start 1 (.save homeRecord firstGeneration)] ++
    List.replicate 5 (Action.go 1 (answered "" [7])) ++ [Action.start 2 .consume] ++
    List.replicate 8 (Action.go 2 (answered secondGeneration [])) ++ [Action.start 3 .consume] ++
    List.replicate 3 (Action.go 3 (answered "" []))

theorem login_returned_once :
    .consumed 2 homeRecord 1 firstGeneration ∈
        (rememberedRun.foldl (Store.step plainLibrary) fresh).log ∧
      (rememberedRun.foldl (Store.step plainLibrary) fresh).log.countP (·.returns 1) ≤ 1 :=
  ⟨by decide +kernel, (remembered_login_used_once plainLibrary rememberedRun).1 1⟩

end Store

end HomeTunnel.Credentials
