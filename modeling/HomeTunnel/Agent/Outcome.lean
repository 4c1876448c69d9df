import HomeTunnel.Agent.Parts
import HomeTunnel.Lib.Runs

/-! # The outcome of `Apply`

A failed `Apply` leaves the last known good configuration where it was, and runs
nothing else; a successful one has made its candidate the newest file and runs
that.
-/

namespace HomeTunnel.Agent

variable {p : Platform}

theorem newest_filter {files : List (FileName × ConfigFile)} {keep : FileName × ConfigFile → Bool}
    (h : ∀ file, file.1.isLkg = true → keep file = true) :
    newest (files.filter keep) = newest files := by
  unfold newest
  rw [List.find?_filter]
  congr 1
  funext file
  cases hlkg : file.1.isLkg with
  | false => simp
  | true => simp [h file hlkg]

theorem newest_trying (m : Machine) (file : ConfigFile) :
    newest (m.trying p file).files = newest m.files := rfl

theorem newest_secureDelete_pending (m : Machine) (number : Nat) :
    newest (m.secureDelete (.pending number)).files = newest m.files := by
  refine newest_filter fun file hlkg => ?_
  rw [decide_eq_true_iff]
  intro heq
  rw [heq] at hlkg
  cases hlkg

variable {m n : Machine} {file : ConfigFile} {e : ApplyEnv} {lease : Lease} {lkg : FileName}
  {process : Process} {response : SyncResponse}

theorem newest_promoted (e : ApplyEnv) (lease : Lease) {pending : FileName} (version : Int)
    (previous : Option FileName) (hfile : m.files.lookup pending = some file) :
    newest (m.promoted e lease pending (.lkg version) previous).files =
      some (.lkg version, file) := by
  have hrename : (m.rename pending (.lkg version)).files =
      (.lkg version, file) :: m.files.filter fun f => f.1 ≠ pending ∧ f.1 ≠ .lkg version := by
    simp [Machine.rename, hfile]
  unfold Machine.promoted
  dsimp only
  split
  · next name =>
    split
    · rw [hrename]
      rfl
    · next hne =>
      dsimp only [Machine.secureDelete]
      rw [hrename, List.filter_cons, if_pos (by simpa using Ne.symm hne)]
      rfl
  · rw [hrename]
    rfl

theorem process_promoted {pending : FileName} {previous : Option FileName}
    (h : (m.promoted e lease pending lkg previous).supervisor.process = some process) :
    m.supervisor.process = some process := by
  have hrename : (m.rename pending lkg).supervisor = m.supervisor := by
    unfold Machine.rename
    split <;> rfl
  have halive : (if e.alive then m.supervisor.process else none) = some process := by
    rw [← h, ← hrename]
    unfold Machine.promoted
    cases previous with
    | none => rfl
    | some name =>
      by_cases hname : name = lkg
      · simp only [if_pos hname]
      · simp only [if_neg hname]
        rfl
  split at halive
  · exact halive
  · cases halive

/-! ## After a failure -/

/-- The last known good file and its lease are as before, and a process that runs is either
the one before or runs that file. -/
structure Kept (m n : Machine) : Prop where
  lastKnownGood : n.supervisor.lastKnownGood = m.supervisor.lastKnownGood
  leaseExpiry : n.supervisor.leaseExpiry = m.supervisor.leaseExpiry
  newest : newest n.files = newest m.files
  lookup : ∀ name, name.isLkg = true → n.files.lookup name = m.files.lookup name
  process : ∀ process ∈ n.supervisor.process, m.supervisor.process = some process ∨
    ∃ name, m.supervisor.lastKnownGood = some name ∧ m.supervisor.leaseExpiry.isSome = true ∧
      process.file = m.files.lookup name

theorem Kept.of_same (h : m.Same n)
    (hprocess : ∀ process ∈ n.supervisor.process, m.supervisor.process = some process ∨
      ∃ name, m.supervisor.lastKnownGood = some name ∧ m.supervisor.leaseExpiry.isSome = true ∧
        process.file = m.files.lookup name) :
    Kept m n :=
  ⟨h.lastKnownGood, h.leaseExpiry, by rw [h.files], fun _ _ => by rw [h.files], hprocess⟩

theorem Kept.refl (m : Machine) : Kept m m :=
  .of_same (.refl m) fun _ h => .inl h

theorem Kept.of_carried (h : m.Carried n) : Kept m n := by
  refine .of_same h.same fun process hprocess => (h.process process hprocess).imp id ?_
  rintro ⟨hlease, name, hname, hfile, -⟩
  exact ⟨name, hname, hlease, hfile⟩

theorem kept_trustCa (m : Machine) (path digest : String) : Kept m (m.trustCa path digest) :=
  .of_same (m.same_trustCa path digest) fun _ h => .inl h

theorem Kept.trans {l : Machine} (h : Kept l m) (h' : Kept m n)
    (hnamed : ∀ name, l.supervisor.lastKnownGood = some name → name.isLkg = true) : Kept l n := by
  refine ⟨h'.lastKnownGood.trans h.lastKnownGood, h'.leaseExpiry.trans h.leaseExpiry,
    h'.newest.trans h.newest, fun name hname => (h'.lookup name hname).trans (h.lookup name hname),
    ?_⟩
  intro process hprocess
  rcases h'.process process hprocess with hold | ⟨name, hname, hlease, hfile⟩
  · exact h.process process hold
  · rw [h.lastKnownGood] at hname
    rw [h.leaseExpiry] at hlease
    rw [h.lookup name (hnamed name hname)] at hfile
    exact .inr ⟨name, hname, hlease, hfile⟩

theorem process_start {launched : Bool} {config : FileName} {applying : Bool}
    (h : (m.start launched config applying).2.supervisor.process = some process) :
    m.supervisor.process = some process ∨ process = m.launch config := by
  unfold Machine.start at h
  split at h
  · exact .inl h
  · dsimp only at h
    split at h
    · exact .inl h
    · cases h
      exact .inr rfl

theorem process_restore {now : Nat} {launched : Bool} {config : Option FileName}
    {lease : Option Nat}
    (h : (m.restore now launched config lease).supervisor.process = some process) :
    m.supervisor.process = some process ∨
      ∃ name, config = some name ∧ lease.isSome = true ∧ process = m.launch name := by
  unfold Machine.restore at h
  split at h
  · exact .inl h
  · next name =>
    split at h
    · exact .inl h
    · next hrestorable =>
      have hlease : lease.isSome = true := by
        cases lease with
        | none => simp [Machine.restorable] at hrestorable
        | some lease => rfl
      have hstart : (m.start launched name false).2.supervisor.process = some process := by
        dsimp only at h
        split at h
        · exact h
        · exact h
      rcases process_start hstart with hold | hnew
      · exact .inl hold
      · exact .inr ⟨name, rfl, hlease, hnew⟩

theorem kept_takeBack (hsame : (m.trying p file).Same n)
    (hprocess : ∀ process ∈ n.supervisor.process, m.supervisor.process = some process ∨
      ∃ name, m.supervisor.lastKnownGood = some name ∧ m.supervisor.leaseExpiry.isSome = true ∧
        process.file = m.files.lookup name) :
    Kept m ((n.secureDelete m.freshPending).allow m.supervisor.allowed) := by
  refine ⟨hsame.lastKnownGood, hsame.leaseExpiry, ?_, ?_, hprocess⟩
  · exact (newest_secureDelete_pending n _).trans (by rw [hsame.files, newest_trying])
  · intro name hname
    rw [← lookup_trying (p := p) m file hname, ← hsame.files]
    refine lookup_filter_of_ne fun f => ?_
    rw [decide_eq_true_iff]
    rintro rfl
    cases hname

/-- What a successful `Apply` leaves. -/
structure Promoted (version : Int) (lease : Lease) (file : ConfigFile) (m : Machine) : Prop where
  lastKnownGood : m.supervisor.lastKnownGood = some (.lkg version)
  leaseExpiry : m.supervisor.leaseExpiry = some lease.expiresAt
  newest : newest m.files = some (.lkg version, file)
  process : ∀ process ∈ m.supervisor.process, process.file = some file

inductive Outcome (m : Machine) (response : SyncResponse) : Option ApplyError × Machine → Prop
  | kept {n : Machine} (error : ApplyError) (h : Kept m n) : Outcome m response (some error, n)
  | promoted {n : Machine} {lease : Lease} {file : ConfigFile}
      (hlease : response.lease = some lease) (hfile : file.connections = response.connections)
      (h : Promoted response.targetConfigVersion lease file n) : Outcome m response (none, n)

theorem applyFile_outcome (e : ApplyEnv) (hlease : response.lease = some lease)
    (hfile : file.connections = response.connections)
    (hnamed : ∀ name, m.supervisor.lastKnownGood = some name → name.isLkg = true) :
    Outcome m response (m.applyFile p e response lease file) := by
  cases hwritten : e.pendingWritten with
  | false =>
    simp only [Machine.applyFile, hwritten, Bool.not_false, if_true]
    exact .kept _ (.of_same ⟨rfl, rfl, rfl, rfl⟩ fun _ h => .inl h)
  | true =>
    rw [applyFile_eq hfile hwritten]
    have hcases := switch_switched (m.trying p file) e response.targetConfigVersion lease
      m.freshPending
    generalize (m.trying p file).switch e response.targetConfigVersion lease m.freshPending =
      outcome at hcases
    cases hcases with
    | rejected => exact .kept _ (kept_takeBack (.refl _) fun _ h => .inl h)
    | @fellBack n error hverified hfailed hsame hprocess hstarted =>
      refine .kept error (kept_takeBack (hsame.trans (restore_same n e.restoreAt e.relaunched
        hsame.lastKnownGood hsame.leaseExpiry)) ?_)
      intro process hmem
      rcases process_restore hmem with hold | ⟨name, hname, hlease, hnew⟩
      · rw [hprocess] at hold
        cases hold
      · refine .inr ⟨name, hname, hlease, ?_⟩
        rw [hnew, ← lookup_trying (p := p) m file (hnamed name hname), ← hsame.files]
        rfl
    | @promoted n hsame hprocess hstarted =>
      have hlookup : n.files.lookup m.freshPending = some file := by
        rw [hsame.files, lookup_trying_pending]
      refine .promoted hlease hfile ⟨rfl, rfl, newest_promoted e lease _ _ hlookup, ?_⟩
      intro process hmem
      have hlaunch := hprocess.symm.trans (process_promoted hmem)
      cases hlaunch
      exact lookup_trying_pending m file

theorem apply_outcome (e : ApplyEnv) (profile : Profile) (response : SyncResponse)
    (hnamed : ∀ name, m.supervisor.lastKnownGood = some name → name.isLkg = true) :
    Outcome m response (m.apply p e profile response) := by
  unfold Machine.apply
  split
  · exact .kept _ (.refl m)
  · next lease hlease =>
    split
    · exact .kept _ (.of_carried m.carried_stopProcess)
    · split
      · exact .kept _ (.refl m)
      · split
        · exact .kept _ (.refl m)
        · next n hca =>
          obtain ⟨path, digest, rfl⟩ := Machine.syncTrustedCa_eq hca
          have htrust := kept_trustCa m path digest
          split
          · exact .kept _ htrust
          · next file hfile =>
            have houtcome := applyFile_outcome (p := p) (m := m.trustCa path digest) e hlease
              (ConfigFile.connections_of_render hfile) hnamed
            generalize (m.trustCa path digest).applyFile p e response lease file = outcome at *
            cases houtcome with
            | kept error h => exact .kept error (htrust.trans h hnamed)
            | promoted hlease hfile h => exact .promoted hlease hfile h

/-- Everything that `Apply` asks for on its way is there: a lease that lasts, the agent, its
certificate, a configuration that renders and is written and accepted, and an agent that
starts, stays up and is promoted. -/
def Machine.accepts (p : Platform) (m : Machine) (e : ApplyEnv) (profile : Profile)
    (response : SyncResponse) : Bool :=
  response.lease.any (fun lease => decide (e.now + minute ≤ lease.expiresAt)) && e.inspected &&
    (match m.syncTrustedCa p e.caWritten with
      | none => false
      | some m => (ConfigFile.render profile response m.supervisor.trustedCaPath).isOk) &&
    e.pendingWritten && e.verified && e.launched && e.startup == .healthy && e.renamed

theorem applyFile_of_accepted (hwritten : e.pendingWritten = true) (hverified : e.verified = true)
    (hlaunched : e.launched = true) (hstartup : e.startup = .healthy) (hrenamed : e.renamed = true)
    : (m.applyFile p e response lease file).1 = none := by
  simp [Machine.applyFile, Machine.switch, Machine.start, Machine.takeBack, Machine.stopProcess,
    hwritten, hverified, hlaunched, hstartup, hrenamed]

theorem apply_of_accepts {profile : Profile} (h : m.accepts p e profile response = true) :
    (m.apply p e profile response).1 = none := by
  simp only [Machine.accepts, Bool.and_eq_true, beq_iff_eq] at h
  obtain ⟨⟨⟨⟨⟨⟨⟨hlease, hinspected⟩, hrender⟩, hwritten⟩, hverified⟩, hlaunched⟩, hstartup⟩,
    hrenamed⟩ := h
  unfold Machine.apply
  cases hl : response.lease with
  | none => simp [hl] at hlease
  | some lease =>
    have hlasts : ¬ lease.expiresAt < e.now + minute := by
      simpa [hl] using hlease
    simp only [if_neg hlasts, hinspected, Bool.not_true, Bool.false_eq_true, if_false]
    cases hca : m.syncTrustedCa p e.caWritten with
    | none =>
      rw [hca] at hrender
      cases hrender
    | some n =>
      rw [hca] at hrender
      dsimp only at hrender ⊢
      split
      · next error herror =>
        rw [herror] at hrender
        cases hrender
      · exact applyFile_of_accepted hwritten hverified hlaunched hstartup hrenamed

theorem newest_filter_found (files : List (FileName × ConfigFile)) :
    newest (files.filter fun file =>
      !file.1.isLkg || (newest files).map (·.1) == some file.1) = newest files := by
  induction files with
  | nil => rfl
  | cons head rest ih =>
    cases hlkg : head.1.isLkg with
    | true =>
      have hfirst : newest (head :: rest) = some head := by
        simp [newest, hlkg]
      rw [hfirst, List.filter_cons, if_pos (by simp)]
      simp [newest, hlkg]
    | false =>
      have hskip : ∀ tail, newest (head :: tail) = newest tail := by
        intro tail
        simp [newest, hlkg]
      rw [hskip, List.filter_cons, if_pos (by simp [hlkg]), hskip, ih]

/-- What runs is the last known good configuration, as it stands on the disk. -/
structure Machine.Sound (m : Machine) : Prop where
  named : ∀ name, m.supervisor.lastKnownGood = some name → name.isLkg = true
  running : ∀ process ∈ m.supervisor.process, ∃ name,
    m.supervisor.lastKnownGood = some name ∧ process.file = m.files.lookup name

theorem Kept.sound (h : Kept m n) (hm : m.Sound) : n.Sound := by
  refine ⟨fun name hname => hm.named name (h.lastKnownGood ▸ hname), fun process hp => ?_⟩
  have hran : ∃ name, m.supervisor.lastKnownGood = some name ∧
      process.file = m.files.lookup name := by
    rcases h.process process hp with hold | ⟨name, hname, -, hfile⟩
    · exact hm.running process hold
    · exact ⟨name, hname, hfile⟩
  obtain ⟨name, hname, hfile⟩ := hran
  exact ⟨name, h.lastKnownGood.trans hname, by rw [hfile, h.lookup name (hm.named name hname)]⟩

theorem Outcome.sound {outcome : Option ApplyError × Machine} (h : Outcome m response outcome)
    (hm : m.Sound) : outcome.2.Sound := by
  cases h with
  | kept error h => exact h.sound hm
  | promoted hlease hfile h =>
    obtain ⟨hlkg, hlookup⟩ := lookup_newest h.newest
    refine ⟨fun name hname => ?_, fun process hp => ⟨_, h.lastKnownGood, ?_⟩⟩
    · cases h.lastKnownGood.symm.trans hname
      exact hlkg
    · rw [h.process process hp, hlookup]

theorem Machine.Sound.perform (h : m.Sound) (call : Call) : (m.perform p call).Sound := by
  cases call with
  | apply e profile response => exact (apply_outcome e profile response h.named).sound h
  | tick e now => exact (Kept.of_carried (m.carried_tick p e now)).sound h
  | exit now => exact (Kept.of_carried (m.carried_exit now)).sound h
  | stop => exact (Kept.of_carried m.carried_stopProcess).sound h

theorem sound_new {e : NewEnv} {files : List (FileName × ConfigFile)} {started : List Process}
    (h : new p e files started = some m) : m.Sound := by
  obtain ⟨hlkg, -, hprocess, -⟩ := new_spec h
  refine ⟨fun name hname => ?_, by simp [hprocess]⟩
  rw [hlkg, Option.map_eq_some_iff] at hname
  obtain ⟨file, hnewest, rfl⟩ := hname
  exact (lookup_newest hnewest).1

theorem sound_step (c : Computer) (op : Op) (h : ∀ m ∈ c.machine, m.Sound) :
    ∀ m ∈ (c.step p op).machine, m.Sound := by
  intro n hn
  cases op with
  | new e =>
    dsimp only [Computer.step] at hn
    split at hn
    · cases hn
    · next m hm =>
      cases hn
      exact sound_new hm
  | call call =>
    dsimp only [Computer.step] at hn
    split at hn
    · exact h n hn
    · next m hm =>
      cases hn
      exact (h m hm).perform call

/-- Whatever the clients of a computer have done, the process that a supervisor records runs
its last known good file, and the next `Apply` either fails and keeps that or replaces it. -/
theorem last_known_good_runs (p : Platform) (files : List (FileName × ConfigFile))
    (ops : List Op) :
    Runs.Always (Computer.step p) (fun c => ∀ m ∈ c.machine, m.Sound ∧
      ∀ e profile response, Outcome m response (m.apply p e profile response))
      ⟨files, [], none⟩ ops := by
  have hstart : ∀ m ∈ (⟨files, [], none⟩ : Computer).machine, m.Sound := by
    simp [Computer.machine]
  exact (Runs.always_of_step sound_step hstart).mono fun c h m hm =>
    ⟨h m hm, fun e profile response => apply_outcome e profile response (h m hm).named⟩

end HomeTunnel.Agent
