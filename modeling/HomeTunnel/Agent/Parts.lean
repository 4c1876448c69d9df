import HomeTunnel.Agent.Supervisor

/-! # The parts of the supervisor's operations

What each part of an operation changes and what it leaves alone, and the ways in
which `Apply` can end once its candidate is written.
-/

namespace HomeTunnel.Agent

variable {p : Platform}

namespace Machine

@[simp] theorem allow_files (m : Machine) (allowed : AllowLists) :
    (m.allow allowed).files = m.files := rfl

/-- What the parts leave alone besides the process and its counters: the files, the lists,
the last known good file and its lease. -/
structure Same (m n : Machine) : Prop where
  files : n.files = m.files
  allowed : n.supervisor.allowed = m.supervisor.allowed
  lastKnownGood : n.supervisor.lastKnownGood = m.supervisor.lastKnownGood
  leaseExpiry : n.supervisor.leaseExpiry = m.supervisor.leaseExpiry

theorem Same.refl (m : Machine) : Same m m := ⟨rfl, rfl, rfl, rfl⟩

theorem Same.trans {m n o : Machine} (h : Same m n) (h' : Same n o) : Same m o :=
  ⟨h'.files.trans h.files, h'.allowed.trans h.allowed, h'.lastKnownGood.trans h.lastKnownGood,
    h'.leaseExpiry.trans h.leaseExpiry⟩

theorem same_stopProcess (m : Machine) : Same m m.stopProcess := ⟨rfl, rfl, rfl, rfl⟩

theorem same_trustCa (m : Machine) (path digest : String) : Same m (m.trustCa path digest) :=
  ⟨rfl, rfl, rfl, rfl⟩

/-- The certificate changes two fields that only the command line reads. -/
theorem syncTrustedCa_eq {m n : Machine} {written : Bool}
    (h : m.syncTrustedCa p written = some n) :
    ∃ path digest, n = m.trustCa path digest := by
  simp only [syncTrustedCa] at h
  split at h
  · cases h
    exact ⟨_, _, rfl⟩
  · split at h
    · cases h
      exact ⟨_, _, rfl⟩
    · cases h

/-- A start leaves all that alone and adds at most the process it launches. -/
theorem start_spec (m : Machine) (launched : Bool) (config : FileName) (applying : Bool) :
    Same m (m.start launched config applying).2 ∧
      ((m.start launched config applying).2.started = m.started ∨
        launched = true ∧
          (m.start launched config applying).2.started = m.launch config :: m.started) := by
  cases launched with
  | false => exact ⟨.refl m, .inl rfl⟩
  | true =>
    simp only [start, Bool.not_true, Bool.false_eq_true, if_false]
    split
    · exact ⟨⟨rfl, rfl, rfl, rfl⟩, .inr ⟨trivial, rfl⟩⟩
    · exact ⟨⟨rfl, rfl, rfl, rfl⟩, .inr ⟨trivial, rfl⟩⟩

/-! ## Between two calls of `Apply` -/

/-- The process runs the last known good file, with the lists of the machine. -/
def Resumes (m : Machine) (process : Process) : Prop :=
  ∃ name, m.supervisor.lastKnownGood = some name ∧ process.file = m.files.lookup name ∧
    process.allowed = m.supervisor.allowed

/-- Counters and marks may change, the process may end, and the last known good file may be
started while there is a lease. -/
structure Carried (m n : Machine) : Prop where
  same : m.Same n
  started : ∀ process ∈ n.started, process ∈ m.started ∨ m.Resumes process
  process : ∀ process ∈ n.supervisor.process, m.supervisor.process = some process ∨
    m.supervisor.leaseExpiry.isSome = true ∧ m.Resumes process

variable {m n : Machine} {lkg : FileName}

theorem Same.carried (h : m.Same n) (hstarted : n.started = m.started)
    (hprocess : ∀ process ∈ n.supervisor.process, m.supervisor.process = some process) :
    m.Carried n :=
  ⟨h, fun _ hp => .inl (hstarted ▸ hp), fun process hp => .inl (hprocess process hp)⟩

theorem Carried.refl (m : Machine) : m.Carried m := (Same.refl m).carried rfl fun _ h => h

theorem Carried.trans {o : Machine} (h : m.Carried n) (h' : n.Carried o) : m.Carried o := by
  have hresumes : ∀ process, n.Resumes process → m.Resumes process := by
    intro process hp
    rwa [Resumes, h.same.files, h.same.allowed, h.same.lastKnownGood] at hp
  refine ⟨h.same.trans h'.same, fun process hp => ?_, fun process hp => ?_⟩
  · rcases h'.started process hp with hold | hnew
    · exact h.started process hold
    · exact .inr (hresumes process hnew)
  · rcases h'.process process hp with hold | ⟨hlease, hnew⟩
    · exact h.process process hold
    · exact .inr ⟨h.same.leaseExpiry ▸ hlease, hresumes process hnew⟩

theorem carried_stopProcess (m : Machine) : m.Carried m.stopProcess :=
  m.same_stopProcess.carried rfl (by simp [stopProcess])

theorem carried_recordRestartFailure (m : Machine) (now : Nat) :
    m.Carried (m.recordRestartFailure now) :=
  Same.carried ⟨rfl, rfl, rfl, rfl⟩ rfl fun _ h => h

theorem carried_exit (m : Machine) (now : Nat) : m.Carried (m.exit now) := by
  unfold Machine.exit
  split
  · exact .refl m
  · split
    · exact m.carried_stopProcess
    · exact m.carried_stopProcess.trans (carried_recordRestartFailure _ now)

theorem carried_start (launched applying : Bool) (hlkg : m.supervisor.lastKnownGood = some lkg)
    (hlease : m.supervisor.leaseExpiry.isSome = true) :
    m.Carried (m.start launched lkg applying).2 := by
  have hresumes : m.Resumes (m.launch lkg) := ⟨lkg, hlkg, rfl, rfl⟩
  have hstarted : ∀ process ∈ m.launch lkg :: m.started, process ∈ m.started ∨ m.Resumes process := by
    intro process hp
    rcases List.mem_cons.mp hp with rfl | hp
    · exact .inr hresumes
    · exact .inl hp
  unfold start
  split
  · exact .refl m
  · dsimp only
    split
    · exact ⟨⟨rfl, rfl, rfl, rfl⟩, hstarted, fun _ hp => .inl hp⟩
    · refine ⟨⟨rfl, rfl, rfl, rfl⟩, hstarted, fun process hp => .inr ?_⟩
      cases hp
      exact ⟨hlease, hresumes⟩

theorem carried_cooldown (m : Machine) (now : Nat) : m.Carried (m.cooldown now).2 := by
  unfold cooldown
  by_cases hfew : m.supervisor.restartFailures ≤ restartFailureLimit
  · rw [if_pos hfew]
    exact .refl m
  · rw [if_neg hfew]
    by_cases hends : now < m.supervisor.restartGaveUpAt.getD now + restartCooldown
    · simp only [if_pos hends]
      exact Same.carried ⟨rfl, rfl, rfl, rfl⟩ rfl fun _ h => h
    · simp only [if_neg hends]
      exact Same.carried ⟨rfl, rfl, rfl, rfl⟩ rfl fun _ h => h

theorem carried_restart (e : TickEnv) (hlkg : m.supervisor.lastKnownGood = some lkg)
    (hlease : m.supervisor.leaseExpiry.isSome = true) : m.Carried (m.restart e lkg).2 := by
  unfold restart
  split
  · exact .refl m
  · have hstart := carried_start e.startError.isNone false hlkg hlease
    dsimp only
    split
    · exact hstart
    · exact hstart.trans (carried_recordRestartFailure _ _)

theorem carried_restartDue (e : TickEnv) (now : Nat) (hlkg : m.supervisor.lastKnownGood = some lkg)
    (hlease : m.supervisor.leaseExpiry.isSome = true) (nextRestart : Option Nat) :
    m.Carried (m.restartDue p e now lkg nextRestart).2 := by
  cases nextRestart with
  | none => exact carried_restart e hlkg hlease
  | some next =>
    dsimp only [restartDue]
    split
    · exact .refl m
    · exact carried_restart e hlkg hlease

theorem carried_restartCooled (e : TickEnv) (now : Nat)
    (hlkg : m.supervisor.lastKnownGood = some lkg)
    (hlease : m.supervisor.leaseExpiry.isSome = true) :
    m.Carried (m.restartCooled p e now lkg).2 := by
  have hcool := m.carried_cooldown now
  unfold restartCooled
  dsimp only
  split
  · refine hcool.trans (carried_restartDue e now (hcool.same.lastKnownGood.trans hlkg) ?_ _)
    rwa [hcool.same.leaseExpiry]
  · exact hcool

theorem carried_tick (p : Platform) (m : Machine) (e : TickEnv) (now : Nat) :
    m.Carried (m.tick p e now).2 := by
  unfold tick
  split
  · next expiry hexpiry =>
    split
    · exact m.carried_stopProcess
    · split
      · exact .refl m
      · split
        · exact .refl m
        · next lkg hlkg => exact carried_restartCooled e now hlkg (by rw [hexpiry]; rfl)
  · split
    · exact .refl m
    · exact .refl m

end Machine

theorem new_spec {e : NewEnv} {files : List (FileName × ConfigFile)} {started : List Process}
    {m : Machine} (h : new p e files started = some m) :
    m.supervisor.lastKnownGood = (newest files).map (·.1) ∧
      m.supervisor.leaseExpiry = e.leaseExpiry ∧ m.supervisor.process = none ∧
      m.supervisor.allowed = e.allowed p ∧ m.started = started ∧
      m.files = files.filter fun file =>
        !file.1.isLkg || (newest files).map (·.1) == some file.1 := by
  simp only [new] at h
  split at h
  · cases h
  · split at h
    · cases h
    · next n hca =>
      obtain ⟨path, digest, rfl⟩ := Machine.syncTrustedCa_eq hca
      cases h
      exact ⟨rfl, rfl, rfl, rfl, rfl, rfl⟩

/-- `restore` puts back the last known good file that was there. -/
theorem restore_same (m : Machine) (now : Nat) (launched : Bool) {config : Option FileName}
    {lease : Option Nat} (hconfig : m.supervisor.lastKnownGood = config)
    (hlease : m.supervisor.leaseExpiry = lease) :
    m.Same (m.restore now launched config lease) := by
  unfold Machine.restore
  split
  · exact .refl m
  · next name =>
    split
    · exact .refl m
    · have hstart := (m.start_spec launched name false).1
      dsimp only
      split
      · exact hstart
      · exact ⟨hstart.files, hstart.allowed, hconfig.symm, hlease.symm⟩

/-- How `switch` ends: the candidate is rejected, tried and given up, or promoted. -/
inductive Switched (m : Machine) (e : ApplyEnv) (version : Int) (lease : Lease)
    (pending : FileName) : Option ApplyError × Machine → Prop
  | rejected : Switched m e version lease pending (some .rejected, m)
  | fellBack {n : Machine} (error : ApplyError) (hverified : e.verified = true)
      (hfailed : (e.launched && e.startup == .healthy && e.renamed) = false)
      (hsame : m.Same n) (hprocess : n.supervisor.process = none)
      (hstarted : n.started = m.started ∨ n.started = m.launch pending :: m.started) :
      Switched m e version lease pending
        (some error, n.restore e.restoreAt e.relaunched m.supervisor.lastKnownGood
          m.supervisor.leaseExpiry)
  | promoted {n : Machine} (hsame : m.Same n)
      (hprocess : n.supervisor.process = some (m.launch pending))
      (hstarted : n.started = m.launch pending :: m.started) :
      Switched m e version lease pending
        (none, n.promoted e lease pending (.lkg version) m.supervisor.lastKnownGood)

theorem switch_switched (m : Machine) (e : ApplyEnv) (version : Int) (lease : Lease)
    (pending : FileName) :
    Switched m e version lease pending (m.switch e version lease pending) := by
  unfold Machine.switch
  split
  · exact .rejected
  · next hverified =>
    have hv : e.verified = true := by simpa using hverified
    cases hlaunched : e.launched with
    | false =>
      exact .fellBack .start hv (by simp [hlaunched]) m.same_stopProcess rfl (.inl rfl)
    | true =>
      cases hstartup : e.startup with
      | exited =>
        exact .fellBack .exitedDuringStartup hv (by simp [hstartup]) ⟨rfl, rfl, rfl, rfl⟩ rfl (.inr rfl)
      | cancelled =>
        exact .fellBack .cancelled hv (by simp [hstartup]) ⟨rfl, rfl, rfl, rfl⟩ rfl (.inr rfl)
      | healthy =>
        cases hrenamed : e.renamed with
        | false =>
          exact .fellBack .promote hv (by simp [hrenamed]) ⟨rfl, rfl, rfl, rfl⟩ rfl (.inr rfl)
        | true => exact .promoted ⟨rfl, rfl, rfl, rfl⟩ rfl rfl

variable {name : FileName} {file : ConfigFile}

theorem lookup_filter_of_ne {files : List (FileName × ConfigFile)}
    {keep : FileName × ConfigFile → Bool} (h : ∀ file, keep (name, file) = true) :
    (files.filter keep).lookup name = files.lookup name := by
  induction files with
  | nil => rfl
  | cons head rest ih =>
    obtain ⟨other, file⟩ := head
    by_cases hname : name = other
    · subst hname
      simp [h]
    · have hbeq : (name == other) = false := by simpa using hname
      rw [List.filter_cons]
      split
      · simp only [List.lookup_cons, hbeq, ih]
      · simp only [List.lookup_cons, hbeq, ih]

theorem promoted_spec {m : Machine} (e : ApplyEnv) (lease : Lease) {pending : FileName}
    (lkg : FileName) (previous : Option FileName) (hfile : m.files.lookup pending = some file) :
    (m.promoted e lease pending lkg previous).supervisor.lastKnownGood = some lkg ∧
      (m.promoted e lease pending lkg previous).files.lookup lkg = some file ∧
      (m.promoted e lease pending lkg previous).supervisor.allowed = m.supervisor.allowed ∧
      (m.promoted e lease pending lkg previous).started = m.started := by
  have hrename : (m.rename pending lkg).files.lookup lkg = some file ∧
      (m.rename pending lkg).supervisor = m.supervisor ∧
      (m.rename pending lkg).started = m.started := by
    simp [Machine.rename, hfile]
  obtain ⟨hlookup, hsupervisor, hstarted⟩ := hrename
  unfold Machine.promoted
  dsimp only
  split
  · next name =>
    split
    · exact ⟨rfl, hlookup, by rw [hsupervisor], hstarted⟩
    · next hne =>
      refine ⟨rfl, ?_, congrArg _ hsupervisor, hstarted⟩
      rw [← hlookup]
      refine lookup_filter_of_ne fun _ => ?_
      simpa using Ne.symm hne
  · exact ⟨rfl, hlookup, by rw [hsupervisor], hstarted⟩

theorem lookup_newest {files : List (FileName × ConfigFile)} (h : newest files = some (name, file))
    : name.isLkg = true ∧ files.lookup name = some file := by
  have hlkg : name.isLkg = true := by
    have := List.find?_some h
    exact this
  refine ⟨hlkg, ?_⟩
  unfold newest at h
  induction files with
  | nil => cases h
  | cons head rest ih =>
    obtain ⟨other, content⟩ := head
    rw [List.find?_cons] at h
    split at h
    · cases h
      simp
    · next hother =>
      have hne : (name == other) = false := by
        rw [beq_eq_false_iff_ne]
        rintro rfl
        exact absurd hlkg (by simpa using hother)
      simp only [List.lookup_cons, hne]
      exact ih h

/-- The machine while it tries a candidate. -/
def Machine.trying (p : Platform) (m : Machine) (file : ConfigFile) : Machine :=
  (m.allow (collect p.toLower file.connections)).writePending m.freshPending file

theorem lookup_trying (m : Machine) (file : ConfigFile) (hname : name.isLkg = true) :
    (m.trying p file).files.lookup name = m.files.lookup name := by
  have hne : (name == m.freshPending) = false := by
    rw [beq_eq_false_iff_ne]
    rintro rfl
    cases hname
  simp only [Machine.trying, Machine.writePending, List.lookup_cons, hne, Machine.allow_files]

theorem lookup_trying_pending (m : Machine) (file : ConfigFile) :
    (m.trying p file).files.lookup m.freshPending = some file := by
  simp [Machine.trying, Machine.writePending]

theorem applyFile_eq {m : Machine} {e : ApplyEnv} {response : SyncResponse} {lease : Lease}
    (hfile : file.connections = response.connections) (hwritten : e.pendingWritten = true) :
    m.applyFile p e response lease file =
      Machine.takeBack m.supervisor.allowed m.freshPending
        ((m.trying p file).switch e response.targetConfigVersion lease m.freshPending) := by
  simp only [Machine.applyFile, hwritten, Bool.not_true, Bool.false_eq_true, if_false,
    Machine.trying, hfile]
  rfl

end HomeTunnel.Agent
