import HomeTunnel.Agent.Parts
import HomeTunnel.Lib.Runs

/-! # Allow-lists and configurations

Whether an agent process is given the lists of the connections its configuration
was rendered from. A supervisor keeps the lists beside the name of its last
known good file, and the two belong together between operations; `Apply` breaks
that for its own duration and starts the old file again before it takes its
lists back.
-/

namespace HomeTunnel.Agent

variable {p : Platform}

/-- The lists a process was given are those of its configuration file. -/
def Process.Matched (p : Platform) (process : Process) : Prop :=
  ∀ file, process.file = some file → process.allowed = collect p.toLower file.connections

/-- The lists, the last known good file and every process started so far agree. -/
structure Agrees (p : Platform) (m : Machine) : Prop where
  named : ∀ name, m.supervisor.lastKnownGood = some name → name.isLkg = true
  current : ∀ name file, m.supervisor.lastKnownGood = some name →
    m.files.lookup name = some file → m.supervisor.allowed = collect p.toLower file.connections
  past : ∀ process ∈ m.started, process.Matched p

variable {m n : Machine} {launched : Bool} {lkg : FileName} {file : ConfigFile} {e : ApplyEnv}
  {c : Computer}

theorem Agrees.of_lookup (h : Agrees p m)
    (hlkg : n.supervisor.lastKnownGood = m.supervisor.lastKnownGood)
    (hallowed : n.supervisor.allowed = m.supervisor.allowed)
    (hlookup : ∀ name, name.isLkg = true → n.files.lookup name = m.files.lookup name)
    (hpast : ∀ process ∈ n.started, process.Matched p) : Agrees p n := by
  refine ⟨?_, ?_, hpast⟩
  · rw [hlkg]
    exact h.named
  · rw [hlkg, hallowed]
    intro name file hname hfile
    rw [hlookup name (h.named name hname)] at hfile
    exact h.current name file hname hfile

theorem Agrees.of_same (h : Agrees p m) (hsame : m.Same n)
    (hpast : ∀ process ∈ n.started, process.Matched p) : Agrees p n :=
  h.of_lookup hsame.lastKnownGood hsame.allowed (fun _ _ => by rw [hsame.files]) hpast

/-- A start keeps the processes matched when the file it starts fits the lists. -/
theorem matched_start {config : FileName} {applying : Bool}
    (hpast : ∀ process ∈ m.started, process.Matched p)
    (hfile : launched = true → ∀ file, m.files.lookup config = some file →
      m.supervisor.allowed = collect p.toLower file.connections) :
    ∀ process ∈ (m.start launched config applying).2.started, process.Matched p := by
  obtain ⟨-, hstarted | ⟨hlaunched, hstarted⟩⟩ := m.start_spec launched config applying
  · rw [hstarted]
    exact hpast
  · rw [hstarted]
    intro process hmem
    rcases List.mem_cons.mp hmem with rfl | hmem
    · exact hfile hlaunched
    · exact hpast process hmem

/-- What starts the last known good file starts it with its own lists. -/
theorem Agrees.carried (h : Agrees p m) (hcarried : m.Carried n) : Agrees p n := by
  refine h.of_same hcarried.same fun process hprocess => ?_
  rcases hcarried.started process hprocess with hold | ⟨name, hname, hfile, hallowed⟩
  · exact h.past process hold
  · intro file hf
    rw [hallowed]
    exact h.current name file hname (hfile ▸ hf)

theorem Agrees.stopProcess (h : Agrees p m) : Agrees p m.stopProcess :=
  h.carried m.carried_stopProcess

/-- The file that `restore` may start fits the lists of the moment. -/
def RestoreFits (p : Platform) (m : Machine) (now : Nat) (launched : Bool)
    (config : Option FileName) (lease : Option Nat) : Prop :=
  launched = true → m.restorable now config lease = true → ∀ name file, config = some name →
    m.files.lookup name = some file → m.supervisor.allowed = collect p.toLower file.connections

theorem RestoreFits.of_same {now : Nat} {config : Option FileName} {lease : Option Nat}
    (h : RestoreFits p m now launched config lease) (hsame : m.Same n) :
    RestoreFits p n now launched config lease := by
  intro hlaunched hrestorable
  have hm : m.restorable now config lease = true := by
    simpa only [Machine.restorable, hsame.files] using hrestorable
  rw [hsame.files, hsame.allowed]
  exact h hlaunched hm

theorem matched_restore {now : Nat} {config : Option FileName} {lease : Option Nat}
    (hpast : ∀ process ∈ m.started, process.Matched p)
    (hfits : RestoreFits p m now launched config lease) :
    ∀ process ∈ (m.restore now launched config lease).started, process.Matched p := by
  unfold Machine.restore
  split
  · exact hpast
  · next name =>
    split
    · exact hpast
    · next hrestorable =>
      have hstart : ∀ process ∈ (m.start launched name false).2.started, process.Matched p :=
        matched_start hpast fun hlaunched file hfile =>
          hfits hlaunched (by simpa using hrestorable) name file rfl hfile
      dsimp only
      split <;> exact hstart

/-- An `Apply` whose candidate was written and accepted, but could not be started, did not
stay up or could not be promoted, and which then starts the previous configuration again. -/
def Machine.fallsBack (m : Machine) (e : ApplyEnv) : Bool :=
  e.pendingWritten && e.verified && !(e.launched && e.startup == .healthy && e.renamed) &&
    m.restorable e.restoreAt m.supervisor.lastKnownGood m.supervisor.leaseExpiry && e.relaunched

/-- Taking the lists and the candidate back restores the agreement. -/
theorem Agrees.takeBack (h : Agrees p m) (hsame : (m.trying p file).Same n)
    (hpast : ∀ process ∈ n.started, process.Matched p) :
    Agrees p ((n.secureDelete m.freshPending).allow m.supervisor.allowed) := by
  refine h.of_lookup hsame.lastKnownGood rfl ?_ hpast
  intro name hname
  have hkeep : ∀ f : ConfigFile, decide ((name, f).1 ≠ m.freshPending) = true := by
    intro f
    rw [decide_eq_true_iff]
    rintro rfl
    cases hname
  rw [← lookup_trying (p := p) m file hname, ← hsame.files]
  exact lookup_filter_of_ne hkeep

/-- The previous configuration fits the candidate's lists when the two lists are equal. -/
theorem Agrees.restoreFits (h : Agrees p m) (hwritten : e.pendingWritten = true)
    (hverified : e.verified = true)
    (hfailed : (e.launched && e.startup == .healthy && e.renamed) = false)
    (hkeeps : m.fallsBack e = true → collect p.toLower file.connections = m.supervisor.allowed) :
    RestoreFits p (m.trying p file) e.restoreAt e.relaunched m.supervisor.lastKnownGood
      m.supervisor.leaseExpiry := by
  intro hrelaunched hrestorable name old hname hold
  rw [lookup_trying m file (h.named name hname)] at hold
  have hthere : m.restorable e.restoreAt m.supervisor.lastKnownGood m.supervisor.leaseExpiry =
      true := by
    rw [hname] at hrestorable ⊢
    cases hlease : m.supervisor.leaseExpiry with
    | none => simp [Machine.restorable, hlease] at hrestorable
    | some lease =>
      simpa only [Machine.restorable, hlease, lookup_trying m file (h.named name hname)] using
        hrestorable
  have hsame := hkeeps (by
    simp only [Machine.fallsBack, hwritten, hverified, hfailed, hthere, hrelaunched]
    rfl)
  exact hsame.trans (h.current name old hname hold)

theorem Agrees.promoted (e : ApplyEnv) (lease : Lease) {pending : FileName} (version : Int)
    (previous : Option FileName) (hfile : m.files.lookup pending = some file)
    (hallowed : m.supervisor.allowed = collect p.toLower file.connections)
    (hpast : ∀ process ∈ m.started, process.Matched p) :
    Agrees p (m.promoted e lease pending (.lkg version) previous) := by
  obtain ⟨hlkg, hlookup, hsame, hstarted⟩ := promoted_spec e lease (.lkg version) previous hfile
  refine ⟨?_, ?_, ?_⟩
  · intro name hname
    rw [hlkg] at hname
    cases hname
    rfl
  · intro name f hname hf
    rw [hlkg] at hname
    cases hname
    rw [hlookup] at hf
    cases hf
    rw [hsame, hallowed]
  · rw [hstarted]
    exact hpast

theorem Agrees.applyFile (h : Agrees p m) {response : SyncResponse} {lease : Lease}
    (hfile : file.connections = response.connections)
    (hkeeps : m.fallsBack e = true → collect p.toLower response.connections = m.supervisor.allowed)
    : Agrees p (m.applyFile p e response lease file).2 := by
  cases hwritten : e.pendingWritten with
  | false =>
    simp only [Machine.applyFile, hwritten, Bool.not_false, if_true]
    exact h.of_same ⟨rfl, rfl, rfl, rfl⟩ h.past
  | true =>
    rw [applyFile_eq hfile hwritten]
    have hpending : ((m.trying p file).launch m.freshPending).Matched p := by
      intro f hf
      have heq : (m.trying p file).files.lookup m.freshPending = some f := hf
      rw [lookup_trying_pending] at heq
      cases heq
      rfl
    have htried : ∀ process ∈ (m.trying p file).launch m.freshPending :: m.started,
        process.Matched p := by
      intro process hmem
      rcases List.mem_cons.mp hmem with rfl | hmem
      · exact hpending
      · exact h.past process hmem
    have hcases := switch_switched (m.trying p file) e response.targetConfigVersion lease
      m.freshPending
    generalize (m.trying p file).switch e response.targetConfigVersion lease m.freshPending =
      outcome at hcases
    cases hcases with
    | rejected => exact h.takeBack (.refl _) h.past
    | @fellBack n error hverified hfailed hsame hprocess hstarted =>
      have hpast : ∀ process ∈ n.started, process.Matched p := by
        rcases hstarted with hstarted | hstarted <;> rw [hstarted]
        · exact h.past
        · exact htried
      have hfits := (h.restoreFits hwritten hverified hfailed (hfile ▸ hkeeps)).of_same hsame
      exact h.takeBack
        (hsame.trans (restore_same n e.restoreAt e.relaunched hsame.lastKnownGood hsame.leaseExpiry))
        (matched_restore hpast hfits)
    | @promoted n hsame hprocess hstarted =>
      have hlookup : n.files.lookup m.freshPending = some file := by
        rw [hsame.files, lookup_trying_pending]
      have hpast : ∀ process ∈ n.started, process.Matched p := by
        rw [hstarted]
        exact htried
      exact Agrees.promoted e lease _ _ hlookup hsame.allowed hpast

theorem Agrees.apply (h : Agrees p m) (profile : Profile) {response : SyncResponse}
    (hkeeps : m.fallsBack e = true → collect p.toLower response.connections = m.supervisor.allowed)
    : Agrees p (m.apply p e profile response).2 := by
  unfold Machine.apply
  split
  · exact h
  · split
    · exact h.stopProcess
    · split
      · exact h
      · split
        · exact h
        · next n hca =>
          obtain ⟨path, digest, rfl⟩ := Machine.syncTrustedCa_eq hca
          have htrust : Agrees p (m.trustCa path digest) :=
            h.of_same (m.same_trustCa path digest) h.past
          split
          · exact htrust
          · next file hfile =>
            exact htrust.applyFile (ConfigFile.connections_of_render hfile) hkeeps

theorem agrees_new {e : NewEnv} {files : List (FileName × ConfigFile)} {started : List Process}
    (hpast : ∀ process ∈ started, process.Matched p)
    (hlists : ∀ file, newest files = some file → e.allowed p = collect p.toLower file.2.connections)
    (h : new p e files started = some m) : Agrees p m := by
  obtain ⟨hlkg, -, -, hallowed, hstarted, hfiles⟩ := new_spec h
  have hfound : ∀ name, m.supervisor.lastKnownGood = some name →
      ∃ file, newest files = some (name, file) := by
    intro name hname
    obtain ⟨⟨other, file⟩, hnewest, rfl⟩ := Option.map_eq_some_iff.mp (hlkg.symm.trans hname)
    exact ⟨file, hnewest⟩
  refine ⟨?_, ?_, hstarted ▸ hpast⟩
  · intro name hname
    obtain ⟨file, hnewest⟩ := hfound name hname
    exact (lookup_newest hnewest).1
  · intro name file hname hfile
    obtain ⟨content, hnewest⟩ := hfound name hname
    rw [hfiles, ← hlkg, hname, lookup_filter_of_ne (by simp), (lookup_newest hnewest).2] at hfile
    cases hfile
    rw [hallowed]
    exact hlists _ hnewest

/-- `New` is given the connections of the newest last-known-good file, or others with the
same lists; an `Apply` that falls back has the lists the supervisor already uses. -/
def KeepsLists (p : Platform) (c : Computer) : Op → Prop
  | .new e => ∀ file ∈ newest c.files, e.allowed p = collect p.toLower file.2.connections
  | .call (.apply e _ response) => ∀ m ∈ c.machine, m.fallsBack e = true →
      collect p.toLower response.connections = m.supervisor.allowed
  | .call _ => True

instance (p : Platform) (c : Computer) : ∀ op, Decidable (KeepsLists p c op)
  | .new e => inferInstanceAs (Decidable (∀ file ∈ newest c.files,
      e.allowed p = collect p.toLower file.2.connections))
  | .call (.apply e _ response) => inferInstanceAs (Decidable (∀ m ∈ c.machine,
      m.fallsBack e = true → collect p.toLower response.connections = m.supervisor.allowed))
  | .call (.tick _ _) | .call (.exit _) | .call .stop => .isTrue trivial

/-- A computer whose supervisor, if there is one, agrees with its file. -/
structure Computer.Agrees (p : Platform) (c : Computer) : Prop where
  machine : ∀ m, c.machine = some m → HomeTunnel.Agent.Agrees p m
  past : ∀ process ∈ c.started, process.Matched p

theorem Agrees.ofMachine (h : Agrees p m) : (Computer.ofMachine m).Agrees p := by
  refine ⟨?_, h.past⟩
  intro n hn
  cases hn
  exact h

theorem Agrees.perform (h : Agrees p m) (hm : c.machine = some m) {call : Call}
    (hcall : KeepsLists p c (.call call)) : Agrees p (m.perform p call) := by
  cases call with
  | apply e profile response => exact h.apply profile (hcall m hm)
  | tick e now => exact h.carried (m.carried_tick p e now)
  | exit now => exact h.carried (m.carried_exit now)
  | stop => exact h.stopProcess

theorem Computer.Agrees.absent (hpast : ∀ process ∈ c.started, process.Matched p)
    (h : c.supervisor = none) : c.Agrees p := by
  refine ⟨?_, hpast⟩
  intro m hm
  rw [Computer.machine, h] at hm
  cases hm

theorem Computer.Agrees.step (h : c.Agrees p) {op : Op} (hop : KeepsLists p c op) :
    (c.step p op).Agrees p := by
  cases op with
  | new e =>
    dsimp only [Computer.step]
    split
    · exact .absent h.past rfl
    · next m hm => exact (agrees_new h.past hop hm).ofMachine
  | call call =>
    dsimp only [Computer.step]
    split
    · exact h
    · next m hm => exact ((h.machine m hm).perform hm hop).ofMachine

/-! ## Runs that keep the lists -/

/-- In a run in which every `New` and every `Apply` that falls back keeps the lists, every
process is started with the lists of the connections its configuration was rendered from. -/
theorem started_with_own_lists (p : Platform) (files : List (FileName × ConfigFile))
    (ops : List Op)
    (hops : Runs.Along (Computer.step p) (KeepsLists p) ⟨files, [], none⟩ ops) :
    Runs.Always (Computer.step p) (fun c => ∀ process ∈ c.started, process.Matched p)
      ⟨files, [], none⟩ ops := by
  have hempty : Computer.Agrees p ⟨files, [], none⟩ := .absent (by simp) rfl
  exact (Runs.always_of_invariant (fun _ _ h hop => h.step hop) hempty hops).mono
    fun _ h => h.past

def sampleResponse (version : Int) (remotePort : Int) : SyncResponse where
  deviceId := "d"
  fullSync := true
  targetConfigVersion := version
  connections := [sampleConnection remotePort]
  lease := some ⟨"lease", 10 * minute⟩

/-- Port 10001 is applied, and then again by an agent that exits at once. -/
def failedRenewal : List Op :=
  [.new ⟨"runtime", sampleProfile, none, some [], true, true⟩,
    .call (.apply (sampleApply .healthy) sampleProfile (sampleResponse 1 10001)),
    .call (.apply (sampleApply .exited) sampleProfile (sampleResponse 1 10001))]

/-- A renewal that falls back keeps the lists, and three processes are started with them. -/
theorem failedRenewal_keeps_lists :
    Runs.Always (Computer.step samplePlatform)
      (fun c => ∀ process ∈ c.started, process.Matched samplePlatform) ⟨[], [], none⟩
      failedRenewal ∧
      (failedRenewal.foldl (Computer.step samplePlatform) ⟨[], [], none⟩).started.length = 3 :=
  ⟨started_with_own_lists samplePlatform [] failedRenewal (by decide +kernel), by decide +kernel⟩

/-! ## A fall back under the wrong lists -/

/-- Port 10001 is applied, then port 10002 whose agent exits at once. -/
def failedUpdate : List Op :=
  [.new ⟨"runtime", sampleProfile, none, some [], true, true⟩,
    .call (.apply (sampleApply .healthy) sampleProfile (sampleResponse 1 10001)),
    .call (.apply (sampleApply .exited) sampleProfile (sampleResponse 2 10002))]

/-- The TCP ports that the newest process was given, and those of its configuration. -/
def newestPorts (p : Platform) (started : List Process) : Option (List Int × List Int) := do
  let process ← started.head?
  let file ← process.file
  return (process.allowed.tcpPorts, (collect p.toLower file.connections).tcpPorts)

theorem not_matched_of_newestPorts {started : List Process} {a b : List Int}
    (h : newestPorts p started = some (a, b)) (hne : a ≠ b) :
    ∃ process ∈ started, ¬ process.Matched p := by
  obtain ⟨process, hprocess, h⟩ := Option.bind_eq_some_iff.mp h
  obtain ⟨file, hfile, h⟩ := Option.bind_eq_some_iff.mp h
  refine ⟨process, List.mem_of_mem_head? hprocess, fun hmatched => hne ?_⟩
  rw [hmatched file hfile] at h
  cases h
  rfl

/-- The old configuration, for port 10001, is started again with port 10002 allowed. -/
theorem failedUpdate_restores_with_other_lists :
    ∃ process ∈ (failedUpdate.foldl (Computer.step samplePlatform) ⟨[], [], none⟩).started,
      ¬ process.Matched samplePlatform :=
  not_matched_of_newestPorts (a := [10002]) (b := [10001]) (by decide +kernel) (by decide)

end HomeTunnel.Agent
