import HomeTunnel.App.Client
import HomeTunnel.Agent.Outcome
import HomeTunnel.Lib.Runs

/-! # The synchronized configuration

When `synchronize` returns without an error, the applied version is the last one
received and the agent's configuration was rendered from the cached connections.
That holds as long as every full configuration that is received is also applied
and no restart loses what the client knew.
-/

namespace HomeTunnel.App

open HomeTunnel.Agent

variable {p : Platform}

/-! ## What the report leaves alone -/

/-- The part of the state that decides about the next synchronization. -/
structure State.Same (state other : State) : Prop where
  last : other.lastConfigVersion = state.lastConfigVersion
  capability : other.syncCapabilityVersion = state.syncCapabilityVersion
  applied : other.appliedConfigVersion = state.appliedConfigVersion
  lease : other.leaseExpiresAt = state.leaseExpiresAt
  connections : other.cachedConnections.map Connection.settings =
    state.cachedConnections.map Connection.settings

theorem State.Same.trans {a b c : State} (h : a.Same b) (h' : b.Same c) : a.Same c :=
  ⟨h'.last.trans h.last, h'.capability.trans h.capability, h'.applied.trans h.applied,
    h'.lease.trans h.lease, h'.connections.trans h.connections⟩

theorem same_report (state : State) (agentState agentMessage : String) :
    state.Same (state.report agentState agentMessage) := ⟨rfl, rfl, rfl, rfl, rfl⟩

theorem settings_markConnection (connectionState errorCode : String) (connection : Connection) :
    (markConnection connectionState errorCode connection).settings = connection.settings := by
  unfold markConnection
  split <;> rfl

theorem same_markConnections (state : State) (connectionState errorCode : String) :
    state.Same (markConnections state connectionState errorCode) := by
  refine ⟨rfl, rfl, rfl, rfl, ?_⟩
  simp [markConnections, settings_markConnection]

theorem settings_applied (state : State) (response : SyncResponse) (lease : Lease) :
    (state.applied response lease).cachedConnections.map Connection.settings =
      state.cachedConnections.map Connection.settings := by
  simp only [State.applied, List.map_map]
  rfl

/-- The configuration file of the cached connections. -/
def Renders (file : ConfigFile) (state : State) : Prop :=
  file.connections.map Connection.settings = state.cachedConnections.map Connection.settings

/-- The state and the computer after whatever was received has been applied. Before the
first `Apply` nothing runs; afterwards the newest file is that of the cached connections,
and only that is run. -/
structure Settled (state : State) (c : Computer) : Prop where
  versions : state.appliedConfigVersion = state.lastConfigVersion
  capability : state.syncCapabilityVersion < currentSyncCapabilityVersion →
    state.lastConfigVersion = 0
  named : ∀ m ∈ c.machine, ∀ name, m.supervisor.lastKnownGood = some name → name.isLkg = true
  idle : state.leaseExpiresAt = none → ∀ m ∈ c.machine,
    m.supervisor.leaseExpiry = none ∧ m.supervisor.process = none
  current : state.leaseExpiresAt.isSome = true → ∃ name file, newest c.files = some (name, file) ∧
    Renders file state ∧ ∀ m ∈ c.machine, m.supervisor.lastKnownGood = some name ∧
      ∀ process ∈ m.supervisor.process, process.file = some file

variable {c : Computer} {state : State} {m : Machine} {response : SyncResponse} {lease : Lease}
  {s : System} {e : SyncEnv}

theorem Settled.of_same {other : State} (h : Settled state c) (hsame : state.Same other) :
    Settled other c := by
  refine ⟨?_, ?_, h.named, ?_, ?_⟩
  · rw [hsame.applied, hsame.last, h.versions]
  · rw [hsame.capability, hsame.last]
    exact h.capability
  · rw [hsame.lease]
    exact h.idle
  · rw [hsame.lease]
    intro hlease
    obtain ⟨name, file, hnewest, hrenders, hmachine⟩ := h.current hlease
    exact ⟨name, file, hnewest, hrenders.trans hsame.connections.symm, hmachine⟩

theorem absent_machine (h : c.supervisor = none) : m ∉ c.machine := by
  simp [Computer.machine, h]

theorem Settled.leave (h : Settled state c) : Settled state { c with supervisor := none } := by
  have habsent : ∀ m, m ∉ ({ c with supervisor := none } : Computer).machine :=
    fun _ => absent_machine rfl
  refine ⟨h.versions, h.capability, fun m hm => absurd hm (habsent m),
    fun _ m hm => absurd hm (habsent m), ?_⟩
  intro hlease
  obtain ⟨name, file, hnewest, hrenders, -⟩ := h.current hlease
  exact ⟨name, file, hnewest, hrenders, fun m hm => absurd hm (habsent m)⟩

theorem Settled.kept {n : Machine} (h : Settled state c) (hm : c.machine = some m)
    (hkept : Kept m n) : Settled state (.ofMachine n) := by
  have hnamed := h.named m hm
  have hfiles : c.files = m.files := by
    unfold Computer.machine at hm
    obtain ⟨s, -, rfl⟩ := Option.map_eq_some_iff.mp hm
    rfl
  refine ⟨h.versions, h.capability, ?_, ?_, ?_⟩
  · intro n' hn'
    cases hn'
    rw [hkept.lastKnownGood]
    exact hnamed
  · intro hlease n' hn'
    cases hn'
    obtain ⟨hexpiry, hprocess⟩ := h.idle hlease m hm
    refine ⟨hkept.leaseExpiry.trans hexpiry, ?_⟩
    cases hnew : n.supervisor.process with
    | none => rfl
    | some process =>
      rcases hkept.process process hnew with hold | ⟨name, -, hsome, -⟩
      · rw [hprocess] at hold
        cases hold
      · rw [hexpiry] at hsome
        cases hsome
  · intro hlease
    obtain ⟨name, file, hnewest, hrenders, hmachine⟩ := h.current hlease
    obtain ⟨hlkg, hprocesses⟩ := hmachine m hm
    refine ⟨name, file, hkept.newest.trans (hfiles ▸ hnewest), hrenders, ?_⟩
    intro n' hn'
    cases hn'
    refine ⟨hkept.lastKnownGood.trans hlkg, ?_⟩
    intro process hprocess
    rcases hkept.process process hprocess with hold | ⟨other, hother, -, hfile⟩
    · exact hprocesses process hold
    · rw [hlkg] at hother
      cases hother
      rw [hfile, ← hfiles]
      exact (lookup_newest hnewest).2

/-- A promoted candidate of the cached connections settles the state. -/
theorem settled_promoted {file : ConfigFile} {n : Machine}
    (hlast : state.lastConfigVersion = response.targetConfigVersion)
    (hcapability : state.syncCapabilityVersion < currentSyncCapabilityVersion →
      state.lastConfigVersion = 0)
    (hfile : file.connections = state.cachedConnections)
    (h : Promoted response.targetConfigVersion lease file n) :
    Settled (state.applied response lease) (.ofMachine n) := by
  refine ⟨hlast.symm, hcapability, ?_, nofun, ?_⟩
  · intro m hm name hname
    cases hm
    rw [h.lastKnownGood] at hname
    cases hname
    rfl
  · intro _
    refine ⟨_, file, h.newest, ?_, ?_⟩
    · rw [Renders, settings_applied, hfile]
    · intro m hm
      cases hm
      exact ⟨h.lastKnownGood, h.process⟩

/-- After a synchronization without an error. -/
structure Synchronized (s : System) : Prop where
  versions : s.state.appliedConfigVersion = s.state.lastConfigVersion
  configuration : ∃ m name file, s.computer.machine = some m ∧
    m.supervisor.lastKnownGood = some name ∧ m.files.lookup name = some file ∧
    RenderedFrom file.text s.state.cachedConnections ∧
    ∀ process ∈ m.supervisor.process, process.file = some file

theorem Settled.synchronized (h : Settled s.state s.computer) (hm : s.computer.machine = some m)
    (hlease : s.state.leaseExpiresAt.isSome = true) : Synchronized s := by
  obtain ⟨name, file, hnewest, hrenders, hmachine⟩ := h.current hlease
  obtain ⟨hlkg, hprocess⟩ := hmachine m hm
  refine ⟨h.versions, m, name, file, hm, hlkg, ?_, file.renderedFrom hrenders, hprocess⟩
  have hfiles : m.files = s.computer.files := by
    obtain ⟨sup, -, rfl⟩ := Option.map_eq_some_iff.mp hm
    rfl
  rw [hfiles]
  exact (lookup_newest hnewest).2

/-- Every full configuration that is received is applied, and a client process starts from
what the one before it knew. -/
def Applies (p : Platform) (s : System) : Step → Prop
  | .start _ => s.state.Same s.saved
  | .synchronize e => ∀ m ∈ s.computer.machine, ∀ lease ∈ e.answer.lease,
      (s.server.sync s.state lease).fullSync = true →
      m.accepts p e.apply s.state.profile (s.server.sync s.state lease) = true
  | _ => True

instance (state other : State) : Decidable (state.Same other) :=
  decidable_of_iff (other.lastConfigVersion = state.lastConfigVersion ∧
    other.syncCapabilityVersion = state.syncCapabilityVersion ∧
    other.appliedConfigVersion = state.appliedConfigVersion ∧
    other.leaseExpiresAt = state.leaseExpiresAt ∧
    other.cachedConnections.map Connection.settings =
      state.cachedConnections.map Connection.settings)
    ⟨fun ⟨h₁, h₂, h₃, h₄, h₅⟩ => ⟨h₁, h₂, h₃, h₄, h₅⟩,
      fun ⟨h₁, h₂, h₃, h₄, h₅⟩ => ⟨h₁, h₂, h₃, h₄, h₅⟩⟩

instance (p : Platform) (s : System) : ∀ action, Decidable (Applies p s action)
  | .start _ => inferInstanceAs (Decidable (s.state.Same s.saved))
  | .synchronize e => inferInstanceAs (Decidable (∀ m ∈ s.computer.machine,
      ∀ lease ∈ e.answer.lease, (s.server.sync s.state lease).fullSync = true →
        m.accepts p e.apply s.state.profile (s.server.sync s.state lease) = true))
  | .configure _ _ | .tick _ _ _ | .exit _ | .stop _ => .isTrue trivial

@[simp] theorem save_state (s : System) (ok : Bool) : (s.save ok).state = s.state := by
  unfold System.save
  split <;> rfl

@[simp] theorem save_computer (s : System) (ok : Bool) : (s.save ok).computer = s.computer := by
  unfold System.save
  split <;> rfl

@[simp] theorem leave_state (s : System) : s.leave.state = s.state := rfl

/-- What one synchronization leaves: a settled state, which is synchronized when there was
no error. -/
structure Right (outcome : Option SyncError × System) : Prop where
  settled : Settled outcome.2.state outcome.2.computer
  synchronized : outcome.1 = none → Synchronized outcome.2

theorem Right.of_error {error : SyncError} (h : Settled s.state s.computer) :
    Right (some error, s) := ⟨h, nofun⟩

theorem Right.finish (h : Settled s.state s.computer) (hm : s.computer.machine = some m)
    (hlease : s.state.leaseExpiresAt.isSome = true) (e : SyncEnv) : Right (s.finish e) := by
  have hsaved : Settled (s.save e.saved).state (s.save e.saved).computer := by simpa using h
  refine ⟨hsaved, fun _ => hsaved.synchronized (m := m) ?_ ?_⟩
  · simpa [System.finish] using hm
  · simpa [System.finish] using hlease

/-- An `Apply` of the configuration that is already the current one. -/
theorem right_renewal (h : Settled s.state s.computer) (hm : s.computer.machine = some m)
    (hlast : s.state.lastConfigVersion = response.targetConfigVersion)
    (hconnections : response.connections = s.state.cachedConnections)
    (hlease : response.lease = some lease) : Right (s.applySync p m e response lease) := by
  have houtcome := apply_outcome (p := p) e.apply s.state.profile response (h.named m hm)
  unfold System.applySync
  generalize m.apply p e.apply s.state.profile response = outcome at houtcome
  cases houtcome with
  | kept error hkept =>
    refine .of_error ?_
    simp only [save_state, save_computer]
    exact (h.kept hm hkept).of_same ((same_report _ _ _).trans (same_markConnections _ _ _))
  | promoted hlease' hfile hpromoted =>
    cases hlease.symm.trans hlease'
    exact .finish (settled_promoted hlast h.capability (hfile.trans hconnections) hpromoted) rfl rfl e

theorem right_full (hnamed : ∀ name, m.supervisor.lastKnownGood = some name → name.isLkg = true)
    (hlast : s.state.lastConfigVersion = response.targetConfigVersion)
    (hcapability : s.state.syncCapabilityVersion = currentSyncCapabilityVersion)
    (hconnections : response.connections = s.state.cachedConnections)
    (hlease : response.lease = some lease)
    (haccepts : m.accepts p e.apply s.state.profile response = true) :
    Right (s.applySync p m e response lease) := by
  have houtcome := apply_outcome (p := p) e.apply s.state.profile response hnamed
  have hok := apply_of_accepts haccepts
  unfold System.applySync
  generalize m.apply p e.apply s.state.profile response = outcome at houtcome hok
  cases houtcome with
  | kept error hkept => cases hok
  | promoted hlease' hfile hpromoted =>
    cases hlease.symm.trans hlease'
    refine .finish (settled_promoted hlast ?_ (hfile.trans hconnections) hpromoted) rfl rfl e
    intro hless
    rw [hcapability] at hless
    exact absurd hless (lt_irrefl _)

theorem requested_eq_last (h : Settled state c) :
    state.syncRequestConfigVersion = state.lastConfigVersion := by
  unfold State.syncRequestConfigVersion
  split
  · next hless => exact (h.capability hless).symm
  · rfl

theorem right_synchronize (h : Settled s.state s.computer) (hm : s.computer.machine = some m)
    (happlies : Applies p s (.synchronize e)) : Right (s.synchronize p m e) := by
  unfold System.synchronize
  split
  · exact .of_error h
  · exact .of_error h
  · next lease hanswer =>
    have haccepts := happlies m hm lease (by rw [hanswer]; rfl)
    have hnamed := h.named m hm
    have hlease : (s.server.sync s.state lease).lease = lease := rfl
    have htarget : (s.server.sync s.state lease).targetConfigVersion = s.server.version := rfl
    have hnotfull : (s.server.sync s.state lease).fullSync = false →
        s.server.version = s.state.lastConfigVersion := by
      intro hfull
      have hrequested : s.state.syncRequestConfigVersion = s.server.version := by
        simpa [Server.sync] using hfull
      rw [← hrequested, requested_eq_last h]
    generalize s.server.sync s.state lease = response at *
    dsimp only
    cases hfull : response.fullSync with
    | true =>
      have haccepted := haccepts hfull
      have htaken : applyFullSyncState s.state response = { s.state with
          cachedConnections := response.connections
          lastConfigVersion := response.targetConfigVersion
          syncCapabilityVersion := currentSyncCapabilityVersion } := by
        simp [applyFullSyncState, hfull]
      simp only [Bool.true_or, if_true]
      split
      · -- an answer without a lease is not accepted
        simp [Machine.accepts, hlease] at haccepted
      · next lease =>
        have hcompleted :
            (complete response (applyFullSyncState s.state response)).lease = some lease := hlease
        refine right_full hnamed ?_ ?_ rfl hcompleted ?_
        · rw [htaken]
          rfl
        · rw [htaken]
          rfl
        · rw [htaken]
          exact haccepted
    | false =>
      have hkept : applyFullSyncState s.state response = s.state := by
        simp [applyFullSyncState, hfull]
      rw [hkept]
      simp only [Bool.false_or]
      split
      · split
        · exact .of_error h
        · exact right_renewal h hm ((hnotfull hfull).symm.trans htarget.symm) rfl hlease
      · next hneeds =>
        refine .finish h hm ?_ e
        cases hexpiry : s.state.leaseExpiresAt with
        | none => simp [needsLease, System.setState, hexpiry] at hneeds
        | some expiry => rfl

theorem settled_synchronizeAndReport (h : Settled s.state s.computer)
    (hm : s.computer.machine = some m) (happlies : Applies p s (.synchronize e)) :
    Settled (s.synchronizeAndReport p m e).state (s.synchronizeAndReport p m e).computer := by
  have hright := (right_synchronize h hm happlies).settled
  unfold System.synchronizeAndReport
  split
  · next t heq =>
    rw [heq] at hright
    exact hright
  · next t heq =>
    rw [heq] at hright
    refine Settled.leave (c := (System.save _ _).computer) ?_
    simp only [leave_state, save_state, save_computer]
    refine hright.of_same ?_
    dsimp only [System.setState]
    split
    · exact same_report _ _ _
    · exact (same_report _ _ _).trans (same_markConnections _ _ _)
  · next error t _ heq =>
    rw [heq] at hright
    simp only [save_state, save_computer]
    exact hright.of_same (same_report _ _ _)

theorem settled_tick (h : Settled s.state s.computer) (hm : s.computer.machine = some m)
    (e : TickEnv) (now : Nat) (saved : Bool) :
    Settled (s.tick p m e now saved).state (s.tick p m e now saved).computer := by
  have hkept := h.kept hm (.of_carried (m.carried_tick p e now))
  unfold System.tick
  dsimp only
  split
  · exact hkept
  · simp only [save_state, save_computer]
    refine hkept.of_same ?_
    dsimp only [System.setState]
    split
    · exact (same_report _ _ _).trans (same_markConnections _ _ _)
    · exact same_report _ _ _

theorem settled_new (h : Settled state c) {e : NewEnv}
    (hlease : e.leaseExpiry = state.leaseExpiresAt) (hnew : new p e c.files c.started = some m) :
    Settled state (.ofMachine m) := by
  obtain ⟨hlkg, hexpiry, hprocess, -, -, hfiles⟩ := new_spec hnew
  refine ⟨h.versions, h.capability, ?_, ?_, ?_⟩
  · intro n hn name hname
    cases hn
    obtain ⟨⟨other, file⟩, hfound, rfl⟩ := Option.map_eq_some_iff.mp (hlkg.symm.trans hname)
    exact (lookup_newest hfound).1
  · intro hnone n hn
    cases hn
    exact ⟨hexpiry.trans (hlease.trans hnone), hprocess⟩
  · intro hsome
    obtain ⟨name, file, hfound, hrenders, -⟩ := h.current hsome
    refine ⟨name, file, ?_, hrenders, ?_⟩
    · exact (hfiles ▸ newest_filter_found c.files).trans hfound
    intro n hn
    cases hn
    refine ⟨by rw [hlkg, hfound]; rfl, ?_⟩
    intro process hmem
    rw [hprocess] at hmem
    cases hmem

theorem settled_firstTick (h : Settled s.state (.ofMachine m)) (e : StartEnv) :
    Settled (s.firstTick p m e).state (s.firstTick p m e).computer := by
  unfold System.firstTick
  split
  · exact h
  · simp only [save_state, save_computer]
    have hkept := h.kept rfl (.of_carried (m.carried_tick p e.tick e.now))
    exact hkept.of_same (same_report _ _ _)

theorem settled_start (h : Settled s.state s.computer) (e : StartEnv)
    (hsaved : s.state.Same s.saved) : Settled (s.start p e).state (s.start p e).computer := by
  have hleft : Settled s.saved s.leave.computer := h.leave.of_same hsaved
  have hprofile : Settled { s.saved with profile := e.profile } s.leave.computer :=
    hleft.of_same ⟨rfl, rfl, rfl, rfl, rfl⟩
  unfold System.start
  dsimp only
  split
  · exact hleft
  · split
    · split
      · simp only [save_state, save_computer]
        exact hprofile.of_same (same_report _ _ _)
      · exact hprofile
    · split
      · exact hprofile
      · next m hnew => exact settled_firstTick (settled_new hprofile rfl hnew) e

theorem settled_step (h : Settled s.state s.computer) {action : Step}
    (happlies : Applies p s action) :
    Settled (s.step p action).state (s.step p action).computer := by
  cases action with
  | configure version connections => exact h
  | start e => exact settled_start h e happlies
  | synchronize e =>
    dsimp only [System.step]
    split
    · exact h
    · next m hm => exact settled_synchronizeAndReport h hm happlies
  | tick e now saved =>
    dsimp only [System.step]
    split
    · exact h
    · next m hm => exact settled_tick h hm e now saved
  | exit now =>
    dsimp only [System.step]
    split
    · exact h
    · next m hm => exact h.kept hm (.of_carried (m.carried_exit now))
  | stop saved =>
    dsimp only [System.step]
    split
    · exact h
    · refine Settled.leave (c := (System.save _ _).computer) ?_
      simp only [leave_state, save_state, save_computer]
      exact h.of_same (same_report _ _ _)

/-- A device that has just been enrolled, over whatever its runtime directory holds. -/
def System.enrolled (server : Server) (profile : Profile) (deviceId : String)
    (files : List (FileName × ConfigFile)) : System :=
  ⟨server, .enrolled profile deviceId, .enrolled profile deviceId, ⟨files, [], none⟩⟩

theorem settled_enrolled (server : Server) (profile : Profile) (deviceId : String)
    (files : List (FileName × ConfigFile)) :
    Settled (System.enrolled server profile deviceId files).state
      (System.enrolled server profile deviceId files).computer := by
  have habsent : ∀ m, m ∉ (System.enrolled server profile deviceId files).computer.machine :=
    fun _ => absent_machine rfl
  exact ⟨rfl, fun _ => rfl, fun m hm => absurd hm (habsent m), fun _ m hm => absurd hm (habsent m),
    nofun⟩

/-- A synchronization without an error leaves a synchronized system. -/
def SynchronizeRight (p : Platform) (s : System) : Step → Prop
  | .synchronize e => ∀ m ∈ s.computer.machine, (s.synchronize p m e).1 = none →
      Synchronized (s.synchronize p m e).2
  | _ => True

/-- In a run in which every full configuration that is received is applied and every client
process starts from what the one before it knew, a synchronization without an error leaves
the applied version equal to the last one, with a configuration of the cached connections. -/
theorem synchronize_settles (p : Platform) (server : Server) (profile : Profile)
    (deviceId : String) (files : List (FileName × ConfigFile)) (steps : List Step)
    (hsteps : Runs.Along (System.step p) (Applies p)
      (.enrolled server profile deviceId files) steps) :
    Runs.Along (System.step p) (SynchronizeRight p)
      (.enrolled server profile deviceId files) steps := by
  refine Runs.along_of_invariant (q := fun s => Settled s.state s.computer)
    (fun s action h happlies => settled_step h happlies) ?_
    (settled_enrolled server profile deviceId files) hsteps
  intro s action h happlies
  cases action with
  | synchronize e => exact fun m hm => (right_synchronize h hm happlies).synchronized
  | configure version connections | start e | tick e now saved | exit now | stop saved => trivial

def sampleSystem : System :=
  .enrolled ⟨1, [sampleConnection 10001]⟩ sampleProfile "d" []

def sampleStart : Step :=
  .start ⟨sampleProfile, true, true, false, "runtime", true, true,
    ⟨none, none, 0⟩, 0, true⟩

/-- A synchronization in which everything works but, perhaps, the first three seconds. -/
def sampleSync (startup : Startup) : SyncEnv where
  initial := false
  answer := .answered (some ⟨"lease", 60 * minute⟩)
  now := 0
  apply := sampleApply startup
  errorText := ""
  saved := true
  reportSaved := true

def sampleUpdate (startup : Startup) : List Step :=
  [sampleStart, .synchronize (sampleSync .healthy), .configure 2 [sampleConnection 10002],
    .synchronize (sampleSync startup)]

/-- After an update that was applied, the next synchronization is right about it. -/
theorem sampleUpdate_settles :
    Runs.Along (System.step samplePlatform) (SynchronizeRight samplePlatform) sampleSystem
      (sampleUpdate .healthy) := by
  refine synchronize_settles samplePlatform _ _ _ _ _ ?_
  decide +kernel

/-- What a synchronization returns, with the applied and the last version it leaves. -/
def versionsAfter (p : Platform) (s : System) (e : SyncEnv) :
    Option (Option SyncError × Int × Int) :=
  s.computer.machine.map fun m =>
    let (error, s) := s.synchronize p m e
    (error, s.state.appliedConfigVersion, s.state.lastConfigVersion)

theorem not_right_of_versionsAfter {a b : Int} (h : versionsAfter p s e = some (none, a, b))
    (hne : a ≠ b) : ¬ SynchronizeRight p s (.synchronize e) := by
  intro hright
  obtain ⟨m, hm, heq⟩ := Option.map_eq_some_iff.mp h
  simp only [Prod.mk.injEq] at heq
  obtain ⟨herror, happlied, hlast⟩ := heq
  exact hne (happlied.symm.trans ((hright m hm herror).versions.trans hlast))

/-- After an update that was not applied, the next synchronization returns without an error
while version 1 is applied and version 2 is the last one. -/
theorem failed_update_forgotten :
    ¬ SynchronizeRight samplePlatform
      ((sampleUpdate .exited).foldl (System.step samplePlatform) sampleSystem)
      (.synchronize (sampleSync .healthy)) :=
  not_right_of_versionsAfter (a := 1) (b := 2) (by decide +kernel) (by decide)

/-! ## The lease that is enforced -/

/-- The supervisor runs its last known good file, under the lease that the client knows. -/
def Leased (s : System) : Prop :=
  ∀ m ∈ s.computer.machine, m.Sound ∧ m.supervisor.leaseExpiry = s.state.leaseExpiresAt

theorem leased_absent (h : s.computer.supervisor = none) : Leased s :=
  fun _ hm => absurd hm (absent_machine h)

theorem leased_ofMachine (h : s.computer = .ofMachine m) (hsound : m.Sound)
    (hlease : m.supervisor.leaseExpiry = s.state.leaseExpiresAt) : Leased s := by
  intro n hn
  rw [h] at hn
  cases hn
  exact ⟨hsound, hlease⟩

@[simp] theorem leased_save (ok : Bool) : Leased (s.save ok) ↔ Leased s := by
  simp [Leased]

theorem Leased.setMachine {n : Machine} (h : Leased s) (hm : s.computer.machine = some m)
    (hkept : Kept m n) : Leased (s.setMachine n) := by
  obtain ⟨hsound, hlease⟩ := h m hm
  exact leased_ofMachine rfl (hkept.sound hsound) (hkept.leaseExpiry.trans hlease)

theorem Leased.applySync (h : Leased s) (hm : s.computer.machine = some m)
    (hlease : response.lease = some lease) : Leased (s.applySync p m e response lease).2 := by
  have hsound := (h m hm).1
  have houtcome := apply_outcome (p := p) e.apply s.state.profile response hsound.named
  have hnew := houtcome.sound hsound
  unfold System.applySync
  generalize m.apply p e.apply s.state.profile response = outcome at houtcome hnew
  cases houtcome with
  | kept error hkept => exact (leased_save _).mpr (h.setMachine hm hkept)
  | promoted hlease' hfile hpromoted =>
    cases hlease.symm.trans hlease'
    exact (leased_save _).mpr (leased_ofMachine rfl hnew hpromoted.leaseExpiry)

theorem Leased.synchronize (h : Leased s) (hm : s.computer.machine = some m) :
    Leased (s.synchronize p m e).2 := by
  have htaken : ∀ response, Leased (s.setState (applyFullSyncState s.state response)) := by
    intro response
    unfold applyFullSyncState
    split <;> exact h
  unfold System.synchronize
  split
  · exact h
  · exact h
  · dsimp only
    split
    · split
      · exact htaken _
      · exact (htaken _).applySync hm rfl
    · exact (leased_save _).mpr (htaken _)

theorem Leased.synchronizeAndReport (h : Leased s) (hm : s.computer.machine = some m) :
    Leased (s.synchronizeAndReport p m e) := by
  have hsync := h.synchronize (p := p) (e := e) hm
  unfold System.synchronizeAndReport
  split
  · next t heq =>
    rw [heq] at hsync
    exact hsync
  · exact leased_absent rfl
  · next error t _ heq =>
    rw [heq] at hsync
    exact (leased_save _).mpr hsync

theorem Leased.tick (h : Leased s) (hm : s.computer.machine = some m) (e : TickEnv) (now : Nat)
    (saved : Bool) : Leased (s.tick p m e now saved) := by
  have hnext := h.setMachine hm (.of_carried (m.carried_tick p e now))
  unfold System.tick
  dsimp only
  split
  · exact hnext
  · rw [leased_save]
    split <;> exact hnext

theorem leased_start (s : System) (e : StartEnv) : Leased (s.start p e) := by
  unfold System.start
  dsimp only
  split
  · exact leased_absent rfl
  · split
    · split
      · exact (leased_save _).mpr (leased_absent rfl)
      · exact leased_absent rfl
    · split
      · exact leased_absent rfl
      · next m hnew =>
        have hsound := sound_new hnew
        have hlease := (new_spec hnew).2.1
        unfold System.firstTick
        split
        · exact leased_ofMachine rfl hsound hlease
        · have hkept := Kept.of_carried (m.carried_tick p e.tick e.now)
          rw [leased_save]
          exact leased_ofMachine rfl (hkept.sound hsound) (hkept.leaseExpiry.trans hlease)

theorem leased_step (action : Step) (h : Leased s) : Leased (s.step p action) := by
  cases action with
  | configure version connections => exact h
  | start e => exact leased_start s e
  | synchronize e =>
    dsimp only [System.step]
    split
    · exact h
    · next m hm => exact h.synchronizeAndReport hm
  | tick e now saved =>
    dsimp only [System.step]
    split
    · exact h
    · next m hm => exact h.tick hm e now saved
  | exit now =>
    dsimp only [System.step]
    split
    · exact h
    · next m hm => exact h.setMachine hm (.of_carried (m.carried_exit now))
  | stop saved =>
    dsimp only [System.step]
    split
    · exact h
    · exact leased_absent rfl

/-- Whatever fails and however often the client starts again, its supervisor stops and renews
by the lease that the client's state has, and runs its last known good file. -/
theorem known_lease_enforced (p : Platform) (server : Server) (saved state : State)
    (files : List (FileName × ConfigFile)) (started : List Process) (steps : List Step) :
    Runs.Always (System.step p) Leased ⟨server, saved, state, ⟨files, started, none⟩⟩ steps :=
  Runs.always_of_step (fun _ action h => leased_step action h) (leased_absent rfl)

end HomeTunnel.App
