import HomeTunnel.Agent.Supervisor

/-! # The client's synchronize loop

`Run` as steps of one system: the control center, the state file, the client's
state in memory and the computer with its supervisor. What the network, the file
system and the agent do comes with each step. The control center answers with a
full configuration exactly when the version asked for is not its own.
-/

namespace HomeTunnel.App

open HomeTunnel.Agent

def currentSyncCapabilityVersion : Int := 1

/-- The fields of the state file that the loop reads or writes. -/
structure State where
  profile : Profile
  deviceId : String
  lastConfigVersion : Int
  syncCapabilityVersion : Int
  appliedConfigVersion : Int
  cachedConnections : List Connection
  leaseExpiresAt : Option Nat
  agentState : String
  agentMessage : String
deriving DecidableEq, Repr

/-- What `Enroll` saves. -/
def State.enrolled (profile : Profile) (deviceId : String) : State where
  profile := profile
  deviceId := deviceId
  lastConfigVersion := 0
  syncCapabilityVersion := 0
  appliedConfigVersion := 0
  cachedConnections := []
  leaseExpiresAt := none
  agentState := "Offline"
  agentMessage := "enrolled; waiting for the service to start"

def State.syncRequestConfigVersion (state : State) : Int :=
  if state.syncCapabilityVersion < currentSyncCapabilityVersion then 0
  else state.lastConfigVersion

def State.report (state : State) (agentState agentMessage : String) : State :=
  { state with agentState := agentState, agentMessage := agentMessage }

def applyFullSyncState (state : State) (response : SyncResponse) : State :=
  if response.fullSync then
    { state with
      cachedConnections := response.connections
      lastConfigVersion := response.targetConfigVersion
      syncCapabilityVersion := currentSyncCapabilityVersion }
  else state

def markConnection (connectionState errorCode : String) (connection : Connection) : Connection :=
  if connection.enabled then
    { connection with
      state := connectionState, lastErrorCode := errorCode
      lastErrorSummary := "managed Linux agent is not online" }
  else { connection with state := "Disabled" }

def markConnections (state : State) (connectionState errorCode : String) : State :=
  { state with
    cachedConnections := state.cachedConnections.map (markConnection connectionState errorCode) }

/-- A connection of a configuration that has been applied. -/
def onlineConnection (connection : Connection) : Connection :=
  { connection with
    appliedVersion := connection.version, lastErrorCode := "", lastErrorSummary := ""
    state := if connection.enabled then "Online" else "Disabled" }

/-- What a successful `Apply` does to the state. -/
def State.applied (state : State) (response : SyncResponse) (lease : Lease) : State :=
  { state with
    appliedConfigVersion := response.targetConfigVersion
    leaseExpiresAt := some lease.expiresAt
    agentState := "Online"
    agentMessage :=
      toString (response.connections.countP (·.enabled)) ++ " active connection(s)"
    cachedConnections := state.cachedConnections.map onlineConnection }

structure Server where
  version : Int
  connections : List Connection
deriving DecidableEq, Repr

def Server.sync (server : Server) (state : State) (lease : Option Lease) : SyncResponse :=
  let full := decide (state.syncRequestConfigVersion ≠ server.version)
  { deviceId := state.deviceId
    fullSync := full
    targetConfigVersion := server.version
    connections := if full then server.connections else []
    lease := lease }

/-- The client runs while its computer has a supervisor. -/
structure System where
  server : Server
  saved : State
  state : State
  computer : Computer

/-- A save of the state in memory, which may fail. -/
def System.save (s : System) (ok : Bool) : System :=
  if ok then { s with saved := s.state } else s

def System.setState (s : System) (state : State) : System := { s with state := state }

def System.setMachine (s : System) (m : Machine) : System :=
  { s with computer := .ofMachine m }

/-- `Run` returns: its supervisor is stopped and gone. -/
def System.leave (s : System) : System :=
  { s with computer := { s.computer with supervisor := none } }

/-! ## `synchronize` -/

inductive Answer
  | answered (lease : Option Lease)
  | failed
  | revoked
deriving DecidableEq, Repr

/-- The lease of an answer, or that it had none. -/
def Answer.lease : Answer → Option (Option Lease)
  | .answered lease => some lease
  | .failed | .revoked => none

/-- What happens around one synchronization, the first one after a start or a later one;
`errorText` is what an error says. -/
structure SyncEnv where
  initial : Bool
  answer : Answer
  now : Nat
  apply : ApplyEnv
  errorText : String
  saved : Bool
  reportSaved : Bool
deriving DecidableEq, Repr

inductive SyncError
  | revoked | sync | withoutLease
  | apply (error : ApplyError)
  | save
deriving DecidableEq, Repr

def needsLease (m : Machine) (state : State) (now : Nat) : Bool :=
  m.supervisor.process.isNone ||
    match state.leaseExpiresAt with
    | none => true
    | some expiry => decide (expiry < now + 15 * minute)

/-- The end of `synchronize`: the state is saved, and only that may still fail. -/
def System.finish (s : System) (e : SyncEnv) : Option SyncError × System :=
  (if e.saved then none else some .save, s.save e.saved)

/-- The response with the cached connections in place of its own. -/
def complete (response : SyncResponse) (state : State) : SyncResponse :=
  { response with connections := state.cachedConnections }

/-- `Apply` within `synchronize`, on a state that has taken a full configuration in. -/
def System.applySync (p : Platform) (s : System) (m : Machine) (e : SyncEnv)
    (response : SyncResponse) (lease : Lease) : Option SyncError × System :=
  match m.apply p e.apply s.state.profile response with
  | (some error, m) =>
    let state := markConnections (s.state.report "Error" e.errorText) "Error" "AGENT_APPLY_FAILED"
    (some (.apply error), ((s.setState state).setMachine m).save e.saved)
  | (none, m) => ((s.setState (s.state.applied response lease)).setMachine m).finish e

def System.synchronize (p : Platform) (s : System) (m : Machine) (e : SyncEnv) :
    Option SyncError × System :=
  match e.answer with
  | .revoked => (some .revoked, s)
  | .failed => (some .sync, s)
  | .answered lease =>
    let response := s.server.sync s.state lease
    let s := s.setState (applyFullSyncState s.state response)
    if response.fullSync || needsLease m s.state e.now then
      match lease with
      | none => (some .withoutLease, s)
      | some lease => s.applySync p m e (complete response s.state) lease
    else s.finish e

/-- `synchronizeAndReport`, and the handling of the first synchronization: a revoked device
ends `Run`, other errors are only reported. -/
def System.synchronizeAndReport (p : Platform) (s : System) (m : Machine) (e : SyncEnv) : System :=
  match s.synchronize p m e with
  | (none, s) => s
  | (some .revoked, s) =>
    let state := s.state.report "Revoked" "account or device was revoked"
    let state := if e.initial then state else markConnections state "Offline" "DEVICE_REVOKED"
    ((s.setState state).save e.reportSaved).leave
  | (some _, s) =>
    let message := if e.initial then "initial synchronization failed: "
      else "synchronization failed; current lease remains active: "
    (s.setState (s.state.report "Degraded" (message ++ e.errorText))).save e.reportSaved

/-! ## The other steps of `Run` -/

/-- What happens around a start of the client: discovery, the device login, `New` and the
first `Tick`. -/
structure StartEnv where
  profile : Profile
  discovered : Bool
  authenticated : Bool
  rejected : Bool
  runtimeDir : String
  prepared : Bool
  caWritten : Bool
  tick : TickEnv
  now : Nat
  saved : Bool

/-- The first `Tick`, which only a state with a lease gets. -/
def System.firstTick (p : Platform) (s : System) (m : Machine) (e : StartEnv) : System :=
  match s.state.leaseExpiresAt with
  | none => s.setMachine m
  | some _ =>
    let ((status, message), m) := m.tick p e.tick e.now
    ((s.setState (s.state.report status message)).setMachine m).save e.saved

/-- Another client process starts from the state file. -/
def System.start (p : Platform) (s : System) (e : StartEnv) : System :=
  let s := s.leave
  if !e.discovered then s.setState s.saved
  else
    let s := s.setState { s.saved with profile := e.profile }
    if !e.authenticated then
      if e.rejected then
        (s.setState (s.state.report "Revoked"
          "device authentication was rejected; enroll again after administrator review")).save e.saved
      else s
    else
      match new p ⟨e.runtimeDir, e.profile, s.state.leaseExpiresAt, some s.state.cachedConnections,
        e.prepared, e.caWritten⟩ s.computer.files s.computer.started with
      | none => s
      | some m => s.firstTick p m e

/-- A tick of the supervisor; the state is saved when its report changes. -/
def System.tick (p : Platform) (s : System) (m : Machine) (e : TickEnv) (now : Nat)
    (saved : Bool) : System :=
  let ((status, message), m) := m.tick p e now
  let s := s.setMachine m
  if status = s.state.agentState ∧ message = s.state.agentMessage then s
  else
    let state := s.state.report status message
    let state := if status = "ExpiredStop" ∨ status = "Error" ∨ status = "RepairRequired" then
        markConnections state "Offline" status.toUpper
      else state
    (s.setState state).save saved

inductive Step
  | configure (version : Int) (connections : List Connection)
  | start (e : StartEnv)
  | synchronize (e : SyncEnv)
  | tick (e : TickEnv) (now : Nat) (saved : Bool)
  | exit (now : Nat)
  | stop (saved : Bool)

/-- The steps of a running client need its supervisor. -/
def System.step (p : Platform) (s : System) : Step → System
  | .configure version connections => { s with server := ⟨version, connections⟩ }
  | .start e => s.start p e
  | .synchronize e =>
    match s.computer.machine with
    | none => s
    | some m => s.synchronizeAndReport p m e
  | .tick e now saved =>
    match s.computer.machine with
    | none => s
    | some m => s.tick p m e now saved
  | .exit now =>
    match s.computer.machine with
    | none => s
    | some m => s.setMachine (m.exit now)
  | .stop saved =>
    match s.computer.machine with
    | none => s
    | some _ => ((s.setState (s.state.report "Offline" "service stopped")).save saved).leave

end HomeTunnel.App
