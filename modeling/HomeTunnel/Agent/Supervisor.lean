import HomeTunnel.Agent.Config

/-! # The agent supervisor

`New`, `Apply`, `Tick`, `Stop` and the exit of the agent process. What the
operating system answers (whether a file could be written, the agent verified,
a process started and so on) comes with each operation; the runtime directory
and the record of every process started are part of the state. Times are in
milliseconds.
-/

namespace HomeTunnel.Agent

def minute : Nat := 60000

def restartFailureLimit : Nat := 5

def restartCooldown : Nat := 10 * minute

/-- The configuration files of the runtime directory. -/
inductive FileName
  | pending (number : Nat)
  | lkg (version : Int)
deriving DecidableEq, Repr

def FileName.text : FileName → String
  | .pending number => "pending-" ++ toString number ++ ".toml"
  | .lkg version => "lkg-" ++ toString version ++ ".toml"

def FileName.isLkg : FileName → Bool
  | .pending _ => false
  | .lkg _ => true

/-- An agent process: its command line, the lists that went into it, and the configuration
file as it was when the process started. -/
structure Process where
  arguments : List String
  allowed : AllowLists
  config : FileName
  file : Option ConfigFile

structure Supervisor where
  runtimeDir : String
  profile : Profile
  trustedCaPath : String := ""
  tlsCaSha256 : String := ""
  allowed : AllowLists := .empty
  process : Option Process := none
  applying : Bool := false
  lastKnownGood : Option FileName := none
  leaseExpiry : Option Nat := none
  restartFailures : Nat := 0
  nextRestart : Option Nat := none
  restartGaveUpAt : Option Nat := none

/-- A supervisor with its runtime directory, newest file first, and the processes it has
started, newest first. -/
structure Machine where
  files : List (FileName × ConfigFile)
  started : List Process
  supervisor : Supervisor

namespace Machine

def allow (m : Machine) (allowed : AllowLists) : Machine :=
  { m with supervisor := { m.supervisor with allowed := allowed } }

/-- A temporary name that is not taken. -/
def freshPending (m : Machine) : FileName :=
  .pending (m.files.foldl (fun next file =>
    match file.1 with
    | .pending number => max next (number + 1)
    | .lkg _ => next) 0)

def writePending (m : Machine) (name : FileName) (file : ConfigFile) : Machine :=
  { m with files := (name, file) :: m.files }

def secureDelete (m : Machine) (name : FileName) : Machine :=
  { m with files := m.files.filter (·.1 ≠ name) }

/-- `os.Rename` onto a name that may be taken; the file keeps its time, which is the newest. -/
def rename (m : Machine) (old new : FileName) : Machine :=
  match m.files.lookup old with
  | none => m
  | some file => { m with files := (new, file) :: m.files.filter fun f => f.1 ≠ old ∧ f.1 ≠ new }

def trustCa (m : Machine) (path digest : String) : Machine :=
  { m with supervisor := { m.supervisor with trustedCaPath := path, tlsCaSha256 := digest } }

def syncTrustedCa (p : Platform) (m : Machine) (written : Bool) : Option Machine :=
  let pem := m.supervisor.profile.frpsTlsCertificatePem
  if trimSpace pem = "" then
    some (m.trustCa "" "")
  else if written then
    some (m.trustCa (m.supervisor.runtimeDir ++ "/frps-ca.pem") (p.sha256Hex pem))
  else none

def stopProcess (m : Machine) : Machine :=
  { m with supervisor := { m.supervisor with process := none, applying := false } }

def recordRestartFailure (m : Machine) (now : Nat) : Machine :=
  let failures := m.supervisor.restartFailures + 1
  { m with supervisor := { m.supervisor with
    restartFailures := failures
    nextRestart := some (now + 2 ^ min failures 5 * 1000) } }

/-- The process ends by itself. Only an exit outside of `Apply` counts as a failure. -/
def exit (m : Machine) (now : Nat) : Machine :=
  match m.supervisor.process with
  | none => m
  | some _ => if m.supervisor.applying then m.stopProcess else m.stopProcess.recordRestartFailure now

end Machine

def Supervisor.arguments (s : Supervisor) (command : String) (config : FileName) : List String :=
  Agent.arguments s.profile s.tlsCaSha256 s.allowed command (s.runtimeDir ++ "/" ++ config.text)

namespace Machine

/-! ## Starting a process -/

/-- The process that `start` would launch now. -/
def launch (m : Machine) (config : FileName) : Process where
  arguments := m.supervisor.arguments "run" config
  allowed := m.supervisor.allowed
  config := config
  file := m.files.lookup config

/-- `start`, with whether it succeeded. A process launched beside a running one is killed
at once. -/
def start (m : Machine) (launched : Bool) (config : FileName) (applying : Bool) :
    Bool × Machine :=
  if !launched then (false, m)
  else
    let process := m.launch config
    let m := { m with started := process :: m.started }
    match m.supervisor.process with
    | some _ => (false, m)
    | none =>
      (true, { m with supervisor := { m.supervisor with
        process := some process, applying := applying } })

/-- Whether `restore` gets as far as starting the configuration again. -/
def restorable (m : Machine) (now : Nat) (config : Option FileName) (lease : Option Nat) : Bool :=
  match config, lease with
  | some config, some lease => decide (now + minute ≤ lease) && (m.files.lookup config).isSome
  | _, _ => false

def restore (m : Machine) (now : Nat) (launched : Bool) (config : Option FileName)
    (lease : Option Nat) : Machine :=
  match config with
  | none => m
  | some name =>
    if !m.restorable now config lease then m
    else
      let (ok, m) := m.start launched name false
      if !ok then m
      else { m with supervisor := { m.supervisor with
        lastKnownGood := some name, leaseExpiry := lease } }

end Machine

/-! ## `Apply` -/

/-- How the three seconds after the start end. -/
inductive Startup
  | exited | healthy | cancelled
deriving DecidableEq, Repr

/-- What the system answers during one `Apply`. -/
structure ApplyEnv where
  now : Nat
  inspected : Bool
  caWritten : Bool
  pendingWritten : Bool
  verified : Bool
  launched : Bool
  startup : Startup
  renamed : Bool
  -- whether the process is still there when `Apply` returns
  alive : Bool
  -- the clock and the start that `restore` sees
  restoreAt : Nat
  relaunched : Bool
deriving DecidableEq, Repr

inductive ApplyError
  | noLease | leaseTooClose | inspectAgent | trustedCa
  | render (error : RenderError)
  | writePending | rejected | start | exitedDuringStartup | cancelled | promote
deriving DecidableEq, Repr

namespace Machine

/-- The end of a successful `Apply`. -/
def promoted (m : Machine) (e : ApplyEnv) (lease : Lease) (pending lkg : FileName)
    (previous : Option FileName) : Machine :=
  let m := m.rename pending lkg
  let m := match previous with
    | some name => if name = lkg then m else m.secureDelete name
    | none => m
  { m with supervisor := { m.supervisor with
    lastKnownGood := some lkg, leaseExpiry := some lease.expiresAt, restartFailures := 0
    nextRestart := none, restartGaveUpAt := none, applying := false
    process := if e.alive then m.supervisor.process else none } }

/-- From the verification to the promotion of the candidate, with the fall back to the
previous configuration. -/
def switch (m : Machine) (e : ApplyEnv) (version : Int) (lease : Lease) (pending : FileName) :
    Option ApplyError × Machine :=
  if !e.verified then (some .rejected, m)
  else
    let config := m.supervisor.lastKnownGood
    let expiry := m.supervisor.leaseExpiry
    let (ok, m) := m.stopProcess.start e.launched pending true
    if !ok then (some .start, m.restore e.restoreAt e.relaunched config expiry)
    else
      match e.startup with
      | .exited =>
        (some .exitedDuringStartup,
          (m.exit e.now).restore e.restoreAt e.relaunched config expiry)
      | .cancelled =>
        (some .cancelled, m.stopProcess.restore e.restoreAt e.relaunched config expiry)
      | .healthy =>
        if !e.renamed then
          (some .promote, m.stopProcess.restore e.restoreAt e.relaunched config expiry)
        else (none, m.promoted e lease pending (.lkg version) config)

/-- The deferred functions of `Apply`: after a failure, and after whatever `switch` has
restored, the candidate's file and its allow-lists are taken back. -/
def takeBack (previous : AllowLists) (pending : FileName) :
    Option ApplyError × Machine → Option ApplyError × Machine
  | (none, m) => (none, m)
  | (some error, m) => (some error, (m.secureDelete pending).allow previous)

/-- The candidate is tried under its own allow-lists. -/
def applyFile (p : Platform) (m : Machine) (e : ApplyEnv) (response : SyncResponse)
    (lease : Lease) (file : ConfigFile) : Option ApplyError × Machine :=
  let previous := m.supervisor.allowed
  let m := m.allow (collect p.toLower response.connections)
  if !e.pendingWritten then (some .writePending, m.allow previous)
  else
    let pending := m.freshPending
    takeBack previous pending
      ((m.writePending pending file).switch e response.targetConfigVersion lease pending)

def apply (p : Platform) (m : Machine) (e : ApplyEnv) (profile : Profile)
    (response : SyncResponse) : Option ApplyError × Machine :=
  match response.lease with
  | none => (some .noLease, m)
  | some lease =>
    if lease.expiresAt < e.now + minute then (some .leaseTooClose, m.stopProcess)
    else if !e.inspected then (some .inspectAgent, m)
    else
      match m.syncTrustedCa p e.caWritten with
      | none => (some .trustedCa, m)
      | some m =>
        match ConfigFile.render profile response m.supervisor.trustedCaPath with
        | .error error => (some (.render error), m)
        | .ok file => m.applyFile p e response lease file

end Machine

/-! ## `Tick` -/

/-- What the system answers during one `Tick`; an answer that is a failure has a text. -/
structure TickEnv where
  inspectError : Option String
  startError : Option String
  failedAt : Nat
deriving DecidableEq, Repr

namespace Machine

/-- The cooldown after too many failures: the time it ends when it still runs. -/
def cooldown (m : Machine) (now : Nat) : Option Nat × Machine :=
  if m.supervisor.restartFailures ≤ restartFailureLimit then (none, m)
  else
    let gaveUpAt := m.supervisor.restartGaveUpAt.getD now
    let ends := gaveUpAt + restartCooldown
    if now < ends then
      (some ends, { m with supervisor := { m.supervisor with restartGaveUpAt := some gaveUpAt } })
    else
      (none, { m with supervisor := { m.supervisor with
        restartFailures := 0, nextRestart := none, restartGaveUpAt := none } })

def restart (m : Machine) (e : TickEnv) (lkg : FileName) : (String × String) × Machine :=
  match e.inspectError with
  | some error => (("RepairRequired", error), m)
  | none =>
    let (ok, m) := m.start e.startError.isNone lkg false
    if ok then (("Online", "agent restarted"), m)
    else
      (("Degraded", "agent restart failed: " ++ e.startError.getD "agent process is already running"),
        m.recordRestartFailure e.failedAt)

/-- A restart after the cooldown, at the time that was read before the cooldown cleared it. -/
def restartDue (p : Platform) (m : Machine) (e : TickEnv) (now : Nat) (lkg : FileName)
    (nextRestart : Option Nat) : (String × String) × Machine :=
  match nextRestart with
  | none => m.restart e lkg
  | some next =>
    if now < next then (("Degraded", "agent restart scheduled for " ++ p.rfc3339 next), m)
    else m.restart e lkg

def restartCooled (p : Platform) (m : Machine) (e : TickEnv) (now : Nat) (lkg : FileName) :
    (String × String) × Machine :=
  let nextRestart := m.supervisor.nextRestart
  let (ends, m) := m.cooldown now
  match ends with
  | none => m.restartDue p e now lkg nextRestart
  | some ends =>
    (("Error", "agent exceeded the automatic restart limit; retrying after " ++
      p.rfc3339 ends), m)

def tick (p : Platform) (m : Machine) (e : TickEnv) (now : Nat) : (String × String) × Machine :=
  match m.supervisor.leaseExpiry with
  | some expiry =>
    if expiry ≤ now then (("ExpiredStop", "lease expired; agent stopped"), m.stopProcess)
    else if m.supervisor.process.isSome then (("Online", "agent is running"), m)
    else
      match m.supervisor.lastKnownGood with
      | none => (("Offline", "agent has no applied configuration"), m)
      | some lkg => m.restartCooled p e now lkg
  | none =>
    if m.supervisor.process.isSome then (("Online", "agent is running"), m)
    else (("Offline", "agent has no applied configuration"), m)

end Machine

/-! ## `New` -/

/-- What `New` is given and how the directory and the certificate file answer. -/
structure NewEnv where
  runtimeDir : String
  profile : Profile
  leaseExpiry : Option Nat
  connections : Option (List Connection)
  prepared : Bool
  caWritten : Bool

/-- The newest last-known-good file. -/
def newest (files : List (FileName × ConfigFile)) : Option (FileName × ConfigFile) :=
  files.find? (·.1.isLkg)

/-- The lists that `New` starts with. -/
def NewEnv.allowed (p : Platform) (e : NewEnv) : AllowLists :=
  match e.connections with
  | none => .empty
  | some connections => collect p.toLower connections

/-- `New` on a runtime directory; the older last-known-good files are deleted. -/
def new (p : Platform) (e : NewEnv) (files : List (FileName × ConfigFile))
    (started : List Process) : Option Machine :=
  let supervisor : Supervisor := { runtimeDir := e.runtimeDir, profile := e.profile }
  if !e.prepared then none
  else
    match Machine.syncTrustedCa p ⟨files, started, supervisor⟩ e.caWritten with
    | none => none
    | some m =>
      let found := (newest files).map (·.1)
      some { m with
        files := files.filter fun file => !file.1.isLkg || found == some file.1
        supervisor := { m.supervisor with
          leaseExpiry := e.leaseExpiry, allowed := e.allowed p, lastKnownGood := found } }

/-- A computer on which one client process after the other makes a supervisor over the same
runtime directory. -/
structure Computer where
  files : List (FileName × ConfigFile)
  started : List Process
  supervisor : Option Supervisor

def Computer.ofMachine (m : Machine) : Computer := ⟨m.files, m.started, some m.supervisor⟩

/-- The computer with its supervisor, when there is one. -/
def Computer.machine (c : Computer) : Option Machine :=
  c.supervisor.map fun s => ⟨c.files, c.started, s⟩

/-- What can happen to a supervisor that exists. -/
inductive Call
  | apply (e : ApplyEnv) (profile : Profile) (response : SyncResponse)
  | tick (e : TickEnv) (now : Nat)
  | exit (now : Nat)
  | stop

inductive Op
  | new (e : NewEnv)
  | call (call : Call)

def Machine.perform (p : Platform) (m : Machine) : Call → Machine
  | .apply e profile response => (m.apply p e profile response).2
  | .tick e now => (m.tick p e now).2
  | .exit now => m.exit now
  | .stop => m.stopProcess

/-- `New` gives no supervisor when it fails; nothing is called on one that is not there. -/
def Computer.step (p : Platform) (c : Computer) : Op → Computer
  | .new e =>
    match new p e c.files c.started with
    | none => { c with supervisor := none }
    | some m => .ofMachine m
  | .call call =>
    match c.machine with
    | none => c
    | some m => .ofMachine (m.perform p call)

/-- A TCP connection that the agent accepts. -/
def sampleConnection (remotePort : Int) : Connection where
  id := "c"
  subdomain := ""
  proxyType := .tcp
  remotePort := remotePort
  customDomains := []
  localScheme := ""
  localHost := "127.0.0.1"
  localPort := 22
  enabled := true
  version := 1
  proxyName := "ssh"
  state := ""
  appliedVersion := 0
  lastErrorCode := ""
  lastErrorSummary := ""

def samplePlatform : Platform := ⟨id, id, fun _ => ""⟩

def sampleProfile : Profile := ⟨"frps", 7000, "tunnel", ""⟩

/-- Everything works but, perhaps, the first three seconds. -/
def sampleApply (startup : Startup) : ApplyEnv where
  now := 0
  inspected := true
  caWritten := true
  pendingWritten := true
  verified := true
  launched := true
  startup := startup
  renamed := true
  alive := true
  restoreAt := 0
  relaunched := true

end HomeTunnel.Agent
