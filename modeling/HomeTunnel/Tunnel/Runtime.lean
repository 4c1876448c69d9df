import HomeTunnel.Lib.Runs

/-! # The local tunnel runtime

`command`, `stop_all` and the threads that run `execute`. A step is one section under the
lock of the controller, one check of the permission, or one call to the system. What a check
reads of the settings and what the system answers are inputs of the step; a helper may exit
at any time. The serial number is a natural number, `terminate` kills at once.
-/

namespace HomeTunnel.Tunnel

structure Request where
  action : String
  owner : String
  origin : String
  userId : String
  permission : String
  name : String
  registration : String
  serial : Nat
deriving DecidableEq, Repr

structure View where
  owner : String
  phase : String
  code : String
  deviceId : String
  agentState : String
  installId : String
  fingerprintHash : String
deriving DecidableEq, Repr

structure Controller where
  view : View
  serial : Nat
  stoppedOwners : List String
  -- the thread whose helper is registered
  job : Option Nat
deriving DecidableEq, Repr

/-- What the checks read of the configuration. -/
structure Settings where
  allowed : Bool
  permission : String
  origin : String
deriving DecidableEq, Repr

/-- A line that the helper prints. -/
structure Line where
  phase : Option String
  code : Option String
  deviceId : Option String
  agentState : Option String
  installId : Option String
  fingerprintHash : Option String
deriving DecidableEq, Repr

/-- What is taken from other libraries. -/
structure Library where
  readRequest : String → Option Request
  readLine : String → Option Line
  -- `normalize_portal_origin` gives the origin back unchanged
  normalOrigin : String → Bool

/-- What `update` is called with. -/
structure Report where
  phase : String
  code : String
  device : String
  state : String
deriving DecidableEq, Repr

/-- Where a thread stands in `execute`, and in the handler of its error. -/
inductive Pc
  | unborn
  | paths
  | checkFirst
  | spawn
  | makeJob
  | checkSecond
  | register
  | checkThird
  | latch
  | reading
  | updating (report : Report)
  | waiting
  | completing (success : Bool)
  | failing (code : String)
  | reporting (code : String)
  | finished
deriving DecidableEq, Repr

/-- A request that was admitted, with its helper. -/
structure Thread where
  request : Request
  pc : Pc
  alive : Bool
  latched : Bool
deriving DecidableEq, Repr

inductive Event
  | admitted (i : Nat) (owner : String)
  | stopped (owner : String)
  | stoppedAll (owner : String)
deriving DecidableEq, Repr

structure Runtime where
  controller : Controller
  threads : Nat → Thread
  next : Nat
  -- the newest first
  log : List Event

/-- One step of a thread, with what it reads and what the system answers. -/
inductive ThreadStep
  | paths (result : Except String Unit)
  | check (seen : Settings)
  | spawn (ok : Bool)
  | makeJob (ok : Bool)
  | register
  -- whether the helper gets the latch, and whether all writes succeed
  | latch (received ok : Bool)
  | line (text : Option String)
  | update (seen : Settings)
  | endOfOutput
  | wait (success : Option Bool)
  | complete (seen : Settings)
  | fail

inductive Action
  | command (value : String) (seen : Settings)
  | stopAll
  | thread (i : Nat) (step : ThreadStep)
  | exit (i : Nat)

def isHex (c : Char) : Bool := c.isDigit || ('a' ≤ c && c ≤ 'f') || ('A' ≤ c && c ≤ 'F')

def validOwner (value : String) : Bool := value.utf8ByteSize = 32 && value.toList.all isHex

def validUser (value : String) : Bool :=
  value.utf8ByteSize = 36 && value.toList.zipIdx.all fun entry =>
    if [8, 13, 18, 23].contains entry.2 then entry.1 = '-' else isHex entry.1

def isControl (c : Char) : Bool := c.toNat < 32 || (127 ≤ c.toNat && c.toNat < 160)

namespace Runtime

variable (lib : Library)

def allowed (seen : Settings) (request : Request) : Bool :=
  validOwner request.owner && validUser request.userId && seen.allowed &&
    request.permission ≠ "" && request.permission = seen.permission &&
    lib.normalOrigin request.origin && seen.origin = request.origin

def setThread (s : Runtime) (i : Nat) (thread : Thread) : Runtime :=
  { s with threads := Function.update s.threads i thread }

def move (s : Runtime) (i : Nat) (pc : Pc) : Runtime := s.setThread i { s.threads i with pc := pc }

def terminate (s : Runtime) (i : Nat) : Runtime :=
  s.setThread i { s.threads i with alive := false }

/-- The registered helper is taken out and killed. -/
def takeJob (s : Runtime) : Runtime :=
  match s.controller.job with
  | none => s
  | some i => { s.terminate i with controller := { s.controller with job := none } }

/-- The view and the serial number are those of the request. -/
def owns (s : Runtime) (request : Request) : Bool :=
  s.controller.view.owner = request.owner && s.controller.serial = request.serial

/-- The phase is `stopped`, the serial number goes up and there is no owner. -/
def endView (s : Runtime) : Runtime :=
  { s with controller := { s.controller with
    view := { s.controller.view with phase := "stopped", owner := "" }
    serial := s.controller.serial + 1 } }

def stopAll (s : Runtime) : Runtime :=
  let owner := s.controller.view.owner
  let marked := if owner = "" then s
    else { s with controller := { s.controller with
      stoppedOwners := owner :: s.controller.stoppedOwners } }
  { marked.takeJob.endView with log := .stoppedAll owner :: s.log }

def stop (s : Runtime) (owner : String) : Runtime :=
  let marked := { s with controller := { s.controller with
    stoppedOwners := owner :: s.controller.stoppedOwners } }
  let ended := if marked.controller.view.owner = owner then marked.takeJob.endView else marked
  { ended with log := .stopped owner :: s.log }

def workingView (owner : String) : View := ⟨owner, "working", "", "", "", "", ""⟩

/-- The section of `command` that admits a request and starts its thread. -/
def letIn (s : Runtime) (request : Request) : Runtime :=
  if s.controller.stoppedOwners.contains request.owner then s
  else
    let taken := s.takeJob
    let serial := taken.controller.serial + 1
    { taken with
      controller := { taken.controller with
        view := workingView request.owner
        serial := serial }
      threads := Function.update taken.threads s.next
        ⟨{ request with serial := serial }, .paths, false, false⟩
      next := s.next + 1
      log := .admitted s.next request.owner :: s.log }

def wellFormed (request : Request) : Bool :=
  request.name.length ≤ 120 && !request.name.toList.any isControl &&
    (request.action ≠ "register" || (32 ≤ request.registration.utf8ByteSize &&
      request.registration.utf8ByteSize ≤ 4096 && !request.registration.toList.any isControl))

def command (s : Runtime) (value : String) (seen : Settings) : Runtime :=
  if 8192 < value.utf8ByteSize then s
  else
    match lib.readRequest value with
    | none => s
    | some request =>
      if !validOwner request.owner then s
      else if request.action = "stop" then s.stop request.owner
      else if !(["inspect", "register", "run"].contains request.action) ||
          !allowed lib seen request || !wellFormed request then s
      else s.letIn request

def update (s : Runtime) (seen : Settings) (request : Request) (report : Report) : Runtime :=
  if !allowed lib seen request || !s.owns request then s
  else
    { s with controller := { s.controller with
      view := { s.controller.view with
        phase := report.phase
        code := report.code
        deviceId := if validUser report.device then report.device
          else s.controller.view.deviceId
        agentState := report.state } } }

/-- A check of the permission: the thread goes on, or kills its helper and returns. -/
def check (s : Runtime) (i : Nat) (seen : Settings) : Runtime :=
  let request := (s.threads i).request
  match (s.threads i).pc with
  | .checkFirst =>
    if allowed lib seen request then s.move i .spawn else s.move i (.failing "PERMISSION_CHANGED")
  | .checkSecond =>
    if allowed lib seen request then s.move i .register else (s.terminate i).move i .finished
  | .checkThird =>
    if allowed lib seen request then s.move i .latch else (s.terminate i).move i .finished
  | _ => s

/-- A line of the helper's output, or an error in reading it. -/
def readLine (s : Runtime) (i : Nat) : Option String → Runtime
  | none => s.move i (.failing "RUNTIME_FAILED")
  | some text =>
    if 8192 < text.utf8ByteSize then (s.terminate i).move i (.failing "RUNTIME_FAILED")
    else
      match lib.readLine text with
      | none => s
      | some line =>
        let phase := line.phase.getD "error"
        if !(["registered", "needs_registration", "running", "error"].contains phase) then s
        else
          let report : Report := ⟨phase, line.code.getD "RUNTIME_FAILED",
            line.deviceId.getD "", line.agentState.getD ""⟩
          if phase = "needs_registration" && s.owns (s.threads i).request then
            { s with controller := { s.controller with
              view := { s.controller.view with
                installId := line.installId.getD ""
                fingerprintHash := line.fingerprintHash.getD "" } } }.move i (.updating report)
          else s.move i (.updating report)

/-- The end of `execute`, when the helper has exited. -/
def complete (s : Runtime) (i : Nat) (success : Bool) (seen : Settings) : Runtime :=
  let request := (s.threads i).request
  if !allowed lib seen request || !s.owns request then s.move i .finished
  else
    let view := s.controller.view
    let phased :=
      if request.action = "run" && view.phase = "running" then
        { view with phase := "error", code := "AGENT_STOPPED" }
      else if !success && view.phase = "working" then
        { view with phase := "error", code := "RUNTIME_FAILED" }
      else view
    { s with controller := { s.controller with job := none, view := phased } }.move i .finished

def threadStep (s : Runtime) (i : Nat) (step : ThreadStep) : Runtime :=
  let thread := s.threads i
  match thread.pc, step with
  | .paths, .paths (.ok _) => s.move i .checkFirst
  | .paths, .paths (.error code) => s.move i (.failing code)
  | .checkFirst, .check seen => s.check lib i seen
  | .spawn, .spawn true => s.setThread i { thread with pc := .makeJob, alive := true }
  | .spawn, .spawn false => s.move i (.failing "START_FAILED")
  | .makeJob, .makeJob true => s.move i .checkSecond
  | .makeJob, .makeJob false => (s.terminate i).move i (.failing "JOB_FAILED")
  | .checkSecond, .check seen => s.check lib i seen
  | .register, .register =>
    if s.owns thread.request then
      { s with controller := { s.controller with job := some i } }.move i .checkThird
    else (s.terminate i).move i .finished
  | .checkThird, .check seen => s.check lib i seen
  | .latch, .latch received ok =>
    s.setThread i { thread with
      latched := thread.latched || (received && thread.alive)
      pc := if ok then .reading else .failing "START_FAILED" }
  | .reading, .line text => s.readLine lib i text
  | .updating report, .update seen => (s.update lib seen thread.request report).move i .reading
  | .reading, .endOfOutput => s.move i .waiting
  | .waiting, .wait (some success) => if thread.alive then s else s.move i (.completing success)
  | .waiting, .wait none => s.move i (.failing "RUNTIME_FAILED")
  | .completing success, .complete seen => s.complete lib i success seen
  | .failing code, .fail =>
    (if s.owns thread.request then s.takeJob else s).move i (.reporting code)
  | .reporting code, .update seen =>
    (s.update lib seen thread.request ⟨"error", code, "", ""⟩).move i .finished
  | _, _ => s

def step (s : Runtime) : Action → Runtime
  | .command value seen => s.command lib value seen
  | .stopAll => s.stopAll
  | .thread i step => s.threadStep lib i step
  | .exit i => s.terminate i

/-- No request yet. -/
def fresh : Runtime where
  controller := ⟨⟨"", "stopped", "", "", "", "", ""⟩, 0, [], none⟩
  threads := fun _ => ⟨⟨"", "", "", "", "", "", "", 0⟩, .unborn, false, false⟩
  next := 0
  log := []

end Runtime

end HomeTunnel.Tunnel
