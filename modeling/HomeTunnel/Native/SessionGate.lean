import HomeTunnel.Native.Protocol

/-! # The session gate

`SessionGate` decides whether a message of the controller may reach the
operating system's input queue. A `Session` is a gate together with the trace
of everything that happened to it: calls, results, calls of the input sink and
entries into `releaseInputs`. The sink is an arbitrary function of that trace,
so it may fail at any call and for any reason.
-/

namespace HomeTunnel.Remote

inductive GateResult
  | ok | closed | expired | identity | path | state | permission | replay | malformed | backend
deriving DecidableEq, Repr

inductive Candidate
  | host | serverReflexive | peerReflexive | relay | unknown
deriving DecidableEq, Repr

structure SelectedPair where
  transport : String
  localCandidate : Candidate
  remoteCandidate : Candidate
  nominated : Bool
  succeeded : Bool
  revision : UInt64
deriving DecidableEq, Repr

structure VerifiedLease where
  connectionEpoch : UInt32
  sequence : UInt64
  permissions : UInt64
  issuedAtUnixMs : Int
  expiresAtUnixMs : Int
deriving DecidableEq, Repr

structure SessionGate where
  closed : Bool := true
  authenticated : Bool := false
  pathVerified : Bool := false
  firstFrame : Bool := false
  inputEnabled : Bool := false
  epoch : UInt32 := 0
  inputEpoch : UInt32 := 0
  layoutEpoch : UInt32 := 0
  inputSequence : UInt32 := 0
  motionSequence : UInt32 := 0
  motionId : UInt32 := 0
  leaseSequence : UInt64 := 0
  permissions : UInt64 := 0
  deadline : UInt64 := 0
  lastNow : UInt64 := 0
  heartbeatAt : UInt64 := 0
  heartbeatVersion : UInt64 := 0
  pairRevision : UInt64 := 0
  pressedKeys : Std.ExtTreeSet UInt16 := ∅
  pressedButtons : Std.ExtTreeSet UInt8 := ∅
  /-- Submission id, its text and whether the sink has taken it. -/
  textIds : Std.ExtTreeMap Bytes (Bytes × Bool) := ∅
  displaySlot : UInt16 := 0

namespace SessionGate

def mediaAllowed (g : SessionGate) : Bool := !g.closed && g.authenticated && g.pathVerified

def inputAllowed (g : SessionGate) : Bool := g.mediaAllowed && g.firstFrame && g.inputEnabled

def inputReleasesPending (g : SessionGate) : Bool :=
  !g.pressedKeys.isEmpty || !g.pressedButtons.isEmpty

/-- The steady-clock deadline of a lease that passes every check, else `none`
(`GateResult.identity` in the source). -/
def leaseDeadline (lease : VerifiedLease) (wall : Int) (now : UInt64) : Option UInt64 :=
  if lease.connectionEpoch = 0 ∨ lease.sequence = 0 ∨ lease.permissions = 0 ∨
      lease.permissions &&& ~~~Protocol.allPermissions ≠ 0 ∨
      lease.permissions &&& Protocol.permissionView = 0 ∨ lease.issuedAtUnixMs < 0 ∨
      lease.issuedAtUnixMs > wall ∨ lease.expiresAtUnixMs ≤ wall ∨
      lease.expiresAtUnixMs ≤ lease.issuedAtUnixMs ∨
      lease.expiresAtUnixMs - lease.issuedAtUnixMs > 900000 then none
  else
    let remaining := UInt64.ofNat (lease.expiresAtUnixMs - wall).toNat
    if remaining > 0xffffffffffffffff - now then none else some (now + remaining)

end SessionGate

/-! ## The sink and the trace -/

inductive SinkCall
  | key (usage : UInt16) (down isRepeat : Bool)
  | button (button : UInt8) (down : Bool)
  | pointer (displaySlot x y : UInt16)
  | wheel (dx dy : Int32)
  | text (content : Bytes)
deriving DecidableEq, Repr

inductive GateOp
  | authorize (lease : VerifiedLease) (wall : Int) (now : UInt64)
  | renew (lease : VerifiedLease) (wall : Int) (now : UInt64)
  | tick (now : UInt64)
  | peerAuthenticated (epoch : UInt32) (now : UInt64)
  | selectedPair (epoch : UInt32) (pair : SelectedPair) (now : UInt64)
  | firstFrame (epoch : UInt32) (now : UInt64)
  | synchronizeInput (epoch inputEpoch layout : UInt32) (now : UInt64) (displaySlot : UInt16)
  | heartbeat (epoch inputEpoch : UInt32) (version now : UInt64)
  | acceptKey (bytes : Bytes) (now : UInt64)
  | acceptButton (bytes : Bytes) (now : UInt64)
  | acceptPointer (bytes : Bytes) (now : UInt64)
  | acceptWheel (bytes : Bytes) (now : UInt64)
  | acceptText (bytes : Bytes) (now : UInt64)
  | pause
  | releaseControl
  | reconnect (epoch : UInt32) (now : UInt64)
  | close
deriving DecidableEq, Repr

/-- The clock value a call carries. -/
def GateOp.clock? : GateOp → Option UInt64
  | authorize _ _ now | renew _ _ now | tick now | peerAuthenticated _ now
  | selectedPair _ _ now | firstFrame _ now | synchronizeInput _ _ _ now _
  | heartbeat _ _ _ now | acceptKey _ now | acceptButton _ now | acceptPointer _ now
  | acceptWheel _ now | acceptText _ now | reconnect _ now => some now
  | pause | releaseControl | close => none

/-- `returned` carries no result for the functions that return `void`. -/
inductive GateEvent
  | called (op : GateOp)
  | released
  | sink (call : SinkCall) (ok : Bool)
  | returned (op : GateOp) (result : Option GateResult)
deriving DecidableEq, Repr

abbrev InputSink := List GateEvent → SinkCall → Bool

structure Session where
  gate : SessionGate := {}
  trace : List GateEvent := []

namespace Session

def mark (s : Session) (event : GateEvent) : Session := { s with trace := event :: s.trace }

def modify (s : Session) (f : SessionGate → SessionGate) : Session := { s with gate := f s.gate }

section Operations

variable (sink : InputSink)

def invoke (s : Session) (call : SinkCall) : Bool × Session :=
  let ok := sink s.trace call
  (ok, s.mark (.sink call ok))

def releaseKey (s : Session) (usage : UInt16) : Session :=
  let (ok, s) := s.invoke sink (.key usage false false)
  if ok then s.modify fun g => { g with pressedKeys := g.pressedKeys.erase usage } else s

def releaseButton (s : Session) (button : UInt8) : Session :=
  let (ok, s) := s.invoke sink (.button button false)
  if ok then s.modify fun g => { g with pressedButtons := g.pressedButtons.erase button } else s

/-- Both loops visit the elements in ascending order and erase the current one
when its release succeeds. -/
def releaseInputs (s : Session) : Session :=
  let s := s.mark .released
  let s := s.gate.pressedKeys.toList.foldl (releaseKey sink) s
  let s := s.gate.pressedButtons.toList.foldl (releaseButton sink) s
  s.modify fun g => { g with inputEnabled := false }

def pause (s : Session) : Session :=
  (releaseInputs sink s).modify fun g => { g with firstFrame := false, pathVerified := false }

def close (s : Session) : Session :=
  (pause sink s).modify fun g => { g with closed := true, authenticated := false }

/-- The watchdog margin: the wire bound less two heartbeat intervals. -/
def watchdogMs : UInt64 := Protocol.inputWatchdogMs - 2 * Protocol.inputHeartbeatMs

def tick (now : UInt64) (s : Session) : GateResult × Session :=
  if s.gate.closed then
    (.closed, if s.gate.inputReleasesPending then releaseInputs sink s else s)
  else if now < s.gate.lastNow ∨ now ≥ s.gate.deadline then (.expired, close sink s)
  else
    let s := s.modify fun g => { g with lastNow := now }
    if s.gate.inputEnabled ∧ now - s.gate.heartbeatAt ≥ watchdogMs then
      (.ok, releaseInputs sink s)
    else if ¬ s.gate.inputEnabled ∧ s.gate.inputReleasesPending then (.ok, releaseInputs sink s)
    else (.ok, s)

/-- The opening of every timed operation: `tick`, and the rest only if it was `ok`. -/
def afterTick (now : UInt64) (rest : Session → GateResult × Session) (s : Session) :
    GateResult × Session :=
  match tick sink now s with
  | (.ok, s) => rest s
  | (result, s) => (result, s)

/-! ## Authorization and path -/

def authorize (lease : VerifiedLease) (wall : Int) (now : UInt64) (s : Session) :
    GateResult × Session :=
  if ¬ s.gate.closed ∨ s.gate.epoch ≠ 0 then (.state, s)
  else
    match SessionGate.leaseDeadline lease wall now with
    | none => (.identity, s)
    | some deadline =>
      (.ok, s.modify fun g =>
        { g with
          epoch := lease.connectionEpoch
          leaseSequence := lease.sequence
          permissions := lease.permissions
          deadline := deadline
          lastNow := now
          closed := false })

def renewBody (lease : VerifiedLease) (wall : Int) (now : UInt64) (s : Session) :
    GateResult × Session :=
  if lease.connectionEpoch ≠ s.gate.epoch ∨ lease.sequence ≤ s.gate.leaseSequence ∨
      lease.permissions &&& ~~~s.gate.permissions ≠ 0 then (.identity, s)
  else
    match SessionGate.leaseDeadline lease wall now with
    | none => (.identity, s)
    | some deadline =>
      let s := if lease.permissions ≠ s.gate.permissions then releaseInputs sink s else s
      (.ok, s.modify fun g =>
        { g with
          permissions := lease.permissions
          leaseSequence := lease.sequence
          deadline := deadline })

def peerAuthenticatedBody (epoch : UInt32) (s : Session) : GateResult × Session :=
  if epoch ≠ s.gate.epoch then (.identity, s)
  else (.ok, s.modify fun g => { g with authenticated := true })

def direct : Candidate → Bool
  | .host | .serverReflexive | .peerReflexive => true
  | .relay | .unknown => false

def pairAccepted (pair : SelectedPair) : Bool :=
  pair.transport == "udp" && pair.nominated && pair.succeeded &&
    direct pair.localCandidate && direct pair.remoteCandidate

def selectedPairBody (epoch : UInt32) (pair : SelectedPair) (s : Session) :
    GateResult × Session :=
  if epoch ≠ s.gate.epoch ∨ pair.revision ≤ s.gate.pairRevision then (.replay, s)
  else
    let s := s.modify fun g => { g with pairRevision := pair.revision }
    -- A new selected pair closes the sensitive gates before it is checked.
    let s := (releaseInputs sink s).modify fun g =>
      { g with firstFrame := false, pathVerified := false }
    if !pairAccepted pair then (.path, s)
    else (.ok, s.modify fun g => { g with pathVerified := true })

def firstFrameBody (epoch : UInt32) (s : Session) : GateResult × Session :=
  if epoch ≠ s.gate.epoch ∨ ¬ s.gate.mediaAllowed then (.state, s)
  else (.ok, s.modify fun g => { g with firstFrame := true })

def reconnectBody (epoch : UInt32) (s : Session) : GateResult × Session :=
  if epoch ≤ s.gate.epoch then (.replay, s)
  else
    (.ok, (pause sink s).modify fun g =>
      { g with
        epoch := epoch
        authenticated := false
        pairRevision := 0
        inputSequence := 0
        motionSequence := 0
        motionId := 0 })

def synchronizeInputBody (epoch inputEpoch layout : UInt32) (now : UInt64) (displaySlot : UInt16)
    (s : Session) : GateResult × Session :=
  if epoch ≠ s.gate.epoch ∨ ¬ s.gate.mediaAllowed ∨ ¬ s.gate.firstFrame ∨ inputEpoch = 0 ∨
      inputEpoch ≤ s.gate.inputEpoch ∨ layout = 0 ∨ layout < s.gate.layoutEpoch ∨
      displaySlot ≥ 16 then (.state, s)
  else
    let s := releaseInputs sink s
    if s.gate.inputReleasesPending then (.backend, s)
    else
      (.ok, s.modify fun g =>
        { g with
          inputEpoch := inputEpoch
          layoutEpoch := layout
          displaySlot := displaySlot
          heartbeatVersion := 0
          motionId := 0
          heartbeatAt := now
          inputEnabled := true })

def heartbeatBody (epoch inputEpoch : UInt32) (version now : UInt64) (s : Session) :
    GateResult × Session :=
  if epoch ≠ s.gate.epoch ∨ inputEpoch ≠ s.gate.inputEpoch ∨ ¬ s.gate.inputAllowed ∨
      version ≤ s.gate.heartbeatVersion then (.replay, s)
  else (.ok, s.modify fun g => { g with heartbeatVersion := version, heartbeatAt := now })

/-- The checks all five `accept` operations open with: input allowed, permission
held, frame well formed and of the expected type. -/
def acceptFrame (permission : UInt64) (channel : Channel) (type : UInt8) (bytes : Bytes)
    (s : Session) (body : Frame → GateResult × Session) : GateResult × Session :=
  if ¬ s.gate.inputAllowed then (.state, s)
  else if s.gate.permissions &&& permission = 0 then (.permission, s)
  else
    match parseFrame bytes channel s.gate.epoch with
    | .error _ => (.malformed, s)
    | .ok frame => if frame.type ≠ type then (.malformed, s) else body frame

/-- A refused sink call gives up every pressed input. -/
def giveUp (s : Session) : GateResult × Session := (.backend, releaseInputs sink s)

def acceptKeyFrame (s : Session) (frame : Frame) : GateResult × Session :=
  if frame.inputEpoch ≠ s.gate.inputEpoch ∨ frame.sequence ≤ s.gate.inputSequence then
    (.replay, s)
  else
    let usage := readU16 frame.payload 2
    if usage < 4 ∨ usage > 231 then (.malformed, s)
    else
      let down := byteAt frame.payload 4 == 1
      let isRepeat := byteAt frame.payload 5 == 1
      let pressed := s.gate.pressedKeys.contains usage
      if (isRepeat ∧ ¬ pressed) ∨ (down ∧ pressed ∧ ¬ isRepeat) then (.state, s)
      else if ¬ down ∧ ¬ pressed then
        (.ok, s.modify fun g => { g with inputSequence := frame.sequence })
      else
        match s.invoke sink (.key usage down isRepeat) with
        | (false, s) => giveUp sink s
        | (true, s) =>
          (.ok, s.modify fun g =>
            { g with
              inputSequence := frame.sequence
              pressedKeys :=
                if down then g.pressedKeys.insert usage else g.pressedKeys.erase usage })

def acceptButtonFrame (s : Session) (frame : Frame) : GateResult × Session :=
  if frame.inputEpoch ≠ s.gate.inputEpoch ∨ frame.sequence ≤ s.gate.inputSequence then
    (.replay, s)
  else if readU32 frame.payload 0 ≠ s.gate.layoutEpoch ∨
      readU16 frame.payload 4 ≠ s.gate.displaySlot then (.state, s)
  else if frame.flags ≠ 0 then (.backend, s)
  else
    let button := byteAt frame.payload 10
    let down := byteAt frame.payload 11 == 1
    let pressed := s.gate.pressedButtons.contains button
    if down ∧ pressed then (.state, s)
    else if ¬ down ∧ ¬ pressed then
      (.ok, s.modify fun g => { g with inputSequence := frame.sequence })
    else
      match s.invoke sink
          (.pointer s.gate.displaySlot (readU16 frame.payload 6) (readU16 frame.payload 8)) with
      | (false, s) => giveUp sink s
      | (true, s) =>
        match s.invoke sink (.button button down) with
        | (false, s) => giveUp sink s
        | (true, s) =>
          (.ok, s.modify fun g =>
            { g with
              inputSequence := frame.sequence
              pressedButtons :=
                if down then g.pressedButtons.insert button else g.pressedButtons.erase button
              motionId := max g.motionId (readU32 frame.payload 12) })

def acceptPointerFrame (s : Session) (frame : Frame) : GateResult × Session :=
  let motion := readU32 frame.payload 12
  if frame.inputEpoch ≠ s.gate.inputEpoch ∨ frame.sequence ≤ s.gate.motionSequence ∨ motion = 0 ∨
      motion ≤ s.gate.motionId then (.replay, s)
  else if readU32 frame.payload 0 ≠ s.gate.layoutEpoch ∨
      readU16 frame.payload 4 ≠ s.gate.displaySlot then (.state, s)
  else
    match s.invoke sink
        (.pointer s.gate.displaySlot (readU16 frame.payload 6) (readU16 frame.payload 8)) with
    | (false, s) => giveUp sink s
    | (true, s) =>
      (.ok, s.modify fun g => { g with motionSequence := frame.sequence, motionId := motion })

def acceptWheelFrame (s : Session) (frame : Frame) : GateResult × Session :=
  if frame.inputEpoch ≠ s.gate.inputEpoch ∨ frame.sequence ≤ s.gate.inputSequence then
    (.replay, s)
  else if readU32 frame.payload 0 ≠ s.gate.layoutEpoch ∨
      readU16 frame.payload 4 ≠ s.gate.displaySlot then (.state, s)
  else
    let dx := (readU32 frame.payload 12).toInt32
    let dy := (readU32 frame.payload 16).toInt32
    if dx < -12000 ∨ dx > 12000 ∨ dy < -12000 ∨ dy > 12000 then (.malformed, s)
    else
      match s.invoke sink
          (.pointer s.gate.displaySlot (readU16 frame.payload 6) (readU16 frame.payload 8)) with
      | (false, s) => giveUp sink s
      | (true, s) =>
        match s.invoke sink (.wheel dx dy) with
        | (false, s) => giveUp sink s
        | (true, s) =>
          (.ok, s.modify fun g =>
            { g with
              inputSequence := frame.sequence
              motionId := max g.motionId (readU32 frame.payload 20) })

def acceptTextFrame (s : Session) (frame : Frame) : GateResult × Session :=
  if frame.payload.length = 20 then (.malformed, s)
  else if frame.inputEpoch ≠ s.gate.inputEpoch ∨ frame.sequence ≤ s.gate.inputSequence then
    (.replay, s)
  else
    let id := frame.payload.take 16
    if id.all (· == 0) then (.malformed, s)
    else
      let text := frame.payload.drop 20
      match s.gate.textIds[id]? with
      | some (prior, taken) =>
        if prior ≠ text then (.malformed, s)
        else
          (if taken then .replay else .backend,
            s.modify fun g => { g with inputSequence := frame.sequence })
      | none =>
        if s.gate.textIds.size ≥ 1024 then (.state, s)
        else
          -- Reserved before injection: a partial backend failure must never replay text.
          let s := s.modify fun g =>
            { g with
              textIds := g.textIds.insert id (text, false)
              inputSequence := frame.sequence }
          match s.invoke sink (.text text) with
          | (false, s) => giveUp sink s
          | (true, s) =>
            (.ok, s.modify fun g => { g with textIds := g.textIds.insert id (text, true) })

def perform (op : GateOp) (s : Session) : Option GateResult × Session :=
  let timed (now : UInt64) (body : Session → GateResult × Session) :
      Option GateResult × Session :=
    let (result, s) := afterTick sink now body s
    (some result, s)
  match op with
  | .authorize lease wall now =>
    let (result, s) := authorize lease wall now s
    (some result, s)
  | .renew lease wall now => timed now (renewBody sink lease wall now)
  | .tick now =>
    let (result, s) := tick sink now s
    (some result, s)
  | .peerAuthenticated epoch now => timed now (peerAuthenticatedBody epoch)
  | .selectedPair epoch pair now => timed now (selectedPairBody sink epoch pair)
  | .firstFrame epoch now => timed now (firstFrameBody epoch)
  | .synchronizeInput epoch inputEpoch layout now displaySlot =>
    timed now (synchronizeInputBody sink epoch inputEpoch layout now displaySlot)
  | .heartbeat epoch inputEpoch version now =>
    timed now (heartbeatBody epoch inputEpoch version now)
  | .acceptKey bytes now => timed now fun s =>
    acceptFrame Protocol.permissionInputKeyboard .input Protocol.key bytes s
      (acceptKeyFrame sink s)
  | .acceptButton bytes now => timed now fun s =>
    acceptFrame Protocol.permissionInputPointer .input Protocol.button bytes s
      (acceptButtonFrame sink s)
  | .acceptPointer bytes now => timed now fun s =>
    acceptFrame Protocol.permissionInputPointer .motion Protocol.pointerAbs bytes s
      (acceptPointerFrame sink s)
  | .acceptWheel bytes now => timed now fun s =>
    acceptFrame Protocol.permissionInputPointer .input Protocol.wheel bytes s
      (acceptWheelFrame sink s)
  | .acceptText bytes now => timed now fun s =>
    acceptFrame Protocol.permissionInputText .input Protocol.textCommit bytes s
      (acceptTextFrame sink s)
  | .pause => (none, pause sink s)
  | .releaseControl => (none, releaseInputs sink s)
  | .reconnect epoch now => timed now (reconnectBody sink epoch)
  | .close => (none, close sink s)

def step (s : Session) (op : GateOp) : Session :=
  let (result, s) := perform sink op (s.mark (.called op))
  s.mark (.returned op result)

def run (ops : List GateOp) : Session := ops.foldl (step sink) {}

end Operations

end Session

end HomeTunnel.Remote
