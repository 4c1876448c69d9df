import HomeTunnel.Native.Protocol
import HomeTunnel.Lib.Json

/-! # Features on the side of the Android controller

System audio, the two clipboard directions and the two file directions are switched on
and off during a session. The controller asks with `FEATURE_REQUEST` frames and hears of
the outcome in `FEATURE_STATE` frames, both on the ordered control channel. A wish that
the user takes back is forgotten at once.

What the audio device, the file engine and the renderer answer during a call comes with
the call. The channel takes every frame while there are sequence numbers left.
-/

namespace HomeTunnel.Remote.Features

inductive Feature
  | audioSystem
  | clipboardRead
  | clipboardWrite
  | filesSend
  | filesReceive
deriving DecidableEq, Repr

namespace Feature

def name : Feature → String
  | audioSystem => "audio.system"
  | clipboardRead => "clipboard.read"
  | clipboardWrite => "clipboard.write"
  | filesSend => "files.send"
  | filesReceive => "files.receive"

def bit : Feature → UInt64
  | audioSystem => Protocol.permissionAudioSystem
  | clipboardRead => Protocol.permissionClipboardRead
  | clipboardWrite => Protocol.permissionClipboardWrite
  | filesSend => Protocol.permissionFilesSend
  | filesReceive => Protocol.permissionFilesReceive

instance : Fintype Feature where
  elems := {audioSystem, clipboardRead, clipboardWrite, filesSend, filesReceive}
  complete feature := by cases feature <;> simp

theorem name_injective : Function.Injective name := by
  intro feature other h
  cases feature <;> cases other <;> first | rfl | simp [name] at h

end Feature

/-- The body of a `FEATURE_REQUEST`. -/
def requestBody (permission : String) (enabled : Bool) : Json :=
  .obj [("enabled", .bool enabled), ("permission", .str permission)]

/-- The body of a `FEATURE_STATE`. -/
def stateBody (permission : String) (enabled : Bool) (errorCode : Option String) : Json :=
  .obj (("enabled", .bool enabled) ::
    ((errorCode.map fun code => ("error_code", Json.str code)).toList ++
      [("permission", .str permission)]))

/-- The permission and the value of a request: an object of these two members. -/
def readRequest (body : Json) : Option (String × Bool) :=
  match body with
  | .obj members =>
    match body.get "permission", body.get "enabled" with
    | .str permission, .bool enabled =>
      if members.length ≠ 2 then none else some (permission, enabled)
    | _, _ => none
  | _ => none

/-- A third member is an error code, which an enabled feature does not have. -/
def readState (body : Json) : Option (String × Bool) :=
  match body with
  | .obj members =>
    match body.get "permission", body.get "enabled" with
    | .str permission, .bool enabled =>
      if members.length ≠ (if body.isMember "error_code" then 3 else 2) ∨
          (body.isMember "error_code" ∧ ((body.get "error_code").str? = none ∨ enabled)) then none
      else some (permission, enabled)
    | _, _ => none
  | _ => none

theorem readRequest_requestBody (permission : String) (enabled : Bool) :
    readRequest (requestBody permission enabled) = some (permission, enabled) := by
  simp [readRequest, requestBody, Json.get, List.lookup]

theorem readState_stateBody (permission : String) (enabled : Bool) (errorCode : Option String)
    (h : enabled = true → errorCode = none) :
    readState (stateBody permission enabled errorCode) = some (permission, enabled) := by
  cases errorCode with
  | none => simp [readState, stateBody, Json.get, Json.isMember, List.lookup]
  | some code =>
    have henabled : enabled = false := by
      cases enabled with
      | false => rfl
      | true => cases h rfl
    simp [readState, stateBody, Json.get, Json.isMember, Json.str?, List.lookup, henabled]

/-- A numbered frame of the control channel. -/
structure Frame (Body : Type) where
  sequence : Nat
  body : Body
deriving DecidableEq, Repr

inductive ControllerBody
  | featureRequest (body : Json)
  | releaseAll
deriving DecidableEq, Repr

inductive HostBody
  | featureState (body : Json)
  | controlReleased
deriving DecidableEq, Repr

/-- The surface that the frames are shown on. -/
structure SurfaceLifecycle where
  generation : UInt64 := 0
  waitStarted : UInt64 := 0
  attached : Bool := false
  presented : Bool := false
deriving DecidableEq, Repr

namespace SurfaceLifecycle

def replace (s : SurfaceLifecycle) (generation : UInt64) (attached : Bool) (now : UInt64) :
    Option SurfaceLifecycle :=
  if generation = 0 ∨ generation ≤ s.generation then none
  else some ⟨generation, now, attached, false⟩

def restartWait (s : SurfaceLifecycle) (now : UInt64) : SurfaceLifecycle :=
  if s.presented then s else { s with waitStarted := now }

def present (s : SurfaceLifecycle) (generation frames : UInt64) : Option SurfaceLifecycle :=
  if ¬ s.attached ∨ s.presented ∨ generation ≠ s.generation ∨ frames = 0 then none
  else some { s with presented := true }

def expired (s : SurfaceLifecycle) (now : UInt64) : Bool :=
  s.attached && !s.presented && s.waitStarted ≤ now && 15000 ≤ now - s.waitStarted

end SurfaceLifecycle

structure Controller where
  ceiling : UInt64
  wantsAudio : Bool
  audioDevice : Bool
  audioTrack : Bool
  files : Bool
  authenticated : Bool
  ready : Bool
  localPath : Bool
  remotePath : Bool
  deadline : UInt64
  closeReason : Option String := none
  paused : Bool := false
  surface : Bool := false
  surfaceLifecycle : SurfaceLifecycle := {}
  everPresented : Bool := false
  audioRequested : Bool := false
  audioEnabled : Bool := false
  filesSendRequested : Bool := false
  filesReceiveRequested : Bool := false
  clipboardRead : Bool := false
  clipboardWrite : Bool := false
  clipboardReadRequested : Bool := false
  clipboardWriteRequested : Bool := false
  submitted : Nat := 0
  received : Nat := 0
  sent : Nat := 0
  outbox : List (Frame ControllerBody) := []
  /-- The `FEATURE_STATE` bodies that were passed on to the app. -/
  control : List Json := []
deriving DecidableEq, Repr

/-- The time of a call, and what is answered during it. -/
structure Answers where
  now : UInt64
  deviceFailed : Bool := false
  deviceEnable : Bool := true
  filesEnabled : Bool := true
  filesEnable : Bool := true
  /-- Input is enabled or asked for, so that releasing it sends a frame. -/
  input : Bool := false
  attach : Bool := true
deriving DecidableEq, Repr

namespace Controller

/-- The frame goes out unless the sequence numbers are used up. -/
def push (c : Controller) (body : ControllerBody) : Option Controller :=
  if c.closeReason.isSome then some c
  else if c.sent + 1 ≥ Protocol.sequenceReconnectAt.toNat then none
  else some { c with sent := c.sent + 1, outbox := c.outbox ++ [⟨c.sent + 1, body⟩] }

/-- Closing releases the input first. That frame may fail, as the session ends anyway. -/
def close (c : Controller) (reason : String) (a : Answers) : Controller :=
  if c.closeReason.isSome then c
  else
    let c := if a.input then (c.push .releaseAll).getD c else c
    { c with closeReason := some reason, audioRequested := false, audioEnabled := false }

def send (c : Controller) (body : ControllerBody) (a : Answers) : Controller :=
  (c.push body).getD (c.close "RD_MEDIA_FAILED" a)

def releaseInput (c : Controller) (a : Answers) : Controller :=
  if a.input then c.send .releaseAll a else c

/-- `Live` closes a session whose lease has run out. -/
def checkLive (c : Controller) (a : Answers) : Controller :=
  if c.closeReason.isSome then c
  else if c.deadline ≤ a.now then c.close "RD_LEASE_EXPIRED" a
  else c

def filesCurrent (c : Controller) (a : Answers) : Bool :=
  c.closeReason.isNone && !c.paused && c.ready && c.localPath && c.remotePath && c.everPresented &&
    c.authenticated && a.now < c.deadline

def muted (c : Controller) : Controller :=
  { c with audioRequested := false, audioEnabled := false }

def audioKeeps (c : Controller) (a : Answers) : Bool :=
  c.closeReason.isNone && !c.paused && c.audioEnabled && c.audioDevice && !a.deviceFailed

def audioVerified (c : Controller) : Bool :=
  c.closeReason.isNone && c.wantsAudio && c.audioDevice && c.ready && c.localPath && c.remotePath &&
    c.authenticated

def audioShown (c : Controller) : Bool :=
  !c.paused && c.surface && c.surfaceLifecycle.presented && c.audioTrack

/-- The part of `SystemAudio` after the local mute. -/
def askAudio (c : Controller) (enabled : Bool) (a : Answers) : Bool × Controller :=
  if ¬ c.audioVerified then (!enabled, c)
  else if enabled ∧ ¬ c.audioShown then (false, c)
  else
    let c := { c with audioRequested := enabled }.send
      (.featureRequest (requestBody "audio.system" enabled)) a
    (c.closeReason.isNone, c)

def systemAudio (c : Controller) (enabled : Bool) (a : Answers) : Bool × Controller :=
  let c := if enabled then c.checkLive a else c
  if enabled ∧ c.audioKeeps a then (true, c)
  else (c.muted.checkLive a).askAudio enabled a

inductive Direction
  | send
  | receive
deriving DecidableEq, Repr

def Direction.feature : Direction → Feature
  | .send => .filesSend
  | .receive => .filesReceive

def filesRequested (c : Controller) : Direction → Bool
  | .send => c.filesSendRequested
  | .receive => c.filesReceiveRequested

def setFilesRequested (c : Controller) (direction : Direction) (value : Bool) : Controller :=
  match direction with
  | .send => { c with filesSendRequested := value }
  | .receive => { c with filesReceiveRequested := value }

/-- The part of `SetFiles` after the local change. -/
def askFiles (c : Controller) (direction : Direction) (enabled : Bool) (a : Answers) :
    Bool × Controller :=
  if c.closeReason.isSome ∨ c.ceiling &&& direction.feature.bit = 0 ∨ ¬ c.files ∨ ¬ c.filesCurrent a then
    (!enabled, c)
  else
    let c := (c.setFilesRequested direction enabled).send
      (.featureRequest (requestBody direction.feature.name enabled)) a
    (c.closeReason.isNone, c)

def setFiles (c : Controller) (direction : Direction) (enabled : Bool) (a : Answers) :
    Bool × Controller :=
  if enabled ∧ c.filesRequested direction ∧ c.files ∧ c.filesCurrent a ∧ a.filesEnabled then (true, c)
  else
    let c := if enabled then c else c.setFilesRequested direction false
    (c.checkLive a).askFiles direction enabled a

def setClipboardWish (c : Controller) (permission : String) (enabled : Bool) : Controller :=
  if permission = "clipboard.read" then
    { c with clipboardRead := false, clipboardReadRequested := enabled }
  else { c with clipboardWrite := false, clipboardWriteRequested := enabled }

def clipboardBit (permission : String) : UInt64 :=
  if permission = "clipboard.read" then Protocol.permissionClipboardRead
  else Protocol.permissionClipboardWrite

/-- A `FEATURE_REQUEST` of the app, which is for the clipboard. -/
def submitFeature (c : Controller) (body : Json) (a : Answers) : Bool × Controller :=
  match readRequest body with
  | none => (false, c)
  | some (permission, enabled) =>
    if permission ≠ "clipboard.read" ∧ permission ≠ "clipboard.write" then (false, c)
    else if c.ceiling &&& clipboardBit permission = 0 then (false, c)
    else
      let c := (c.setClipboardWish permission enabled).send (.featureRequest body) a
      (c.closeReason.isNone, c)

def submit (c : Controller) (frame : Frame Json) (a : Answers) : Bool × Controller :=
  let c := c.checkLive a
  if c.closeReason.isSome ∨ ¬ c.ready ∨ ¬ c.localPath ∨ ¬ c.remotePath ∨ ¬ c.authenticated ∨
      c.paused then (false, c)
  else if frame.sequence ≤ c.submitted then (false, c)
  else submitFeature { c with submitted := frame.sequence } frame.body a

def backgrounded (c : Controller) : Controller :=
  { c with
    paused := true
    clipboardRead := false
    clipboardWrite := false
    clipboardReadRequested := false
    clipboardWriteRequested := false }

def pause (c : Controller) (a : Answers) : Controller :=
  if c.closeReason.isSome then c
  else
    let c := (c.systemAudio false a).2
    let c := (c.setFiles .send false a).2
    let c := (c.setFiles .receive false a).2
    c.backgrounded.releaseInput a

/-- Audio is not played without a surface. -/
def updateRendering (c : Controller) (a : Answers) : Controller :=
  if ¬ c.surface ∧ c.audioRequested then (c.systemAudio false a).2 else c

/-- A failed signal closes the session. -/
def resume (c : Controller) (a : Answers) : Controller :=
  let c := c.checkLive a
  if c.closeReason.isSome then c.close "RD_AUTHORIZATION_INVALID" a
  else
    let c := { c with
      paused := false
      surfaceLifecycle :=
        if c.ready then c.surfaceLifecycle.restartWait a.now else c.surfaceLifecycle }
    if ¬ c.authenticated ∨ ¬ c.localPath ∨ ¬ c.remotePath then c else c.updateRendering a

def setSurface (c : Controller) (window : Bool) (generation : UInt64) (a : Answers) : Controller :=
  if c.closeReason.isSome ∨ ¬ a.attach then c
  else
    let c := { c with surface := window }
    match c.surfaceLifecycle.replace generation window a.now with
    | none => c
    | some lifecycle =>
      let c := { c with surfaceLifecycle := lifecycle }.releaseInput a
      if c.closeReason.isSome then c else c.updateRendering a

/-- An accepted renewal of the lease. -/
def renew (c : Controller) (deadline : UInt64) (a : Answers) : Controller :=
  let c := c.checkLive a
  if c.closeReason.isSome then c else { c with deadline := deadline }.updateRendering a

def shown (c : Controller) (generation frames : UInt64) : Controller :=
  if c.paused then c
  else
    match c.surfaceLifecycle.present generation frames with
    | none => c
    | some lifecycle => { c with surfaceLifecycle := lifecycle, everPresented := true }

/-- The lifecycle timer: a failed device is muted, an unused surface ends the session, and a
request for input that was not answered is released. -/
def tick (c : Controller) (generation frames : UInt64) (a : Answers) : Controller :=
  let c := c.checkLive a
  if c.closeReason.isSome then c
  else
    let c := if c.audioEnabled ∧ c.audioDevice ∧ a.deviceFailed then (c.systemAudio false a).2 else c
    if c.ready ∧ ¬ c.paused ∧ c.surfaceLifecycle.expired a.now then c.close "RD_MEDIA_FAILED" a
    else
      let c := c.releaseInput a
      if c.closeReason.isSome then c else c.shown generation frames

def tell (c : Controller) (body : Json) : Controller := { c with control := c.control ++ [body] }

/-- What the app is told of a feature that cannot be used here. -/
def unavailable (permission : String) : Json :=
  stateBody permission false (some "RD_FEATURE_UNAVAILABLE")

def filesState (c : Controller) (direction : Direction) (enabled : Bool) (body : Json) (a : Answers) :
    Controller :=
  if c.ceiling &&& direction.feature.bit = 0 ∨ ¬ c.files ∨
      (enabled ∧ (¬ c.filesRequested direction ∨ ¬ c.filesCurrent a)) then
    c.close "RD_SCOPE_DENIED" a
  else if c.filesCurrent a ∧ ¬ a.filesEnable then c.tell (unavailable direction.feature.name)
  else c.tell body

def audioState (c : Controller) (enabled : Bool) (body : Json) (a : Answers) : Controller :=
  if ¬ c.wantsAudio ∨ ¬ c.audioDevice ∨ ¬ c.audioTrack ∨
      (enabled ∧ (¬ c.audioRequested ∨ c.paused ∨ ¬ c.surface)) then
    c.close "RD_SCOPE_DENIED" a
  else
    let c := { c with audioEnabled := enabled && a.deviceEnable }
    if enabled ∧ ¬ c.audioEnabled then (c.systemAudio false a).2.tell (unavailable "audio.system")
    else c.tell body

def clipboardRequested (c : Controller) (permission : String) : Bool :=
  if permission = "clipboard.read" then c.clipboardReadRequested else c.clipboardWriteRequested

def clipboardState (c : Controller) (permission : String) (enabled : Bool) (body : Json)
    (a : Answers) : Controller :=
  if c.ceiling &&& clipboardBit permission = 0 then c.close "RD_SCOPE_DENIED" a
  else if enabled ∧ ¬ c.clipboardRequested permission then c.close "RD_STATE_CONFLICT" a
  else if permission = "clipboard.read" then { c with clipboardRead := enabled }.tell body
  else { c with clipboardWrite := enabled }.tell body

def featureState (c : Controller) (body : Json) (a : Answers) : Controller :=
  if ¬ c.ready then c.close "RD_PROTOCOL_MISMATCH" a
  else
    match readState body with
    | none => c.close "RD_PROTOCOL_MISMATCH" a
    | some (permission, enabled) =>
      if permission = "files.send" then c.filesState .send enabled body a
      else if permission = "files.receive" then c.filesState .receive enabled body a
      else if permission = "audio.system" then c.audioState enabled body a
      else if permission ≠ "clipboard.read" ∧ permission ≠ "clipboard.write" then
        c.close "RD_SCOPE_DENIED" a
      else c.clipboardState permission enabled body a

def receiveBody (c : Controller) (body : HostBody) (a : Answers) : Controller :=
  if ¬ c.authenticated then c.close "RD_PEER_IDENTITY_MISMATCH" a
  else
    match body with
    | .controlReleased => c
    | .featureState body =>
      if ¬ c.remotePath then c.close "RD_PATH_REJECTED" a else c.featureState body a

def receive (c : Controller) (frame : Frame HostBody) (a : Answers) : Controller :=
  let c := c.checkLive a
  if c.closeReason.isSome then c
  else if frame.sequence ≤ c.received then c
  else if frame.sequence ≠ c.received + 1 then c.close "RD_PROTOCOL_MISMATCH" a
  else { c with received := frame.sequence }.receiveBody frame.body a

end Controller

end HomeTunnel.Remote.Features
