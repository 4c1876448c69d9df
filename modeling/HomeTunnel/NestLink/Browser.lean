import HomeTunnel.Lib.Base64
import HomeTunnel.NestLink.Account

/-! # Remote input and frames for a browser

The worker thread of `nestlink_browser` and the grants of `nestlink_auth` that it acts under.
The account, the clock and the option `stop-service` change while the worker runs: each of
its reads is preceded by a list of changes from outside, which every iteration gets anew.
-/

namespace HomeTunnel.NestLink.Browser

structure BrowserClaims where
  v : Nat
  typ : String
  jti : String
  realm : String
  hostDevice : String
  hostSession : String
  controllerSession : String
  offerSha256 : String
  answerSha256 : String
  iat : Nat
  exp : Nat
  policy : String
deriving DecidableEq, Repr

structure Authorization where
  grant : String
  offer : String
  answer : String
deriving DecidableEq, Repr

/-- The document of an `Input` command. -/
structure InputValue where
  kind : String
  x : Option Float
  y : Option Float
  button : Option Nat
  down : Option Bool
  key : Option String
  text : Option String

inductive PixelFormat
  | bgra
  | rgba
  | other
deriving DecidableEq, Repr

structure PixelBuffer where
  width : Nat
  height : Nat
  stride : Nat
  format : PixelFormat
  data : List UInt8
deriving DecidableEq, Repr

/-- What the worker takes from other libraries. -/
structure Library where
  checks : Checks
  -- `PublicKey::from_slice` on the decoded base64 text
  publicKey : String → Option (List UInt8)
  verifyDetached : (signature message key : List UInt8) → Bool
  readClaims : List UInt8 → Option BrowserClaims
  readAuthorization : String → Option Authorization
  readInput : String → Option InputValue
  -- width, height and pixels of an image, scaled down and compressed
  encodeJpeg : Nat → Nat → List UInt8 → Except String (List UInt8)
  base64 : List UInt8 → String

def isHexDigest (text : String) : Bool :=
  text.utf8ByteSize = 64 && text.toList.all fun c =>
    c.isDigit || ('a' ≤ c && c ≤ 'f') || ('A' ≤ c && c ≤ 'F')

def checkClaims (lib : Library) (trust : Trust) (now : Nat) (claims : BrowserClaims) :
    Except String BrowserClaims :=
  if claims.v ≠ 1 || claims.typ ≠ "NestLink-Browser" || claims.realm ≠ trust.realm ||
      claims.policy ≠ "require_direct" || claims.iat > min (now + 5) (2 ^ 64 - 1) ||
      claims.exp ≤ now || claims.exp ≠ claims.iat + 15 ||
      [claims.jti, claims.hostDevice, claims.hostSession,
        claims.controllerSession].any (!lib.checks.uuid ·) ||
      !([claims.offerSha256, claims.answerSha256].all isHexDigest) then
    .error "浏览器远控许可已失效或范围无效"
  else .ok claims

def verifyBrowserGrantAt (lib : Library) (token : String) (trust : Trust) (now : Nat) :
    Except String BrowserClaims :=
  match token.toList.splitOn '.' with
  | [version, payload, signature] =>
    if 4096 < token.utf8ByteSize || version ≠ "nlb1".toList || trust.algorithm ≠ "Ed25519" then
      .error "浏览器远控许可无效"
    else
      match lib.publicKey trust.publicKey with
      | none => .error "服务公钥无效"
      | some key =>
        match Base64.decode signature with
        | none => .error "许可签名无效"
        | some proof =>
          if !lib.verifyDetached proof ("nlb1.".toUTF8.toList ++
              (String.ofList payload).toUTF8.toList) key then
            .error "许可签名无效"
          else
            match (Base64.decode payload).bind lib.readClaims with
            | none => .error "JSON"
            | some claims => checkClaims lib trust now claims
  | _ => .error "浏览器远控许可无效"

/-- The account, and the option that ends all sharing. -/
structure World where
  account : Account
  stopService : Bool

inductive Change
  | account (action : Action)
  | share (stopped : Bool)
deriving DecidableEq, Repr

def World.change (checks : Checks) (world : World) : Change → World
  | .account action => { world with account := world.account.step checks action }
  | .share stopped => { world with stopService := stopped }

/-- The epoch of the authorization and the whole seconds that remain of the grant. -/
def browserGrant (lib : Library) (world : World) (seconds : Nat) (token expectedId offer : String)
    (answer : String) : Except String (Nat × Nat) :=
  match world.account.snapshot with
  | none => .error "请先登录自建服务"
  | some auth =>
    if world.stopService then .error "本机共享已关闭"
    else
      match verifyBrowserGrantAt lib token auth.presence.permitTrust seconds with
      | .error error => .error error
      | .ok claims =>
        if claims.jti ≠ expectedId || claims.offerSha256 ≠ offer ||
            claims.answerSha256 ≠ answer || claims.hostDevice ≠ auth.request.deviceId ||
            claims.hostSession ≠ auth.presence.sessionId then
          .error "浏览器远控许可已失效或不属于本机登录"
        else .ok (auth.epoch, claims.exp - seconds)

/-! ## Keys and buttons -/

inductive Key
  | control | shift | alt | metaKey | returnKey | tab | space | backspace | escape | deleteKey
  | home | endKey | pageUp | pageDown | leftArrow | rightArrow | upArrow | downArrow
  | function (n : Nat)
  | layout (c : Char)
deriving DecidableEq, Repr

inductive MouseButton
  | left
  | middle
  | right
deriving DecidableEq, Repr

def namedKeys : List (String × Key) :=
  [("ControlLeft", .control), ("ControlRight", .control), ("ShiftLeft", .shift),
    ("ShiftRight", .shift), ("AltLeft", .alt), ("AltRight", .alt), ("MetaLeft", .metaKey),
    ("MetaRight", .metaKey), ("Enter", .returnKey), ("NumpadEnter", .returnKey), ("Tab", .tab),
    ("Space", .space), ("Backspace", .backspace), ("Escape", .escape), ("Delete", .deleteKey),
    ("Home", .home), ("End", .endKey), ("PageUp", .pageUp), ("PageDown", .pageDown),
    ("ArrowLeft", .leftArrow), ("ArrowRight", .rightArrow), ("ArrowUp", .upArrow),
    ("ArrowDown", .downArrow), ("F1", .function 1), ("F2", .function 2), ("F3", .function 3),
    ("F4", .function 4), ("F5", .function 5), ("F6", .function 6), ("F7", .function 7),
    ("F8", .function 8), ("F9", .function 9), ("F10", .function 10), ("F11", .function 11),
    ("F12", .function 12), ("Comma", .layout ','), ("Period", .layout '.'),
    ("Slash", .layout '/'), ("Semicolon", .layout ';'), ("Quote", .layout (Char.ofNat 39)),
    ("BracketLeft", .layout '['), ("BracketRight", .layout ']'),
    ("Backslash", .layout (Char.ofNat 92)), ("Backquote", .layout (Char.ofNat 96)),
    ("Minus", .layout '-'), ("Equal", .layout '=')]

def key (code : String) : Option Key :=
  match namedKeys.lookup code with
  | some key => some key
  | none =>
    if code.utf8ByteSize = 4 && "Key".toList.isPrefixOf code.toList then
      code.toList[3]?.map fun c => .layout c.toLower
    else if code.utf8ByteSize = 6 && "Digit".toList.isPrefixOf code.toList then
      code.toList[5]?.map .layout
    else none

def mouseButton : Nat → Option MouseButton
  | 0 => some .left
  | 1 => some .middle
  | 2 => some .right
  | _ => none

/-- A key or a button of the machine. -/
inductive Control
  | key (key : Key)
  | button (button : MouseButton)
deriving DecidableEq, Repr

inductive Injection
  | down (control : Control) (pressed : Bool)
  | up (control : Control)
  | moveTo (x y : Int32)
  | scrollX (amount : Int32)
  | scrollY (amount : Int32)
  | text (text : String)
deriving DecidableEq

inductive Event
  -- a command was taken, at this time and this value of `EPOCH`
  | taken (now epoch : Nat)
  | allowed (id : String) (epoch remaining now : Nat)
  | injected (id : String) (injection : Injection)
  | captured (id : String)
  | released (control : Control)
  -- what an iteration finds: the grant not live, an old heartbeat, an error, a `Stop`
  | notLive
  | late
  | failed
  | stopped
deriving DecidableEq

structure State where
  id : String
  epoch : Nat
  deadline : Nat
  heartbeat : Nat
  capturer : Bool
  keys : List (String × Key)
  buttons : List (Nat × MouseButton)
  width : Nat
  height : Nat
  origin : Int32 × Int32
  cached : String

/-- What the held maps hold, in the order in which it is released. -/
def State.held (state : State) : List Control :=
  state.keys.map (fun entry => .key entry.2) ++ state.buttons.map fun entry => .button entry.2

structure Worker where
  world : World
  -- what happens outside before each of the next reads
  pauses : List (List Change)
  state : State
  -- the newest first
  log : List Event

inductive Command
  | allow (id grant : String)
  | frame
  | input (value : String)
  | stop
deriving DecidableEq, Repr

/-- What `capturer.frame` returns. -/
inductive Captured
  | wouldBlock
  | failed (error : String)
  | texture
  | pixels (buffer : PixelBuffer)
deriving DecidableEq, Repr

inductive Received
  | timeout
  | request (command : Command)
  | disconnected
deriving DecidableEq, Repr

/-- What the world gives to one iteration. -/
structure Turn where
  received : Received
  pauses : List (List Change)
  -- the system clock, for grants
  seconds : Nat
  pressed : Except String Unit
  display : Except String (Nat × Nat × Int32 × Int32)
  opened : Except String Unit
  captured : Captured

namespace Worker

variable (lib : Library)

def pass (w : Worker) : Worker :=
  match w.pauses with
  | [] => w
  | changes :: rest =>
    { w with
      world := changes.foldl (World.change lib.checks) w.world
      pauses := rest }

def now (w : Worker) : Nat := w.world.account.now

def note (w : Worker) (event : Event) : Worker := { w with log := event :: w.log }

def inject (w : Worker) (injection : Injection) : Worker := w.note (.injected w.state.id injection)

def noteLive (result : Bool) (w : Worker) : Bool × Worker :=
  (result, if result then w else w.note .notLive)

/-- `live`, with the reads of `browser_epoch_live`, each at its own time. -/
def live (w : Worker) : Bool × Worker :=
  if w.state.epoch = 0 then noteLive false w
  else
    let clock := w.pass lib
    if clock.state.deadline ≤ clock.now then noteLive false clock
    else
      let asked := clock.pass lib
      if !asked.world.account.ready then noteLive false asked
      else
        let counted := asked.pass lib
        if counted.state.epoch ≠ counted.world.account.epoch then noteLive false counted
        else
          let option := counted.pass lib
          noteLive (!option.world.stopService) option

def release (w : Worker) : Worker :=
  { w with
    state := { w.state with keys := [], buttons := [] }
    log := (w.state.held.map Event.released).reverse ++ w.log }

def reset (w : Worker) : Worker :=
  let released := w.release
  { released with
    state := { released.state with id := "", epoch := 0, capturer := false, cached := "" } }

def grant (turn : Turn) (w : Worker) (id : String) (text : String) : Except String Unit × Worker :=
  match lib.readAuthorization text with
  | none => (.error "JSON", w)
  | some value =>
    let asked := w.pass lib
    match browserGrant lib asked.world turn.seconds value.grant id value.offer value.answer with
    | .error error => (.error error, asked)
    | .ok (epoch, remaining) =>
      let own :=
        if asked.state.id ≠ id then
          let fresh := asked.reset.pass lib
          { fresh with state := { fresh.state with id := id, heartbeat := fresh.now } }
        else asked
      let timed := own.pass lib
      (.ok (), { timed with
        state := { timed.state with epoch := epoch, deadline := timed.now + remaining * 1000 }
        log := .allowed timed.state.id epoch remaining timed.now :: timed.log })

def insert {α : Type} [LE α] [DecidableLE α] {β : Type} (entry : α × β) (map : List (α × β)) :
    List (α × β) :=
  map.orderedInsert (fun a b => a.1 ≤ b.1) entry

def erase {α : Type} [DecidableEq α] {β : Type} (a : α) (map : List (α × β)) : List (α × β) :=
  map.filter fun entry => entry.1 ≠ a

def button (turn : Turn) (w : Worker) (value : InputValue) : Except String Unit × Worker :=
  match value.button with
  | none => (.error "Missing button", w)
  | some index =>
    match mouseButton index with
    | none => (.error "鼠标按钮无效", w)
    | some button =>
      if value.down = some true then
        if w.state.buttons.any (·.1 = index) then (.ok (), w)
        else
          match turn.pressed with
          | .error error => (.error error, w.inject (.down (.button button) false))
          | .ok _ =>
            (.ok (), { w.inject (.down (.button button) true) with
              state := { w.state with
                buttons := insert (index, button) w.state.buttons } })
      else
        (.ok (), { w.inject (.up (.button button)) with
          state := { w.state with buttons := erase index w.state.buttons } })

def keyboard (turn : Turn) (w : Worker) (value : InputValue) : Except String Unit × Worker :=
  match value.key with
  | none => (.error "Missing key", w)
  | some code =>
    match key code with
    | none => (.ok (), w)
    | some key =>
      if value.down = some true then
        if w.state.keys.any (·.1 = code) then (.ok (), w)
        else
          match turn.pressed with
          | .error error => (.error error, w.inject (.down (.key key) false))
          | .ok _ =>
            (.ok (), { w.inject (.down (.key key) true) with
              state := { w.state with keys := insert (code, key) w.state.keys } })
      else
        (.ok (), { w.inject (.up (.key key)) with
          state := { w.state with keys := erase code w.state.keys } })

def move (w : Worker) (value : InputValue) : Except String Unit × Worker :=
  match value.x, value.y with
  | none, _ => (.error "Missing x", w)
  | _, none => (.error "Missing y", w)
  | some x, some y =>
    if !x.isFinite || !y.isFinite || !(0.0 ≤ x && x ≤ 1.0) || !(0.0 ≤ y && y ≤ 1.0) ||
        w.state.width = 0 then
      (.error "指针位置无效", w)
    else
      (.ok (), w.inject (.moveTo
        (w.state.origin.1 + (x * (w.state.width - 1).toFloat).round.toInt32)
        (w.state.origin.2 + (y * (w.state.height - 1).toFloat).round.toInt32)))

def wheel (w : Worker) (value : InputValue) : Except String Unit × Worker :=
  let x := value.x.getD 0.0
  let y := value.y.getD 0.0
  if !x.isFinite || !y.isFinite || x.abs > 5.0 || y.abs > 5.0 then (.error "滚动值无效", w)
  else (.ok (), (w.inject (.scrollX x.toInt32)).inject (.scrollY y.toInt32))

/-- `char::is_control`: the category of control characters. -/
def isControl (c : Char) : Bool := c.toNat < 32 || (127 ≤ c.toNat && c.toNat < 160)

def typeText (w : Worker) (value : InputValue) : Except String Unit × Worker :=
  let text := value.text.getD ""
  if 4096 < text.utf8ByteSize || text.toList.any fun c => isControl c && c ≠ '\n' && c ≠ '\t' then
    (.error "文字输入无效", w)
  else (.ok (), w.inject (.text text))

def input (turn : Turn) (w : Worker) (raw : String) : Except String Unit × Worker :=
  if 8192 < raw.utf8ByteSize then (.error "输入超出限制", w)
  else
    match lib.readInput raw with
    | none => (.error "JSON", w)
    | some value =>
      let beat := w.pass lib
      let w := { beat with state := { beat.state with heartbeat := beat.now } }
      match value.kind with
      | "heartbeat" => (.ok (), w)
      | "release" => (.ok (), w.release)
      | "move" => w.move value
      | "button" => w.button turn value
      | "wheel" => w.wheel value
      | "key" => w.keyboard turn value
      | "text" => w.typeText value
      | _ => (.error "输入类型无效", w)

def openCapturer (turn : Turn) (state : State) : Except String Unit × State :=
  if state.capturer then (.ok (), state)
  else
    match turn.display with
    | .error error => (.error error, state)
    | .ok (width, height, origin) =>
      let sized := { state with width := width, height := height, origin := origin }
      if width = 0 || height = 0 || 8192 < width || 8192 < height || 32768000 < width * height then
        (.error "屏幕尺寸超出限制", sized)
      else
        match turn.opened with
        | .error error => (.error error, sized)
        | .ok _ => (.ok (), { sized with capturer := true })

/-- The colours of the pixels, row by row. -/
def rgb (buffer : PixelBuffer) : List UInt8 :=
  (List.range buffer.height).flatMap fun row => (List.range buffer.width).flatMap fun col =>
    match (buffer.data.drop (row * buffer.stride + col * 4)).take 3, buffer.format with
    | [b, g, r], .bgra => [r, g, b]
    | pixel, _ => pixel

def encodeFrame (buffer : PixelBuffer) : Except String String :=
  if buffer.stride < buffer.width * 4 || buffer.data.length < buffer.stride * buffer.height ||
      buffer.format = .other then
    .error "屏幕数据无效"
  else
    match lib.encodeJpeg buffer.width buffer.height (rgb buffer) with
    | .error error => .error error
    | .ok bytes =>
      if 2097152 < bytes.length then .error "屏幕帧超出限制" else .ok (lib.base64 bytes)

def frame (turn : Turn) (w : Worker) : Except String String × Worker :=
  match openCapturer turn w.state with
  | (.error error, state) => (.error error, { w with state := state })
  | (.ok _, state) =>
    let taken := { w with state := state }.note (.captured w.state.id)
    match turn.captured with
    | .wouldBlock => (.ok state.cached, taken)
    | .failed error => (.error error, taken)
    | .texture => (.error "屏幕捕获格式不支持", taken)
    | .pixels buffer =>
      match encodeFrame lib buffer with
      | .error error => (.error error, taken)
      | .ok text => (.ok text, { taken with state := { state with cached := text } })

def handle (turn : Turn) (w : Worker) : Command → Except String String × Worker
  | .stop => (.ok "", (w.note .stopped).reset)
  | .allow id text =>
    match w.grant lib turn id text with
    | (.error error, w) => (.error error, w)
    | (.ok _, w) => (.ok "", w)
  | .input raw =>
    match w.live lib with
    | (false, w) => (.error "远控登录或许可已失效", w)
    | (true, w) =>
      match w.input lib turn raw with
      | (.error error, w) => (.error error, w)
      | (.ok _, w) => (.ok "", w)
  | .frame =>
    match w.live lib with
    | (false, w) => (.error "远控登录或许可已失效", w)
    | (true, w) => w.frame lib turn

/-- The checks at the end of every iteration. -/
def expire (w : Worker) : Worker :=
  let checked :=
    if w.state.epoch = 0 then w
    else
      match w.live lib with
      | (false, w) => w.release
      | (true, w) =>
        let timed := w.pass lib
        if 3000 < timed.now - timed.state.heartbeat then (timed.note .late).release else timed
  if checked.state.epoch = 0 then checked
  else
    match checked.live lib with
    | (false, w) => w.reset
    | (true, w) => w

def iterate (w : Worker) (turn : Turn) : Worker :=
  let received := { w with pauses := turn.pauses }.pass lib
  match turn.received with
  | .timeout => received.expire lib
  | .disconnected => received.reset
  | .request command =>
    let taken := received.note (.taken received.now received.world.account.epoch)
    match taken.handle lib turn command with
    | (.ok _, w) => w.expire lib
    | (.error _, w) => (w.note .failed).reset.expire lib

/-- The worker before its first command. -/
def fresh : Worker where
  world := ⟨Account.fresh, false⟩
  pauses := []
  state := ⟨"", 0, 0, 0, false, [], [], 0, 0, (0, 0), ""⟩
  log := []

end Worker

end HomeTunnel.NestLink.Browser
