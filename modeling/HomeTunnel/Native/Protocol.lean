import Mathlib

/-! # Binary framing of the remote-desktop data channels

The frame header, the generated message rules and `parseFrame`. Multi-byte
fields are big endian. Reads past the end of a span return zero here; every
read in `parseFrame` and in its callers is preceded by the length check that
rules such a read out.
-/

namespace HomeTunnel.Remote

abbrev Bytes := List UInt8

namespace Protocol

def magic : UInt16 := 0x5244
def headerLength : Nat := 24
def version : UInt8 := 1
def sequenceReconnectAt : UInt32 := 4294963200
def textBytes : Nat := 4096
def fileChunkBytes : Nat := 16384
def fileBytes : Nat := 8589934592
def batchFileBytes : Nat := 34359738368
def batchFiles : Nat := 64
def clipboardBytes : Nat := 65536
def inputWatchdogMs : UInt64 := 2000
def inputHeartbeatMs : UInt64 := 250

def key : UInt8 := 32
def button : UInt8 := 33
def wheel : UInt8 := 34
def textCommit : UInt8 := 35
def pointerAbs : UInt8 := 48
def clipboardOffer : UInt8 := 112
def clipboardAccept : UInt8 := 113
def clipboardChunk : UInt8 := 114
def clipboardAck : UInt8 := 115
def fileOffer : UInt8 := 128
def fileAccept : UInt8 := 129
def fileChunk : UInt8 := 130
def fileComplete : UInt8 := 131
def fileAck : UInt8 := 132
def fileCancel : UInt8 := 133

structure MessageRule where
  type : UInt8
  channel : Nat
  flags : UInt16
  payload : Nat
  json : Bool
deriving DecidableEq, Repr

def channelLimits : List Nat := [16384, 8192, 256, 2048, 16384, 17408]

def messageRules : List MessageRule :=
  [⟨1, 0, 0, 0, true⟩, ⟨2, 0, 0, 0, true⟩, ⟨3, 0, 0, 0, true⟩, ⟨4, 0, 0, 0, true⟩,
    ⟨5, 0, 0, 0, true⟩, ⟨6, 0, 0, 0, true⟩, ⟨7, 0, 0, 0, true⟩, ⟨8, 0, 0, 0, true⟩,
    ⟨9, 0, 0, 0, true⟩, ⟨10, 0, 0, 0, true⟩, ⟨11, 0, 0, 0, true⟩, ⟨12, 0, 0, 0, true⟩,
    ⟨16, 0, 0, 0, true⟩, ⟨17, 0, 0, 0, true⟩, ⟨18, 0, 0, 0, true⟩, ⟨19, 0, 0, 0, true⟩,
    ⟨20, 0, 0, 0, true⟩, ⟨21, 0, 0, 0, true⟩, ⟨32, 1, 0, 8, false⟩, ⟨33, 1, 1, 32, false⟩,
    ⟨34, 1, 0, 24, false⟩, ⟨35, 1, 0, 0, false⟩, ⟨36, 1, 0, 18, false⟩,
    ⟨48, 2, 0, 16, false⟩, ⟨49, 2, 0, 24, false⟩, ⟨64, 3, 0, 0, true⟩, ⟨65, 3, 0, 0, true⟩,
    ⟨66, 3, 0, 0, true⟩, ⟨67, 0, 0, 0, true⟩, ⟨80, 0, 0, 0, true⟩, ⟨81, 0, 0, 0, true⟩,
    ⟨96, 0, 0, 0, true⟩, ⟨97, 0, 0, 0, true⟩, ⟨112, 4, 0, 0, true⟩, ⟨113, 4, 0, 0, true⟩,
    ⟨114, 4, 0, 0, false⟩, ⟨115, 4, 0, 0, true⟩, ⟨128, 5, 0, 0, true⟩, ⟨129, 5, 0, 0, true⟩,
    ⟨130, 5, 0, 0, false⟩, ⟨131, 5, 0, 0, true⟩, ⟨132, 5, 0, 0, true⟩, ⟨133, 5, 0, 0, true⟩]

def allPermissions : UInt64 := 1023
def permissionView : UInt64 := 1
def permissionInputKeyboard : UInt64 := 2
def permissionInputPointer : UInt64 := 4
def permissionInputText : UInt64 := 8
def permissionAudioSystem : UInt64 := 16
def permissionClipboardRead : UInt64 := 64
def permissionClipboardWrite : UInt64 := 128
def permissionFilesSend : UInt64 := 256
def permissionFilesReceive : UInt64 := 512

def permissionNames : List String :=
  ["view", "input.keyboard", "input.pointer", "input.text", "audio.system",
    "audio.microphone", "clipboard.read", "clipboard.write", "files.send", "files.receive"]

end Protocol

def byteAt (bytes : Bytes) (offset : Nat) : UInt8 := bytes.getD offset 0

def readU16 (bytes : Bytes) (offset : Nat) : UInt16 :=
  ((byteAt bytes offset).toUInt16 <<< 8) ||| (byteAt bytes (offset + 1)).toUInt16

def readU32 (bytes : Bytes) (offset : Nat) : UInt32 :=
  ((byteAt bytes offset).toUInt32 <<< 24) ||| ((byteAt bytes (offset + 1)).toUInt32 <<< 16) |||
    ((byteAt bytes (offset + 2)).toUInt32 <<< 8) ||| (byteAt bytes (offset + 3)).toUInt32

def readU64 (bytes : Bytes) (offset : Nat) : UInt64 :=
  ((readU32 bytes offset).toUInt64 <<< 32) ||| (readU32 bytes (offset + 4)).toUInt64

/-- The inner loop of `validUtf8`: `count` continuation bytes, most significant first. -/
def continuation : Nat → UInt32 → Bytes → Option (UInt32 × Bytes)
  | 0, codepoint, rest => some (codepoint, rest)
  | _ + 1, _, [] => none
  | count + 1, codepoint, byte :: rest =>
    if byte &&& 0xc0 ≠ 0x80 then none
    else continuation count ((codepoint <<< 6) ||| (byte &&& 0x3f).toUInt32) rest

/-- Each round consumes at least one byte, so the input length is enough fuel. -/
def validUtf8Loop : Nat → Bytes → Bool
  | _, [] => true
  | 0, _ :: _ => false
  | fuel + 1, first :: rest =>
    if first < 0x80 then validUtf8Loop fuel rest
    else
      let lead : Option (Nat × UInt32 × UInt32) :=
        if 0xc2 ≤ first ∧ first ≤ 0xdf then some (1, (first &&& 0x1f).toUInt32, 0x80)
        else if 0xe0 ≤ first ∧ first ≤ 0xef then some (2, (first &&& 0x0f).toUInt32, 0x800)
        else if 0xf0 ≤ first ∧ first ≤ 0xf4 then some (3, (first &&& 7).toUInt32, 0x10000)
        else none
      match lead with
      | none => false
      | some (count, codepoint, minimum) =>
        match continuation count codepoint rest with
        | none => false
        | some (codepoint, rest) =>
          if codepoint < minimum ∨ codepoint > 0x10ffff ∨
              (0xd800 ≤ codepoint ∧ codepoint ≤ 0xdfff) then false
          else validUtf8Loop fuel rest

def validUtf8 (input : Bytes) : Bool := validUtf8Loop input.length input

inductive Channel
  | control | input | motion | feedback | clipboard | file
deriving DecidableEq, Repr

def Channel.index : Channel → Nat
  | .control => 0
  | .input => 1
  | .motion => 2
  | .feedback => 3
  | .clipboard => 4
  | .file => 5

structure Frame where
  type : UInt8
  flags : UInt16
  connectionEpoch : UInt32
  inputEpoch : UInt32
  sequence : UInt32
  payload : Bytes
deriving DecidableEq, Repr

inductive FrameError
  | truncated | header | type | channel | size | flags | epoch | sequence | payload
deriving DecidableEq, Repr

/-- The payload checks that `parseFrame` makes for single message types, in source order. -/
def payloadRejected (rule : Protocol.MessageRule) (flags : UInt16) (payload : Bytes) : Bool :=
  (rule.json && (payload.isEmpty || !validUtf8 payload)) ||
  (rule.type == Protocol.key &&
    (readU16 payload 0 != 7 || byteAt payload 4 > 1 || byteAt payload 5 > 1 ||
      readU16 payload 6 != 0 || (byteAt payload 4 == 0 && byteAt payload 5 != 0))) ||
  (rule.type == Protocol.pointerAbs && readU16 payload 10 != 0) ||
  (rule.type == Protocol.wheel && readU16 payload 10 != 0) ||
  (rule.type == Protocol.button &&
    (byteAt payload 10 < 1 || byteAt payload 10 > 5 || byteAt payload 11 > 1 ||
      (flags == 0 && (readU64 payload 16 != 0 || readU64 payload 24 != 0)))) ||
  (rule.type == Protocol.textCommit &&
    (payload.length < 20 || payload.length > 20 + Protocol.textBytes ||
      (readU32 payload 16).toNat != payload.length - 20 || !validUtf8 (payload.drop 20))) ||
  ((rule.type == Protocol.fileChunk || rule.type == Protocol.clipboardChunk) &&
    (payload.length ≤ 24 || payload.length > 24 + Protocol.fileChunkBytes))

def parseFrame (bytes : Bytes) (channel : Channel) (epoch : UInt32) :
    Except FrameError Frame :=
  if bytes.length < Protocol.headerLength then .error .truncated
  else if readU16 bytes 0 ≠ Protocol.magic ∨ byteAt bytes 2 ≠ Protocol.version ∨
      (readU16 bytes 6).toNat ≠ Protocol.headerLength then .error .header
  else
    match Protocol.messageRules.find? (fun rule => rule.type == byteAt bytes 3) with
    | none => .error .type
    | some rule =>
      let flags := readU16 bytes 4
      let sequence := readU32 bytes 16
      let inputEpoch := readU32 bytes 12
      let payload := bytes.drop Protocol.headerLength
      if rule.channel ≠ channel.index then .error .channel
      else if bytes.length > Protocol.channelLimits.getD rule.channel 0 ∨
          (readU32 bytes 20).toNat ≠ bytes.length - Protocol.headerLength then .error .size
      else if flags &&& ~~~rule.flags ≠ 0 then .error .flags
      else if epoch = 0 ∨ readU32 bytes 8 ≠ epoch then .error .epoch
      else if sequence = 0 ∨ sequence ≥ Protocol.sequenceReconnectAt then .error .sequence
      else if (if channel = .input ∨ channel = .motion then inputEpoch = 0
          else inputEpoch ≠ 0) then .error .epoch
      else if rule.payload ≠ 0 ∧ payload.length ≠ rule.payload then .error .size
      else if payloadRejected rule flags payload then .error .payload
      else .ok ⟨rule.type, flags, epoch, inputEpoch, sequence, payload⟩

end HomeTunnel.Remote
