import HomeTunnel.Files.Worker

/-! # One clipboard endpoint

`ClipboardTransfer` as a state machine. The clipboard of the system, the send
callback and the random generator answer as they like: each is a function of the
trace so far, newest event first. Besides the calls the trace holds marks for what
the code does to its own transfers, so that statements about a run can speak about
moments inside an operation.

A callback of the session may close the endpoint before it returns.
-/

namespace HomeTunnel.Remote.Clipboard

open Auth (Primitives fields strictJson)
open Files (hex uuidBytes uuidText digestText chunkPayload)
open Worker (json)

def timeoutMs : UInt64 := 30000
def pollMs : UInt64 := 500
def maxSeen : Nat := 128
def sendBurst : Nat := 2
def chunkBytes : Nat := 8192
def bodyBytes : Nat := 16360

def mime : String := "text/plain;charset=utf-8"

/-- A chunk names its transfer by the bytes of the id, the other messages by its text. -/
inductive ClipboardMessage
  | offer (id : String) (size : Nat) (digest : String)
  | accept (id : String)
  | chunk (uuid : Bytes) (offset : Nat) (bytes : Bytes)
  | ack (id : String)
deriving DecidableEq, Repr

def ClipboardMessage.type : ClipboardMessage → UInt8
  | offer .. => Protocol.clipboardOffer
  | accept _ => Protocol.clipboardAccept
  | chunk .. => Protocol.clipboardChunk
  | ack _ => Protocol.clipboardAck

/-- The members of the JSON messages, by ascending name. -/
def ClipboardMessage.members : ClipboardMessage → List (String × Json)
  | offer id size digest =>
    [("id", .str id), ("mime", .str mime), ("sha256", .str digest), ("size", .int size)]
  | accept id | ack id => [("id", .str id)]
  | chunk .. => []

def ClipboardMessage.payload : ClipboardMessage → Bytes
  | chunk uuid offset bytes => chunkPayload uuid offset bytes
  | message => json (.obj message.members)

/-- `isUInt` together with `asUInt`; no reals reach it. -/
def unsigned : Json → Option Nat
  | .int n => if 0 ≤ n ∧ n < 2 ^ 32 then some n.toNat else none
  | _ => none

def plainText (text : Bytes) : Bool := !text.contains 0 && validUtf8 text

section Decoding

variable (P : Primitives)

def digest (text : Bytes) : String := hex (P.sha256 text)

def decodeChunk (payload : Bytes) : Option ClipboardMessage :=
  if payload.length ≤ 24 ∨ payload.length > bodyBytes then none
  else some (.chunk (payload.take 16) (readU64 payload 16).toNat (payload.drop 24))

def decodeOffer (id : String) (body : Json) : Option ClipboardMessage :=
  if ¬ fields body ["id", "size", "sha256", "mime"] then none
  else
    match unsigned (body.get "size"), digestText (body.get "sha256") with
    | some size, some digest =>
      if size > Protocol.clipboardBytes ∨ body.get "mime" ≠ .str mime then none
      else some (.offer id size digest)
    | _, _ => none

def decodeReply (type : UInt8) (id : String) (body : Json) : Option ClipboardMessage :=
  if ¬ fields body ["id"] then none
  else if type = Protocol.clipboardAccept then some (.accept id)
  else if type = Protocol.clipboardAck then some (.ack id)
  else none

def decodeBody (type : UInt8) (payload : Bytes) : Option ClipboardMessage :=
  match strictJson P payload bodyBytes with
  | none => none
  | some body =>
    match body.get "id" with
    | .str id =>
      if (uuidBytes id).isNone then none
      else if type = Protocol.clipboardOffer then decodeOffer id body
      else decodeReply type id body
    | _ => none

/-- The checks of `receive` that depend on the frame alone. -/
def decodeMessage (type : UInt8) (payload : Bytes) : Option ClipboardMessage :=
  if type = Protocol.clipboardChunk then decodeChunk payload else decodeBody P type payload

variable {P} {type : UInt8} {id : String} {body : Json} {payload : Bytes}
  {message : ClipboardMessage}

theorem decodeOffer_spec (h : decodeOffer id body = some message) :
    ∃ size digest, message = .offer id size digest ∧ size ≤ Protocol.clipboardBytes := by
  unfold decodeOffer at h
  split at h
  · cases h
  · split at h
    · next size digest _ _ =>
      split at h
      · cases h
      · next hright =>
        cases h
        exact ⟨size, digest, rfl, by omega⟩
    · cases h

theorem decodeReply_spec (h : decodeReply type id body = some message) :
    message.type = type ∧ (message = .accept id ∨ message = .ack id) := by
  unfold decodeReply at h
  split at h
  · cases h
  · split at h
    · next htype =>
      cases h
      exact ⟨htype.symm, .inl rfl⟩
    · split at h
      · next htype =>
        cases h
        exact ⟨htype.symm, .inr rfl⟩
      · cases h

/-- A message is decoded from a frame of its type, and an offer is within the bound. -/
theorem decodeMessage_spec (h : decodeMessage P type payload = some message) :
    message.type = type ∧
      ∀ id size digest, message = .offer id size digest → size ≤ Protocol.clipboardBytes := by
  unfold decodeMessage at h
  split at h
  · next htype =>
    unfold decodeChunk at h
    split at h
    · cases h
    · cases h
      exact ⟨htype.symm, nofun⟩
  · unfold decodeBody at h
    split at h
    · cases h
    · split at h
      · split at h
        · cases h
        · split at h
          · next htype =>
            obtain ⟨size, digest, rfl, hsize⟩ := decodeOffer_spec h
            refine ⟨htype.symm, ?_⟩
            intro _ _ _ heq
            cases heq
            exact hsize
          · obtain ⟨htype, rfl | rfl⟩ := decodeReply_spec h
            · exact ⟨htype, nofun⟩
            · exact ⟨htype, nofun⟩
      · cases h

end Decoding

structure Transfer where
  id : String
  digest : String
  content : Bytes := []
  uuid : Bytes
  size : Nat
  offset : Nat := 0
  deadline : UInt64
  accepted : Bool := false
deriving DecidableEq, Repr

def Transfer.append (item : Transfer) (bytes : Bytes) : Transfer :=
  { item with content := item.content ++ bytes, offset := item.offset + bytes.length }

/-- The piece of the content that the next chunk carries. -/
def Transfer.nextChunk (item : Transfer) : Bytes :=
  (item.content.drop item.offset).take (min chunkBytes (item.size - item.offset))

def Transfer.advance (item : Transfer) : Transfer :=
  { item with offset := item.offset + min chunkBytes (item.size - item.offset) }

inductive ReadStatus
  | unchanged | text | noText | unavailable
deriving DecidableEq, Repr

inductive ClipboardOp
  | enable (permission : String) (value : Bool) (now : UInt64)
  | receive (type : UInt8) (payload : Bytes) (now : UInt64)
  | tick (now : UInt64)
  | close
  /-- Someone at this end puts a text into the clipboard. -/
  | copy (text : Bytes)
deriving DecidableEq, Repr

inductive ClipboardEvent
  | called (op : ClipboardOp)
  | returned (op : ClipboardOp) (ok : Bool)
  | available (ok : Bool)
  | room (ok : Bool)
  | sent (message : ClipboardMessage) (ok : Bool)
  | failure (permission : String)
  | read (status : ReadStatus) (text : Bytes)
  | wrote (text : Bytes) (ok : Bool)
  | generated (uuid : Option Bytes)
  | copied (text : Bytes)
  | reading (value : Bool)
  | writing (value : Bool)
  | closed
  | accepted (id : String) (size : Nat) (digest : String)
  | took (offset : Nat) (bytes : Bytes)
  | offered (id : String) (text : Bytes)
deriving DecidableEq, Repr

/-- What a callback returns, and whether it closed the endpoint meanwhile. -/
structure Answer where
  ok : Bool
  closes : Bool
deriving DecidableEq, Repr

structure Callbacks where
  available : List ClipboardEvent → Bool
  read : List ClipboardEvent → UInt64 → ReadStatus × UInt64 × Bytes
  write : List ClipboardEvent → Bytes → Bool
  send : List ClipboardEvent → UInt8 → Bytes → Answer
  room : List ClipboardEvent → Bool
  /-- Whether the report of a failed direction closes the endpoint. -/
  failure : List ClipboardEvent → String → Bool
  newId : List ClipboardEvent → Option (Vector UInt8 16)

structure ClipboardTransfer where
  incoming : Option Transfer := none
  outgoing : Option Transfer := none
  seen : List String := []
  lastDigest : String := ""
  sequence : UInt64 := 0
  nextPoll : UInt64 := 0
  read : Bool := false
  write : Bool := false
  closed : Bool := false
  trace : List ClipboardEvent := []

namespace ClipboardTransfer

def note (s : ClipboardTransfer) (event : ClipboardEvent) : ClipboardTransfer :=
  { s with trace := event :: s.trace }

def close (s : ClipboardTransfer) : ClipboardTransfer :=
  { s with
    closed := true, read := false, write := false, incoming := none, outgoing := none,
    lastDigest := "", seen := [] }.note .closed

def remember (s : ClipboardTransfer) (id : String) : ClipboardTransfer :=
  let seen := s.seen ++ [id]
  { s with seen := if seen.length > maxSeen then seen.tail else seen }

def setRead (s : ClipboardTransfer) (value : Bool) (now : UInt64) : ClipboardTransfer :=
  { s with
    read := value, outgoing := none,
    sequence := if value then 0 else s.sequence,
    nextPoll := if value then now else s.nextPoll }.note (.reading value)

def setWrite (s : ClipboardTransfer) (value : Bool) : ClipboardTransfer :=
  { s with write := value, incoming := none }.note (.writing value)

/-- With both directions off nothing of the earlier transfers is kept. -/
def forget (s : ClipboardTransfer) : ClipboardTransfer :=
  if ¬ s.read ∧ ¬ s.write then { s with lastDigest := "", seen := [] } else s

@[simp] theorem forget_trace (s : ClipboardTransfer) : s.forget.trace = s.trace := by
  unfold forget
  split <;> rfl

@[simp] theorem forget_read (s : ClipboardTransfer) : s.forget.read = s.read := by
  unfold forget
  split <;> rfl

@[simp] theorem forget_write (s : ClipboardTransfer) : s.forget.write = s.write := by
  unfold forget
  split <;> rfl

@[simp] theorem forget_incoming (s : ClipboardTransfer) : s.forget.incoming = s.incoming := by
  unfold forget
  split <;> rfl

section Operations

variable (P : Primitives) (cb : Callbacks)

def askAvailable (s : ClipboardTransfer) : Bool × ClipboardTransfer :=
  let ok := cb.available s.trace
  (ok, s.note (.available ok))

def askRoom (s : ClipboardTransfer) : Bool × ClipboardTransfer :=
  let ok := cb.room s.trace
  (ok, s.note (.room ok))

def enablePermission (s : ClipboardTransfer) (permission : String) (value : Bool)
    (now : UInt64) : Bool × ClipboardTransfer :=
  if permission = "clipboard.read" then (true, (s.setRead value now).forget)
  else if permission = "clipboard.write" then (true, (s.setWrite value).forget)
  else (false, s)

def enable (s : ClipboardTransfer) (permission : String) (value : Bool) (now : UInt64) :
    Bool × ClipboardTransfer :=
  if s.closed then (false, s)
  else if ¬ value then s.enablePermission permission value now
  else
    match s.askAvailable cb with
    | (false, s) => (false, s)
    | (true, s) => s.enablePermission permission value now

def closeIf (s : ClipboardTransfer) (closes : Bool) : ClipboardTransfer :=
  if closes then s.close else s

def fail (s : ClipboardTransfer) (permission : String) : ClipboardTransfer :=
  let s := (s.enable cb permission false 0).2
  (s.note (.failure permission)).closeIf (cb.failure s.trace permission)

def sendMessage (s : ClipboardTransfer) (message : ClipboardMessage) :
    Bool × ClipboardTransfer :=
  let answer := cb.send s.trace message.type message.payload
  (answer.ok, (s.note (.sent message answer.ok)).closeIf answer.closes)

/-- The deadlines, checked for both directions. -/
def expire (s : ClipboardTransfer) (now : UInt64) : ClipboardTransfer :=
  let s := if s.incoming.any fun item => now ≥ item.deadline then s.fail cb "clipboard.write" else s
  if s.outgoing.any fun item => now ≥ item.deadline then s.fail cb "clipboard.read" else s

def written (s : ClipboardTransfer) (item : Transfer) : ClipboardTransfer :=
  { s.remember item.id with lastDigest := item.digest, incoming := none }

def finishReceive (s : ClipboardTransfer) : Bool × ClipboardTransfer :=
  match s.incoming with
  | none => (false, s)
  | some item =>
    if ¬ s.write ∨ digest P item.content ≠ item.digest ∨ ¬ plainText item.content then (false, s)
    else
      let ok := cb.write s.trace item.content
      let s := s.note (.wrote item.content ok)
      if ok then (s.written item).sendMessage cb (.ack item.id)
      else (true, s.fail cb "clipboard.write")

def offeredTransfer (id digest : String) (size : Nat) (now : UInt64) : Transfer :=
  { id := id, uuid := (uuidBytes id).getD [], digest := digest, size := size,
    deadline := now + timeoutMs }

def startReceive (s : ClipboardTransfer) (item : Transfer) : ClipboardTransfer :=
  { s with incoming := some item }.note (.accepted item.id item.size item.digest)

def takeOffer (s : ClipboardTransfer) (id : String) (size : Nat) (digest : String)
    (now : UInt64) : Bool × ClipboardTransfer :=
  if s.incoming.isSome ∨ s.seen.contains id then (false, s)
  else
    match (s.startReceive (offeredTransfer id digest size now)).sendMessage cb (.accept id) with
    | (false, s) => (false, s)
    | (true, s) =>
      if s.closed then (false, s) else if size = 0 then s.finishReceive P cb else (true, s)

def takeBytes (s : ClipboardTransfer) (item : Transfer) (bytes : Bytes) : ClipboardTransfer :=
  { s with incoming := some (item.append bytes) }.note (.took item.offset bytes)

def takeChunk (s : ClipboardTransfer) (uuid : Bytes) (offset : Nat) (bytes : Bytes) :
    Bool × ClipboardTransfer :=
  match s.incoming with
  | none => (false, s)
  | some item =>
    if item.uuid ≠ uuid ∨ offset ≠ item.offset ∨ bytes.length > item.size - item.offset then
      (false, s)
    else if (item.append bytes).offset = item.size then
      (s.takeBytes item bytes).finishReceive P cb
    else (true, s.takeBytes item bytes)

def takeAccept (s : ClipboardTransfer) (id : String) : Bool × ClipboardTransfer :=
  match s.outgoing with
  | none => (false, s)
  | some item =>
    if item.id ≠ id ∨ item.accepted then (false, s)
    else (true, { s with outgoing := some { item with accepted := true } })

def takeAck (s : ClipboardTransfer) (id : String) : Bool × ClipboardTransfer :=
  match s.outgoing with
  | none => (false, s)
  | some item =>
    if item.id ≠ id ∨ ¬ item.accepted ∨ item.offset ≠ item.size then (false, s)
    else (true, { s.remember id with lastDigest := item.digest, outgoing := none })

def take (s : ClipboardTransfer) (now : UInt64) : ClipboardMessage → Bool × ClipboardTransfer
  | .offer id size digest => s.takeOffer P cb id size digest now
  | .accept id => s.takeAccept id
  | .chunk uuid offset bytes => s.takeChunk P cb uuid offset bytes
  | .ack id => s.takeAck id

/-- Whether the frame belongs to the direction that this end receives. -/
def toIncoming (type : UInt8) : Bool :=
  type == Protocol.clipboardOffer || type == Protocol.clipboardChunk

def allows (s : ClipboardTransfer) (type : UInt8) : Bool :=
  if toIncoming type then s.write else s.read

def receive (s : ClipboardTransfer) (type : UInt8) (payload : Bytes) (now : UInt64) :
    Bool × ClipboardTransfer :=
  if s.closed then (false, s)
  else
    let s := s.expire cb now
    if s.closed then (false, s)
    -- a revoke may have overtaken a frame that was already queued
    else if ¬ s.allows type then (true, s)
    else
      match decodeMessage P type payload with
      | none => (false, s)
      | some message => s.take P cb now message

def advanced (s : ClipboardTransfer) (item : Transfer) : ClipboardTransfer :=
  { s with outgoing := some item.advance }

/-- At most so many chunks; `false` where the sender gave up. -/
def sendChunks : Nat → ClipboardTransfer → Bool × ClipboardTransfer
  | 0, s => (true, s)
  | count + 1, s =>
    match s.outgoing with
    | none => (true, s)
    | some item =>
      if item.offset ≥ item.size then (true, s)
      else
        match s.askRoom cb with
        | (false, s) => (true, s)
        | (true, s) =>
          match (s.advanced item).sendMessage cb
              (.chunk item.uuid item.offset item.nextChunk) with
          | (false, s) => (false, s.fail cb "clipboard.read")
          | (true, s) => sendChunks count s

def newTransfer (uuid : Bytes) (text : Bytes) (now : UInt64) : Transfer :=
  { id := uuidText uuid, uuid := uuid, digest := digest P text, content := text,
    size := text.length, deadline := now + timeoutMs }

def startSend (s : ClipboardTransfer) (item : Transfer) : ClipboardTransfer :=
  { s.note (.generated (some item.uuid)) with outgoing := some item }.note
    (.offered item.id item.content)

def offer (s : ClipboardTransfer) (text : Bytes) (now : UInt64) : ClipboardTransfer :=
  match cb.newId s.trace with
  | none => (s.note (.generated none)).fail cb "clipboard.read"
  | some random =>
    let item := newTransfer P (Files.Transfer.stampId random.toList) text now
    match (s.startSend item).sendMessage cb (.offer item.id item.size item.digest) with
    | (true, s) => s
    | (false, s) => s.fail cb "clipboard.read"

def looked (s : ClipboardTransfer) (status : ReadStatus) (sequence : UInt64) (text : Bytes)
    (now : UInt64) : ClipboardTransfer :=
  { s with nextPoll := now + pollMs, sequence := sequence }.note (.read status text)

/-- What the clipboard of the system holds is offered if it is a new text. -/
def look (s : ClipboardTransfer) (now : UInt64) :
    ReadStatus × UInt64 × Bytes → ClipboardTransfer
  | (status, sequence, text) =>
    if status ≠ .text ∨ text.length > Protocol.clipboardBytes ∨ ¬ plainText text ∨
        digest P text = s.lastDigest then s.looked status sequence text now
    else (s.looked status sequence text now).offer P cb text now

def poll (s : ClipboardTransfer) (now : UInt64) : ClipboardTransfer :=
  if ¬ s.read ∨ s.outgoing.isSome ∨ now < s.nextPoll then s
  else
    match s.askRoom cb with
    | (false, s) => s
    | (true, s) =>
      s.look P cb now (cb.read s.trace s.sequence)

def tick (s : ClipboardTransfer) (now : UInt64) : ClipboardTransfer :=
  if s.closed then s
  else
    let s := s.expire cb now
    if s.closed then s
    else
      match if s.outgoing.any (·.accepted) then s.sendChunks cb sendBurst else (true, s) with
      | (false, s) => s
      | (true, s) => s.poll P cb now

def perform (s : ClipboardTransfer) : ClipboardOp → Bool × ClipboardTransfer
  | .enable permission value now => s.enable cb permission value now
  | .receive type payload now => s.receive P cb type payload now
  | .tick now => (true, s.tick P cb now)
  | .close => (true, s.close)
  | .copy text => (true, s.note (.copied text))

def apply (s : ClipboardTransfer) (op : ClipboardOp) : ClipboardTransfer :=
  let (ok, s) := (s.note (.called op)).perform P cb op
  s.note (.returned op ok)

def run (ops : List ClipboardOp) : ClipboardTransfer := ops.foldl (apply P cb) {}

end Operations

end ClipboardTransfer

end HomeTunnel.Remote.Clipboard
