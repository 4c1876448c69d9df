import HomeTunnel.Files.Message

/-! # One file endpoint

`FileTransfer::Impl` as a state machine. Callbacks, storage, the hash and the
random generator answer as they like: each is a function of the trace so far,
and every call is recorded in the trace, newest event first. Besides the calls
the trace holds marks for what the code does to its own tables, so that
statements about a run can speak about moments inside an operation.

Sizes and offsets are `Nat` with the `uint64_t` wrap-around written out; times
are `UInt64`. A source or a destination is named by the length of the trace at
the moment it was opened.
-/

namespace HomeTunnel.Remote.Files

def timeoutMs : UInt64 := 30000
def maxActive : Nat := 2
def maxQueue : Nat := 256
def maxSeen : Nat := 128
def sendBurst : Nat := 16

/-- The deadline that activity at that time sets. -/
@[irreducible] def dueAt (now : UInt64) : UInt64 := now + timeoutMs

def add64 (a b : Nat) : Nat := (a + b) % 2 ^ 64

def sub64 (a b : Nat) : Nat := (a + 2 ^ 64 - b) % 2 ^ 64

/-- The running digest: what was fed to it, and the two flags of the class. -/
structure Hash where
  data : Bytes := []
  good : Bool := false
  finished : Bool := false
deriving DecidableEq, Repr

structure Item where
  id : String
  name : String
  digest : String := ""
  uuid : Bytes
  size : Nat
  offset : Nat := 0
  deadline : UInt64
  awaitingOffset : Nat := 0
  lastProgress : UInt64 := 0
  outgoing : Bool := false
  offered : Bool := false
  accepted : Bool := false
  running : Bool := false
  awaiting : Bool := false
  completing : Bool := false
  pendingAck : Bool := false
  source : Option Nat := none
  destination : Option Nat := none
  hash : Option Hash := none
deriving DecidableEq, Repr

def Item.attachTo (item : Item) (destination : Nat) (hash : Hash) (now : UInt64) : Item :=
  { item with
    destination := some destination, hash := some hash, accepted := true, running := true,
    deadline := dueAt now }

def Item.waitFor (item : Item) (hash : Hash) (offset : Nat) (now : UInt64) : Item :=
  { item with
    hash := some hash, awaiting := true, awaitingOffset := offset, deadline := dueAt now }

def Item.markCompleting (item : Item) : Item := { item with completing := true }

inductive FileOp
  | enable (permission : String) (value : Bool) (now : UInt64)
  | offerSources (paths : List String) (now : UInt64)
  | approveDestination (id path : String) (now : UInt64)
  | cancel (id : String) (now : UInt64) (notify : Bool)
  | receive (type : UInt8) (payload : Bytes) (now : UInt64)
  | tick (now : UInt64)
  | close
deriving DecidableEq, Repr

/-- The body that `emit` hands to the event callback. -/
structure Notice where
  event : String
  id : String
  name : String
  size : Nat
  offset : Nat
  outgoing : Bool
  error : String
  mayBeSaved : Bool
deriving DecidableEq, Repr

inductive HashCall
  | init | update | final
deriving DecidableEq, Repr

inductive FileEvent
  | called (op : FileOp)
  | returned (op : FileOp) (ok : Bool)
  | current (ok : Bool)
  | room (ok : Bool)
  | sent (type : UInt8) (payload : Bytes) (ok : Bool)
  | notice (notice : Notice)
  | localError (error : String)
  | hashed (call : HashCall) (ok : Bool)
  | generated (uuid : Option Bytes)
  | opened (source : Nat) (path : String) (size : Option Nat)
  | read (source offset : Nat) (bytes : Option Bytes)
  | unchanged (source : Nat) (ok : Bool)
  | created (destination : Nat) (path : String) (ok : Bool)
  | wrote (destination offset : Nat) (bytes : Bytes) (ok : Bool)
  | committed (destination : Nat) (ok : Bool)
  | aborted (destination : Nat)
  | inserted (id : String) (outgoing : Bool)
  | attached (id : String) (destination : Nat)
  | erased (id : String)
  | enabled (outgoing value : Bool)
  | queued (message : FileMessage)
  | overflowed
  | subtracted (a b : Nat)
  | sending
deriving DecidableEq, Repr

/-- What the endpoint is built over. A successful `read` fills the span it was given. -/
structure Callbacks where
  json : JsonLibrary
  sha256 : Bytes → Bytes
  current : List FileEvent → Bool
  room : List FileEvent → Bool
  send : List FileEvent → UInt8 → Bytes → Bool
  hash : List FileEvent → HashCall → Bool
  newId : List FileEvent → Option (Vector UInt8 16)
  openSource : List FileEvent → String → Except String (String × UInt64)
  read : List FileEvent → Nat → Nat → (count : Nat) → Option (Vector UInt8 count)
  unchanged : List FileEvent → Nat → Bool
  createDestination : List FileEvent → String → Nat → Except String Unit
  write : List FileEvent → Nat → Nat → Bytes → Bool
  commit : List FileEvent → Nat → Option String

/-- Items stand in the order of the map, by ascending id. -/
structure Transfer where
  items : List Item := []
  queue : List FileMessage := []
  seen : List String := []
  incomingEnabled : Bool := false
  outgoingEnabled : Bool := false
  closed : Bool := false
  trace : List FileEvent := []

namespace Transfer

def note (s : Transfer) (event : FileEvent) : Transfer := { s with trace := event :: s.trace }

def find (s : Transfer) (id : String) : Option Item := s.items.find? (·.id = id)

def put (s : Transfer) (item : Item) : Transfer :=
  { s with items := s.items.map fun other => if other.id = item.id then item else other }

/-- `items.emplace`: an id that is already there keeps its item. -/
def insert (s : Transfer) (item : Item) : Transfer :=
  if (s.find item.id).isSome then s
  else
    { s with items := s.items.orderedInsert (fun a b => a.id ≤ b.id) item }.note
      (.inserted item.id item.outgoing)

def erase (s : Transfer) (id : String) : Transfer :=
  { s with items := s.items.filter (·.id ≠ id) }.note (.erased id)

def active (s : Transfer) : Nat := s.items.countP (·.running)

def total (s : Transfer) : Nat := s.items.foldl (fun size item => add64 size item.size) 0

def remembered (s : Transfer) (id : String) : Bool := s.seen.contains id

def remember (s : Transfer) (id : String) : Transfer :=
  let seen := if s.remembered id then s.seen else s.seen ++ [id]
  { s with seen := if seen.length > maxSeen then seen.tail else seen }

def subtract (s : Transfer) (a b : Nat) : Nat × Transfer :=
  (sub64 a b, s.note (.subtracted a b))

/-- `destination->abort()` where there is a destination; also what `~Item` does. -/
def abort (s : Transfer) (item : Item) : Transfer :=
  match item.destination with
  | none => s
  | some destination => s.note (.aborted destination)

def emit (s : Transfer) (item : Item) (state : String) (error : String := "")
    (maybeSaved : Bool := false) : Transfer :=
  s.note (.notice
    { event := state, id := item.id, name := item.name, size := item.size, offset := item.offset,
      outgoing := item.outgoing, error := error, mayBeSaved := maybeSaved })

/-- Clearing the map destroys the items in turn. -/
def clearItems : List Item → Transfer → Transfer
  | [], s => s
  | item :: rest, s => clearItems rest ((s.erase item.id).abort item)

def close (s : Transfer) : Transfer :=
  let s := { s with closed := true, incomingEnabled := false, outgoingEnabled := false, queue := [] }
  { clearItems s.items s with seen := [] }

def enqueue (s : Transfer) (message : FileMessage) : Bool × Transfer :=
  if s.queue.length ≥ maxQueue then (false, (s.note .overflowed).close)
  else (true, { s with queue := s.queue ++ [message] }.note (.queued message))

/-- The item leaves the tables and its messages leave the queue. -/
def discard (s : Transfer) (item : Item) : Transfer :=
  let s := s.erase item.id
  let s := { s with queue := s.queue.filter (·.id ≠ item.id) }
  (s.remember item.id).abort item

def cancel (s : Transfer) (id : String) (notify : Bool)
    (error : String := "RD_FILE_CANCELLED") (maybeSaved : Bool := false) : Bool × Transfer :=
  match s.find id with
  | none => (s.remembered id, s)
  | some item =>
    let s := s.discard item
    let s := if notify ∧ ¬ s.closed then (s.enqueue (.cancel item.id)).2 else s
    let s := s.emit item (if error = "RD_FILE_CANCELLED" then "cancelled" else "error") error
      (maybeSaved || item.completing)
    (true, s.abort item)

def cancelAll (notify : Bool) (error : String) : List String → Transfer → Transfer
  | [], s => s
  | id :: rest, s => cancelAll notify error rest (s.cancel id notify error).2

/-- The end of a transfer that went through; the item is destroyed with its map entry. -/
def retire (s : Transfer) (item : Item) : Transfer :=
  (((s.emit item "complete").remember item.id).erase item.id).abort item

/-- The stored item, with the time of its last progress notice. -/
def progress (s : Transfer) (item : Item) (now : UInt64) : Transfer :=
  if item.lastProgress = 0 ∨ now - item.lastProgress ≥ 100 ∨ item.offset = item.size then
    let item := { item with lastProgress := now }
    (s.put item).emit item "progress"
  else s.put item

end Transfer

section Operations

variable (cb : Callbacks)

namespace Transfer

def live (s : Transfer) : Bool × Transfer :=
  if s.closed then (false, s)
  else
    let ok := cb.current s.trace
    let s := s.note (.current ok)
    if ok then (true, s) else (false, s.close)

def askRoom (s : Transfer) : Bool × Transfer :=
  let ok := cb.room s.trace
  (ok, s.note (.room ok))

def sendFrame (s : Transfer) (type : UInt8) (payload : Bytes) : Bool × Transfer :=
  let ok := cb.send s.trace type payload
  (ok, s.note (.sent type payload ok))

end Transfer

def newHash (s : Transfer) : Hash × Transfer :=
  let ok := cb.hash s.trace .init
  ({ good := ok }, s.note (.hashed .init ok))

def Hash.update (hash : Hash) (bytes : Bytes) (s : Transfer) : Bool × Hash × Transfer :=
  if ¬ hash.good ∨ hash.finished then (false, hash, s)
  else
    let ok := cb.hash s.trace .update
    (ok, { hash with data := hash.data ++ bytes, good := ok }, s.note (.hashed .update ok))

def Hash.finish (hash : Hash) (s : Transfer) : String × Hash × Transfer :=
  if ¬ hash.good ∨ hash.finished then ("", hash, s)
  else
    let ok := cb.hash s.trace .final
    (if ok then hex (cb.sha256 hash.data) else "", { hash with finished := true },
      s.note (.hashed .final ok))

namespace Transfer

def dropsMessage (outgoing : Bool) (message : FileMessage) : Bool :=
  if outgoing then message.type == Protocol.fileOffer || message.type == Protocol.fileComplete
  else message.type == Protocol.fileAccept || message.type == Protocol.fileAck

def setEnabled (s : Transfer) (outgoing value : Bool) : Transfer :=
  (if outgoing then { s with outgoingEnabled := value }
    else { s with incomingEnabled := value }).note (.enabled outgoing value)

def enableDirection (s : Transfer) (outgoing value : Bool) : Transfer :=
  let s := s.setEnabled outgoing value
  if value then s
  else
    let s := { s with queue := s.queue.filter fun message => ¬ dropsMessage outgoing message }
    cancelAll true "RD_FILE_CANCELLED" ((s.items.filter (·.outgoing = outgoing)).map (·.id)) s

def enable (s : Transfer) (permission : String) (value : Bool) : Bool × Transfer :=
  match s.live cb with
  | (false, s) => (false, s)
  | (true, s) =>
    if permission = "files.send" then (true, s.enableDirection false value)
    else if permission = "files.receive" then (true, s.enableDirection true value)
    else (false, s)

/-- The version and variant bits of a random UUID. -/
def stampId (bytes : Bytes) : Bytes :=
  (bytes.set 6 ((byteAt bytes 6 &&& 15) ||| 64)).set 8 ((byteAt bytes 8 &&& 63) ||| 128)

/-- A fresh item of the sender, named by the id that was drawn for it. -/
def sourceItem (uuid : Bytes) (name : String) (size source : Nat) (now : UInt64) : Item :=
  { id := uuidText uuid, uuid := uuid, name := name, size := size, source := some source,
    outgoing := true, deadline := dueAt now }

/-- A fresh item of the receiver, as the peer's offer describes it. -/
def offeredItem (id name : String) (size : Nat) (now : UInt64) : Item :=
  { id := id, uuid := (uuidBytes id).getD [], name := name, size := size,
    deadline := dueAt now }

/-- The loop of `offerSources` that opens the sources; `none` where it gives up. -/
def prepare (now : UInt64) : List String → Nat → List Item → Transfer →
    Option (List Item) × Transfer
  | [], _, prepared, s => (some prepared, s)
  | path :: rest, batch, prepared, s =>
    let source := s.trace.length
    let answer := cb.openSource s.trace path
    let s := s.note (.opened source path (answer.toOption.map (·.2.toNat)))
    match s.live cb with
    | (false, s) => (none, s)
    | (true, s) =>
      match answer with
      | .error error => (none, s.note (.localError error))
      | .ok (name, bytes) =>
        let size := bytes.toNat
        if ¬ fileNameAllowed name ∨ size > Protocol.fileBytes then
          (none, s.note (.localError "RD_FILE_LIMIT"))
        else
          let (left, s) := s.subtract Protocol.batchFileBytes batch
          if size > left then (none, s.note (.localError "RD_FILE_LIMIT"))
          else
            let drawn := (cb.newId s.trace).map fun bytes => stampId bytes.toList
            let s := s.note (.generated drawn)
            match drawn with
            | none => (none, s.note (.localError "RD_FILE_INVALID"))
            | some uuid =>
              let id := uuidText uuid
              if (s.find id).isSome ∨ s.remembered id then
                (none, s.note (.localError "RD_FILE_INVALID"))
              else
                let item := sourceItem uuid name size source now
                prepare now rest (add64 batch size) (prepared ++ [item]) s

def addPrepared : List Item → Transfer → Transfer
  | [], s => s
  | item :: rest, s => addPrepared rest ((s.emit item "offer").insert item)

def approve (s : Transfer) (id path : String) (now : UInt64) : Bool × Transfer :=
  match s.live cb with
  | (false, s) => (false, s)
  | (true, s) =>
    if ¬ s.incomingEnabled then (false, s)
    else
      match s.find id with
      | none => (false, s)
      | some item =>
        if item.outgoing ∨ item.accepted ∨ now ≥ item.deadline ∨ s.active ≥ maxActive then
          (false, s)
        else
          let destination := s.trace.length
          let answer := cb.createDestination s.trace path item.size
          let s := s.note (.created destination path answer.toBool)
          match s.live cb with
          | (false, s) => (false, s)
          | (true, s) =>
            match answer with
            | .error error => (false, (s.cancel id true error).2)
            | .ok () =>
              let s := s.note (.attached id destination)
              let (hash, s) := newHash cb s
              let s := s.put (item.attachTo destination hash now)
              s.enqueue (.accept item.id)

def receiveOffer (s : Transfer) (id name : String) (size : Nat) (now : UInt64) :
    Bool × Transfer :=
  if (s.find id).any (·.outgoing) then (false, s)
  else if ¬ s.incomingEnabled then (true, s)
  else if (s.find id).isSome ∨ s.remembered id then (false, s)
  else if s.items.length ≥ Protocol.batchFiles then (false, s)
  else
    let (left, s) := s.subtract Protocol.batchFileBytes s.total
    if size > left then (false, s)
    else
      let item := offeredItem id name size now
      (true, (s.insert item).emit item "offer")

/-- A chunk for an item that has a destination. -/
def writeChunk (s : Transfer) (item : Item) (destination offset : Nat) (bytes : Bytes)
    (now : UInt64) : Bool × Transfer :=
  if item.outgoing ∨ ¬ item.accepted ∨ item.pendingAck ∨ offset ≠ item.offset then (false, s)
  else
    let (left, s) := s.subtract item.size item.offset
    if bytes.length > left then (false, s)
    else if now ≥ item.deadline then (true, (s.cancel item.id true "RD_FILE_TIMEOUT").2)
    else
      let ok := cb.write s.trace destination offset bytes
      let s := s.note (.wrote destination offset bytes ok)
      if ¬ ok then (true, (s.cancel item.id true "RD_FILE_WRITE_FAILED").2)
      else
        match s.live cb with
        | (false, s) => (false, s)
        | (true, s) =>
          let (ok, hash, s) := (item.hash.getD {}).update cb bytes s
          if ¬ ok then (true, (s.cancel item.id true "RD_FILE_HASH_FAILED").2)
          else
            let item :=
              { item with
                hash := some hash, offset := add64 item.offset bytes.length,
                deadline := dueAt now, pendingAck := true }
            (s.progress item now).enqueue (.ackOffset item.id item.offset)

def receiveChunk (s : Transfer) (id : String) (offset : Nat) (bytes : Bytes) (now : UInt64) :
    Bool × Transfer :=
  if (s.find id).any (·.outgoing) then (false, s)
  else if ¬ s.incomingEnabled then (true, s)
  else
    match s.find id with
    | none => (s.remembered id, s)
    | some item =>
      match item.destination with
      | none => (false, s)
      | some destination => s.writeChunk cb item destination offset bytes now

def receiveAccept (s : Transfer) (item : Item) (now : UInt64) : Bool × Transfer :=
  if ¬ item.outgoing ∨ ¬ item.offered ∨ item.accepted then (false, s)
  else (true, s.put { item with accepted := true, deadline := dueAt now })

/-- A committed file leaves the table under the name it was given, and the peer is told. -/
def acknowledge (s : Transfer) (item : Item) (name digest : String) : Bool × Transfer :=
  match s.live cb with
  | (false, s) => (false, s)
  | (true, s) =>
    (s.retire (if name = "" then item else { item with name := name })).enqueue
      (.ackDigest item.id digest)

/-- The end of a file whose size and digest agree with the peer's message. -/
def publish (s : Transfer) (item : Item) (destination : Nat) (digest : String) :
    Bool × Transfer :=
  match s.live cb with
  | (false, s) => (false, s)
  | (true, s) =>
    let item := item.markCompleting
    let s := s.put item
    let actual := cb.commit s.trace destination
    let s := s.note (.committed destination actual.isSome)
    match actual with
    | none => (true, (s.cancel item.id true "RD_FILE_WRITE_FAILED" true).2)
    | some name => s.acknowledge cb item name digest

/-- The peer's end of file for an item that has a destination. -/
def checkComplete (s : Transfer) (item : Item) (destination size : Nat) (sha256 : String) :
    Bool × Transfer :=
  if item.outgoing ∨ item.pendingAck ∨ size ≠ item.size ∨ item.offset ≠ item.size then (false, s)
  else
    let (digest, hash, s) := (item.hash.getD {}).finish cb s
    let item := { item with hash := some hash }
    let s := s.put item
    if digest = "" ∨ digest ≠ sha256 then
      (true, (s.cancel item.id true "RD_FILE_HASH_MISMATCH").2)
    else s.publish cb item destination digest

def receiveComplete (s : Transfer) (item : Item) (size : Nat) (sha256 : String) :
    Bool × Transfer :=
  match item.destination with
  | none => (false, s)
  | some destination => s.checkComplete cb item destination size sha256

def receiveAckOffset (s : Transfer) (item : Item) (offset : Nat) (now : UInt64) :
    Bool × Transfer :=
  if ¬ item.outgoing ∨ ¬ item.accepted then (false, s)
  else if ¬ item.awaiting ∨ offset ≠ item.awaitingOffset then (false, s)
  else
    let item :=
      { item with awaiting := false, offset := item.awaitingOffset, deadline := dueAt now }
    (true, s.progress item now)

def receiveAckDigest (s : Transfer) (item : Item) (sha256 : String) : Bool × Transfer :=
  if ¬ item.outgoing ∨ ¬ item.accepted then (false, s)
  else if ¬ item.completing ∨ item.digest ≠ sha256 then (false, s)
  else (true, s.retire item)

def permits (s : Transfer) (fromSender : Bool) : Bool :=
  if fromSender then s.incomingEnabled else s.outgoingEnabled

/-- The tests that `receive` makes for an acceptance, an end and an acknowledgement
before it looks at the state of the item. -/
def receiveKnown (s : Transfer) (id : String) (fromSender : Bool) (now : UInt64)
    (handle : Item → Bool × Transfer) : Bool × Transfer :=
  if (s.find id).any (·.outgoing == fromSender) then (false, s)
  else if ¬ s.permits fromSender then (true, s)
  else
    match s.find id with
    | none => (s.remembered id, s)
    | some item =>
      if now ≥ item.deadline then (true, (s.cancel id true "RD_FILE_TIMEOUT").2)
      else handle item

def handle (s : Transfer) (message : FileMessage) (now : UInt64) : Bool × Transfer :=
  match message with
  | .chunk id offset bytes => s.receiveChunk cb id offset bytes now
  | .offer id name size => s.receiveOffer id name size now
  | .cancel id => (true, (s.cancel id false).2)
  | .accept id => s.receiveKnown id false now fun item => s.receiveAccept item now
  | .complete id size sha256 =>
    s.receiveKnown id true now fun item => s.receiveComplete cb item size sha256
  | .ackOffset id offset =>
    s.receiveKnown id false now fun item => s.receiveAckOffset item offset now
  | .ackDigest id sha256 =>
    s.receiveKnown id false now fun item => s.receiveAckDigest item sha256

def receive (s : Transfer) (type : UInt8) (payload : Bytes) (now : UInt64) : Bool × Transfer :=
  match s.live cb with
  | (false, s) => (false, s)
  | (true, s) =>
    match decodeMessage cb.json type payload with
    | none => (false, s)
    | some message => s.handle cb message now

def offerLoop : List String → Transfer → Bool × Transfer
  | [], s => (true, s)
  | id :: rest, s =>
    match s.find id with
    | none => offerLoop rest s
    | some item =>
      if item.outgoing ∧ ¬ item.offered then
        match s.enqueue (.offer id item.name item.size) with
        | (false, s) => (false, s)
        | (true, s) => offerLoop rest (s.put { item with offered := true })
      else offerLoop rest s

/-- An acknowledgement that went out lets the next chunk of its item in. -/
def clearPending (s : Transfer) (message : FileMessage) : Transfer :=
  if message.type = Protocol.fileAck then
    match s.find message.id with
    | none => s
    | some item => if item.outgoing then s else s.put { item with pendingAck := false }
  else s

/-- The loop that empties the queue; `false` where `tick` returns out of it. -/
def sendQueue : Nat → Transfer → Bool × Transfer
  | 0, s => (true, s)
  | burst + 1, s =>
    match s.queue with
    | [] => (true, s)
    | message :: rest =>
      match s.askRoom cb with
      | (false, s) => (true, s)
      | (true, s) =>
        match s.live cb with
        | (false, s) => (true, s)
        | (true, s) =>
          let s := { s with queue := rest }
          match s.sendFrame cb message.type (message.payload cb.json) with
          | (false, s) => (false, s.close)
          | (true, s) => sendQueue burst (s.clearPending message)

/-- The part of a file that was read goes into the digest and out. -/
def sendBytes (s : Transfer) (item : Item) (bytes : Bytes) (now : UInt64) : Bool × Transfer :=
  match s.live cb with
  | (false, s) => (false, s)
  | (true, s) =>
    let (ok, hash, s) := (item.hash.getD {}).update cb bytes s
    if ¬ ok then (true, (s.cancel item.id true "RD_FILE_HASH_FAILED").2)
    else
      let s := s.put (item.waitFor hash (add64 item.offset bytes.length) now)
      match s.sendFrame cb Protocol.fileChunk (chunkPayload item.uuid item.offset bytes) with
      | (false, s) => (false, s.close)
      | (true, s) => (true, s)

def sendChunk (s : Transfer) (item : Item) (now : UInt64) : Bool × Transfer :=
  let (left, s) := s.subtract item.size item.offset
  let count := min Protocol.fileChunkBytes left
  let source := item.source.getD 0
  let answer := (cb.read s.trace source item.offset count).map (·.toList)
  let s := s.note (.read source item.offset answer)
  match answer with
  | none => (true, (s.cancel item.id true "RD_FILE_READ_FAILED").2)
  | some bytes => s.sendBytes cb item bytes now

def sendComplete (s : Transfer) (item : Item) (now : UInt64) : Bool × Transfer :=
  let source := item.source.getD 0
  let ok := cb.unchanged s.trace source
  let s := s.note (.unchanged source ok)
  if ¬ ok then (true, (s.cancel item.id true "RD_FILE_READ_FAILED").2)
  else
    let (digest, hash, s) := (item.hash.getD {}).finish cb s
    let item := { item with digest := digest, hash := some hash }
    let s := s.put item
    if digest = "" then (true, (s.cancel item.id true "RD_FILE_HASH_FAILED").2)
    else
      (s.put { item with completing := true, deadline := dueAt now }).enqueue
        (.complete item.id item.size digest)

/-- A sender gets one of the active places when its first chunk is due. -/
def startRunning (s : Transfer) (item : Item) : Item × Transfer :=
  if item.running then (item, s)
  else
    let (hash, s) := newHash cb s
    let item := { item with running := true, hash := some hash }
    (item, s.put item)

/-- One round of the sending loop; `false` where `tick` returns out of it. -/
def sendItem (s : Transfer) (id : String) (now : UInt64) : Bool × Transfer :=
  match s.find id with
  | none => (true, s)
  | some item =>
    if ¬ item.outgoing ∨ ¬ item.accepted ∨ item.awaiting ∨ item.completing then (true, s)
    else
      match s.askRoom cb with
      | (false, s) => (true, s)
      | (true, s) =>
        if ¬ item.running ∧ s.active ≥ maxActive then (true, s)
        else
          let (item, s) := s.startRunning cb item
          match s.live cb with
          | (false, s) => (false, s)
          | (true, s) =>
            if item.offset < item.size then s.sendChunk cb item now
            else s.sendComplete cb item now

def sendLoop (now : UInt64) : List String → Transfer → Transfer
  | [], s => s
  | id :: rest, s =>
    match s.sendItem cb id now with
    | (false, s) => s
    | (true, s) => sendLoop now rest s

/-- Clears out what timed out and sends what waits. The items themselves are
served only when the queue is empty. -/
def tick (s : Transfer) (now : UInt64) : Transfer :=
  match s.live cb with
  | (false, s) => s
  | (true, s) =>
    let expired := (s.items.filter (now ≥ ·.deadline)).map (·.id)
    let s := cancelAll true "RD_FILE_TIMEOUT" expired s
    match offerLoop (s.items.map (·.id)) s with
    | (false, s) => s
    | (true, s) =>
      match sendQueue cb sendBurst s with
      | (false, s) => s
      | (true, s) =>
        if s.queue ≠ [] then s
        else
          match s.live cb with
          | (false, s) => s
          | (true, s) => sendLoop cb now (s.items.map (·.id)) (s.note .sending)

def offerSources (s : Transfer) (paths : List String) (now : UInt64) : Bool × Transfer :=
  match s.live cb with
  | (false, s) => (false, s)
  | (true, s) =>
    if ¬ s.outgoingEnabled then (false, s)
    else if paths = [] ∨ paths.length + s.items.length > Protocol.batchFiles then
      (false, s.note (.localError "RD_FILE_LIMIT"))
    else
      match prepare cb now paths s.total [] s with
      | (none, s) => (false, s)
      | (some prepared, s) =>
        let s := (addPrepared prepared s).tick cb now
        (!s.closed, s)

def perform (s : Transfer) : FileOp → Bool × Transfer
  | .enable permission value _ => s.enable cb permission value
  | .offerSources paths now => s.offerSources cb paths now
  | .approveDestination id path now => s.approve cb id path now
  | .cancel id _ notify => s.cancel id notify
  | .receive type payload now => s.receive cb type payload now
  | .tick now => (true, s.tick cb now)
  | .close => (true, s.close)

def step (s : Transfer) (op : FileOp) : Transfer :=
  let (ok, s) := perform cb (s.note (.called op)) op
  s.note (.returned op ok)

def run (ops : List FileOp) : Transfer := ops.foldl (step cb) {}

end Transfer

end Operations

end HomeTunnel.Remote.Files
