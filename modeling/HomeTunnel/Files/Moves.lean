import HomeTunnel.Files.Tables
import HomeTunnel.Lib.Trace

/-! # What an endpoint can do

`Move` lists the atomic effects of the operations, each with the tests that the
code has made by then. Every operation is a sequence of moves, so a property of
runs is proved once for each move. A move belongs to the call in progress; the
flag tells whether the sending loop of `tick` has begun.
-/

namespace HomeTunnel.Remote.Files

open Trace

/-- Reports of callbacks that no table depends on. -/
def FileEvent.quiet : FileEvent → Bool
  | .current _ | .room _ | .localError _ | .hashed .. | .generated _ | .opened .. | .read ..
  | .unchanged .. | .created .. | .aborted _ => true
  | .notice body => body.event != "complete"
  | _ => false

/-- The destination that an event uses. -/
def FileEvent.destination? : FileEvent → Option Nat
  | .attached _ destination | .wrote destination .. | .committed destination _ => some destination
  | _ => none

def FileEvent.isCall : FileEvent → Prop
  | .called _ => True
  | _ => False

/-- The outgoing item with that id entered the table. -/
def FileEvent.entersOut (id : String) : FileEvent → Bool
  | .inserted other outgoing => outgoing && other == id
  | _ => false

/-- That id was drawn from the random generator. -/
def FileEvent.draws (id : String) : FileEvent → Bool
  | .generated (some uuid) => uuidText uuid == id
  | _ => false

def Hash.fed (hash : Hash) (bytes : Bytes) : Hash := { hash with data := hash.data ++ bytes }

def Hash.marked (hash : Hash) (finished : Bool) : Hash := { hash with finished := finished }

/-- The digest so far of an item that has one. -/
def Item.digesting (item : Item) : Hash := item.hash.getD {}

def Item.sealHash (item : Item) (finished : Bool) : Item :=
  { item with hash := some (item.digesting.marked finished) }

/-- The item after a chunk was written. -/
def Item.filled (item : Item) (bytes : Bytes) (now last : UInt64) : Item :=
  { item with
    hash := some (item.digesting.fed bytes), offset := item.offset + bytes.length,
    deadline := dueAt now, pendingAck := true, lastProgress := last }

/-- Why a message is put in the queue. -/
def Queueable (s : Transfer) : FileMessage → Prop
  | .offer id name size =>
    ∃ item ∈ s.items, item.id = id ∧ item.outgoing ∧ ¬ item.offered ∧ item.name = name ∧
      item.size = size
  | .accept id =>
    ∃ item ∈ s.items, item.id = id ∧ ¬ item.outgoing ∧ item.accepted ∧
      item.destination.isSome
  | .chunk .. => False
  | .complete id size digest =>
    ∃ item ∈ s.items, item.id = id ∧ item.outgoing ∧ item.completing ∧ item.size = size ∧
      item.digest = digest
  | .ackOffset id offset =>
    ∃ item ∈ s.items, item.id = id ∧ ¬ item.outgoing ∧ item.pendingAck ∧ item.offset = offset
  | .ackDigest id _ =>
    ∃ d, .attached id d ∈ s.trace ∧ Since (· = .committed d true) FileEvent.isCall s.trace
  | .cancel _ => True

/-- The tables have room for one more item of that size. -/
structure Fits (s : Transfer) (item : Item) : Prop where
  fresh : s.find item.id = none
  count : s.items.length < Protocol.batchFiles
  size : item.size ≤ Protocol.fileBytes
  sum : (s.items.map (·.size)).sum + item.size ≤ Protocol.batchFileBytes

/-- The call in progress delivers that message. -/
def Delivers (cb : Callbacks) (op : FileOp) (message : FileMessage) : Prop :=
  ∃ type payload now, op = .receive type payload now ∧
    decodeMessage cb.json type payload = some message

inductive Move (cb : Callbacks) (op : FileOp) (sending : Bool) (s : Transfer) : Transfer → Prop
  | mark (event : FileEvent) (hquiet : event.quiet) : Move cb op sending s (s.note event)
  | subtract (a b : Nat) (hle : b ≤ a) : Move cb op sending s (s.note (.subtracted a b))
  | close (events : List FileEvent)
      (hevents : ∀ e ∈ events, e.quiet ∨ (∃ d o b ok, e = .wrote d o b ok) ∨
        ∃ type payload, e = .sent type payload false)
      (hwrote : ∀ d o b ok, .wrote d o b ok ∈ events → ∃ item ∈ s.items, item.destination = some d) :
      Move cb op sending s { s with trace := events ++ s.trace }.close
  | overflow (hsending : sending = false) : Move cb op sending s (s.note .overflowed).close
  | enable (outgoing value : Bool) : Move cb op sending s (s.setEnabled outgoing value)
  | drop (keep : FileMessage → Bool) :
      Move cb op sending s { s with queue := s.queue.filter keep }
  | discard (item : Item) (events : List FileEvent) (hitem : s.find item.id = some item)
      (hevents : ∀ e ∈ events, e.quiet ∨
        ∃ d o b ok, item.destination = some d ∧ e = .wrote d o b ok) :
      Move cb op sending s ({ s with trace := events ++ s.trace }.discard item)
  | queue (message : FileMessage) (hroom : s.queue.length < maxQueue)
      (hwhy : Queueable s message) :
      Move cb op sending s ({ s with queue := s.queue ++ [message] }.note (.queued message))
  | pop (message : FileMessage) (rest : List FileMessage) (hqueue : s.queue = message :: rest) :
      Move cb op sending s
        (({ s with queue := rest }.note
          (.sent message.type (message.payload cb.json) true)).clearPending message)
  | insertOut (item : Item) (uuid : Bytes) (source : Nat) (path : String) (now : UInt64)
      (hitem : item = Transfer.sourceItem uuid item.name item.size source now)
      (hname : fileNameAllowed item.name)
      (hdrawn : s.trace.countP (·.entersOut item.id) < s.trace.countP (·.draws item.id))
      (hopened : .opened source path (some item.size) ∈ s.trace) (hfits : Fits s item) :
      Move cb op sending s (s.insert item)
  | offered (item : Item) (hitem : s.find item.id = some item) (hout : item.outgoing) :
      Move cb op sending s (s.put { item with offered := true })
  | accepted (item : Item) (now : UInt64) (hitem : s.find item.id = some item)
      (hout : item.outgoing) (hoffered : item.offered) (hnew : ¬ item.accepted)
      (hop : Delivers cb op (.accept item.id)) :
      Move cb op sending s (s.put { item with accepted := true, deadline := dueAt now })
  | start (item : Item) (good : Bool) (hitem : s.find item.id = some item) (hout : item.outgoing)
      (haccepted : item.accepted) (hnew : ¬ item.running) (hactive : s.active < maxActive)
      (hidle : ¬ item.awaiting ∧ ¬ item.completing) :
      Move cb op sending s
        ((s.put { item with running := true, hash := some { good := good } }).note
          (.hashed .init good))
  | sentChunk (item : Item) (bytes : Bytes) (source : Nat) (now : UInt64)
      (hitem : s.find item.id = some item) (hout : item.outgoing) (haccepted : item.accepted)
      (hrunning : item.running) (hidle : ¬ item.awaiting ∧ ¬ item.completing)
      (hsource : source = item.source.getD 0)
      (hread : .read source item.offset (some bytes) ∈ s.trace)
      (hbytes : bytes.length = min Protocol.fileChunkBytes (item.size - item.offset))
      (hsize : item.offset < item.size)
      (hgood : item.digesting.good ∧ ¬ item.digesting.finished) :
      Move cb op sending s
        (((s.note (.hashed .update true)).put
          (item.waitFor (item.digesting.fed bytes) (item.offset + bytes.length) now)).note
          (.sent Protocol.fileChunk (chunkPayload item.uuid item.offset bytes) true))
  | acked (item : Item) (now last : UInt64) (hitem : s.find item.id = some item)
      (hout : item.outgoing) (haccepted : item.accepted) (hawaiting : item.awaiting)
      (hop : Delivers cb op (.ackOffset item.id item.awaitingOffset)) :
      Move cb op sending s
        (s.put
          { item with
            awaiting := false, offset := item.awaitingOffset, deadline := dueAt now,
            lastProgress := last })
  | completing (item : Item) (source : Nat) (now : UInt64) (hitem : s.find item.id = some item)
      (hout : item.outgoing) (haccepted : item.accepted) (hrunning : item.running)
      (hidle : ¬ item.awaiting ∧ ¬ item.completing) (hsource : source = item.source.getD 0)
      (hsize : item.size ≤ item.offset) (hunchanged : cb.unchanged s.trace source = true)
      (hgood : item.digesting.good ∧ ¬ item.digesting.finished) :
      Move cb op sending s
        (((s.note (.unchanged source true)).note (.hashed .final true)).put
          { item with
            digest := hex (cb.sha256 item.digesting.data),
            hash := some (item.digesting.marked true),
            completing := true, deadline := dueAt now })
  | finishOut (item : Item) (hitem : s.find item.id = some item) (hout : item.outgoing)
      (haccepted : item.accepted) (hcompleting : item.completing)
      (hop : Delivers cb op (.ackDigest item.id item.digest)) :
      Move cb op sending s (s.retire item)
  | insertIn (item : Item) (now : UInt64) (hin : s.incomingEnabled)
      (hop : Delivers cb op (.offer item.id item.name item.size))
      (hitem : item = Transfer.offeredItem item.id item.name item.size now)
      (hunseen : ¬ s.remembered item.id) (hfits : Fits s item) :
      Move cb op sending s (s.insert item)
  | attach (item : Item) (d : Nat) (path : String) (now : UInt64) (good : Bool)
      (hop : op = .approveDestination item.id path now) (hitem : s.find item.id = some item)
      (hin : ¬ item.outgoing) (hnew : ¬ item.accepted) (hactive : s.active < maxActive)
      (hd : d < s.trace.length) (hfresh : ∀ e ∈ s.trace, ∀ d', e.destination? = some d' → d' < d) :
      Move cb op sending s
        (((s.note (.attached item.id d)).note (.hashed .init good)).put
          (item.attachTo d { good := good } now))
  | written (item : Item) (d : Nat) (bytes : Bytes) (now last : UInt64)
      (hop : Delivers cb op (.chunk item.id item.offset bytes))
      (hitem : s.find item.id = some item) (hin : ¬ item.outgoing)
      (hd : item.destination = some d) (hack : ¬ item.pendingAck)
      (hsize : item.offset + bytes.length ≤ item.size)
      (hgood : item.digesting.good ∧ ¬ item.digesting.finished) :
      Move cb op sending s
        ((((s.note (.wrote d item.offset bytes true)).note (.current true)).note
          (.hashed .update true)).put (item.filled bytes now last))
  | sealed (item : Item) (digest : String) (finished : Bool) (hitem : s.find item.id = some item)
      (hdigest : digest = item.digest ∨ (item.outgoing ∧ ¬ item.completing))
      (hfinished : item.digesting.finished → finished) :
      Move cb op sending s (s.put { item.sealHash finished with digest := digest })
  | commit (item : Item) (d : Nat) (digest : String) (ok : Bool)
      (hop : Delivers cb op (.complete item.id item.size digest))
      (hitem : s.find item.id = some item) (hin : ¬ item.outgoing) (hallowed : s.incomingEnabled)
      (hd : item.destination = some d) (hack : ¬ item.pendingAck) (hsize : item.offset = item.size)
      (hgood : item.digesting.good ∧ ¬ item.digesting.finished)
      (hdigest : hex (cb.sha256 item.digesting.data) = digest) :
      Move cb op sending s
        ((((s.note (.hashed .final true)).note (.current true)).put
          (item.sealHash true).markCompleting).note (.committed d ok))
  | finishIn (item : Item) (name : String) (hitem : s.find item.id = some item)
      (hin : ¬ item.outgoing) : Move cb op sending s (s.retire { item with name := name })

abbrev Moves (cb : Callbacks) (op : FileOp) (sending : Bool) : Transfer → Transfer → Prop :=
  Relation.ReflTransGen (Move cb op sending)

/-- What one call does: moves, and where `tick` comes so far, the sending loop. -/
def Call (cb : Callbacks) (op : FileOp) (s t : Transfer) : Prop :=
  Moves cb op false s t ∨
    ∃ mid, Moves cb op false s mid ∧ Moves cb op true (mid.note .sending) t

theorem Moves.keeps {cb : Callbacks} {op : FileOp} {sending : Bool} {s t : Transfer}
    {p : Transfer → Prop} (hmove : ∀ s t, p s → Move cb op sending s t → p t)
    (h : Moves cb op sending s t) (hs : p s) : p t := by
  induction h with
  | refl => exact hs
  | tail _ hstep ih => exact hmove _ _ ih hstep

section Growth

open Transfer

variable {cb : Callbacks} {op : FileOp} {sending : Bool} {s t u : Transfer} {item : Item}

/-- What a move may record. -/
def FileEvent.allowed (sending : Bool) : FileEvent → Prop
  | .called _ | .returned .. | .sending => False
  | .subtracted a b => b ≤ a
  | .overflowed => sending = false
  | _ => True

variable {event : FileEvent}

theorem FileEvent.allowed_of_quiet (h : event.quiet) : event.allowed sending := by
  cases event <;> trivial

theorem FileEvent.not_isCall_of_allowed (h : event.allowed sending) : ¬ event.isCall := by
  intro hcall
  cases event <;> first | exact h | exact hcall

/-- The trace of `t` is that of `s` with allowed events on top. -/
def Grows (sending : Bool) (s t : Transfer) : Prop :=
  ∃ events, t.trace = events ++ s.trace ∧ ∀ e ∈ events, e.allowed sending

theorem Grows.of_eq (h : t.trace = s.trace) : Grows sending s t := ⟨[], h, by simp⟩

theorem Grows.append (h : Grows sending s t) (events : List FileEvent)
    (htrace : u.trace = events ++ t.trace) (he : ∀ e ∈ events, e.allowed sending) :
    Grows sending s u := by
  obtain ⟨old, hold, hallowed⟩ := h
  refine ⟨events ++ old, by rw [htrace, hold, List.append_assoc], ?_⟩
  intro e hmem
  rcases List.mem_append.mp hmem with hmem | hmem
  · exact he e hmem
  · exact hallowed e hmem

theorem Grows.note (h : Grows sending s t) (event : FileEvent) (he : event.allowed sending) :
    Grows sending s (t.note event) := by
  apply h.append [event] rfl
  intro e hmem
  rw [List.mem_singleton.mp hmem]
  exact he

theorem Grows.put (h : Grows sending s t) (item : Item) : Grows sending s (t.put item) := h

theorem mem_aborts (h : event ∈ aborts item) : ∃ d, event = .aborted d := by
  simp only [aborts, List.mem_map] at h
  obtain ⟨d, -, rfl⟩ := h
  exact ⟨d, rfl⟩

theorem Grows.close (h : Grows sending s t) : Grows sending s t.close := by
  apply h.append (closing t.items) (by simp)
  intro e he
  obtain ⟨_, _, rfl | ⟨_, _, rfl⟩⟩ := mem_closing he <;> trivial

theorem allowed_of_aborts (h : event ∈ aborts item) : event.allowed sending := by
  obtain ⟨_, rfl⟩ := mem_aborts h
  trivial

theorem Grows.discard (h : Grows sending s t) (item : Item) : Grows sending s (t.discard item) :=
  (h.note (.erased item.id) trivial).append (aborts item) (by simp) fun _ => allowed_of_aborts

theorem Grows.retire (h : Grows sending s t) (item : Item) : Grows sending s (t.retire item) :=
  ((h.note (.notice (completeNotice item)) trivial).note (.erased item.id) trivial).append
    (aborts item) (by simp) fun _ => allowed_of_aborts

theorem Grows.insert (h : Grows sending s t) (hnew : t.find item.id = none) :
    Grows sending s (t.insert item) := by
  rw [insert_eq hnew]
  exact Grows.note h (.inserted item.id item.outgoing) trivial

theorem Grows.clearPending (h : Grows sending s t) (message : FileMessage) :
    Grows sending s (t.clearPending message) := by
  rcases clearPending_cases (s := t) message with heq | ⟨item, -, -, -, heq⟩
  · rw [heq]; exact h
  · rw [heq]; exact h

theorem Move.grows (h : Move cb op sending s t) : Grows sending s t := by
  have hs : Grows sending s s := .of_eq rfl
  cases h with
  | mark event hquiet => exact hs.note event (FileEvent.allowed_of_quiet hquiet)
  | subtract a b hle => exact hs.note _ hle
  | close events hevents =>
    apply Grows.close
    apply hs.append events rfl
    intro e he
    rcases hevents e he with hquiet | ⟨_, _, _, _, rfl⟩ | ⟨_, _, rfl⟩
    · exact FileEvent.allowed_of_quiet hquiet
    · trivial
    · trivial
  | overflow hsending => exact (hs.note .overflowed hsending).close
  | enable outgoing value =>
    apply hs.append [.enabled outgoing value] setEnabled_trace
    simp [FileEvent.allowed]
  | drop keep => exact hs
  | discard item events hitem hevents =>
    apply Grows.discard
    apply hs.append events rfl
    intro e he
    rcases hevents e he with hquiet | ⟨_, _, _, _, -, rfl⟩
    · exact FileEvent.allowed_of_quiet hquiet
    · trivial
  | queue message => exact Grows.note hs (.queued message) trivial
  | pop message =>
    apply Grows.clearPending
    exact Grows.note hs _ trivial
  | insertOut item _ _ _ _ _ _ _ _ hfits | insertIn item _ _ _ _ _ hfits =>
    exact hs.insert hfits.fresh
  | offered item | accepted item | acked item | sealed item => exact hs.put _
  | start item good => exact (hs.put _).note (.hashed .init good) trivial
  | sentChunk item => exact ((hs.note (.hashed .update true) trivial).put _).note _ trivial
  | completing item source =>
    exact ((hs.note (.unchanged source true) trivial).note (.hashed .final true) trivial).put _
  | finishOut item => exact hs.retire item
  | attach item d path now good =>
    exact ((hs.note (.attached item.id d) trivial).note (.hashed .init good) trivial).put _
  | written item d bytes =>
    exact (((hs.note (.wrote d item.offset bytes true) trivial).note (.current true) trivial).note
      (.hashed .update true) trivial).put _
  | commit item d digest ok =>
    exact (((hs.note (.hashed .final true) trivial).note (.current true) trivial).put _).note
      (.committed d ok) trivial
  | finishIn item name => exact hs.retire _

theorem Moves.grows (h : Moves cb op sending s t) : Grows sending s t := by
  induction h with
  | refl => exact .of_eq rfl
  | tail _ hmove ih =>
    obtain ⟨events, htrace, hallowed⟩ := hmove.grows
    exact ih.append events htrace hallowed

end Growth

end HomeTunnel.Remote.Files
