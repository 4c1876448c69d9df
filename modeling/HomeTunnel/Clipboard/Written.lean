import HomeTunnel.Lib.Pieces
import HomeTunnel.Native.Reader
import HomeTunnel.Clipboard.Moves

/-! # What is written to the clipboard

Whatever the peer sends, a text reaches the clipboard of the system only as the
answer to an offer: it consists of the chunks that came after the offer, in their
order and without gaps, and it has the size and the digest that the offer named.
-/

namespace HomeTunnel.Remote.Clipboard

open Auth (Primitives)
open Files (uuidBytes)
open ClipboardTransfer Pieces Trace

def ClipboardEvent.piece : ClipboardEvent → Option (Nat × Bytes)
  | .took offset bytes => some (offset, bytes)
  | _ => none

/-- The chunks that were taken, in the order of their arrival. -/
def taken (trace : List ClipboardEvent) : List (Nat × Bytes) :=
  (trace.filterMap ClipboardEvent.piece).reverse

def ClipboardEvent.writeFlag : ClipboardEvent → Option Bool
  | .writing value => some value
  | .closed => some false
  | _ => none

/-- Whether the direction that this end receives is enabled. -/
def writeOn (trace : List ClipboardEvent) : Bool :=
  (trace.findSome? ClipboardEvent.writeFlag).getD false

def ClipboardEvent.call : ClipboardEvent → Option ClipboardOp
  | .called op => some op
  | _ => none

/-- The call that is going on hands over a frame with that message. -/
def Hears (P : Primitives) (trace : List ClipboardEvent) (message : ClipboardMessage) : Prop :=
  ∃ op, trace.findSome? ClipboardEvent.call = some op ∧ Delivers P op message

/-- An offer was accepted, or a text was handed to the clipboard. -/
def ClipboardEvent.settles : ClipboardEvent → Prop
  | .accepted .. | .wrote .. => True
  | _ => False

/-- The offer is the last one that was accepted, nothing was written since, and these are the
events since. -/
def Open (trace : List ClipboardEvent) (id : String) (size : Nat) (digest : String)
    (since : List ClipboardEvent) : Prop :=
  (∀ event ∈ since, ¬ event.settles) ∧
    ∃ before, trace = since ++ .accepted id size digest :: before

/-- The text answers the offer that is open. -/
structure AsOffered (P : Primitives) (text : Bytes) (past : List ClipboardEvent) : Prop where
  enabled : writeOn past = true
  utf8 : validUtf8 text = true
  noNul : 0 ∉ text
  offer : ∃ id since, Open past id text.length (digest P text) since ∧
    Tiles 0 (taken since) text.length ∧ content (taken since) = text
  short : text.length ≤ Protocol.clipboardBytes

/-- What an event of the trace says about its past. -/
def Right (P : Primitives) : ClipboardEvent → List ClipboardEvent → Prop
  | .wrote text _, past => AsOffered P text past
  | .accepted id size digest, past => Hears P past (.offer id size digest)
  | .took offset bytes, past => ∃ id size digest since, Open past id size digest since ∧
      Hears P past (.chunk ((uuidBytes id).getD []) offset bytes)
  | _, _ => True

/-- Where the endpoint stands with the offer that it is receiving. -/
structure Receiving (trace : List ClipboardEvent) (item : Transfer) : Prop where
  offer : ∃ since, Open trace item.id item.size item.digest since ∧
    Tiles 0 (taken since) item.offset ∧ content (taken since) = item.content
  uuid : item.uuid = (uuidBytes item.id).getD []
  fits : item.offset ≤ item.size
  short : item.size ≤ Protocol.clipboardBytes

/-- The invariant, inside that call or before the first one. -/
structure Kept (P : Primitives) (call : Option ClipboardOp) (s : ClipboardTransfer) : Prop where
  right : Each (Right P) s.trace
  flag : writeOn s.trace = s.write
  incoming : ∀ item, s.incoming = some item → Receiving s.trace item
  call : s.trace.findSome? ClipboardEvent.call = call

section Steps

variable {P : Primitives} {cb : Callbacks} {op : ClipboardOp} {call : Option ClipboardOp}
  {s t : ClipboardTransfer}
  {event : ClipboardEvent} {item : Transfer} {trace : List ClipboardEvent}

/-- Events that the invariant does not speak of. -/
def ClipboardEvent.neutral : ClipboardEvent → Prop
  | .called _ | .writing _ | .closed | .accepted .. | .took .. | .wrote .. => False
  | _ => True

theorem ClipboardEvent.neutral_of_quiet (h : event.quiet) : event.neutral := by
  cases event <;> trivial

theorem right_of_neutral (h : event.neutral) : Right P event trace := by
  cases event <;> trivial

theorem writeOn_neutral (h : event.neutral) : writeOn (event :: trace) = writeOn trace := by
  cases event <;> first | rfl | exact h.elim

theorem call_neutral (h : event.neutral) :
    (event :: trace).findSome? ClipboardEvent.call = trace.findSome? ClipboardEvent.call := by
  cases event <;> first | rfl | exact h.elim

theorem Open.cons {id digest : String} {size : Nat} {since : List ClipboardEvent}
    (h : Open trace id size digest since) (event : ClipboardEvent) (hevent : ¬ event.settles) :
    Open (event :: trace) id size digest (event :: since) := by
  obtain ⟨hsince, before, rfl⟩ := h
  refine ⟨?_, before, rfl⟩
  intro e he
  rcases List.mem_cons.mp he with rfl | he
  · exact hevent
  · exact hsince e he

theorem Receiving.cons (h : Receiving trace item) (hevent : ¬ event.settles)
    (hpiece : event.piece = none) : Receiving (event :: trace) item := by
  obtain ⟨since, hopen, htiles, hcontent⟩ := h.offer
  have htaken : taken (event :: since) = taken since := by simp [taken, hpiece]
  refine ⟨⟨event :: since, hopen.cons event hevent, ?_, ?_⟩, h.uuid, h.fits, h.short⟩
  · rw [htaken]
    exact htiles
  · rw [htaken]
    exact hcontent

theorem Receiving.neutral (h : Receiving trace item) (hevent : event.neutral) :
    Receiving (event :: trace) item := by
  refine h.cons ?_ ?_
  · cases event <;> first | exact hevent.elim | exact id
  · cases event <;> first | exact hevent.elim | rfl

/-- The part of the state that the invariant reads changes only by neutral events. -/
theorem Kept.neutral (h : Kept P call s) (event : ClipboardEvent) (hevent : event.neutral)
    (htrace : t.trace = event :: s.trace) (hwrite : t.write = s.write) (hincoming : t.incoming = s.incoming) : Kept P call t := by
  refine ⟨?_, ?_, ?_, ?_⟩
  · rw [htrace]
    exact ⟨right_of_neutral hevent, h.right⟩
  · rw [htrace, writeOn_neutral hevent, h.flag, hwrite]
  · intro item hitem
    rw [htrace]
    exact (h.incoming item (hincoming ▸ hitem)).neutral hevent
  · rw [htrace, call_neutral hevent, h.call]

theorem Kept.note (h : Kept P call s) (event : ClipboardEvent) (hevent : event.neutral) :
    Kept P call (s.note event) := h.neutral event hevent rfl rfl rfl

theorem Kept.setWrite (h : Kept P call s) (value : Bool) : Kept P call (s.setWrite value).forget := by
  refine ⟨?_, ?_, ?_, ?_⟩
  · rw [forget_trace]
    exact ⟨trivial, h.right⟩
  · rw [forget_trace, forget_write]
    rfl
  · intro item hitem
    rw [forget_incoming] at hitem
    cases hitem
  · rw [forget_trace]
    exact h.call

theorem Kept.close (h : Kept P call s) : Kept P call s.close :=
  ⟨⟨trivial, h.right⟩, rfl, nofun, h.call⟩

theorem Kept.startReceive {id digest : String} {size : Nat} (h : Kept P (some op) s) (now : UInt64)
    (hop : Delivers P op (.offer id size digest)) :
    Kept P (some op) (s.startReceive (offeredTransfer id digest size now)) := by
  refine ⟨⟨⟨op, h.call, hop⟩, h.right⟩, h.flag, ?_, h.call⟩
  intro item hitem
  cases hitem
  refine ⟨⟨[], ⟨nofun, s.trace, rfl⟩, rfl, rfl⟩, rfl, Nat.zero_le _, ?_⟩
  obtain ⟨type, payload, _, _, hmessage⟩ := hop
  exact (decodeMessage_spec hmessage).2 id size digest rfl

theorem Receiving.append (h : Receiving trace item) {bytes : Bytes}
    (hsize : bytes.length ≤ item.size - item.offset) :
    Receiving (.took item.offset bytes :: trace) (item.append bytes) := by
  obtain ⟨since, hopen, htiles, hcontent⟩ := h.offer
  have htaken : taken (.took item.offset bytes :: since) = taken since ++ [(item.offset, bytes)] := by
    simp [taken, ClipboardEvent.piece]
  have hfits := h.fits
  refine ⟨⟨_, hopen.cons (.took item.offset bytes) id, ?_, ?_⟩, h.uuid, ?_, h.short⟩
  · rw [htaken]
    exact htiles.snoc bytes
  · rw [htaken, content_append, hcontent]
    simp [Transfer.append]
  · simp only [Transfer.append]
    omega

theorem Kept.takeBytes (h : Kept P (some op) s) {bytes : Bytes} (hitem : s.incoming = some item)
    (hop : Delivers P op (.chunk item.uuid item.offset bytes))
    (hsize : bytes.length ≤ item.size - item.offset) : Kept P (some op) (s.takeBytes item bytes) := by
  have hreceiving := h.incoming item hitem
  obtain ⟨since, hopen, -⟩ := hreceiving.offer
  refine ⟨⟨⟨item.id, item.size, item.digest, since, hopen, op, h.call, ?_⟩, h.right⟩, h.flag, ?_,
    h.call⟩
  · rw [← hreceiving.uuid]
    exact hop
  · intro other hother
    cases hother
    exact hreceiving.append hsize

theorem plainText_iff {text : Bytes} : plainText text = true ↔ 0 ∉ text ∧ validUtf8 text = true := by
  simp [plainText]

/-- A complete transfer with the right digest answers its offer. -/
theorem Receiving.asOffered (h : Receiving trace item) (hwrite : writeOn trace = true)
    (hdigest : digest P item.content = item.digest) (hplain : plainText item.content = true)
    (hfull : item.offset = item.size) : AsOffered P item.content trace := by
  obtain ⟨since, hopen, htiles, hcontent⟩ := h.offer
  obtain ⟨hnul, hutf8⟩ := plainText_iff.mp hplain
  have hlength : item.content.length = item.size := by
    have := htiles.length_content
    rw [hcontent] at this
    omega
  refine ⟨hwrite, hutf8, hnul, ⟨item.id, since, ?_, ?_, hcontent⟩, ?_⟩
  · rw [hlength, hdigest]
    exact hopen
  · rw [hlength, ← hfull]
    exact htiles
  · rw [hlength]
    exact h.short

theorem Kept.asOffered (h : Kept P call s) (hitem : s.incoming = some item) (hwrite : s.write = true)
    (hdigest : digest P item.content = item.digest) (hplain : plainText item.content = true)
    (hfull : item.offset = item.size) : AsOffered P item.content s.trace :=
  (h.incoming item hitem).asOffered (h.flag.trans hwrite) hdigest hplain hfull

theorem Kept.move (h : Kept P (some op) s) (hmove : Move P cb op s t) : Kept P (some op) t := by
  cases hmove with
  | mark event hquiet => exact h.note event (ClipboardEvent.neutral_of_quiet hquiet)
  | copy text => exact h.note _ trivial
  | close => exact h.close
  | setRead value now =>
    exact h.neutral (.reading value) trivial (forget_trace _) (forget_write _) (forget_incoming _)
  | setWrite value => exact h.setWrite value
  | look status sequence text now => exact h.neutral (.read status text) trivial rfl rfl rfl
  | offer sequence text uuid now ok =>
    have hlook : Kept P (some op) (s.looked .text sequence text now) :=
      h.neutral (.read .text text) trivial rfl rfl rfl
    have hstart : Kept P (some op) ((s.looked .text sequence text now).startSend
        (newTransfer P uuid text now)) :=
      (hlook.note (.generated (some uuid)) trivial).neutral (.offered _ text) trivial rfl rfl rfl
    exact hstart.note _ trivial
  | chunk item ok => exact h.neutral (.sent _ ok) trivial rfl rfl rfl
  | takeAccept item | takeAck item => exact ⟨h.right, h.flag, h.incoming, h.call⟩
  | accept id digest size now ok hop => exact (h.startReceive now hop).note _ trivial
  | take item bytes hop hitem hsize => exact h.takeBytes hitem hop hsize
  | write item ok _ hitem hwrite hdigest hplain hfull =>
    have hright := h.asOffered hitem hwrite hdigest hplain hfull
    exact ⟨⟨trivial, hright, h.right⟩, h.flag, nofun, h.call⟩
  | writeFailed item _ hitem hwrite hdigest hplain hfull =>
    have hright := h.asOffered hitem hwrite hdigest hplain hfull
    have hnone : Kept P (some op) { s.note (.wrote item.content false) with incoming := none } :=
      ⟨⟨hright, h.right⟩, h.flag, nofun, h.call⟩
    exact hnone.setWrite false

theorem Kept.apply (h : Kept P call s) (op : ClipboardOp) : Kept P (some op) (s.apply P cb op) := by
  have hcalled : Kept P (some op) (s.note (.called op)) := by
    refine ⟨⟨trivial, h.right⟩, h.flag, ?_, rfl⟩
    intro item hitem
    exact (h.incoming item hitem).cons id rfl
  exact apply_keeps (fun _ _ hs hmove => hs.move hmove) (fun _ _ hs => hs.note _ trivial) hcalled

theorem Kept.run (h : Kept P call s) (ops : List ClipboardOp) :
    ∃ last, Kept P last (ops.foldl (ClipboardTransfer.apply P cb) s) := by
  induction ops generalizing call s with
  | nil => exact ⟨call, h⟩
  | cons op rest ih => exact ih (h.apply op)

end Steps

/-- Whatever the peer sends, whatever is switched and however the clipboard answers, a text is
handed to the clipboard only while receiving is enabled and as the answer to the offer that is
open: it has the size and the digest of that offer and consists of the chunks that arrived since,
in their order. An offer that was answered is not open any more. -/
theorem writes_as_offered (P : Primitives) (cb : Callbacks) (ops : List ClipboardOp) :
    ∀ later event past, (ClipboardTransfer.run P cb ops).trace = later ++ event :: past →
      Right P event past := by
  have hstart : Kept P none {} := ⟨trivial, rfl, nofun, rfl⟩
  obtain ⟨_, hlast⟩ : ∃ last, Kept P last (ClipboardTransfer.run P cb ops) := hstart.run ops
  exact each_iff.mp hlast.right

/-- A session that takes everything and whose user copies nothing. -/
def idle : Callbacks where
  available := fun _ => true
  read := fun _ sequence => (.unchanged, sequence, [])
  write := fun _ _ => true
  send := fun _ _ _ => ⟨true, false⟩
  room := fun _ => true
  failure := fun _ _ => false
  newId := fun _ => none

def greetingId : String := "00112233-4455-4677-8899-aabbccddeeff"

def greeting : List ClipboardOp :=
  let offer := ClipboardMessage.offer greetingId 2 (digest Auth.Reader.primitives [104, 105])
  let chunk := ClipboardMessage.chunk ((uuidBytes greetingId).getD []) 0 [104, 105]
  [.enable "clipboard.write" true 0, .receive offer.type offer.payload 1,
    .receive chunk.type chunk.payload 2]

theorem greeting_written :
    ∃ later past, (ClipboardTransfer.run Auth.Reader.primitives idle greeting).trace =
        later ++ .wrote [104, 105] true :: past ∧
      AsOffered Auth.Reader.primitives [104, 105] past := by
  have hmem : .wrote [104, 105] true ∈
      (ClipboardTransfer.run Auth.Reader.primitives idle greeting).trace := by decide +kernel
  obtain ⟨later, past, htrace⟩ := List.append_of_mem hmem
  exact ⟨later, past, htrace, writes_as_offered _ idle greeting later _ past htrace⟩

end HomeTunnel.Remote.Clipboard
