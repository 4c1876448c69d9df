import HomeTunnel.Lib.Duplex
import HomeTunnel.Lib.JsonText
import HomeTunnel.Lib.Utf8
import HomeTunnel.Clipboard.Moves

/-! # Two clipboard endpoints

Two endpoints that are joined by reliable channels: what the send callback of one takes is
what the other receives, once and in order.
-/

namespace HomeTunnel.Remote.Clipboard

open Auth (Primitives)
open Files (uuidText uuidBytes)
open ClipboardTransfer Duplex

def ClipboardEvent.message : ClipboardEvent → Option ClipboardMessage
  | .sent message true => some message
  | _ => none

/-- What the send callback took, in order. -/
def ClipboardTransfer.outbox (s : ClipboardTransfer) : List ClipboardMessage :=
  (s.trace.filterMap ClipboardEvent.message).reverse

/-- What happens at an end besides the frames that arrive. -/
inductive LocalOp
  | enable (permission : String) (value : Bool) (now : UInt64)
  | tick (now : UInt64)
  | copy (text : Bytes)
deriving DecidableEq, Repr

def LocalOp.op : LocalOp → ClipboardOp
  | .enable permission value now => .enable permission value now
  | .tick now => .tick now
  | .copy text => .copy text

section Growth

variable {P : Primitives} {cb : Callbacks} {op : ClipboardOp} {s t : ClipboardTransfer}

theorem Move.suffix (h : Move P cb op s t) : s.trace <:+ t.trace := by
  cases h with
  | setRead _ _ | setWrite _ =>
    rw [forget_trace]
    exact ⟨[_], rfl⟩
  | writeFailed item =>
    rw [forget_trace]
    exact ⟨[_, _], rfl⟩
  | takeAccept item | takeAck item => exact List.suffix_rfl
  | offer sequence text uuid now ok => exact ⟨[_, _, _, _], rfl⟩
  | accept id digest size now ok | write item ok => exact ⟨[_, _], rfl⟩
  | mark _ _ | copy _ | close | look _ _ _ _ | chunk _ _ | take _ _ => exact List.suffix_cons _ _

theorem apply_suffix (op : ClipboardOp) : s.trace <:+ (s.apply P cb op).trace := by
  refine apply_keeps (p := (s.trace <:+ ·.trace)) ?_ ?_ (List.suffix_cons _ _)
  · exact fun _ _ h hmove => h.trans hmove.suffix
  · exact fun _ _ h => h.trans (List.suffix_cons _ _)

theorem outbox_grows (h : s.trace <:+ t.trace) : s.outbox <+: t.outbox := by
  obtain ⟨new, hnew⟩ := h
  rw [outbox, outbox, ← hnew, List.filterMap_append, List.reverse_append]
  exact List.prefix_append _ _

end Growth

def party (P : Primitives) (cb : Callbacks) :
    Party ClipboardTransfer LocalOp ClipboardMessage ClipboardMessage UInt64 where
  outbox := outbox
  act s op := s.apply P cb op.op
  hear s message now := s.apply P cb (.receive message.type message.payload now)
  act_grows _ _ := outbox_grows (apply_suffix _)
  hear_grows _ _ _ := outbox_grows (apply_suffix _)

abbrev ClipboardLink := Link ClipboardTransfer ClipboardTransfer

abbrev ClipboardMove := Duplex.Move LocalOp LocalOp UInt64

/-- Two endpoints before the first call. -/
def fresh : ClipboardLink := ⟨{}, {}, 0, 0⟩

def ClipboardEvent.change : ClipboardEvent → Option Bytes
  | .copied text => some text
  | .wrote text true => some text
  | _ => none

/-- What the clipboard of an end holds. -/
def clipboard (trace : List ClipboardEvent) : Option Bytes :=
  trace.findSome? ClipboardEvent.change

/-- How often it changed. -/
def version (trace : List ClipboardEvent) : UInt64 :=
  UInt64.ofNat (trace.filterMap ClipboardEvent.change).length

/-- A clipboard that tells new text from old by counting its changes. The identifiers begin with
the given byte. -/
def desktop (first : UInt8) : Callbacks where
  available _ := true
  read trace sequence :=
    match clipboard trace with
    | none => (.noText, sequence, [])
    | some text =>
      if sequence = version trace then (.unchanged, sequence, [])
      else (.text, version trace, text)
  write _ _ := true
  send _ _ _ := ⟨true, false⟩
  room _ := true
  failure _ _ := false
  newId trace := some #v[first, UInt8.ofNat trace.length, 0, 0, 0, 0, 0, 0, 0, 0, 0, 0, 0, 0, 0, 0]

/-- A library that reads exactly what it writes, and a digest that is the text itself if it is
short. -/
def exactPrimitives : Primitives where
  readJson bytes := (Utf8.decode bytes).bind fun text => (JsonText.parse text).map JsonText.Doc.value
  onCurve _ _ := true
  sha256 text := (text ++ List.replicate 32 0).take 32
  ecdsaVerify _ _ _ := true

def runDesktops (moves : List ClipboardMove) : ClipboardLink :=
  fresh.run (party exactPrimitives (desktop 1)) (party exactPrimitives (desktop 2)) moves

end HomeTunnel.Remote.Clipboard
