import HomeTunnel.Native.GateRelease

/-! # What an input frame does

The five `accept` operations past their common checks. What the gate notes of a frame and which
sink calls it makes for it is said once, in `acceptBody_outcome`; the later modules read their
own part of it.
-/

namespace HomeTunnel.Remote

open Session

/-- The permission bit that a sink call needs. -/
def SinkCall.permission : SinkCall → UInt64
  | .key .. => Protocol.permissionInputKeyboard
  | .button .. | .pointer .. | .wheel .. => Protocol.permissionInputPointer
  | .text _ => Protocol.permissionInputText

namespace GateOp

def message? : GateOp → Option Bytes
  | acceptKey bytes _ | acceptButton bytes _ | acceptPointer bytes _ | acceptWheel bytes _
  | acceptText bytes _ => some bytes
  | _ => none

/-- The messages that share the sequence of the reliable channel. -/
def reliable : GateOp → Bool
  | acceptKey .. | acceptButton .. | acceptWheel .. | acceptText .. => true
  | _ => false

def isPointer : GateOp → Bool
  | acceptPointer .. => true
  | _ => false

/-- The motion that a message carries. -/
def motion? : GateOp → Option UInt32
  | acceptButton bytes _ | acceptPointer bytes _ =>
    some (readU32 (bytes.drop Protocol.headerLength) 12)
  | acceptWheel bytes _ => some (readU32 (bytes.drop Protocol.headerLength) 20)
  | _ => none

/-- The permission that a message needs. -/
def permission : GateOp → UInt64
  | acceptKey .. => Protocol.permissionInputKeyboard
  | acceptText .. => Protocol.permissionInputText
  | _ => Protocol.permissionInputPointer

end GateOp

namespace SessionGate

def noteKey (g : SessionGate) (usage : UInt16) (down : Bool) : SessionGate :=
  { g with pressedKeys := if down then g.pressedKeys.insert usage else g.pressedKeys.erase usage }

def noteButton (g : SessionGate) (button : UInt8) (down : Bool) : SessionGate :=
  { g with
    pressedButtons :=
      if down then g.pressedButtons.insert button else g.pressedButtons.erase button }

/-- What a successful sink call does to the pressed sets. -/
def note (g : SessionGate) : SinkCall → SessionGate
  | .key usage down _ => g.noteKey usage down
  | .button button down => g.noteButton button down
  | _ => g

end SessionGate

/-- `h` is `g` after notes of a frame, with the pressed sets of `p`. -/
structure Noted (g p h : SessionGate) : Prop where
  rest : h =
    { g with
      pressedKeys := p.pressedKeys
      pressedButtons := p.pressedButtons
      inputSequence := h.inputSequence
      motionSequence := h.motionSequence
      motionId := h.motionId
      textIds := h.textIds }
  sequence : g.inputSequence ≤ h.inputSequence
  motion : g.motionId ≤ h.motionId
  texts : ∀ id ∈ g.textIds, id ∈ h.textIds

theorem Noted.refl (g : SessionGate) : Noted g g g :=
  ⟨rfl, UInt32.le_refl _, UInt32.le_refl _, fun _ h => h⟩

/-- The session in which the last sink call for a frame is made. -/
inductive Asks (permission : UInt64) (s : Session) : Session → Prop
  | reserved {g : SessionGate} (hg : Noted s.gate s.gate g) : Asks permission s ⟨g, s.trace⟩
  | pointer {slot x y : UInt16} (hp : (SinkCall.pointer slot x y).permission = permission) :
      Asks permission s (s.mark (.sink (.pointer slot x y) true))

/-- `t` is `s` after `frame`, which the sink has taken. -/
structure Delivered (op : GateOp) (frame : Frame) (s t : Session) : Prop where
  inputEpoch : frame.inputEpoch = s.gate.inputEpoch
  sequence : op.reliable → s.gate.inputSequence < frame.sequence ∧
    t.gate.inputSequence = frame.sequence
  motion : ∀ motion ∈ op.motion?, motion ≤ t.gate.motionId
  pointer : op.isPointer → ∀ motion ∈ op.motion?, s.gate.motionId < motion

/-- The frame is the one in the message of `op`. -/
def Frame.Of (frame : Frame) (op : GateOp) : Prop :=
  frame.payload = (op.message?.getD []).drop Protocol.headerLength

/-- The ends of a frame: no sink call, a last one that fails, or all of them taken. -/
inductive FrameOutcome (sink : InputSink) (op : GateOp) (frame : Frame) (s : Session) :
    GateResult × Session → Prop
  | noted (r : GateResult) (hr : r ≠ .expired) {g : SessionGate} (hg : Noted s.gate s.gate g) :
      FrameOutcome sink op frame s (r, ⟨g, s.trace⟩)
  | failed {mid : Session} (hmid : Asks op.permission s mid) {call : SinkCall}
      (hcall : call.permission = op.permission) (hepoch : frame.inputEpoch = s.gate.inputEpoch) :
      FrameOutcome sink op frame s (giveUp sink (mid.mark (.sink call false)))
  | taken {mid : Session} (hmid : Asks op.permission s mid) {call : SinkCall}
      (hcall : call.permission = op.permission) {g : SessionGate}
      (hg : Noted mid.gate (mid.gate.note call) g)
      (hd : frame.Of op → Delivered op frame s ⟨g, .sink call true :: mid.trace⟩) :
      FrameOutcome sink op frame s (.ok, ⟨g, .sink call true :: mid.trace⟩)

section Frames

variable {sink : InputSink} {op : GateOp} {frame : Frame} {s mid : Session}

theorem FrameOutcome.refused (r : GateResult) (hr : r ≠ .expired := by decide) :
    FrameOutcome sink op frame s (r, s) :=
  .noted r hr (.refl s.gate)

theorem FrameOutcome.checked {c : Prop} [Decidable c] {r : GateResult}
    {rest : GateResult × Session} (h : ¬ c → FrameOutcome sink op frame s rest)
    (hr : r ≠ .expired := by decide) :
    FrameOutcome sink op frame s (if c then (r, s) else rest) := by
  split
  · exact .refused r hr
  · next hc => exact h hc

/-- The last sink call for the frame, whatever the sink answers. -/
theorem FrameOutcome.asked (hmid : Asks op.permission s mid) {call : SinkCall}
    (hcall : call.permission = op.permission) (hepoch : frame.inputEpoch = s.gate.inputEpoch)
    {f : SessionGate → SessionGate} (hf : Noted mid.gate (mid.gate.note call) (f mid.gate))
    (hd : frame.Of op → ∀ t : Session, t.gate = f mid.gate → Delivered op frame s t) :
    FrameOutcome sink op frame s
      (match mid.invoke sink call with
        | (false, t) => giveUp sink t
        | (true, t) => (.ok, t.modify f)) := by
  cases hok : sink mid.trace call with
  | false =>
    simp only [invoke, hok]
    exact .failed hmid hcall hepoch
  | true =>
    simp only [invoke, hok]
    exact .taken hmid hcall hf fun hof => hd hof _ rfl

/-- A pointer call before the last one. -/
theorem FrameOutcome.pointed (hop : op.permission = Protocol.permissionInputPointer)
    (hepoch : frame.inputEpoch = s.gate.inputEpoch) (slot x y : UInt16)
    {rest : Session → GateResult × Session}
    (hrest : ∀ t, t = s.mark (.sink (.pointer slot x y) true) →
      FrameOutcome sink op frame s (rest t)) :
    FrameOutcome sink op frame s
      (match s.invoke sink (.pointer slot x y) with
        | (false, t) => giveUp sink t
        | (true, t) => rest t) := by
  cases hok : sink s.trace (.pointer slot x y) with
  | false =>
    simp only [invoke, hok]
    exact .failed (.reserved (.refl s.gate)) hop.symm hepoch
  | true =>
    simp only [invoke, hok]
    exact hrest _ rfl

theorem le_max_motion (a b : UInt32) : a ≤ max a b ∧ b ≤ max a b := by
  rw [show max a b = if a ≤ b then b else a from rfl]
  split
  · exact ⟨‹_›, UInt32.le_refl _⟩
  · exact ⟨UInt32.le_refl _, UInt32.le_of_lt (UInt32.not_le.mp ‹_›)⟩

/-- What the check against replays leaves. -/
theorem fresh_of_not_replay {a b : UInt32} {g : SessionGate}
    (h : ¬ (a ≠ g.inputEpoch ∨ b ≤ g.inputSequence)) : a = g.inputEpoch ∧ g.inputSequence < b := by
  push Not at h
  exact ⟨h.1, UInt32.not_le.mp h.2⟩

variable (sink)

theorem acceptKeyFrame_outcome (bytes : Bytes) (now : UInt64) (s : Session) (frame : Frame) :
    FrameOutcome sink (.acceptKey bytes now) frame s (acceptKeyFrame sink s frame) := by
  refine .checked fun hreplay => .checked fun _ => .checked fun _ => ?_
  obtain ⟨hepoch, hseq⟩ := fresh_of_not_replay hreplay
  have hle := UInt32.le_of_lt hseq
  split
  · exact .noted _ (by decide) ⟨rfl, hle, UInt32.le_refl _, fun _ h => h⟩
  refine .asked (.reserved (.refl s.gate)) rfl hepoch ⟨rfl, hle, UInt32.le_refl _, fun _ h => h⟩ ?_
  rintro - t ht
  exact ⟨hepoch, fun _ => ⟨hseq, by rw [ht]⟩, nofun, nofun⟩

theorem acceptButtonFrame_outcome (bytes : Bytes) (now : UInt64) (s : Session) (frame : Frame) :
    FrameOutcome sink (.acceptButton bytes now) frame s (acceptButtonFrame sink s frame) := by
  refine .checked fun hreplay => .checked fun _ => .checked fun _ => .checked fun _ => ?_
  obtain ⟨hepoch, hseq⟩ := fresh_of_not_replay hreplay
  have hle := UInt32.le_of_lt hseq
  split
  · exact .noted _ (by decide) ⟨rfl, hle, UInt32.le_refl _, fun _ h => h⟩
  refine .pointed rfl hepoch _ _ _ fun t ht => ?_
  subst ht
  refine .asked (.pointer rfl) rfl hepoch
    ⟨rfl, hle, (le_max_motion _ _).1, fun _ h => h⟩ fun hof t ht => ?_
  refine ⟨hepoch, fun _ => ⟨hseq, by rw [ht]⟩, fun motion hm => ?_, nofun⟩
  cases hm
  rw [ht, ← show frame.payload = bytes.drop Protocol.headerLength from hof]
  exact (le_max_motion _ _).2

theorem acceptPointerFrame_outcome (bytes : Bytes) (now : UInt64) (s : Session) (frame : Frame) :
    FrameOutcome sink (.acceptPointer bytes now) frame s (acceptPointerFrame sink s frame) := by
  refine .checked fun hreplay => .checked fun _ => ?_
  push Not at hreplay
  have hlt := UInt32.not_le.mp hreplay.2.2.2
  refine .asked (.reserved (.refl s.gate)) rfl hreplay.1
    ⟨rfl, UInt32.le_refl _, UInt32.le_of_lt hlt, fun _ h => h⟩ fun hof t ht => ?_
  have hpayload : frame.payload = bytes.drop Protocol.headerLength := hof
  refine ⟨hreplay.1, nofun, fun motion hm => ?_, fun _ motion hm => ?_⟩ <;> cases hm
  · rw [ht, ← hpayload]
    exact UInt32.le_refl _
  · rwa [← hpayload]

theorem acceptWheelFrame_outcome (bytes : Bytes) (now : UInt64) (s : Session) (frame : Frame) :
    FrameOutcome sink (.acceptWheel bytes now) frame s (acceptWheelFrame sink s frame) := by
  refine .checked fun hreplay => .checked fun _ => .checked fun _ => ?_
  obtain ⟨hepoch, hseq⟩ := fresh_of_not_replay hreplay
  refine .pointed rfl hepoch _ _ _ fun t ht => ?_
  subst ht
  refine .asked (.pointer rfl) rfl hepoch
    ⟨rfl, UInt32.le_of_lt hseq, (le_max_motion _ _).1, fun _ h => h⟩ fun hof t ht => ?_
  refine ⟨hepoch, fun _ => ⟨hseq, by rw [ht]⟩, fun motion hm => ?_, nofun⟩
  cases hm
  rw [ht, ← show frame.payload = bytes.drop Protocol.headerLength from hof]
  exact (le_max_motion _ _).2

theorem acceptTextFrame_outcome (bytes : Bytes) (now : UInt64) (s : Session) (frame : Frame) :
    FrameOutcome sink (.acceptText bytes now) frame s (acceptTextFrame sink s frame) := by
  refine .checked fun _ => .checked fun hreplay => .checked fun _ => ?_
  obtain ⟨hepoch, hseq⟩ := fresh_of_not_replay hreplay
  have hle := UInt32.le_of_lt hseq
  dsimp only
  split
  · rename_i prior taken _
    refine .checked fun _ => ?_
    exact .noted _ (by cases taken <;> simp) ⟨rfl, hle, UInt32.le_refl _, fun _ h => h⟩
  refine .checked fun _ => ?_
  have hkept : ∀ (text : Bytes × Bool) (texts : Std.ExtTreeMap Bytes (Bytes × Bool)), ∀ id ∈ texts,
      id ∈ texts.insert (frame.payload.take 16) text :=
    fun _ _ _ h => Std.ExtTreeMap.mem_insert.mpr (.inr h)
  refine .asked (.reserved ⟨rfl, hle, ?_, hkept _ _⟩) rfl hepoch ⟨rfl, ?_, ?_, hkept _ _⟩ ?_
  · exact UInt32.le_refl _
  · exact UInt32.le_refl _
  · exact UInt32.le_refl _
  · rintro - t ht
    exact ⟨hepoch, fun _ => ⟨hseq, by rw [ht]⟩, nofun, nofun⟩

/-- The part of an `accept` operation that runs on its frame. -/
def acceptBody : GateOp → Session → Frame → GateResult × Session
  | .acceptKey .. => acceptKeyFrame sink
  | .acceptButton .. => acceptButtonFrame sink
  | .acceptPointer .. => acceptPointerFrame sink
  | .acceptWheel .. => acceptWheelFrame sink
  | .acceptText .. => acceptTextFrame sink
  | _ => fun s _ => (.state, s)

theorem acceptBody_outcome (op : GateOp) (s : Session) (frame : Frame) :
    FrameOutcome sink op frame s (acceptBody sink op s frame) := by
  cases op with
  | acceptKey bytes now => exact acceptKeyFrame_outcome sink bytes now s frame
  | acceptButton bytes now => exact acceptButtonFrame_outcome sink bytes now s frame
  | acceptPointer bytes now => exact acceptPointerFrame_outcome sink bytes now s frame
  | acceptWheel bytes now => exact acceptWheelFrame_outcome sink bytes now s frame
  | acceptText bytes now => exact acceptTextFrame_outcome sink bytes now s frame
  | _ => exact .refused _

end Frames

theorem ok_of_check {ε α : Type} {c : Prop} [Decidable c] {e : ε} {x : Except ε α} {a : α}
    (h : (if c then .error e else x) = .ok a) : ¬ c ∧ x = .ok a := by
  split at h
  · simp at h
  · exact ⟨‹_›, h⟩

theorem parseFrame_ok {bytes : Bytes} {channel : Channel} {epoch : UInt32} {frame : Frame}
    (h : parseFrame bytes channel epoch = .ok frame) :
    readU32 bytes 8 = epoch ∧ frame.inputEpoch = readU32 bytes 12 ∧
      frame.sequence = readU32 bytes 16 ∧ frame.payload = bytes.drop Protocol.headerLength := by
  unfold parseFrame at h
  obtain ⟨-, h⟩ := ok_of_check h
  obtain ⟨-, h⟩ := ok_of_check h
  split at h
  · simp at h
  obtain ⟨-, h⟩ := ok_of_check h
  obtain ⟨-, h⟩ := ok_of_check h
  obtain ⟨-, h⟩ := ok_of_check h
  obtain ⟨hepoch, h⟩ := ok_of_check h
  obtain ⟨-, h⟩ := ok_of_check h
  obtain ⟨-, h⟩ := ok_of_check h
  obtain ⟨-, h⟩ := ok_of_check h
  obtain ⟨-, h⟩ := ok_of_check h
  obtain rfl := Except.ok.inj h
  push Not at hepoch
  exact ⟨hepoch.2, rfl, rfl, rfl⟩

/-- `acceptFrame` refuses the message, or runs the body on its frame. -/
theorem acceptFrame_cases (permission : UInt64) (channel : Channel) (type : UInt8) (bytes : Bytes)
    (s : Session) (body : Frame → GateResult × Session) :
    (∃ r, (r = .state ∨ r = .permission ∨ r = .malformed) ∧
      acceptFrame permission channel type bytes s body = (r, s)) ∨
    s.gate.inputAllowed ∧ s.gate.permissions &&& permission ≠ 0 ∧
      ∃ frame, parseFrame bytes channel s.gate.epoch = .ok frame ∧
        acceptFrame permission channel type bytes s body = body frame := by
  unfold acceptFrame
  split
  · exact .inl ⟨_, .inl rfl, rfl⟩
  rename_i hallowed
  split
  · exact .inl ⟨_, .inr (.inl rfl), rfl⟩
  rename_i hpermission
  split
  · exact .inl ⟨_, .inr (.inr rfl), rfl⟩
  rename_i frame hframe
  split
  · exact .inl ⟨_, .inr (.inr rfl), rfl⟩
  · exact .inr ⟨by simpa using hallowed, hpermission, frame, hframe, rfl⟩

end HomeTunnel.Remote
