import HomeTunnel.Native.GateOnward

/-! # Input in order

Every message that reaches the sink carries its place: the connection epoch, the
input epoch and a sequence number, all read from its header. `Onward` bounds the
places behind the gate, and here the place of a delivered message is shown to
lie ahead of it.
-/

namespace HomeTunnel.Remote

open Session

namespace GateOp

/-- Connection epoch, input epoch and sequence, in this order of weight. -/
def place (op : GateOp) : UInt32 ×ₗ UInt32 ×ₗ UInt32 :=
  let bytes := op.message?.getD []
  toLex (readU32 bytes 8, toLex (readU32 bytes 12, readU32 bytes 16))

/-- The input epoch that a message names. -/
def namedInputEpoch (op : GateOp) : UInt32 := readU32 (op.message?.getD []) 12

/-- The id under which a text is submitted. -/
def textId? : GateOp → Option Bytes
  | acceptText bytes _ => some ((bytes.drop Protocol.headerLength).take 16)
  | _ => none

end GateOp

section Delivery

variable (sink : InputSink) {s : Session}

/-- The three ends of a frame: the sink was not asked, it refused, or it took the frame. -/
inductive FrameEnd (op : GateOp) (frame : Frame) (s : Session) (outcome : GateResult × Session) :
    Prop
  | unasked (htrace : outcome.2.trace = s.trace)
  | refused (hepoch : frame.inputEpoch = s.gate.inputEpoch) (hresult : outcome.1 = .backend)
      (hinput : outcome.2.gate.inputEnabled = false)
  | taken (hresult : outcome.1 = .ok) (hdelivered : Delivered op frame s outcome.2)

theorem FrameOutcome.frameEnd {op : GateOp} {frame : Frame} {outcome : GateResult × Session}
    (h : FrameOutcome sink op frame s outcome) (hof : frame.Of op) :
    FrameEnd op frame s outcome := by
  cases h with
  | noted r hr hg => exact .unasked rfl
  | failed hmid hcall hepoch => exact .refused hepoch rfl rfl
  | taken hmid hcall hg hd => exact .taken rfl (hd hof)

/-- A `tick` after which input is enabled has done nothing but move the clock. -/
theorem tick_enabled {now : UInt64} {s' : Session} (h : tick sink now s = (.ok, s'))
    (henabled : s'.gate.inputEnabled) : s' = s.modify fun g => { g with lastNow := now } := by
  unfold tick at h
  split at h
  · simp at h
  split at h
  · simp at h
  dsimp only at h
  split at h
  · obtain ⟨-, rfl⟩ := Prod.mk.inj h
    simp at henabled
  split at h
  · obtain ⟨-, rfl⟩ := Prod.mk.inj h
    simp at henabled
  · exact (Prod.mk.inj h).2.symm

/-- What the call of an `accept` operation comes to: an answer without a sink call of its
own, or the body on a well-formed frame of the current connection. -/
inductive MessageEnd (op : GateOp) (s : Session) (outcome : GateResult × Session) : Prop
  | dropped (hok : outcome.1 ≠ .ok) (hbackend : outcome.1 ≠ .backend)
      (honward : Onward false false s outcome.2)
  | handled {frame : Frame} {s' : Session} (hgate : ∃ now, s' = s.modify fun g =>
        { g with lastNow := now })
      (hinput : s.gate.inputEnabled)
      (hepoch : readU32 (op.message?.getD []) 8 = s.gate.epoch)
      (hinputEpoch : frame.inputEpoch = op.namedInputEpoch)
      (hsequence : frame.sequence = readU32 (op.message?.getD []) 16)
      (hpayload : frame.payload = (op.message?.getD []).drop Protocol.headerLength)
      (hbody : outcome = acceptBody sink op s' frame)

theorem acceptFrame_message {op : GateOp} {bytes : Bytes} (hop : op.message? = some bytes)
    {permission : UInt64} {channel : Channel} {type : UInt8} {now : UInt64} (s : Session) :
    MessageEnd sink op s (afterTick sink now (fun s =>
      acceptFrame permission channel type bytes s (acceptBody sink op s)) s) := by
  have htick : Onward false false s (tick sink now s).2 := tick_onward sink now s
  have hresult := tick_result sink now s
  unfold afterTick
  split
  · rename_i s' heq
    rw [heq] at htick
    dsimp only
    obtain ⟨r, hr, hrefused⟩ | ⟨hallowed, -, frame, hframe, hbody⟩ :=
      acceptFrame_cases permission channel type bytes s' (acceptBody sink op s')
    · rw [hrefused]
      refine .dropped ?_ ?_ htick <;> rcases hr with rfl | rfl | rfl <;> simp
    have henabled : s'.gate.inputEnabled := by
      simp only [SessionGate.inputAllowed, Bool.and_eq_true] at hallowed
      exact hallowed.2
    obtain rfl := tick_enabled sink heq henabled
    rw [hbody]
    obtain ⟨hepoch, hinputEpoch, hsequence, hpayload⟩ := parseFrame_ok hframe
    exact .handled ⟨now, rfl⟩ henabled (by simpa [hop] using hepoch)
      (by simpa [GateOp.namedInputEpoch, hop] using hinputEpoch) (by simpa [hop] using hsequence)
      (by simpa [hop] using hpayload) rfl
  · rename_i r s' hne heq
    rw [heq] at htick hresult
    rcases hresult with rfl | rfl | rfl
    · exact absurd rfl hne
    · exact .dropped (by simp) (by simp) htick
    · exact .dropped (by simp) (by simp) htick

theorem perform_message {op : GateOp} (hop : op.message?.isSome) (s : Session) :
    ∃ outcome, perform sink op s = (some outcome.1, outcome.2) ∧ MessageEnd sink op s outcome := by
  cases op <;> simp only [GateOp.message?, Option.isSome_none, Bool.false_eq_true] at hop
  all_goals exact ⟨_, rfl, acceptFrame_message sink rfl s⟩

/-- The call of `op` made a sink call that the sink answered with `ok`. -/
def AskedSink (s : Session) (op : GateOp) (ok : Bool) : Prop :=
  ∃ call, GateEvent.sink call ok ∈ newEvents s (step sink s op)

/-- The gate applied the message of `op`. -/
structure Applied (s : Session) (op : GateOp) : Prop where
  message : op.message?.isSome
  result : stepResult sink s op = some .ok
  asked : AskedSink sink s op true

/-- The sink refused the message of `op`. -/
structure Refused (s : Session) (op : GateOp) : Prop where
  message : op.message?.isSome
  result : stepResult sink s op = some .backend
  asked : AskedSink sink s op false

theorem not_askedSink {op : GateOp} {s : Session}
    (h : (perform sink op (s.mark (.called op))).2.trace = (s.mark (.called op)).trace) (ok : Bool) :
    ¬ AskedSink sink s op ok := by
  rintro ⟨call, hcall⟩
  have hnew : newEvents s (step sink s op) =
      [.returned op (perform sink op (s.mark (.called op))).1, .called op] :=
    newEvents_eq (by simp [step, h])
  simp [hnew] at hcall

/-- What the header of an applied message says about the gate before it. -/
structure AtHead (op : GateOp) (s : Session) : Prop where
  epoch : readU32 (op.message?.getD []) 8 = s.gate.epoch
  inputEpoch : op.namedInputEpoch = s.gate.inputEpoch
  enabled : s.gate.inputEnabled

/-- The places and motions that an applied message was ahead of, and left behind. -/
structure Moved (op : GateOp) (s t : Session) : Prop where
  sequence : op.reliable → s.gate.inputSequence < readU32 (op.message?.getD []) 16 ∧
    t.gate.inputSequence = readU32 (op.message?.getD []) 16
  motion : ∀ motion ∈ op.motion?, motion ≤ t.gate.motionId
  pointer : op.isPointer → ∀ motion ∈ op.motion?, s.gate.motionId < motion

/-- A call that the sink was asked in, to the end that `FrameEnd` gives it. -/
theorem message_cases {op : GateOp} {ok : Bool} (hop : op.message?.isSome)
    (hasked : AskedSink sink s op ok)
    (hresult : stepResult sink s op = some .ok ∨ stepResult sink s op = some .backend) :
    AtHead op s ∧
      (stepResult sink s op = some .ok ∧ Moved op s (step sink s op) ∨
        stepResult sink s op = some .backend ∧ (step sink s op).gate.inputEnabled = false) := by
  obtain ⟨outcome, hperform, hend⟩ := perform_message sink hop (s.mark (.called op))
  simp only [stepResult, hperform, Option.some.injEq] at hresult ⊢
  have hgate : (step sink s op).gate = outcome.2.gate := by simp [step, hperform]
  cases hend with
  | dropped hok hbackend honward => exact absurd hresult (by simp [hok, hbackend])
  | @handled frame s' hs' hinput hepoch hinputEpoch hsequence hpayload hbody =>
    have hframe : FrameEnd op frame s' outcome := by
      rw [hbody]
      exact (acceptBody_outcome sink op s' frame).frameEnd sink hpayload
    obtain ⟨now, rfl⟩ := hs'
    cases hframe with
    | unasked htrace =>
      exact absurd hasked (not_askedSink sink (by rw [hperform]; exact htrace) ok)
    | refused hnamed hbackend hdisabled =>
      exact ⟨⟨hepoch, hinputEpoch.symm.trans hnamed, hinput⟩,
        .inr ⟨hbackend, by rw [hgate, hdisabled]⟩⟩
    | taken hok hdelivered =>
      refine ⟨⟨hepoch, hinputEpoch.symm.trans hdelivered.inputEpoch, hinput⟩, .inl ⟨hok, ?_⟩⟩
      refine ⟨fun hreliable => ?_, by rw [hgate]; exact hdelivered.motion, hdelivered.pointer⟩
      rw [← hsequence, hgate]
      exact hdelivered.sequence hreliable

theorem Applied.moved {op : GateOp} (h : Applied sink s op) :
    AtHead op s ∧ Moved op s (step sink s op) := by
  obtain ⟨hhead, hend⟩ := message_cases sink h.message h.asked (.inl h.result)
  rcases hend with ⟨-, hmoved⟩ | ⟨hbackend, -⟩
  · exact ⟨hhead, hmoved⟩
  · simp [h.result] at hbackend

theorem Refused.disabled {op : GateOp} (h : Refused sink s op) :
    AtHead op s ∧ (step sink s op).gate.inputEnabled = false := by
  obtain ⟨hhead, hend⟩ := message_cases sink h.message h.asked (.inr h.result)
  rcases hend with ⟨hok, -⟩ | ⟨-, hdisabled⟩
  · simp [h.result] at hok
  · exact ⟨hhead, hdisabled⟩

variable {t u : Session} {op later : GateOp}

/-- The epochs between an applied message and a later one that names the same. -/
theorem squeezed {a b c : UInt32} (hab : a ≤ b) (hbc : b ≤ c) (hac : a = c) : b = a ∧ c = b := by
  subst hac
  have hba := UInt32.le_antisymm hbc hab
  exact ⟨hba, hba.symm⟩

theorem place_lt (hst : Onward true true s t) (htu : Onward true true t u) (hfirst : AtHead op s)
    (hmoved : Moved op s t) (hreliable : op.reliable) (hsecond : AtHead later u)
    {v : Session} (hmoved' : Moved later u v) (hreliable' : later.reliable) :
    op.place < later.place := by
  unfold GateOp.place
  dsimp only
  rw [Prod.Lex.toLex_lt_toLex, Prod.Lex.toLex_lt_toLex, hfirst.epoch, hsecond.epoch]
  have hinput := hfirst.inputEpoch
  have hinput' := hsecond.inputEpoch
  unfold GateOp.namedInputEpoch at hinput hinput'
  rw [hinput, hinput']
  by_cases hepoch : s.gate.epoch = u.gate.epoch
  · refine .inr ⟨hepoch, ?_⟩
    by_cases hinputEpoch : s.gate.inputEpoch = u.gate.inputEpoch
    · -- within one connection and one input epoch the sequence has only grown
      refine .inr ⟨hinputEpoch, ?_⟩
      have hle := htu.sequence (squeezed hst.epoch htu.epoch hepoch).2
      rw [(hmoved.sequence hreliable).2] at hle
      exact UInt32.lt_of_le_of_lt hle (hmoved'.sequence hreliable').1
    · exact .inl (UInt32.lt_of_le_of_ne (UInt32.le_trans hst.inputEpoch htu.inputEpoch) hinputEpoch)
  · exact .inl (UInt32.lt_of_le_of_ne (UInt32.le_trans hst.epoch htu.epoch) hepoch)

theorem motion_lt (hst : Onward true true s t) (htu : Onward true true t u)
    (hfirst : AtHead op s) (hmoved : Moved op s t) (hsecond : AtHead later u) {v : Session}
    (hmoved' : Moved later u v) (hpointer : later.isPointer)
    (hsame : op.namedInputEpoch = later.namedInputEpoch) :
    ∀ motion ∈ op.motion?, ∀ motion' ∈ later.motion?, motion < motion' := by
  intro motion hmotion motion' hmotion'
  rw [hfirst.inputEpoch, hsecond.inputEpoch] at hsame
  have hle := (htu.motion (squeezed hst.inputEpoch htu.inputEpoch hsame).2 hsecond.enabled).2
  exact UInt32.lt_of_le_of_lt (UInt32.le_trans (hmoved.motion motion hmotion) hle)
    (hmoved'.pointer hpointer motion' hmotion')

/-- Input that was disabled comes back with a newer input epoch only. -/
theorem not_atHead_again (hst : Onward true true s t) (htu : Onward true true t u)
    (hfirst : AtHead op s) (hdisabled : t.gate.inputEnabled = false)
    (hsame : op.namedInputEpoch = later.namedInputEpoch) : ¬ AtHead later u := by
  intro hsecond
  rw [hfirst.inputEpoch, hsecond.inputEpoch] at hsame
  have henabled := (htu.motion (squeezed hst.inputEpoch htu.inputEpoch hsame).2 hsecond.enabled).1
  simp [hdisabled] at henabled

theorem textCalls_releaseInputs (s : Session) :
    textCalls (releaseInputs sink s) = textCalls s := by
  have honward : Onward false false s (releaseInputs sink s) := releaseInputs_onward sink s
  exact honward.calls rfl

theorem acceptTextFrame_texts (s : Session) (frame : Frame) :
    textCalls (acceptTextFrame sink s frame).2 = textCalls s ∨
      frame.payload.take 16 ∉ s.gate.textIds ∧
        frame.payload.take 16 ∈ (acceptTextFrame sink s frame).2.gate.textIds ∧
        textCalls (acceptTextFrame sink s frame).2 = textCalls s + 1 := by
  unfold acceptTextFrame
  split
  · exact .inl rfl
  split
  · exact .inl rfl
  dsimp only
  split
  · exact .inl rfl
  split
  · split
    · exact .inl rfl
    · exact .inl rfl
  rename_i hnone
  have hfresh : frame.payload.take 16 ∉ s.gate.textIds := by simpa using hnone
  split
  · exact .inl rfl
  split
  · rename_i s' heq
    obtain ⟨-, rfl⟩ := Prod.mk.inj heq
    refine .inr ⟨hfresh, ?_, ?_⟩
    · simp [giveUp]
    · rw [giveUp, textCalls_releaseInputs]
      exact List.countP_cons_of_pos rfl
  · rename_i s' heq
    obtain ⟨-, rfl⟩ := Prod.mk.inj heq
    refine .inr ⟨hfresh, ?_, ?_⟩
    · simp
    · exact List.countP_cons_of_pos rfl

/-- A text call uses up its id. -/
theorem step_texts {op : GateOp} {id : Bytes} (hop : op.textId? = some id) (s : Session) :
    textCalls (step sink s op) = textCalls s ∨
      id ∉ s.gate.textIds ∧ id ∈ (step sink s op).gate.textIds ∧
        textCalls (step sink s op) = textCalls s + 1 := by
  have hmessage : op.message?.isSome := by cases op <;> simp_all [GateOp.textId?, GateOp.message?]
  obtain ⟨outcome, hperform, hend⟩ := perform_message sink hmessage (s.mark (.called op))
  have hcalls : textCalls (step sink s op) = textCalls outcome.2 := by
    rw [step, hperform]
    exact List.countP_cons_of_neg (by simp [isTextCall])
  have hcalled : textCalls (s.mark (.called op)) = textCalls s :=
    List.countP_cons_of_neg (by simp [isTextCall])
  have hgate : (step sink s op).gate = outcome.2.gate := by simp [step, hperform]
  rw [hcalls, hgate]
  cases hend with
  | dropped _ _ honward => exact .inl ((honward.calls rfl).trans hcalled)
  | @handled frame s' hs' hinput hepoch hinputEpoch hsequence hpayload hbody =>
    have hstart : textCalls s' = textCalls s ∧ s'.gate.textIds = s.gate.textIds := by
      obtain ⟨_, rfl⟩ := hs'
      exact ⟨hcalled, rfl⟩
    cases op <;> simp only [GateOp.textId?, reduceCtorEq, Option.some.injEq] at hop
    case acceptText bytes now =>
      have hframe := acceptTextFrame_texts sink s' frame
      rw [hstart.1, hstart.2, hpayload] at hframe
      rw [hbody, ← hop]
      exact hframe

theorem step_trace (op : GateOp) (s : Session) :
    (step sink s op).trace = newEvents s (step sink s op) ++ s.trace := by
  by_cases hop : op.isSynchronize ∧ stepResult sink s op = some .ok
  · obtain ⟨mid, hgave, htrace, -⟩ := step_resumed sink hop.1 hop.2
    have heffect := hgave.moves.effect.trace
    have hstep : (step sink s op).trace = .returned op _ :: (newEvents s mid ++ s.trace) :=
      congrArg (GateEvent.returned op _ :: ·) (htrace.trans heffect)
    have hnew : newEvents s (step sink s op) = .returned op _ :: newEvents s mid :=
      newEvents_eq hstep
    rw [hnew, hstep, List.cons_append]
  · exact (step_outcome sink hop).moves.effect.trace

/-- The text calls that the calls under `id` make. -/
def textCallsFor (id : Bytes) : Session → List GateOp → Nat
  | _, [] => 0
  | s, op :: ops =>
    (if op.textId? = some id then (newEvents s (step sink s op)).countP isTextCall else 0) +
      textCallsFor id (step sink s op) ops

theorem countP_newEvents (op : GateOp) (s : Session) :
    textCalls (step sink s op) = (newEvents s (step sink s op)).countP isTextCall + textCalls s := by
  rw [textCalls, step_trace, List.countP_append, textCalls]

theorem textCallsFor_le (id : Bytes) (s : Session) (ops : List GateOp) :
    textCallsFor sink id s ops ≤ if id ∈ s.gate.textIds then 0 else 1 := by
  induction ops generalizing s with
  | nil => simp [textCallsFor]
  | cons op ops ih =>
    have hrest := ih (step sink s op)
    have hkept := (step_onward sink op s).texts id
    have hcount := countP_newEvents sink op s
    rw [textCallsFor]
    by_cases hop : op.textId? = some id
    · rw [if_pos hop]
      rcases step_texts sink hop s with hsame | ⟨hfresh, htaken, hmore⟩
      · split
        · rename_i hmem
          rw [if_pos (hkept hmem)] at hrest
          omega
        · split at hrest <;> omega
      · rw [if_neg hfresh]
        rw [if_pos htaken] at hrest
        omega
    · rw [if_neg hop]
      split
      · rename_i hmem
        rw [if_pos (hkept hmem)] at hrest
        omega
      · split at hrest <;> omega

end Delivery

/-- Over any sequence of calls and sink failures: reliable messages are applied in the
order of their places, motions in the order of their ids and never behind a button or
wheel, what the sink refused is not applied later, and text goes to the sink once for
each id and under no other call. -/
theorem run_input_order (sink : InputSink) (ops : List GateOp) :
    (∀ op between later,
      let s := run sink ops
      let u := run sink (ops ++ op :: between)
      (Applied sink s op → Applied sink u later → op.reliable → later.reliable →
        op.place < later.place) ∧
      (Applied sink s op → Applied sink u later → later.isPointer →
        op.namedInputEpoch = later.namedInputEpoch →
        ∀ motion ∈ op.motion?, ∀ motion' ∈ later.motion?, motion < motion') ∧
      (Refused sink s op → later.message? = op.message? → ¬ Applied sink u later)) ∧
    (∀ id, textCallsFor sink id {} ops ≤ 1) ∧
    ∀ op : GateOp, op.textId? = none →
      (newEvents (run sink ops) (step sink (run sink ops) op)).countP isTextCall = 0 := by
  refine ⟨?_, ?_, ?_⟩
  · intro op between later
    have hrun : run sink (ops ++ op :: between) =
        between.foldl (step sink) (step sink (run sink ops) op) := by simp [run]
    have hst := (step_onward sink op (run sink ops)).loosen
    have htu := run_onward sink between (step sink (run sink ops) op)
    dsimp only
    rw [hrun]
    refine ⟨?_, ?_, ?_⟩
    · intro hfirst hsecond hreliable hreliable'
      obtain ⟨hhead, hmoved⟩ := hfirst.moved
      obtain ⟨hhead', hmoved'⟩ := hsecond.moved
      exact place_lt hst htu hhead hmoved hreliable hhead' hmoved' hreliable'
    · intro hfirst hsecond hpointer hsame
      obtain ⟨hhead, hmoved⟩ := hfirst.moved
      obtain ⟨hhead', hmoved'⟩ := hsecond.moved
      exact motion_lt hst htu hhead hmoved hhead' hmoved' hpointer hsame
    · intro hrefused hsame hsecond
      obtain ⟨hhead, hdisabled⟩ := hrefused.disabled
      refine not_atHead_again hst htu hhead hdisabled ?_ hsecond.moved.1
      rw [GateOp.namedInputEpoch, GateOp.namedInputEpoch, hsame]
  · intro id
    exact Nat.le_trans (textCallsFor_le sink id {} ops) (by split <;> omega)
  · intro op hop
    have hbrings : op.bringsText = false := by
      cases op <;> simp_all [GateOp.textId?, GateOp.bringsText]
    have hcalls := (step_onward sink op (run sink ops)).calls hbrings
    have hcount := countP_newEvents sink op (run sink ops)
    omega

end HomeTunnel.Remote
