import HomeTunnel.Native.GateLedger

/-! # The gate only moves onward

Epochs, sequences and the set of text ids grow, the permission mask and the
lease shrink, and a gate that was closed stays closed. `Onward` says all of it
at once, between any two sessions of a run; each part of a call is shown to keep
it once, and the run follows by transitivity.
-/

namespace HomeTunnel.Remote

open Session

/-- A sink call that injects text. -/
def isTextCall : GateEvent → Bool
  | .sink (.text _) _ => true
  | _ => false

def textCalls (s : Session) : Nat := s.trace.countP isTextCall

/-- `t` comes after `s`. With `leasing = false` no lease was accepted in between, and
with `texting = false` no text was handed to the sink. -/
structure Onward (leasing texting : Bool) (s t : Session) : Prop where
  epoch : s.gate.epoch ≤ t.gate.epoch
  inputEpoch : s.gate.inputEpoch ≤ t.gate.inputEpoch
  leaseSequence : s.gate.epoch ≠ 0 → s.gate.leaseSequence ≤ t.gate.leaseSequence
  permissions : s.gate.epoch ≠ 0 → t.gate.permissions &&& ~~~s.gate.permissions = 0
  closed : s.gate.epoch ≠ 0 → s.gate.closed → t.gate.closed
  deadline : leasing = false → t.gate.deadline = s.gate.deadline
  sequence : t.gate.epoch = s.gate.epoch → s.gate.inputSequence ≤ t.gate.inputSequence
  motion : t.gate.inputEpoch = s.gate.inputEpoch → t.gate.inputEnabled →
    s.gate.inputEnabled ∧ s.gate.motionId ≤ t.gate.motionId
  texts : ∀ id ∈ s.gate.textIds, id ∈ t.gate.textIds
  calls : texting = false → textCalls t = textCalls s

variable {leasing texting : Bool} {s t u : Session}

theorem and_not_self (a : UInt64) : a &&& ~~~a = 0 := by
  rw [← UInt64.toBitVec_inj]
  simp

theorem and_not_trans {a b c : UInt64} (hab : b &&& ~~~a = 0) (hbc : c &&& ~~~b = 0) :
    c &&& ~~~a = 0 := by
  rw [← UInt64.toBitVec_inj] at *
  simp only [UInt64.toBitVec_and, UInt64.toBitVec_not, UInt64.toBitVec_ofNat] at *
  ext i hi
  have h₁ := congrArg (·.getLsbD i) hab
  have h₂ := congrArg (·.getLsbD i) hbc
  simp [hi] at h₁ h₂ ⊢
  grind

theorem Onward.refl (s : Session) : Onward leasing texting s s where
  epoch := UInt32.le_refl _
  inputEpoch := UInt32.le_refl _
  leaseSequence _ := UInt64.le_refl _
  permissions _ := and_not_self _
  closed _ h := h
  deadline _ := rfl
  sequence _ := UInt32.le_refl _
  motion _ h := ⟨h, UInt32.le_refl _⟩
  texts _ h := h
  calls _ := rfl

theorem Onward.epoch_ne (h : Onward leasing texting s t) (hs : s.gate.epoch ≠ 0) :
    t.gate.epoch ≠ 0 := by
  intro hz
  have hle := h.epoch
  rw [hz] at hle
  exact hs (UInt32.le_zero_iff.mp hle)

theorem Onward.trans (hst : Onward leasing texting s t) (htu : Onward leasing texting t u) :
    Onward leasing texting s u where
  epoch := UInt32.le_trans hst.epoch htu.epoch
  inputEpoch := UInt32.le_trans hst.inputEpoch htu.inputEpoch
  leaseSequence hs :=
    UInt64.le_trans (hst.leaseSequence hs) (htu.leaseSequence (hst.epoch_ne hs))
  permissions hs := and_not_trans (hst.permissions hs) (htu.permissions (hst.epoch_ne hs))
  closed hs hc := htu.closed (hst.epoch_ne hs) (hst.closed hs hc)
  deadline hl := (htu.deadline hl).trans (hst.deadline hl)
  sequence hu := by
    have ht : t.gate.epoch = s.gate.epoch := UInt32.le_antisymm (hu ▸ htu.epoch) hst.epoch
    exact UInt32.le_trans (hst.sequence ht) (htu.sequence (hu.trans ht.symm))
  motion hu henabled := by
    have ht : t.gate.inputEpoch = s.gate.inputEpoch :=
      UInt32.le_antisymm (hu ▸ htu.inputEpoch) hst.inputEpoch
    obtain ⟨hmid, hle⟩ := htu.motion (hu.trans ht.symm) henabled
    obtain ⟨hfirst, hle'⟩ := hst.motion ht hmid
    exact ⟨hfirst, UInt32.le_trans hle' hle⟩
  texts id hid := htu.texts id (hst.texts id hid)
  calls ht := (htu.calls ht).trans (hst.calls ht)

/-- What a part of a call leaves alone that accepts neither a lease nor an epoch. -/
structure Calm (s t : Session) : Prop where
  epoch : t.gate.epoch = s.gate.epoch
  inputEpoch : t.gate.inputEpoch = s.gate.inputEpoch
  leaseSequence : t.gate.leaseSequence = s.gate.leaseSequence
  permissions : t.gate.permissions = s.gate.permissions
  deadline : t.gate.deadline = s.gate.deadline
  closed : s.gate.closed → t.gate.closed
  sequence : s.gate.inputSequence ≤ t.gate.inputSequence
  motion : t.gate.inputEnabled → s.gate.inputEnabled ∧ s.gate.motionId ≤ t.gate.motionId
  texts : ∀ id ∈ s.gate.textIds, id ∈ t.gate.textIds

theorem Calm.onward (h : Calm s t) (hcalls : texting = false → textCalls t = textCalls s) :
    Onward leasing texting s t where
  epoch := h.epoch ▸ UInt32.le_refl _
  inputEpoch := h.inputEpoch ▸ UInt32.le_refl _
  leaseSequence _ := h.leaseSequence ▸ UInt64.le_refl _
  permissions _ := h.permissions ▸ and_not_self _
  closed _ := h.closed
  deadline _ := h.deadline
  sequence _ := h.sequence
  motion _ := h.motion
  texts := h.texts
  calls := hcalls

/-- The fields that `Onward` speaks of. -/
def SessionGate.account (g : SessionGate) :=
  (g.closed, g.inputEnabled, g.epoch, g.inputEpoch, g.leaseSequence, g.permissions, g.deadline,
    g.inputSequence, g.motionId, g.textIds)

/-- Everything else may change. -/
theorem Onward.keep {f : SessionGate → SessionGate} (h : (f s.gate).account = s.gate.account) :
    Onward leasing texting s (s.modify f) := by
  simp only [SessionGate.account, Prod.mk.injEq] at h
  obtain ⟨hclosed, hinput, hepoch, hinputEpoch, hlease, hperm, hdeadline, hseq, hmotion, htexts⟩ := h
  refine Calm.onward ⟨hepoch, hinputEpoch, hlease, hperm, hdeadline, ?_, ?_, ?_, ?_⟩ fun _ => rfl
  · simp [hclosed]
  · simp [hseq]
  · simp [hinput, hmotion]
  · simp [htexts]

theorem Onward.mark {e : GateEvent} (he : texting = false → ¬ isTextCall e) :
    Onward leasing texting s (s.mark e) := by
  refine Calm.onward ⟨rfl, rfl, rfl, rfl, rfl, id, UInt32.le_refl _,
    fun h => ⟨h, UInt32.le_refl _⟩, fun _ h => h⟩ fun ht => ?_
  simp [textCalls, he ht]

section Parts

variable (sink : InputSink)

theorem releaseInputs_onward (s : Session) : Onward leasing texting s (releaseInputs sink s) := by
  obtain ⟨keys, buttons, calls, heq, hcalls, -⟩ := releaseInputs_spec sink s
  rw [heq]
  refine Calm.onward ⟨rfl, rfl, rfl, rfl, rfl, id, UInt32.le_refl _, by simp, fun _ h => h⟩
    fun _ => ?_
  have hnone : calls.countP isTextCall = 0 := by
    rw [List.countP_eq_zero]
    intro e he
    have hattempt := hcalls e he
    unfold isReleaseAttempt at hattempt
    split at hattempt <;> simp_all [isTextCall]
  simp [textCalls, hnone, isTextCall]

theorem pause_onward (s : Session) : Onward leasing texting s (pause sink s) :=
  (releaseInputs_onward sink s).trans (.keep rfl)

theorem close_onward (s : Session) : Onward leasing texting s (close sink s) :=
  (pause_onward sink s).trans (Calm.onward ⟨rfl, rfl, rfl, rfl, rfl, fun _ => rfl, UInt32.le_refl _,
    fun h => ⟨h, UInt32.le_refl _⟩, fun _ h => h⟩ fun _ => rfl)

theorem tick_onward (now : UInt64) (s : Session) :
    Onward leasing texting s (tick sink now s).2 := by
  unfold tick
  split
  · split
    · exact releaseInputs_onward sink s
    · exact .refl s
  split
  · exact close_onward sink s
  have hnow : Onward leasing texting s (s.modify fun g => { g with lastNow := now }) :=
    .keep rfl
  dsimp only
  split
  · exact hnow.trans (releaseInputs_onward sink _)
  split
  · exact hnow.trans (releaseInputs_onward sink _)
  · exact hnow

/-- A call that returns `outcome` has moved the session onward. -/
def Advances (leasing texting : Bool) (s : Session) (outcome : GateResult × Session) : Prop :=
  Onward leasing texting s outcome.2

theorem Advances.refuse (r : GateResult) : Advances leasing texting s (r, s) := .refl s

theorem Advances.keep (r : GateResult) {f : SessionGate → SessionGate}
    (h : (f s.gate).account = s.gate.account) : Advances leasing texting s (r, s.modify f) :=
  Onward.keep h

theorem Onward.andThen (h : Onward leasing texting s t) {outcome : GateResult × Session}
    (ho : Advances leasing texting t outcome) : Advances leasing texting s outcome :=
  Onward.trans h ho

theorem authorize_onward (lease : VerifiedLease) (wall : Int) (now : UInt64) (s : Session) :
    Advances ((authorize lease wall now s).1 == .ok) texting s (authorize lease wall now s) := by
  unfold authorize
  split
  · exact .refuse _
  rename_i hstate
  push Not at hstate
  obtain ⟨-, hzero⟩ := hstate
  split
  · exact .refuse _
  refine ⟨?_, UInt32.le_refl _, fun h => absurd hzero h, fun h => absurd hzero h,
    fun h => absurd hzero h, by simp, fun _ => UInt32.le_refl _, fun _ h => ⟨h, UInt32.le_refl _⟩,
    fun _ h => h, fun _ => rfl⟩
  rw [hzero]
  exact UInt32.zero_le

theorem renewBody_onward (lease : VerifiedLease) (wall : Int) (now : UInt64) (s : Session) :
    Advances ((renewBody sink lease wall now s).1 == .ok) texting s
      (renewBody sink lease wall now s) := by
  unfold renewBody
  split
  · exact .refuse _
  rename_i hchecks
  push Not at hchecks
  obtain ⟨-, hnewer, hsubset⟩ := hchecks
  split
  · exact .refuse _
  rename_i deadline hdeadline
  have hrenewed : ∀ s' : Session, s'.gate.leaseSequence = s.gate.leaseSequence →
      s'.gate.permissions = s.gate.permissions →
      Onward true texting s' (s'.modify fun g =>
        { g with permissions := lease.permissions, leaseSequence := lease.sequence,
                 deadline := deadline }) := by
    intro s' hsequence hpermissions
    refine ⟨UInt32.le_refl _, UInt32.le_refl _, fun _ => ?_, fun _ => ?_, fun _ h => h, by simp,
      fun _ => UInt32.le_refl _, fun _ h => ⟨h, UInt32.le_refl _⟩, fun _ h => h, fun _ => rfl⟩
    · rw [hsequence]
      exact UInt64.le_of_lt (UInt64.not_le.mp hnewer)
    · rw [hpermissions]
      exact hsubset
  dsimp only
  split
  · exact (releaseInputs_onward sink s).trans (hrenewed _ (by simp) (by simp))
  · exact hrenewed s rfl rfl

theorem peerAuthenticatedBody_onward (epoch : UInt32) (s : Session) :
    Advances leasing texting s (peerAuthenticatedBody epoch s) := by
  unfold peerAuthenticatedBody
  split
  · exact .refuse _
  · exact .keep _ rfl

theorem selectedPairBody_onward (epoch : UInt32) (pair : SelectedPair) (s : Session) :
    Advances leasing texting s (selectedPairBody sink epoch pair s) := by
  unfold selectedPairBody
  split
  · exact .refuse _
  have hrevision : Onward leasing texting s
      (s.modify fun g => { g with pairRevision := pair.revision }) :=
    .keep rfl
  have hpaused := hrevision.trans (pause_onward sink _)
  dsimp only
  split
  · exact hpaused
  · exact hpaused.andThen (.keep _ rfl)

theorem firstFrameBody_onward (epoch : UInt32) (s : Session) :
    Advances leasing texting s (firstFrameBody epoch s) := by
  unfold firstFrameBody
  split
  · exact .refuse _
  · exact .keep _ rfl

theorem reconnectBody_onward (epoch : UInt32) (s : Session) :
    Advances leasing texting s (reconnectBody sink epoch s) := by
  unfold reconnectBody
  split
  · exact .refuse _
  rename_i hnewer
  have hlt : (pause sink s).gate.epoch < epoch := by
    simpa [pause] using UInt32.not_le.mp hnewer
  refine (pause_onward sink s).trans ⟨UInt32.le_of_lt hlt, UInt32.le_refl _,
    fun _ => UInt64.le_refl _, fun _ => and_not_self _, fun _ h => h, fun _ => rfl, ?_, ?_,
    fun _ h => h, fun _ => rfl⟩
  · intro hsame
    exact absurd (hsame ▸ hlt) (UInt32.lt_irrefl _)
  · intro _ henabled
    simp [pause] at henabled

theorem synchronizeInputBody_onward (epoch inputEpoch layout : UInt32) (now : UInt64)
    (displaySlot : UInt16) (s : Session) :
    Advances leasing texting s
      (synchronizeInputBody sink epoch inputEpoch layout now displaySlot s) := by
  unfold synchronizeInputBody
  split
  · exact .refuse _
  rename_i hchecks
  push Not at hchecks
  obtain ⟨-, -, -, -, hnewer, -⟩ := hchecks
  have hlt : (releaseInputs sink s).gate.inputEpoch < inputEpoch := by
    simpa using UInt32.not_le.mp hnewer
  dsimp only
  split
  · exact releaseInputs_onward sink s
  refine (releaseInputs_onward sink s).trans ⟨UInt32.le_refl _, UInt32.le_of_lt hlt,
    fun _ => UInt64.le_refl _, fun _ => and_not_self _, fun _ h => h, fun _ => rfl,
    fun _ => UInt32.le_refl _, ?_, fun _ h => h, fun _ => rfl⟩
  intro hsame
  exact absurd (hsame ▸ hlt) (UInt32.lt_irrefl _)

theorem heartbeatBody_onward (epoch inputEpoch : UInt32) (version now : UInt64) (s : Session) :
    Advances leasing texting s (heartbeatBody epoch inputEpoch version now s) := by
  unfold heartbeatBody
  split
  · exact .refuse _
  · exact .keep _ rfl

theorem giveUp_onward (h : Onward leasing texting s t) :
    Advances leasing texting s (giveUp sink t) :=
  h.trans (releaseInputs_onward sink t)

theorem Noted.onward {g p h : SessionGate} {trace : List GateEvent} (hn : Noted g p h) :
    Onward leasing texting ⟨g, trace⟩ ⟨h, trace⟩ := by
  have hsame : h.account = (g.closed, g.inputEnabled, g.epoch, g.inputEpoch, g.leaseSequence,
      g.permissions, g.deadline, h.inputSequence, h.motionId, h.textIds) := by
    rw [hn.rest]
    rfl
  simp only [SessionGate.account, Prod.mk.injEq, and_true] at hsame
  obtain ⟨hclosed, hinput, hepoch, hinputEpoch, hlease, hperm, hdeadline⟩ := hsame
  exact Calm.onward ⟨hepoch, hinputEpoch, hlease, hperm, hdeadline, by simp [hclosed], hn.sequence,
    fun hi => ⟨hinput ▸ hi, hn.motion⟩, hn.texts⟩ fun _ => rfl

theorem Asks.onward {permission : UInt64} (h : Asks permission s t) :
    Onward leasing texting s t := by
  cases h with
  | reserved hg => exact hg.onward
  | pointer hp => exact .mark fun _ => by simp [isTextCall]

/-- The operations that bring a lease. -/
def GateOp.bringsLease : GateOp → Bool
  | .authorize .. | .renew .. => true
  | _ => false

def GateOp.bringsText : GateOp → Bool
  | .acceptText .. => true
  | _ => false

theorem permission_ne_text {op : GateOp} (h : op.bringsText = false) :
    op.permission ≠ Protocol.permissionInputText := by
  cases op with
  | acceptText => cases h
  | acceptKey => exact show Protocol.permissionInputKeyboard ≠ _ by decide
  | _ => exact show Protocol.permissionInputPointer ≠ _ by decide

theorem FrameOutcome.advances {op : GateOp} {frame : Frame} {outcome : GateResult × Session}
    (h : FrameOutcome sink op frame s outcome) : Advances leasing op.bringsText s outcome := by
  have hmark : ∀ {mid : Session} {call : SinkCall} (ok : Bool), Asks op.permission s mid →
      call.permission = op.permission →
      Onward leasing op.bringsText s (mid.mark (.sink call ok)) := by
    intro mid call ok hmid hcall
    refine hmid.onward.trans (.mark fun ht => ?_)
    cases call with
    | text content => exact absurd hcall.symm (permission_ne_text ht)
    | _ => simp [isTextCall]
  cases h with
  | noted r hr hg => exact hg.onward
  | failed hmid hcall hepoch => exact giveUp_onward sink (hmark false hmid hcall)
  | taken hmid hcall hg hd => exact (hmark true hmid hcall).trans hg.onward

theorem accept_onward (op : GateOp) {channel : Channel} {type : UInt8} {bytes : Bytes}
    (s : Session) : Advances leasing op.bringsText s
      (acceptFrame op.permission channel type bytes s (acceptBody sink op s)) := by
  obtain ⟨r, -, heq⟩ | ⟨-, -, frame, -, heq⟩ :=
    acceptFrame_cases op.permission channel type bytes s (acceptBody sink op s)
  · rw [heq]
    exact .refuse r
  · rw [heq]
    exact (acceptBody_outcome sink op s frame).advances sink

/-- The flag `leasing` is raised by the body's result, not by the tick before it. -/
theorem afterTick_onward (brings : Bool) {now : UInt64} {body : Session → GateResult × Session}
    (hbody : ∀ s, Advances (brings && (body s).1 == .ok) texting s (body s)) (s : Session) :
    Advances (brings && (afterTick sink now body s).1 == .ok) texting s
      (afterTick sink now body s) := by
  unfold afterTick
  split
  · rename_i s' heq
    have htick : Onward (brings && (body s').1 == .ok) texting s (tick sink now s).2 :=
      tick_onward sink now s
    rw [heq] at htick
    exact htick.andThen (hbody s')
  · rename_i result s' _ heq
    have htick : Onward (brings && result == .ok) texting s (tick sink now s).2 :=
      tick_onward sink now s
    rw [heq] at htick
    exact htick

theorem perform_onward (op : GateOp) (s : Session) :
    Onward (op.bringsLease && (perform sink op s).1 == some .ok) op.bringsText s
      (perform sink op s).2 := by
  cases op with
  | authorize lease wall now => exact authorize_onward lease wall now s
  | renew lease wall now =>
    exact afterTick_onward sink true (renewBody_onward sink lease wall now) s
  | tick now => exact tick_onward sink now s
  | peerAuthenticated epoch now =>
    exact afterTick_onward sink false (peerAuthenticatedBody_onward epoch) s
  | selectedPair epoch pair now =>
    exact afterTick_onward sink false (selectedPairBody_onward sink epoch pair) s
  | firstFrame epoch now =>
    exact afterTick_onward sink false (firstFrameBody_onward epoch) s
  | synchronizeInput epoch inputEpoch layout now displaySlot =>
    exact afterTick_onward sink false
      (synchronizeInputBody_onward sink epoch inputEpoch layout now displaySlot) s
  | heartbeat epoch inputEpoch version now =>
    exact afterTick_onward sink false
      (heartbeatBody_onward epoch inputEpoch version now) s
  | pause => exact pause_onward sink s
  | releaseControl => exact releaseInputs_onward sink s
  | reconnect epoch now =>
    exact afterTick_onward sink false (reconnectBody_onward sink epoch) s
  | close => exact close_onward sink s
  | _ => exact afterTick_onward sink false (accept_onward sink _) s

theorem step_onward (op : GateOp) (s : Session) :
    Onward (op.bringsLease && stepResult sink s op == some .ok) op.bringsText s
      (step sink s op) := by
  have hcalled : Onward (op.bringsLease && stepResult sink s op == some .ok) op.bringsText s
      (s.mark (.called op)) :=
    .mark fun _ => by simp [isTextCall]
  exact (hcalled.trans (perform_onward sink op _)).trans (.mark fun _ => by simp [isTextCall])

theorem Onward.loosen (h : Onward leasing texting s t) : Onward true true s t :=
  { h with
    deadline := fun hfalse => by simp at hfalse
    calls := fun hfalse => by simp at hfalse }

theorem run_onward (ops : List GateOp) (s : Session) :
    Onward true true s (ops.foldl (step sink) s) := by
  induction ops generalizing s with
  | nil => exact .refl s
  | cons op ops ih => exact (step_onward sink op s).loosen.trans (ih (step sink s op))

end Parts

end HomeTunnel.Remote
