import HomeTunnel.Native.GateAuthority
import HomeTunnel.Native.GateOnward

/-! # Authority only shrinks

What a lease granted is never widened, no clock value makes the gate's
arithmetic wrap, a clock that runs backwards closes it, and a gate that was
closed after an authorization does nothing more than release what is held.
-/

namespace HomeTunnel.Remote

open Session GateEvent

/-- The release of a key or button whose last successful sink call was its press. -/
def HeldRelease (call : SinkCall) (past : List GateEvent) : Prop :=
  (∃ usage, call = .key usage false false ∧ past.findSome? (keyState usage) = some true) ∨
    ∃ button, call = .button button false ∧ past.findSome? (buttonState button) = some true

/-- From `s` to `t` the sink was called for nothing but such releases. -/
def OnlyReleases (s t : Session) : Prop :=
  ∃ events, t.trace = events ++ s.trace ∧
    ∀ later call ok earlier, events = later ++ .sink call ok :: earlier →
      HeldRelease call (earlier ++ s.trace)

variable {s t u : Session}

theorem OnlyReleases.refl (s : Session) : OnlyReleases s s := ⟨[], rfl, by simp⟩

theorem OnlyReleases.mark {e : GateEvent} (he : ∀ call ok, e ≠ .sink call ok) :
    OnlyReleases s (s.mark e) := by
  refine ⟨[e], rfl, ?_⟩
  intro later call ok earlier heq
  have hmem : GateEvent.sink call ok ∈ [e] := by simp [heq]
  exact absurd (List.mem_singleton.mp hmem).symm (he call ok)

theorem OnlyReleases.modify (s : Session) (f : SessionGate → SessionGate) :
    OnlyReleases s (s.modify f) :=
  ⟨[], rfl, by simp⟩

theorem OnlyReleases.trans (hst : OnlyReleases s t) (htu : OnlyReleases t u) :
    OnlyReleases s u := by
  obtain ⟨first, htrace, hfirst⟩ := hst
  obtain ⟨second, htrace', hsecond⟩ := htu
  refine ⟨second ++ first, by rw [htrace', htrace, List.append_assoc], ?_⟩
  intro later call ok earlier heq
  rcases List.append_eq_append_iff.mp heq with ⟨rest, hlater, hrest⟩ | ⟨rest, hsplit, hrest⟩
  · exact hfirst rest call ok earlier hrest
  · cases rest with
    | nil => exact hfirst [] call ok earlier hrest.symm
    | cons e rest =>
      obtain ⟨rfl, rfl⟩ := List.cons.inj hrest
      rw [show rest.append first = rest ++ first from rfl, List.append_assoc, ← htrace]
      exact hsecond later call ok rest hsplit

theorem OnlyReleases.single {call : SinkCall} {ok : Bool} (hheld : HeldRelease call s.trace)
    (htrace : t.trace = [.sink call ok] ++ s.trace) : OnlyReleases s t := by
  refine ⟨_, htrace, ?_⟩
  intro later call' ok' earlier heq
  cases later with
  | nil =>
    obtain ⟨hsink, rfl⟩ := List.cons.inj heq
    obtain ⟨rfl, rfl⟩ := GateEvent.sink.inj hsink
    exact hheld
  | cons e later => simp at heq

section Releases

variable (sink : InputSink)

theorem releaseKey_held {usage : UInt16} (h : Ledger s) (hheld : usage ∈ s.gate.pressedKeys) :
    OnlyReleases s (releaseKey sink s usage) := by
  obtain ⟨ok, hreleases⟩ := releaseKey_releases sink s usage
  exact .single (.inl ⟨usage, rfl, (h.keys usage).mp hheld⟩) hreleases.trace

theorem releaseButton_held {button : UInt8} (h : Ledger s)
    (hheld : button ∈ s.gate.pressedButtons) : OnlyReleases s (releaseButton sink s button) := by
  obtain ⟨ok, hreleases⟩ := releaseButton_releases sink s button
  exact .single (.inr ⟨button, rfl, (h.buttons button).mp hheld⟩) hreleases.trace

theorem mem_releaseKey {usage other : UInt16} (hne : compare usage other ≠ .eq)
    (h : other ∈ s.gate.pressedKeys) : other ∈ (releaseKey sink s usage).gate.pressedKeys := by
  unfold releaseKey
  dsimp only
  split
  · exact Std.ExtTreeSet.mem_erase.mpr ⟨hne, h⟩
  · exact h

theorem mem_releaseButton {button other : UInt8} (hne : compare button other ≠ .eq)
    (h : other ∈ s.gate.pressedButtons) :
    other ∈ (releaseButton sink s button).gate.pressedButtons := by
  unfold releaseButton
  dsimp only
  split
  · exact Std.ExtTreeSet.mem_erase.mpr ⟨hne, h⟩
  · exact h

/-- A loop over distinct held elements releases each of them while it is held. -/
theorem foldl_held {α : Type} [Ord α] {release : Session → α → Session}
    (held : Session → α → Prop)
    (hrelease : ∀ s x, Ledger s → held s x → OnlyReleases s (release s x))
    (hmoves : ∀ s x, Moves true s (release s x))
    (hkept : ∀ s x y, compare x y ≠ .eq → held s y → held (release s x) y)
    (xs : List α) (hdistinct : xs.Pairwise fun x y => ¬ compare x y = .eq) (h : Ledger s)
    (hheld : ∀ x ∈ xs, held s x) : OnlyReleases s (xs.foldl release s) := by
  induction xs generalizing s with
  | nil => exact .refl s
  | cons x xs ih =>
    obtain ⟨hfirst, hrest⟩ := List.pairwise_cons.mp hdistinct
    refine (hrelease s x h (hheld x List.mem_cons_self)).trans
      (ih hrest (h.moves (hmoves s x)) fun y hy => ?_)
    exact hkept s x y (hfirst y hy) (hheld y (List.mem_cons_of_mem x hy))

theorem releaseInputs_held (h : Ledger s) : OnlyReleases s (releaseInputs sink s) := by
  have hmark : Ledger (s.mark .released) :=
    h.move (show Move true _ _ from .event .released (by simp))
  have hkeys := foldl_held (fun s u => u ∈ s.gate.pressedKeys)
    (fun _ _ hs hu => releaseKey_held sink hs hu) (releaseKey_moves sink)
    (fun _ _ _ hne hu => mem_releaseKey sink hne hu) s.gate.pressedKeys.toList
    Std.ExtTreeSet.distinct_toList hmark (by simp)
  have hledger := hmark.moves
    (foldl_moves (releaseKey_moves sink) s.gate.pressedKeys.toList (s.mark .released))
  simp only [releaseInputs, mark_gate]
  generalize s.gate.pressedKeys.toList.foldl (releaseKey sink) (s.mark .released) = s₁ at *
  have hbuttons := foldl_held (fun s b => b ∈ s.gate.pressedButtons)
    (fun _ _ hs hb => releaseButton_held sink hs hb) (releaseButton_moves sink)
    (fun _ _ _ hne hb => mem_releaseButton sink hne hb) s₁.gate.pressedButtons.toList
    Std.ExtTreeSet.distinct_toList hledger (by simp)
  exact (((OnlyReleases.mark (by simp)).trans hkeys).trans hbuttons).trans (.modify _ _)

end Releases

variable (sink : InputSink)

theorem tick_closed (now : UInt64) (h : Ledger s) (hclosed : s.gate.closed) :
    ∃ s', tick sink now s = (.closed, s') ∧ OnlyReleases s s' := by
  unfold tick
  rw [if_pos hclosed]
  split
  · exact ⟨_, rfl, releaseInputs_held sink h⟩
  · exact ⟨_, rfl, .refl s⟩

theorem close_held (h : Ledger s) : OnlyReleases s (close sink s) :=
  ((releaseInputs_held sink h).trans (.modify _ _)).trans (.modify _ _)

/-- After an authorization, a closed gate answers no call with `ok` and calls the sink
for nothing but releases. -/
theorem perform_closed (op : GateOp) (h : Ledger s) (hclosed : s.gate.closed)
    (hepoch : s.gate.epoch ≠ 0) :
    (perform sink op s).1 ≠ some .ok ∧ OnlyReleases s (perform sink op s).2 := by
  cases hop : op.ticksAt? with
  | some now =>
    obtain ⟨body, heq, -⟩ := perform_ticking sink hop
    obtain ⟨s', htick, hreleases⟩ := tick_closed sink now h hclosed
    rw [heq, afterTick, htick]
    exact ⟨by simp, hreleases⟩
  | none =>
    cases op <;> simp only [GateOp.ticksAt?, GateOp.clock?, reduceCtorEq] at hop
    case authorize lease wall now =>
      have hstate : authorize lease wall now s = (.state, s) := if_pos (.inr hepoch)
      simp only [perform, hstate]
      exact ⟨by simp, .refl s⟩
    case pause =>
      exact ⟨by simp [perform], (releaseInputs_held sink h).trans (.modify _ _)⟩
    case releaseControl => exact ⟨by simp [perform], releaseInputs_held sink h⟩
    case close => exact ⟨by simp [perform], close_held sink h⟩

theorem step_closed (op : GateOp) (h : Ledger s) (hclosed : s.gate.closed)
    (hepoch : s.gate.epoch ≠ 0) :
    stepResult sink s op ≠ some .ok ∧ OnlyReleases s (step sink s op) := by
  have hcalled : Ledger (s.mark (.called op)) :=
    h.move (show Move true _ _ from .event _ (by simp))
  obtain ⟨hresult, hreleases⟩ := perform_closed sink op hcalled hclosed hepoch
  exact ⟨hresult, ((OnlyReleases.mark (by simp)).trans hreleases).trans (.mark (by simp))⟩

variable {lease : VerifiedLease} {now : UInt64}

theorem leaseDeadline_le {wall : Int} {deadline : UInt64}
    (h : SessionGate.leaseDeadline lease wall now = some deadline) :
    deadline.toNat ≤ now.toNat + 900000 := by
  have hdeadline := (leaseDeadline_spec h).2
  unfold SessionGate.leaseDeadline at h
  split at h
  · simp at h
  rename_i hchecks
  push Not at hchecks
  obtain ⟨-, -, -, -, -, -, hwall, -, -, hspan⟩ := hchecks
  omega

/-- The lease that an accepted call brought set the deadline. -/
theorem step_deadline {op : GateOp} {wall : Int}
    (hop : op = .authorize lease wall now ∨ op = .renew lease wall now)
    (hok : stepResult sink s op = some .ok) :
    SessionGate.leaseDeadline lease wall now = some (step sink s op).gate.deadline := by
  rcases hop with rfl | rfl
  · simp only [stepResult, step, perform] at hok ⊢
    unfold authorize at hok ⊢
    split at hok
    · simp at hok
    rename_i hstate
    rw [if_neg hstate]
    split at hok
    · simp at hok
    rename_i deadline hdeadline
    rw [hdeadline]
    rfl
  · obtain ⟨s', -, heq, hbody⟩ := afterTick_result sink (Option.some.inj hok) (by simp) (by simp)
    simp only [step, perform, heq]
    unfold renewBody at hbody ⊢
    split at hbody
    · simp at hbody
    rename_i hchecks
    rw [if_neg hchecks]
    split at hbody
    · simp at hbody
    rename_i deadline hdeadline
    rw [hdeadline]
    rfl

/-- A signed 64-bit number. -/
def FitsInt64 (n : Int) : Prop := -(2 ^ 63) ≤ n ∧ n < 2 ^ 63

/-- Each sum and difference that `leaseDeadline` takes, behind the checks that stand
before it, is the mathematical one. -/
structure LeaseArithmetic (lease : VerifiedLease) (wall : Int) (now : UInt64) : Prop where
  span : 0 ≤ lease.issuedAtUnixMs → lease.issuedAtUnixMs < lease.expiresAtUnixMs →
    FitsInt64 (lease.expiresAtUnixMs - lease.issuedAtUnixMs)
  remaining : 0 ≤ lease.issuedAtUnixMs → lease.issuedAtUnixMs ≤ wall →
    wall < lease.expiresAtUnixMs →
    0 ≤ lease.expiresAtUnixMs - wall ∧ FitsInt64 (lease.expiresAtUnixMs - wall)
  deadline : ∀ deadline, SessionGate.leaseDeadline lease wall now = some deadline →
    (deadline.toNat : Int) = now.toNat + (lease.expiresAtUnixMs - wall)

theorem leaseArithmetic (h : FitsInt64 lease.expiresAtUnixMs) (wall : Int) (now : UInt64) :
    LeaseArithmetic lease wall now := by
  unfold FitsInt64 at h
  refine ⟨fun _ _ => ?_, fun _ _ _ => ?_, fun _ hdeadline => (leaseDeadline_spec hdeadline).2⟩
  · unfold FitsInt64
    omega
  · unfold FitsInt64
    omega

/-- A call whose clock lies before an accepted one closes an open gate. -/
theorem step_rollback {op : GateOp} (hop : op.ticksAt? = some now) (h : GateInv s)
    (hopen : s.gate.closed = false) {e : GateEvent} {t : UInt64} (he : e ∈ s.trace)
    (ht : acceptedClock? e = some t) (hback : now < t) : (step sink s op).gate.closed := by
  have hlate : now < s.gate.lastNow := UInt64.lt_of_lt_of_le hback (h.clocks e he t ht)
  obtain ⟨body, heq, -⟩ := perform_ticking sink hop
  have htick : tick sink now (s.mark (.called op)) = (.expired, close sink (s.mark (.called op))) :=
    tick_expiry sink hopen (.inl hlate)
  rw [step]
  simp only [heq, afterTick, htick]
  rfl

theorem watchdog_fits (h : GateInv s) (hnow : s.gate.lastNow ≤ now) (henabled : s.gate.inputEnabled)
    : (now - s.gate.heartbeatAt).toNat = now.toNat - s.gate.heartbeatAt.toNat ∧
      s.gate.heartbeatAt ≤ now := by
  have hle := UInt64.le_trans (h.beat henabled).2 hnow
  exact ⟨UInt64.toNat_sub_of_le _ _ hle, hle⟩

/-- `h` has no more authority than `g`, and its counters are not behind. -/
structure Shrunk (g h : SessionGate) : Prop where
  permissions : h.permissions &&& ~~~g.permissions = 0
  leaseSequence : h.leaseSequence ≠ g.leaseSequence → g.leaseSequence < h.leaseSequence
  epoch : h.epoch ≠ g.epoch → g.epoch < h.epoch
  inputEpoch : h.inputEpoch ≠ g.inputEpoch → g.inputEpoch < h.inputEpoch

theorem Onward.shrunk (h : Onward true true s t) (hs : s.gate.epoch ≠ 0) :
    Shrunk s.gate t.gate where
  permissions := h.permissions hs
  leaseSequence hne := UInt64.lt_of_le_of_ne (h.leaseSequence hs) hne.symm
  epoch hne := UInt32.lt_of_le_of_ne h.epoch hne.symm
  inputEpoch hne := UInt32.lt_of_le_of_ne h.inputEpoch hne.symm

/-- The gate has been authorized at some time. -/
def WasAuthorized (s : Session) : Prop := ∃ e ∈ s.trace, authorizeOk e

theorem WasAuthorized.epoch_ne (h : WasAuthorized s) (hinv : GateInv s) : s.gate.epoch ≠ 0 := by
  obtain ⟨e, he, hok⟩ := h
  intro hz
  have hnone := (hinv.unopened hz).2 e he
  unfold authorizeOk at hok
  split at hok
  · simp [acceptedClock?] at hnone
  · simp at hok

theorem run_append (ops more : List GateOp) :
    run sink (ops ++ more) = more.foldl (step sink) (run sink ops) := by
  simp [run]

/-- Over any sequence of calls: authority shrinks, deadlines come from leases alone and
are short, no clock value wraps, a clock that runs back closes the gate, and a gate closed
after an authorization stays closed and only releases what is held. -/
theorem run_authority_shrinks (ops : List GateOp) :
    (∀ more, WasAuthorized (run sink ops) →
      Shrunk (run sink ops).gate (run sink (ops ++ more)).gate) ∧
    (∀ op lease wall now, op = .authorize lease wall now ∨ op = .renew lease wall now →
      stepResult sink (run sink ops) op = some .ok →
      (step sink (run sink ops) op).gate.deadline.toNat ≤ now.toNat + 900000) ∧
    (∀ op : GateOp, ¬ (op.bringsLease ∧ stepResult sink (run sink ops) op = some .ok) →
      (step sink (run sink ops) op).gate.deadline = (run sink ops).gate.deadline) ∧
    (∀ lease wall now, FitsInt64 lease.expiresAtUnixMs → LeaseArithmetic lease wall now) ∧
    (∀ now, (run sink ops).gate.lastNow ≤ now → (run sink ops).gate.inputEnabled →
      (now - (run sink ops).gate.heartbeatAt).toNat =
          now.toNat - (run sink ops).gate.heartbeatAt.toNat ∧
        (run sink ops).gate.heartbeatAt ≤ now) ∧
    (∀ op now, op.ticksAt? = some now → (run sink ops).gate.closed = false →
      ∀ e ∈ (run sink ops).trace, ∀ t, acceptedClock? e = some t → now < t →
        (step sink (run sink ops) op).gate.closed) ∧
    (WasAuthorized (run sink ops) → (run sink ops).gate.closed → ∀ more op,
      (run sink (ops ++ more)).gate.closed ∧
      stepResult sink (run sink (ops ++ more)) op ≠ some .ok ∧
      OnlyReleases (run sink (ops ++ more)) (step sink (run sink (ops ++ more)) op)) := by
  have hinv : GateInv (run sink ops) := (foldl_step_inv sink ops runInv_initial).inv
  refine ⟨?_, ?_, ?_, fun _ wall now hfits => leaseArithmetic hfits wall now,
    fun _ hnow henabled => watchdog_fits hinv hnow henabled,
    fun _ _ hop hopen _ he _ ht hback => step_rollback sink hop hinv hopen he ht hback, ?_⟩
  · intro more hauthorized
    rw [run_append]
    exact (run_onward sink more _).shrunk (hauthorized.epoch_ne hinv)
  · intro op lease wall now hop hok
    exact leaseDeadline_le (step_deadline sink hop hok)
  · intro op hnone
    refine (step_onward sink op (run sink ops)).deadline ?_
    simpa [← Bool.not_eq_true] using hnone
  · intro hauthorized hclosed more op
    have hepoch := hauthorized.epoch_ne hinv
    have honward : Onward true true (run sink ops) (run sink (ops ++ more)) := by
      rw [run_append]
      exact run_onward sink more _
    have hshut := honward.closed hepoch hclosed
    exact ⟨hshut, step_closed sink op (run_ledger sink (ops ++ more) ⟨by simp, by simp⟩) hshut
      (honward.epoch_ne hepoch)⟩

end HomeTunnel.Remote
