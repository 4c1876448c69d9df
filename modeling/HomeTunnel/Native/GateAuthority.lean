import HomeTunnel.Lib.Trace
import HomeTunnel.Native.GateFrames

/-! # Input authority

What has to have happened before the gate lets an input through, read off the
trace alone: no field of the gate occurs in `InputAuthority`. `GateInv` ties
each flag and clock of the gate to the part of the trace it stands for, every
operation keeps it, and an authority-bearing sink call is made only where the
invariant yields the whole of `InputAuthority`.
-/

namespace HomeTunnel.Remote

open Trace

/-! ## What the trace reports -/

/-- A press, a motion, a scroll or text, as opposed to a release. -/
def SinkCall.needsAuthority : SinkCall → Bool
  | .key _ down _ => down
  | .button _ down => down
  | .pointer .. | .wheel .. | .text _ => true

namespace GateEvent

/-- The event starts or ends a call. -/
def isBoundary : GateEvent → Bool
  | called _ => true
  | returned .. => true
  | _ => false

def authorizeOk : GateEvent → Bool
  | returned (.authorize ..) (some .ok) => true
  | _ => false

/-- The gate closed itself or was closed. -/
def closing : GateEvent → Bool
  | returned .close _ => true
  | returned _ (some .expired) => true
  | _ => false

/-- The clock value of a call that the gate accepted: `authorize` only on success,
a timed call unless it found the gate closed or expired. -/
def acceptedClock? : GateEvent → Option UInt64
  | returned (.authorize _ _ now) (some .ok) => some now
  | returned (.authorize ..) _ => none
  | returned _ (some .closed) => none
  | returned _ (some .expired) => none
  | returned op _ => op.clock?
  | _ => none

/-- The lease of a successful `authorize` or `renew`, with its two clocks. -/
def acceptedLease? : GateEvent → Option (VerifiedLease × Int × UInt64)
  | returned (.authorize lease wall now) (some .ok) => some (lease, wall, now)
  | returned (.renew lease wall now) (some .ok) => some (lease, wall, now)
  | _ => none

/-- The connection epoch that a successful `authorize` or `reconnect` sets. -/
def epochSet? : GateEvent → Option UInt32
  | returned (.authorize lease _ _) (some .ok) => some lease.connectionEpoch
  | returned (.reconnect epoch _) (some .ok) => some epoch
  | _ => none

def reconnectOk : GateEvent → Bool
  | returned (.reconnect ..) (some .ok) => true
  | _ => false

def peerAuthenticatedOk (epoch : UInt32) : GateEvent → Bool
  | returned (.peerAuthenticated e _) (some .ok) => e == epoch
  | _ => false

/-- A selected pair of the current epoch that carried a newer revision: the call
got as far as the path check. -/
def newerPair? : GateEvent → Option (UInt32 × SelectedPair)
  | returned (.selectedPair epoch pair _) (some .ok) => some (epoch, pair)
  | returned (.selectedPair epoch pair _) (some .path) => some (epoch, pair)
  | _ => none

def firstFrameOk : GateEvent → Bool
  | returned (.firstFrame ..) (some .ok) => true
  | _ => false

def synchronizeOk : GateEvent → Bool
  | returned (.synchronizeInput ..) (some .ok) => true
  | _ => false

/-- The time of a successful `synchronize_input` or `heartbeat`. -/
def inputBeat? : GateEvent → Option UInt64
  | returned (.synchronizeInput _ _ _ now _) (some .ok) => some now
  | returned (.heartbeat _ _ _ now) (some .ok) => some now
  | _ => none

end GateEvent

open GateEvent Session

/-- The authority for a sink call at the instant `now`, read off the past. -/
structure InputAuthority (past : List GateEvent) (now : UInt64) (permission : UInt64) : Prop where
  authorized : Since (authorizeOk ·) (closing ·) past
  monotone : ∀ e ∈ past, ∀ t, acceptedClock? e = some t → t ≤ now
  leased : ∃ lease wall steady, past.findSome? acceptedLease? = some (lease, wall, steady) ∧
    (now.toNat : Int) < steady.toNat + (lease.expiresAtUnixMs - wall) ∧
    lease.permissions &&& permission ≠ 0
  peer : ∃ epoch, past.findSome? epochSet? = some epoch ∧
    Since (peerAuthenticatedOk epoch ·) (reconnectOk ·) past
  path : ∃ epoch pair, past.findSome? epochSet? = some epoch ∧
    past.findSome? newerPair? = some (epoch, pair) ∧
    pair.transport = "udp" ∧ pair.nominated ∧ pair.succeeded ∧
    Session.direct pair.localCandidate ∧ Session.direct pair.remoteCandidate ∧
    Since (firstFrameOk ·) (fun e => (newerPair? e).isSome) past
  enabled : Since (synchronizeOk ·) (· = .released) past
  fresh : ∃ at_, past.findSome? inputBeat? = some at_ ∧ at_ ≤ now ∧
    now.toNat - at_.toNat < 1500

/-- The call of `op` is the latest one and has not returned. -/
def InProgress (op : GateOp) (past : List GateEvent) : Prop :=
  Since (· = .called op) (isBoundary ·) past

/-- Every authority-bearing sink call of the trace was made by a call in progress,
at that call's clock value and with the authority it needs. -/
def Justified (trace : List GateEvent) : Prop :=
  ∀ later call ok earlier, trace = later ++ .sink call ok :: earlier → call.needsAuthority →
    ∃ op now, InProgress op earlier ∧ op.clock? = some now ∧
      InputAuthority earlier now call.permission

/-- Each flag and clock of the gate stands for a part of the trace. -/
structure GateInv (s : Session) : Prop where
  quiet : s.gate.closed → s.gate.authenticated = false ∧ s.gate.pathVerified = false ∧
    s.gate.firstFrame = false ∧ s.gate.inputEnabled = false
  unopened : s.gate.epoch = 0 → s.gate.closed ∧ ∀ e ∈ s.trace, acceptedClock? e = none
  clocks : ∀ e ∈ s.trace, ∀ t, acceptedClock? e = some t → t ≤ s.gate.lastNow
  authorized : ¬ s.gate.closed → Since (authorizeOk ·) (closing ·) s.trace
  leased : ¬ s.gate.closed → ∃ lease wall steady,
    s.trace.findSome? acceptedLease? = some (lease, wall, steady) ∧
    (s.gate.deadline.toNat : Int) = steady.toNat + (lease.expiresAtUnixMs - wall) ∧
    s.gate.permissions = lease.permissions
  epoch : ¬ s.gate.closed → s.trace.findSome? epochSet? = some s.gate.epoch
  peer : s.gate.authenticated → Since (peerAuthenticatedOk s.gate.epoch ·) (reconnectOk ·) s.trace
  path : s.gate.pathVerified → ∃ pair, s.trace.findSome? newerPair? = some (s.gate.epoch, pair) ∧
    Session.pairAccepted pair
  frame : s.gate.firstFrame →
    Since (firstFrameOk ·) (fun e => (newerPair? e).isSome) s.trace
  enabled : s.gate.inputEnabled → Since (synchronizeOk ·) (· = .released) s.trace
  beat : s.gate.inputEnabled → s.trace.findSome? inputBeat? = some s.gate.heartbeatAt ∧
    s.gate.heartbeatAt ≤ s.gate.lastNow

/-- An event that reports no lease, epoch, pair, beat or reconnect. -/
structure Neutral (e : GateEvent) : Prop where
  lease : acceptedLease? e = none
  epoch : epochSet? e = none
  pair : newerPair? e = none
  beat : inputBeat? e = none
  reconnect : ¬ reconnectOk e

theorem GateInv.mark {s : Session} (h : GateInv s) {e : GateEvent} (hn : Neutral e)
    (hclock : ∀ t, acceptedClock? e = some t → s.gate.epoch ≠ 0 ∧ t ≤ s.gate.lastNow)
    (hclose : closing e → s.gate.closed)
    (hreleased : e = .released → s.gate.inputEnabled = false := by simp) :
    GateInv (s.mark e) where
  quiet := h.quiet
  unopened hz := by
    refine ⟨(h.unopened hz).1, fun x hx => ?_⟩
    rcases List.mem_cons.mp hx with rfl | hx
    · cases hc : acceptedClock? x with
      | none => rfl
      | some t => exact absurd hz (hclock t hc).1
    · exact (h.unopened hz).2 x hx
  clocks x hx t ht := by
    rcases List.mem_cons.mp hx with rfl | hx
    · exact (hclock t ht).2
    · exact h.clocks x hx t ht
  authorized hc := (h.authorized hc).cons fun hb => hc (hclose hb)
  leased hc := by simpa [hn.lease] using h.leased hc
  epoch hc := by simpa [hn.epoch] using h.epoch hc
  peer ha := (h.peer ha).cons hn.reconnect
  path hp := by simpa [hn.pair] using h.path hp
  frame hf := (h.frame hf).cons (by simp [hn.pair])
  enabled hi := (h.enabled hi).cons fun hb => by simp [hreleased hb] at hi
  beat hi := by simpa [hn.beat] using h.beat hi

/-- Lowering flags, moving the clock on and closing keep the invariant. -/
theorem GateInv.lower {s : Session} (h : GateInv s) {g : SessionGate}
    (hshut : g.closed → s.gate.closed ∨ g.authenticated = false ∧ g.pathVerified = false ∧
      g.firstFrame = false ∧ g.inputEnabled = false := by exact Or.inl)
    (hlast : s.gate.lastNow ≤ g.lastNow := by exact UInt64.le_refl _)
    (hpeer : g.authenticated → s.gate.authenticated := by simp)
    (hpath : g.pathVerified → s.gate.pathVerified := by simp)
    (hframe : g.firstFrame → s.gate.firstFrame := by simp)
    (hinput : g.inputEnabled → s.gate.inputEnabled ∧ g.heartbeatAt = s.gate.heartbeatAt := by simp)
    (hclosed : s.gate.closed → g.closed := by simp)
    (hepoch : g.epoch = s.gate.epoch := by rfl)
    (hlease : g.deadline = s.gate.deadline ∧ g.permissions = s.gate.permissions := by
      exact ⟨rfl, rfl⟩) :
    GateInv ⟨g, s.trace⟩ where
  quiet hc := by
    rcases hshut hc with hs | hs
    · obtain ⟨ha, hp, hf, hi⟩ := h.quiet hs
      refine ⟨?_, ?_, ?_, ?_⟩ <;> grind
    · exact hs
  unopened hz := by
    obtain ⟨hc, hn⟩ := h.unopened (hepoch ▸ hz)
    exact ⟨hclosed hc, hn⟩
  clocks e he t ht := UInt64.le_trans (h.clocks e he t ht) hlast
  authorized hc := h.authorized fun hs => hc (hclosed hs)
  leased hc := by
    obtain ⟨lease, wall, steady, hl, hd, hp⟩ := h.leased fun hs => hc (hclosed hs)
    exact ⟨lease, wall, steady, hl, hlease.1 ▸ hd, hlease.2 ▸ hp⟩
  epoch hc := by
    simpa [hepoch] using h.epoch fun hs => hc (hclosed hs)
  peer ha := by simpa [hepoch] using h.peer (hpeer ha)
  path hp := by simpa [hepoch] using h.path (hpath hp)
  frame hf := h.frame (hframe hf)
  enabled hi := h.enabled (hinput hi).1
  beat hi := by
    obtain ⟨hb, hle⟩ := h.beat (hinput hi).1
    exact ⟨(hinput hi).2 ▸ hb, (hinput hi).2 ▸ UInt64.le_trans hle hlast⟩

theorem Justified.cons {trace : List GateEvent} (h : Justified trace) {e : GateEvent}
    (he : ∀ call ok, e = .sink call ok → call.needsAuthority →
      ∃ op now, InProgress op trace ∧ op.clock? = some now ∧
        InputAuthority trace now call.permission) :
    Justified (e :: trace) := by
  intro later call ok earlier heq hneeds
  cases later with
  | nil =>
    obtain ⟨rfl, rfl⟩ := List.cons.inj heq
    exact he call ok rfl hneeds
  | cons x later =>
    obtain ⟨rfl, rfl⟩ := List.cons.inj heq
    exact h later call ok earlier rfl hneeds

/-- What holds of a session between two calls. -/
structure RunInv (s : Session) : Prop where
  inv : GateInv s
  justified : Justified s.trace

/-- What holds of a session inside the call of `op`. -/
structure CallInv (op : GateOp) (s : Session) : Prop extends RunInv s where
  inProgress : InProgress op s.trace

theorem RunInv.called {s : Session} (h : RunInv s) (op : GateOp) :
    CallInv op (s.mark (.called op)) where
  inv := h.inv.mark ⟨rfl, rfl, rfl, rfl, nofun⟩ nofun nofun
  justified := h.justified.cons (by simp)
  inProgress := Since.now rfl

variable {op : GateOp} {s : Session}

/-- A sink call that is a release, or that has the authority it needs. -/
theorem CallInv.sink (h : CallInv op s) (call : SinkCall) (ok : Bool)
    (hauth : call.needsAuthority →
      ∃ now, op.clock? = some now ∧ InputAuthority s.trace now call.permission) :
    CallInv op (s.mark (.sink call ok)) where
  inv := h.inv.mark ⟨rfl, rfl, rfl, rfl, nofun⟩ nofun nofun
  justified := h.justified.cons (by
    rintro c o he hneeds
    obtain ⟨rfl, rfl⟩ := GateEvent.sink.inj he
    obtain ⟨now, hclock, ha⟩ := hauth hneeds
    exact ⟨op, now, h.inProgress, hclock, ha⟩)
  inProgress := h.inProgress.cons (by simp [isBoundary])

theorem CallInv.attempts (h : CallInv op s) {calls : List GateEvent}
    (hcalls : ∀ e ∈ calls, Session.isReleaseAttempt e) :
    CallInv op ⟨s.gate, calls ++ s.trace⟩ := by
  induction calls with
  | nil => exact h
  | cons e calls ih =>
    have hrest := ih fun x hx => hcalls x (List.mem_cons_of_mem e hx)
    have he := hcalls e List.mem_cons_self
    unfold Session.isReleaseAttempt at he
    split at he <;> first
      | exact hrest.sink _ _ (by simp [SinkCall.needsAuthority])
      | simp at he

variable {f : SessionGate → SessionGate} {r : GateResult}

theorem CallInv.update (h : CallInv op s) (hf : GateInv ⟨f s.gate, s.trace⟩) :
    CallInv op (s.modify f) :=
  ⟨⟨hf, h.justified⟩, h.inProgress⟩

theorem CallInv.releaseInputs (sink : InputSink) (h : CallInv op s) :
    CallInv op (Session.releaseInputs sink s) := by
  obtain ⟨keys, buttons, calls, heq, hcalls, -⟩ := Session.releaseInputs_spec sink s
  rw [heq]
  have hlow : GateInv ⟨{ s.gate with
      pressedKeys := keys, pressedButtons := buttons, inputEnabled := false }, s.trace⟩ :=
    h.inv.lower
  have hmark := hlow.mark (e := .released) ⟨rfl, rfl, rfl, rfl, nofun⟩ nofun nofun fun _ => rfl
  exact CallInv.attempts (s := ⟨_, .released :: s.trace⟩)
    ⟨⟨hmark, h.justified.cons (by simp)⟩, h.inProgress.cons (by simp [isBoundary])⟩ hcalls

theorem CallInv.pause (sink : InputSink) (h : CallInv op s) : CallInv op (Session.pause sink s) :=
  (h.releaseInputs sink).update (h.releaseInputs sink).inv.lower

theorem CallInv.close (sink : InputSink) (h : CallInv op s) : CallInv op (Session.close sink s) := by
  refine (h.pause sink).update ((h.pause sink).inv.lower fun _ => Or.inr ?_)
  exact ⟨rfl, rfl, rfl, by simp [Session.pause]⟩

/-- The session is open and its clock stands at `now`. -/
structure OpenAt (now : UInt64) (s : Session) : Prop where
  isOpen : s.gate.closed = false
  clock : s.gate.lastNow = now

theorem OpenAt.releaseInputs {now : UInt64} (sink : InputSink) (h : OpenAt now s) :
    OpenAt now (Session.releaseInputs sink s) :=
  ⟨by simp [h.isOpen], by simp [h.clock]⟩

/-- An open session whose clock stands at `now`: where the body of a timed call runs. -/
structure Ready (now : UInt64) (s : Session) : Prop where
  isOpen : s.gate.closed = false
  clock : s.gate.lastNow = now
  beforeDeadline : now < s.gate.deadline
  watchdog : s.gate.inputEnabled → ¬ now - s.gate.heartbeatAt ≥ Session.watchdogMs

theorem Ready.openAt {now : UInt64} (h : Ready now s) : OpenAt now s := ⟨h.isOpen, h.clock⟩

theorem tick_cases (sink : InputSink) (h : CallInv op s) (now : UInt64) :
    (∃ s', Session.tick sink now s = (.closed, s') ∧ CallInv op s' ∧ s'.gate.closed) ∨
    (∃ s', Session.tick sink now s = (.expired, s') ∧ CallInv op s' ∧ s'.gate.closed) ∨
    ∃ s', Session.tick sink now s = (.ok, s') ∧ CallInv op s' ∧ Ready now s' := by
  unfold Session.tick
  by_cases hc : s.gate.closed
  · refine Or.inl ?_
    rw [if_pos hc]
    split
    · exact ⟨_, rfl, h.releaseInputs sink, by simp [hc]⟩
    · exact ⟨_, rfl, h, hc⟩
  rw [if_neg hc]
  by_cases he : now < s.gate.lastNow ∨ now ≥ s.gate.deadline
  · rw [if_pos he]
    exact Or.inr (Or.inl ⟨_, rfl, h.close sink, rfl⟩)
  rw [if_neg he]
  have hge : s.gate.lastNow ≤ now := UInt64.not_lt.mp fun hlt => he (Or.inl hlt)
  have hlt : now < s.gate.deadline := UInt64.not_le.mp fun hle => he (Or.inr hle)
  have hcf : s.gate.closed = false := by simpa using hc
  have hnow : CallInv op (s.modify fun g => { g with lastNow := now }) :=
    h.update (h.inv.lower Or.inl hge)
  refine Or.inr (Or.inr ?_)
  dsimp only
  split
  · exact ⟨_, rfl, hnow.releaseInputs sink, by simp [hcf], by simp, by simpa using hlt, by simp⟩
  · rename_i hw
    split
    · exact ⟨_, rfl, hnow.releaseInputs sink, by simp [hcf], by simp, by simpa using hlt, by simp⟩
    · exact ⟨_, rfl, hnow, hcf, rfl, hlt, fun hi hge' => hw ⟨hi, hge'⟩⟩

/-- A ready session that allows input has the authority for every call whose
permission the lease grants. -/
theorem Ready.authority (h : GateInv s) {now : UInt64} (hr : Ready now s)
    (hallowed : s.gate.inputAllowed) {permission : UInt64}
    (hperm : s.gate.permissions &&& permission ≠ 0) :
    InputAuthority s.trace now permission := by
  simp only [SessionGate.inputAllowed, SessionGate.mediaAllowed, Bool.and_eq_true] at hallowed
  obtain ⟨⟨⟨⟨-, hauth⟩, hpath⟩, hframe⟩, hinput⟩ := hallowed
  have hopen : ¬ s.gate.closed := by simp [hr.isOpen]
  obtain ⟨lease, wall, steady, hl, hd, hp⟩ := h.leased hopen
  obtain ⟨pair, hpair, haccepted⟩ := h.path hpath
  obtain ⟨hbeat, hle⟩ := h.beat hinput
  simp only [Session.pairAccepted, Bool.and_eq_true, beq_iff_eq] at haccepted
  obtain ⟨⟨⟨⟨hudp, hnom⟩, hsucc⟩, hlocal⟩, hremote⟩ := haccepted
  rw [hr.clock] at hle
  have hfresh := hr.watchdog hinput
  exact
    { authorized := h.authorized hopen
      monotone := fun e he t ht => hr.clock ▸ h.clocks e he t ht
      leased := by
        refine ⟨lease, wall, steady, hl, ?_, hp ▸ hperm⟩
        have hlt := UInt64.lt_iff_toNat_lt.mp hr.beforeDeadline
        omega
      peer := ⟨_, h.epoch hopen, h.peer hauth⟩
      path := ⟨_, pair, h.epoch hopen, hpair, hudp, hnom, hsucc, hlocal, hremote, h.frame hframe⟩
      enabled := h.enabled hinput
      fresh := by
        refine ⟨_, hbeat, hle, ?_⟩
        rw [ge_iff_le, UInt64.le_iff_toNat_le, UInt64.toNat_sub_of_le _ _ hle] at hfresh
        have hw : Session.watchdogMs.toNat = 1500 := by decide
        omega }

theorem neutral_of_refusal (op : GateOp) (hok : r ≠ .ok) (hpath : r ≠ .path) :
    Neutral (.returned op (some r)) := by
  cases r <;> first
    | exact absurd rfl hok
    | exact absurd rfl hpath
    | constructor <;> cases op <;> simp [acceptedLease?, epochSet?, newerPair?, inputBeat?, reconnectOk]

theorem acceptedClock?_returned {now t : UInt64} {r : Option GateResult}
    (hclock : op.clock? = some now) (h : acceptedClock? (.returned op r) = some t) : t = now := by
  unfold acceptedClock? at h
  split at h <;> simp_all [GateOp.clock?]

theorem not_closing_returned {now : UInt64} (hclock : op.clock? = some now) (hr : r ≠ .expired) :
    ¬ closing (.returned op (some r)) := by
  unfold closing
  split <;> simp_all [GateOp.clock?]

theorem CallInv.epoch_ne (h : CallInv op s) (hopen : s.gate.closed = false) :
    s.gate.epoch ≠ 0 := by
  intro hz
  have hc := (h.inv.unopened hz).1
  simp [hopen] at hc

theorem CallInv.finish (h : CallInv op s) {now : UInt64} (hclock : op.clock? = some now)
    (hopen : OpenAt now s) (hr : r ≠ .expired) (hn : Neutral (.returned op (some r))) :
    RunInv (s.mark (.returned op (some r))) where
  inv := by
    refine h.inv.mark hn ?_ (fun hc => absurd hc (not_closing_returned hclock hr))
    intro t ht
    rw [acceptedClock?_returned hclock ht]
    exact ⟨h.epoch_ne hopen.isOpen, hopen.clock ▸ UInt64.le_refl _⟩
  justified := h.justified.cons (by simp)

theorem CallInv.refuse (h : CallInv op s) {now : UInt64} (hclock : op.clock? = some now)
    (hready : Ready now s) (r : GateResult) (hr : r ≠ .ok ∧ r ≠ .path ∧ r ≠ .expired) :
    RunInv (s.mark (.returned op (some r))) :=
  h.finish hclock hready.openAt hr.2.2 (neutral_of_refusal op hr.1 hr.2.1)

/-- The return of a call that found the gate closed, or closed it. -/
theorem CallInv.finishClosed (h : CallInv op s) (hclosed : s.gate.closed)
    (hr : r = .closed ∨ r = .expired) : RunInv (s.mark (.returned op (some r))) where
  inv := by
    have hn : Neutral (.returned op (some r)) := by
      rcases hr with rfl | rfl <;> exact neutral_of_refusal op nofun nofun
    refine h.inv.mark hn ?_ fun _ => hclosed
    intro t ht
    rcases hr with rfl | rfl <;> cases op <;> simp [acceptedClock?] at ht
  justified := h.justified.cons (by simp)

/-- The call returns the pair it computed, to a session in the run invariant. -/
def Returns (op : GateOp) (outcome : GateResult × Session) : Prop :=
  RunInv (outcome.2.mark (.returned op (some outcome.1)))

/-- A body run after a successful `tick` returns to a session in the run invariant. -/
def BodyInv (op : GateOp) (now : UInt64) (body : Session → GateResult × Session) : Prop :=
  ∀ s, CallInv op s → Ready now s → Returns op (body s)

theorem timed_inv (sink : InputSink) {now : UInt64} {body : Session → GateResult × Session}
    (hbody : BodyInv op now body) (h : CallInv op s) :
    Returns op (Session.afterTick sink now body s) := by
  unfold Session.afterTick
  rcases tick_cases sink h now with ⟨s', heq, hs, hc⟩ | ⟨s', heq, hs, hc⟩ | ⟨s', heq, hs, hr⟩
  · rw [heq]
    exact hs.finishClosed hc (Or.inl rfl)
  · rw [heq]
    exact hs.finishClosed hc (Or.inr rfl)
  · rw [heq]
    exact hbody s' hs hr

theorem leaseDeadline_spec {lease : VerifiedLease} {wall : Int} {now deadline : UInt64}
    (h : SessionGate.leaseDeadline lease wall now = some deadline) :
    lease.connectionEpoch ≠ 0 ∧
      (deadline.toNat : Int) = now.toNat + (lease.expiresAtUnixMs - wall) := by
  unfold SessionGate.leaseDeadline at h
  split at h
  · simp at h
  rename_i hchecks
  push Not at hchecks
  obtain ⟨hepoch, -, -, -, -, hissued, hwall, hexp, -, hspan⟩ := hchecks
  refine ⟨hepoch, ?_⟩
  dsimp only at h
  split at h
  · simp at h
  rename_i hroom
  have hfit : (lease.expiresAtUnixMs - wall).toNat < 2 ^ 64 := by omega
  have hrem : (UInt64.ofNat (lease.expiresAtUnixMs - wall).toNat).toNat =
      (lease.expiresAtUnixMs - wall).toNat := UInt64.toNat_ofNat_of_lt' hfit
  have hle := UInt64.le_iff_toNat_le.mp (UInt64.not_lt.mp hroom)
  have hmax : (0xffffffffffffffff - now).toNat = 0xffffffffffffffff - now.toNat := by
    rw [UInt64.toNat_sub_of_le]
    · rfl
    · exact UInt64.le_iff_toNat_le.mpr (by have := now.toNat_lt; simp; omega)
  rw [hmax, hrem] at hle
  have hnow := now.toNat_lt
  obtain rfl := Option.some.inj h
  rw [UInt64.toNat_add, hrem, Nat.mod_eq_of_lt (by omega)]
  omega

/-- The return of a timed call that does report something: an open session at the
call's clock value, and the clauses of the invariant that the report touches. -/
theorem CallInv.report (h : CallInv op s) {now : UInt64} (hclock : op.clock? = some now)
    (hopen : OpenAt now s) (hf : OpenAt now (s.modify f)) (hepoch : (f s.gate).epoch ≠ 0)
    (hr : r ≠ .expired)
    (hrest : let t := (s.modify f).mark (.returned op (some r))
      (∃ lease wall steady, t.trace.findSome? acceptedLease? = some (lease, wall, steady) ∧
        (t.gate.deadline.toNat : Int) = steady.toNat + (lease.expiresAtUnixMs - wall) ∧
        t.gate.permissions = lease.permissions) ∧
      t.trace.findSome? epochSet? = some t.gate.epoch ∧
      (t.gate.authenticated →
        Since (peerAuthenticatedOk t.gate.epoch ·) (reconnectOk ·) t.trace) ∧
      (t.gate.pathVerified → ∃ pair,
        t.trace.findSome? newerPair? = some (t.gate.epoch, pair) ∧ Session.pairAccepted pair) ∧
      (t.gate.firstFrame → Since (firstFrameOk ·) (fun e => (newerPair? e).isSome) t.trace) ∧
      (t.gate.inputEnabled → Since (synchronizeOk ·) (· = .released) t.trace) ∧
      (t.gate.inputEnabled → t.trace.findSome? inputBeat? = some t.gate.heartbeatAt ∧
        t.gate.heartbeatAt ≤ t.gate.lastNow)) :
    RunInv ((s.modify f).mark (.returned op (some r))) := by
  obtain ⟨hleased, hset, hpeer, hpath, hframe, henabled, hbeat⟩ := hrest
  refine ⟨?_, h.justified.cons (by simp)⟩
  exact
    { quiet := fun hc => by rw [mark_gate, hf.isOpen] at hc; cases hc
      unopened := fun hz => absurd hz hepoch
      clocks := by
        intro e he t ht
        rcases List.mem_cons.mp he with rfl | he
        · rw [acceptedClock?_returned hclock ht, mark_gate, hf.clock]
          exact UInt64.le_refl _
        · rw [mark_gate, hf.clock, ← hopen.clock]
          exact h.inv.clocks e he t ht
      authorized := fun _ =>
        (h.inv.authorized (by simp [hopen.isOpen])).cons (not_closing_returned hclock hr)
      leased := fun _ => hleased
      epoch := fun _ => hset
      peer := hpeer
      path := hpath
      frame := hframe
      enabled := henabled
      beat := hbeat }

theorem authorize_inv (lease : VerifiedLease) (wall : Int) (now : UInt64)
    (h : CallInv (.authorize lease wall now) s) :
    Returns (.authorize lease wall now) (Session.authorize lease wall now s) := by
  have hrefuse : ∀ r, r ≠ .ok → r ≠ .path → r ≠ .expired →
      RunInv (s.mark (.returned (.authorize lease wall now) (some r))) := by
    intro r hok hpath hexp
    have hn := neutral_of_refusal (.authorize lease wall now) hok hpath
    refine ⟨h.inv.mark hn ?_ ?_, h.justified.cons (by simp)⟩
    · cases r <;> simp_all [acceptedClock?]
    · cases r <;> simp_all [closing]
  unfold Session.authorize
  split
  · exact hrefuse _ nofun nofun nofun
  rename_i hstate
  push Not at hstate
  obtain ⟨hclosed, hzero⟩ := hstate
  split
  · exact hrefuse _ nofun nofun nofun
  rename_i deadline hdeadline
  obtain ⟨hepoch, hdl⟩ := leaseDeadline_spec hdeadline
  obtain ⟨ha, hp, hf, hi⟩ := h.inv.quiet hclosed
  have hnone := (h.inv.unopened hzero).2
  refine ⟨?_, h.justified.cons (by simp)⟩
  exact
    { quiet := by simp
      unopened := fun hz => absurd hz hepoch
      clocks := by
        intro e he t ht
        rcases List.mem_cons.mp he with rfl | he
        · simp only [acceptedClock?, Option.some.injEq] at ht
          exact ht ▸ UInt64.le_refl _
        · simp [hnone e he] at ht
      authorized := fun _ => Since.now rfl
      leased := fun _ => ⟨lease, wall, now, rfl, hdl, rfl⟩
      epoch := fun _ => rfl
      peer := by simp [ha]
      path := by simp [hp]
      frame := by simp [hf]
      enabled := by simp [hi]
      beat := by simp [hi] }

theorem renewed_inv {lease : VerifiedLease} {wall : Int} {now deadline : UInt64}
    (h : CallInv (.renew lease wall now) s) (hopen : OpenAt now s)
    (hdl : (deadline.toNat : Int) = now.toNat + (lease.expiresAtUnixMs - wall)) :
    RunInv ((s.modify fun g =>
      { g with permissions := lease.permissions, leaseSequence := lease.sequence,
               deadline := deadline }).mark (.returned (.renew lease wall now) (some .ok))) := by
  have hc : ¬ s.gate.closed := by simp [hopen.isOpen]
  refine h.report rfl hopen ⟨hopen.isOpen, hopen.clock⟩ (h.epoch_ne hopen.isOpen) nofun ?_
  exact ⟨⟨lease, wall, now, rfl, hdl, rfl⟩, h.inv.epoch hc,
    fun ha => (h.inv.peer ha).cons (by simp [reconnectOk]), h.inv.path,
    fun hf => (h.inv.frame hf).cons (by simp [newerPair?]),
    fun hi => (h.inv.enabled hi).cons (by simp), h.inv.beat⟩

theorem renewBody_inv (sink : InputSink) (lease : VerifiedLease) (wall : Int) (now : UInt64) :
    BodyInv (.renew lease wall now) now (Session.renewBody sink lease wall now) := by
  intro s h hready
  unfold Session.renewBody
  split
  · exact h.refuse rfl hready _ (by simp)
  split
  · exact h.refuse rfl hready _ (by simp)
  rename_i deadline hdeadline
  obtain ⟨-, hdl⟩ := leaseDeadline_spec hdeadline
  dsimp only
  split
  · exact renewed_inv (h.releaseInputs sink) (hready.openAt.releaseInputs sink) hdl
  · exact renewed_inv h hready.openAt hdl

theorem peerAuthenticatedBody_inv (epoch : UInt32) (now : UInt64) :
    BodyInv (.peerAuthenticated epoch now) now (Session.peerAuthenticatedBody epoch) := by
  intro s h hready
  unfold Session.peerAuthenticatedBody
  split
  · exact h.refuse rfl hready _ (by simp)
  rename_i hepoch
  obtain rfl : epoch = s.gate.epoch := by simpa using hepoch
  have hplain := h.finish (r := .ok) rfl hready.openAt nofun ⟨rfl, rfl, rfl, rfl, nofun⟩
  refine ⟨?_, hplain.justified⟩
  exact
    { hplain.inv with
      quiet := fun hc => by simp [hready.isOpen] at hc
      peer := fun _ => Since.now (by simp [peerAuthenticatedOk]) }

theorem firstFrameBody_inv (epoch : UInt32) (now : UInt64) :
    BodyInv (.firstFrame epoch now) now (Session.firstFrameBody epoch) := by
  intro s h hready
  unfold Session.firstFrameBody
  split
  · exact h.refuse rfl hready _ (by simp)
  have hplain := h.finish (r := .ok) rfl hready.openAt nofun ⟨rfl, rfl, rfl, rfl, nofun⟩
  refine ⟨?_, hplain.justified⟩
  exact
    { hplain.inv with
      quiet := fun hc => by simp [hready.isOpen] at hc
      frame := fun _ => Since.now rfl }

/-- The return of a selected pair of a newer revision, once the sensitive gates are shut. -/
theorem newerPair_inv {epoch : UInt32} {pair : SelectedPair} {now : UInt64}
    (h : CallInv (.selectedPair epoch pair now) s) (hopen : OpenAt now s) (hepoch : s.gate.epoch = epoch)
    (hframe : s.gate.firstFrame = false) (verified : Bool)
    (hr : r = .ok ∧ Session.pairAccepted pair ∨ r = .path ∧ verified = false) :
    RunInv ((s.modify fun g => { g with pathVerified := verified }).mark
      (.returned (.selectedPair epoch pair now) (some r))) := by
  have hc : ¬ s.gate.closed := by simp [hopen.isOpen]
  have hpair : newerPair? (.returned (.selectedPair epoch pair now) (some r)) =
      some (epoch, pair) := by
    rcases hr with ⟨rfl, -⟩ | ⟨rfl, -⟩ <;> rfl
  have hexp : r ≠ .expired := by rcases hr with ⟨rfl, -⟩ | ⟨rfl, -⟩ <;> simp
  refine h.report rfl hopen ⟨hopen.isOpen, hopen.clock⟩ (h.epoch_ne hopen.isOpen) hexp ?_
  refine ⟨h.inv.leased hc, h.inv.epoch hc,
    fun ha => (h.inv.peer ha).cons (by simp [reconnectOk]), ?_, by simp [hframe],
    fun hi => (h.inv.enabled hi).cons (by simp), h.inv.beat⟩
  intro hv
  rcases hr with ⟨-, ha⟩ | ⟨-, hf⟩
  · exact ⟨pair, by simp [hpair, hepoch], ha⟩
  · simp [hf] at hv

theorem selectedPairBody_inv (sink : InputSink) (epoch : UInt32) (pair : SelectedPair)
    (now : UInt64) :
    BodyInv (.selectedPair epoch pair now) now (Session.selectedPairBody sink epoch pair) := by
  intro s h hready
  unfold Session.selectedPairBody
  split
  · exact h.refuse rfl hready _ (by simp)
  rename_i hnewer
  push Not at hnewer
  let s₁ := s.modify fun g => { g with pairRevision := pair.revision }
  have h₁ : CallInv (.selectedPair epoch pair now) s₁ :=
    h.update h.inv.lower
  have h₂ : CallInv (.selectedPair epoch pair now)
      ((Session.releaseInputs sink s₁).modify fun g =>
        { g with firstFrame := false, pathVerified := false }) :=
    h₁.pause sink
  have h₁o : OpenAt now s₁ := ⟨hready.isOpen, hready.clock⟩
  obtain ⟨hopen, hnow⟩ := h₁o.releaseInputs sink
  have hepoch : (Session.releaseInputs sink s₁).gate.epoch = epoch := by simp [s₁, hnewer.1]
  dsimp only
  split
  · exact newerPair_inv h₂ ⟨hopen, hnow⟩ hepoch rfl false (Or.inr ⟨rfl, rfl⟩)
  · rename_i ha
    exact newerPair_inv h₂ ⟨hopen, hnow⟩ hepoch rfl true (Or.inl ⟨rfl, by simpa using ha⟩)

theorem reconnectBody_inv (sink : InputSink) (epoch : UInt32) (now : UInt64) :
    BodyInv (.reconnect epoch now) now (Session.reconnectBody sink epoch) := by
  intro s h hready
  unfold Session.reconnectBody
  split
  · exact h.refuse rfl hready _ (by simp)
  rename_i hnewer
  have hne : epoch ≠ 0 := by
    rintro rfl
    exact hnewer (by simp)
  have hp := h.pause sink
  obtain ⟨hopen, hnow⟩ := hready.openAt.releaseInputs sink
  have hinput : (Session.pause sink s).gate.inputEnabled = false := rfl
  refine hp.report rfl ⟨hopen, hnow⟩ ⟨hopen, hnow⟩ hne nofun ?_
  exact ⟨hp.inv.leased (by simp [Session.pause, hready.isOpen]), rfl, by simp, by simp [Session.pause],
    by simp [Session.pause], by simp [hinput], by simp [hinput]⟩

theorem synchronized_inv {epoch inputEpoch layout : UInt32} {now : UInt64} {displaySlot : UInt16}
    (h : CallInv (.synchronizeInput epoch inputEpoch layout now displaySlot) s)
    (hopen : OpenAt now s) :
    RunInv ((s.modify fun g =>
      { g with inputEpoch := inputEpoch, layoutEpoch := layout, displaySlot := displaySlot,
               heartbeatVersion := 0, motionId := 0, heartbeatAt := now,
               inputEnabled := true }).mark
      (.returned (.synchronizeInput epoch inputEpoch layout now displaySlot) (some .ok))) := by
  have hc : ¬ s.gate.closed := by simp [hopen.isOpen]
  refine h.report rfl hopen ⟨hopen.isOpen, hopen.clock⟩ (h.epoch_ne hopen.isOpen) nofun ?_
  exact ⟨h.inv.leased hc, h.inv.epoch hc,
    fun ha => (h.inv.peer ha).cons (by simp [reconnectOk]), h.inv.path,
    fun hf => (h.inv.frame hf).cons (by simp [newerPair?]), fun _ => Since.now rfl,
    fun _ => ⟨rfl, by simp [hopen.clock]⟩⟩

theorem synchronizeInputBody_inv (sink : InputSink) (epoch inputEpoch layout : UInt32)
    (now : UInt64) (displaySlot : UInt16) :
    BodyInv (.synchronizeInput epoch inputEpoch layout now displaySlot) now
      (Session.synchronizeInputBody sink epoch inputEpoch layout now displaySlot) := by
  intro s h hready
  unfold Session.synchronizeInputBody
  split
  · exact h.refuse rfl hready _ (by simp)
  have hr := h.releaseInputs sink
  have hopen := hready.openAt.releaseInputs sink
  dsimp only
  split
  · exact hr.finish rfl hopen nofun (neutral_of_refusal _ nofun nofun)
  · exact synchronized_inv hr hopen

theorem heartbeatBody_inv (epoch inputEpoch : UInt32) (version now : UInt64) :
    BodyInv (.heartbeat epoch inputEpoch version now) now
      (Session.heartbeatBody epoch inputEpoch version now) := by
  intro s h hready
  unfold Session.heartbeatBody
  split
  · exact h.refuse rfl hready _ (by simp)
  have hc : ¬ s.gate.closed := by simp [hready.isOpen]
  refine h.report rfl hready.openAt ⟨hready.isOpen, hready.clock⟩ (h.epoch_ne hready.isOpen) nofun ?_
  exact ⟨h.inv.leased hc, h.inv.epoch hc,
    fun ha => (h.inv.peer ha).cons (by simp [reconnectOk]), h.inv.path,
    fun hf => (h.inv.frame hf).cons (by simp [newerPair?]),
    fun hi => (h.inv.enabled hi).cons (by simp), fun _ => ⟨rfl, by simp [hready.clock]⟩⟩

/-- The five `accept` operations, whose returns report nothing. -/
def GateOp.isInput : GateOp → Bool
  | .acceptKey .. | .acceptButton .. | .acceptPointer .. | .acceptWheel .. | .acceptText .. => true
  | _ => false

theorem neutral_of_input (hop : op.isInput) (r : GateResult) :
    Neutral (.returned op (some r)) := by
  cases op <;> first
    | contradiction
    | exact ⟨rfl, rfl, rfl, rfl, nofun⟩

/-- The part of the gate that decides about authority. -/
def SessionGate.standing (g : SessionGate) :=
  (g.closed, g.authenticated, g.pathVerified, g.firstFrame, g.inputEnabled, g.epoch,
    g.permissions, g.deadline, g.lastNow, g.heartbeatAt)

/-- Where `acceptFrame` hands over to its body. -/
structure Armed (permission now : UInt64) (s : Session) : Prop extends Ready now s where
  allowed : s.gate.inputAllowed
  permitted : s.gate.permissions &&& permission ≠ 0

theorem Armed.of_standing {permission now : UInt64} {s' : Session} (h : Armed permission now s)
    (hs : s'.gate.standing = s.gate.standing) : Armed permission now s' := by
  simp only [SessionGate.standing, Prod.mk.injEq] at hs
  obtain ⟨hclosed, hpeer, hpath, hframe, hinput, hepoch, hperm, hdeadline, hlast, hbeat⟩ := hs
  refine ⟨⟨?_, ?_, ?_, ?_⟩, ?_, ?_⟩
  · rw [hclosed, h.isOpen]
  · rw [hlast, h.clock]
  · rw [hdeadline]
    exact h.beforeDeadline
  · rw [hinput, hbeat]
    exact h.watchdog
  · have ha := h.allowed
    unfold SessionGate.inputAllowed SessionGate.mediaAllowed at ha ⊢
    rwa [hclosed, hpeer, hpath, hframe, hinput]
  · rw [hperm]
    exact h.permitted

theorem CallInv.of_standing (h : CallInv op s) (hs : (f s.gate).standing = s.gate.standing) :
    CallInv op (s.modify f) := by
  simp only [SessionGate.standing, Prod.mk.injEq] at hs
  obtain ⟨hclosed, hpeer, hpath, hframe, hinput, hepoch, hperm, hdeadline, hlast, hbeat⟩ := hs
  refine h.update (h.inv.lower (fun hc => .inl (hclosed ▸ hc)) (hlast ▸ UInt64.le_refl _)
    (by simp [hpeer]) (by simp [hpath]) (by simp [hframe]) (by simp [hinput, hbeat])
    (by simp [hclosed]) hepoch ⟨hdeadline, hperm⟩)

/-- What the body of an input operation may rely on. -/
structure InputCall (op : GateOp) (permission now : UInt64) (s : Session) : Prop
    extends CallInv op s, Armed permission now s where
  isInput : op.isInput
  hasClock : op.clock? = some now

namespace InputCall

variable {permission now : UInt64}

theorem refused (h : InputCall op permission now s) {r : GateResult} (hr : r ≠ .expired) :
    Returns op (r, s) :=
  h.toCallInv.finish h.hasClock h.openAt hr (neutral_of_input h.isInput r)

/-- Counters, sequences, pressed sets and text ids may move. -/
theorem moved (h : InputCall op permission now s) {f : SessionGate → SessionGate}
    (hs : (f s.gate).standing = s.gate.standing) :
    InputCall op permission now (s.modify f) :=
  ⟨h.toCallInv.of_standing hs, h.toArmed.of_standing hs, h.isInput, h.hasClock⟩

theorem gaveUp (sink : InputSink) (h : InputCall op permission now s) :
    Returns op (giveUp sink s) := by
  unfold giveUp
  exact (h.toCallInv.releaseInputs sink).finish h.hasClock (h.openAt.releaseInputs sink) nofun
    (neutral_of_input h.isInput .backend)

/-- The one place where authority-bearing sink calls come from. -/
theorem sink (h : InputCall op permission now s) {call : SinkCall}
    (hcall : call.permission = permission) (ok : Bool) :
    InputCall op permission now (s.mark (.sink call ok)) := by
  have hauth : InputAuthority s.trace now call.permission :=
    h.toReady.authority h.inv h.allowed (hcall ▸ h.permitted)
  exact ⟨h.toCallInv.sink call ok fun _ => ⟨now, h.hasClock, hauth⟩, h.toArmed.of_standing rfl,
    h.isInput, h.hasClock⟩

/-- What the gate notes of a frame is none of its standing. -/
theorem noted (h : InputCall op permission now s) {p g : SessionGate} (hg : Noted s.gate p g) :
    InputCall op permission now ⟨g, s.trace⟩ := by
  have hs : g.standing = s.gate.standing := by
    rw [hg.rest]
    rfl
  exact h.moved (f := fun _ => g) hs

theorem asks (h : InputCall op permission now s) {mid : Session} (hmid : Asks permission s mid) :
    InputCall op permission now mid := by
  cases hmid with
  | reserved hg => exact h.noted hg
  | pointer hp => exact h.sink hp true

theorem frame {frame : Frame} {sink : InputSink} (h : InputCall op op.permission now s)
    {outcome : GateResult × Session} (hf : FrameOutcome sink op frame s outcome) :
    Returns op outcome := by
  cases hf with
  | noted r hr hg => exact (h.noted hg).refused hr
  | failed hmid hcall _ => exact ((h.asks hmid).sink hcall false).gaveUp sink
  | taken hmid hcall hg _ => exact (((h.asks hmid).sink hcall true).noted hg).refused (by simp)

end InputCall

variable {now : UInt64} (sink : InputSink)

theorem accept_inv {channel : Channel} {type : UInt8} {bytes : Bytes} (hop : op.isInput)
    (hclock : op.clock? = some now) :
    BodyInv op now fun s =>
      acceptFrame op.permission channel type bytes s (acceptBody sink op s) := by
  intro s h hready
  obtain ⟨r, hr, heq⟩ | ⟨hallowed, hpermission, frame, -, heq⟩ :=
    acceptFrame_cases op.permission channel type bytes s (acceptBody sink op s)
  · dsimp only
    rw [heq]
    refine h.refuse hclock hready r ?_
    rcases hr with rfl | rfl | rfl <;> simp
  · dsimp only
    rw [heq]
    exact InputCall.frame ⟨h, ⟨hready, hallowed, hpermission⟩, hop, hclock⟩
      (acceptBody_outcome sink op s frame)

theorem CallInv.untimed (h : CallInv op s) (hclock : op.clock? = none)
    (hclose : op = .close → s.gate.closed) : RunInv (s.mark (.returned op none)) := by
  have hclosing : closing (.returned op none) → s.gate.closed := by
    cases op <;> simp_all [closing]
  have hn : Neutral (.returned op none) := by
    constructor <;> cases op <;>
      simp [acceptedLease?, epochSet?, newerPair?, inputBeat?, reconnectOk]
  refine ⟨h.inv.mark hn ?_ hclosing, h.justified.cons (by simp)⟩
  cases op <;> simp_all [acceptedClock?, GateOp.clock?]

theorem tick_inv (h : CallInv (.tick now) s) : Returns (.tick now) (tick sink now s) := by
  have htick : tick sink now s = afterTick sink now (fun s => (.ok, s)) s := by
    unfold afterTick
    split <;> assumption
  rw [htick]
  refine timed_inv sink (fun s h hready => ?_) h
  exact h.finish rfl hready.openAt nofun ⟨rfl, rfl, rfl, rfl, nofun⟩

theorem step_inv (h : RunInv s) (op : GateOp) : RunInv (step sink s op) := by
  have hcall := h.called op
  cases op with
  | authorize lease wall now => exact authorize_inv lease wall now hcall
  | renew lease wall now => exact timed_inv sink (renewBody_inv sink lease wall now) hcall
  | tick now => exact tick_inv sink hcall
  | peerAuthenticated epoch now => exact timed_inv sink (peerAuthenticatedBody_inv epoch now) hcall
  | selectedPair epoch pair now =>
    exact timed_inv sink (selectedPairBody_inv sink epoch pair now) hcall
  | firstFrame epoch now => exact timed_inv sink (firstFrameBody_inv epoch now) hcall
  | synchronizeInput epoch inputEpoch layout now displaySlot =>
    exact timed_inv sink
      (synchronizeInputBody_inv sink epoch inputEpoch layout now displaySlot) hcall
  | heartbeat epoch inputEpoch version now =>
    exact timed_inv sink (heartbeatBody_inv epoch inputEpoch version now) hcall
  | pause => exact (hcall.pause sink).untimed rfl (by simp)
  | releaseControl => exact (hcall.releaseInputs sink).untimed rfl (by simp)
  | reconnect epoch now => exact timed_inv sink (reconnectBody_inv sink epoch now) hcall
  | close => exact (hcall.close sink).untimed rfl fun _ => rfl
  | _ => exact timed_inv sink (accept_inv sink rfl rfl) hcall

theorem runInv_initial : RunInv {} where
  inv := by constructor <;> simp
  justified := by simp [Justified]

theorem foldl_step_inv (ops : List GateOp) (h : RunInv s) : RunInv (ops.foldl (step sink) s) := by
  induction ops generalizing s with
  | nil => exact h
  | cons op ops ih => exact ih (step_inv sink h op)

/-- A session brought up to input, in which the key with usage 4 is pressed. -/
def keyPressRun : List GateOp :=
  [.authorize ⟨1, 1, 1023, 0, 60000⟩ 0 0, .peerAuthenticated 1 1,
    .selectedPair 1 ⟨"udp", .host, .host, true, true, 1⟩ 2, .firstFrame 1 3,
    .synchronizeInput 1 1 1 4 0,
    .acceptKey [82, 68, 1, 32, 0, 0, 0, 24, 0, 0, 0, 1, 0, 0, 0, 1, 0, 0, 0, 1, 0, 0, 0, 8,
      0, 7, 0, 4, 1, 0, 0, 0] 5]

end HomeTunnel.Remote
