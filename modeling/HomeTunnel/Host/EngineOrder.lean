import HomeTunnel.Host.Sessions

/-! # The order of engine calls

The calls of the engine that a run makes, read off its log. Nothing of a session may begin once
the session has been closed, and a session that is stopped has to be closed after its calls. The
engine knows a session by its reference only, so a close that is late may be meant for an earlier
record of the same session.
-/

namespace HomeTunnel.Host.Sessions

open Approvals (Pc)

section Log

variable {Who Ref : Type} (ref : Who → Ref)

/-- The record's session has been closed after the record took the slot. -/
def ClosedSince (w : Who) : List (Entry Who Ref) → Prop
  | [] => False
  | .claim v :: rest => v ≠ w ∧ ClosedSince w rest
  | .close r :: rest => r = ref w ∨ ClosedSince w rest
  | .prepare _ :: rest | .start _ :: rest | .stop _ :: rest => ClosedSince w rest

/-- No call of a record begins after a close of its session. -/
def Ordered : List (Entry Who Ref) → Prop
  | [] => True
  | .prepare w :: rest | .start w :: rest => ¬ ClosedSince ref w rest ∧ Ordered rest
  | .claim _ :: rest | .close _ :: rest | .stop _ :: rest => Ordered rest

/-- A call of the record has not been followed by a close of its session. -/
def Unclosed (w : Who) : List (Entry Who Ref) → Prop
  | [] => False
  | .prepare v :: rest | .start v :: rest => v = w ∨ Unclosed w rest
  | .close r :: rest => r ≠ ref w ∧ Unclosed w rest
  | .claim _ :: rest | .stop _ :: rest => Unclosed w rest

/-- Somebody has marked the record and has still to close its session. -/
def Pending (s : Service Who Ref) (r : Who) : Prop :=
  r ∈ s.stops ∨ ∃ v, s.pc v = .close r

/-- Engine calls are exclusive and in order: one record is active, one approval is in a part that
calls the engine, nothing begins after a close, and whatever a stopped record has called is
followed by a close, or the close is still to come. -/
structure InOrder (s : Service Who Ref) : Prop where
  single : ∀ v w, s.active = some v → s.active = some w → v = w
  exclusive : ∀ v w, holdsEngine (s.pc v) = true → holdsEngine (s.pc w) = true → v = w
  ordered : Ordered ref s.log
  followed : ∀ w, .stop w ∈ s.log → Unclosed ref w s.log → Pending s w

/-- A record takes the slot only when no close of an earlier record of its session is still to
come. -/
def NothingOutstanding (s : Service Who Ref) : Action Who → Prop
  | .approve w _ =>
    match s.pc w with
    | .claim _ => ∀ r, Pending s r → ref r ≠ ref w
    | _ => True
  | _ => True

/-- The log is in order, and a record that is marked, or whose session has been or is about to be
closed, is closing as long as it is active. -/
structure Sequenced (s : Service Who Ref) : Prop where
  ordered : Ordered ref s.log
  followed : ∀ w, .stop w ∈ s.log → Unclosed ref w s.log → Pending s w
  marked : ∀ w, .stop w ∈ s.log → s.closing w = true
  outstanding : ∀ r w, Pending s r → ref r = ref w → s.active = some w → s.closing w = true
  closed : ∀ w, ClosedSince ref w s.log → s.active = some w → s.closing w = true

variable {ref} {s t : Service Who Ref}

theorem Sequenced.frame (h : Sequenced ref s)
    (hactive : ∀ w, t.active = some w → s.active = some w := by exact fun _ => id)
    (hclosing : ∀ w, s.closing w = true → t.closing w = true := by exact fun _ => id)
    (hpending : ∀ r, Pending t r ↔ Pending s r := by exact fun _ => Iff.rfl)
    (hlog : t.log = s.log := by rfl) : Sequenced ref t := by
  refine ⟨hlog ▸ h.ordered, ?_, ?_, ?_, ?_⟩
  · intro w hstop hunclosed
    rw [hlog] at hstop hunclosed
    exact (hpending w).mpr (h.followed w hstop hunclosed)
  · intro w hstop
    rw [hlog] at hstop
    exact hclosing w (h.marked w hstop)
  · intro r w hr heq hw
    exact hclosing w (h.outstanding r w ((hpending r).mp hr) heq (hactive w hw))
  · intro w hsince hw
    rw [hlog] at hsince
    exact hclosing w (h.closed w hsince (hactive w hw))

theorem Sequenced.begin (h : Sequenced ref s) {w : Who} {entry : Entry Who Ref}
    (hentry : entry = .prepare w ∨ entry = .start w) (hactive : s.active = some w)
    (hopen : s.closing w = false) (hpending : ∀ r, Pending t r ↔ Pending s r)
    (hlog : t.log = entry :: s.log := by rfl) (hclosing : t.closing = s.closing := by rfl)
    (hslot : t.active = s.active := by rfl) : Sequenced ref t := by
  have hnot : ¬ ClosedSince ref w s.log := by
    intro hsince
    cases hopen.symm.trans (h.closed w hsince hactive)
  have hmem : ∀ v, .stop v ∈ t.log → .stop v ∈ s.log := by
    intro v hv
    rw [hlog] at hv
    rcases hentry with rfl | rfl <;> simpa using hv
  refine ⟨?_, ?_, ?_, ?_, ?_⟩
  · rw [hlog]
    rcases hentry with rfl | rfl <;> exact ⟨hnot, h.ordered⟩
  · intro v hv hunclosed
    have hrest : w = v ∨ Unclosed ref v s.log := by
      rw [hlog] at hunclosed
      rcases hentry with rfl | rfl <;> exact hunclosed
    rcases hrest with rfl | hrest
    · cases hopen.symm.trans (h.marked w (hmem w hv))
    · exact (hpending v).mpr (h.followed v (hmem v hv) hrest)
  · intro v hv
    rw [hclosing]
    exact h.marked v (hmem v hv)
  · intro r v hr heq hv
    rw [hclosing]
    exact h.outstanding r v ((hpending r).mp hr) heq (hslot ▸ hv)
  · intro v hsince hv
    rw [hclosing]
    refine h.closed v ?_ (hslot ▸ hv)
    rw [hlog] at hsince
    rcases hentry with rfl | rfl <;> exact hsince

theorem Sequenced.close (h : Sequenced ref s) {r : Who} (hr : Pending s r)
    (hfewer : ∀ w, Pending t w → Pending s w) (hkept : ∀ w, w ≠ r → Pending s w → Pending t w)
    (hlog : t.log = .close (ref r) :: s.log := by rfl) (hclosing : t.closing = s.closing := by rfl)
    (hslot : t.active = s.active := by rfl) : Sequenced ref t := by
  have hmem : ∀ v, .stop v ∈ t.log → .stop v ∈ s.log := by
    intro v hv
    rw [hlog] at hv
    simpa using hv
  refine ⟨by rw [hlog]; exact h.ordered, ?_, ?_, ?_, ?_⟩
  · intro w hw hunclosed
    rw [hlog] at hunclosed
    refine hkept w ?_ (h.followed w (hmem w hw) hunclosed.2)
    intro heq
    exact hunclosed.1 (by rw [heq])
  · intro w hw
    rw [hclosing]
    exact h.marked w (hmem w hw)
  · intro v w hv heq hw
    rw [hclosing]
    exact h.outstanding v w (hfewer v hv) heq (hslot ▸ hw)
  · intro w hsince hw
    rw [hclosing]
    rw [hlog] at hsince
    rcases hsince with heq | hsince
    · exact h.outstanding r w hr heq (hslot ▸ hw)
    · exact h.closed w hsince (hslot ▸ hw)

/-- The active record is marked, and whoever marks it is to close its session. -/
theorem Sequenced.mark (h : Sequenced ref s) {r : Who} (hactive : s.active = some r)
    (hlog : t.log = .stop r :: s.log) (hclosing : ∀ w, s.closing w = true → t.closing w = true)
    (hself : t.closing r = true) (hslot : t.active = s.active)
    (hpending : ∀ w, Pending t w ↔ w = r ∨ Pending s w) : Sequenced ref t := by
  have hslotted : ∀ w, t.active = some w → w = r := by
    intro w hw
    exact Option.some.inj ((hslot ▸ hw).symm.trans hactive)
  refine ⟨by rw [hlog]; exact h.ordered, ?_, ?_, ?_, ?_⟩
  · intro w hw hunclosed
    rw [hlog] at hw hunclosed
    rcases List.mem_cons.mp hw with heq | hw
    · cases heq
      exact (hpending r).mpr (.inl rfl)
    · exact (hpending w).mpr (.inr (h.followed w hw hunclosed))
  · intro w hw
    rw [hlog] at hw
    rcases List.mem_cons.mp hw with heq | hw
    · cases heq
      exact hself
    · exact hclosing w (h.marked w hw)
  · intro v w _ _ hw
    rw [hslotted w hw]
    exact hself
  · intro w _ hw
    rw [hslotted w hw]
    exact hself

/-- A record takes the slot while no close of its session is outstanding. -/
theorem Sequenced.claim (h : Sequenced ref s) {w : Who} (hlog : t.log = .claim w :: s.log)
    (hpending : ∀ r, Pending t r ↔ Pending s r) (hnothing : ∀ r, Pending s r → ref r ≠ ref w)
    (hclosing : t.closing = s.closing := by rfl) (hslot : t.active = some w := by rfl) :
    Sequenced ref t := by
  have hmem : ∀ v, .stop v ∈ t.log → .stop v ∈ s.log := by
    intro v hv
    rw [hlog] at hv
    simpa using hv
  refine ⟨by rw [hlog]; exact h.ordered, ?_, ?_, ?_, ?_⟩
  · intro v hv hunclosed
    rw [hlog] at hunclosed
    exact (hpending v).mpr (h.followed v (hmem v hv) hunclosed)
  · intro v hv
    rw [hclosing]
    exact h.marked v (hmem v hv)
  · intro r v hr heq hv
    cases hslot.symm.trans hv
    exact absurd heq (hnothing r ((hpending r).mp hr))
  · intro v hsince hv
    cases hslot.symm.trans hv
    rw [hlog] at hsince
    exact absurd rfl hsince.1

end Log

section Step

variable {Who Ref : Type} [DecidableEq Who] {s t : Service Who Ref}

variable {w r : Who}

/-- A section that neither takes up a close nor makes one. -/
theorem pending_moveTo {pc : Pc Who} (hfrom : ∀ r, s.pc w ≠ .close r) (hto : ∀ r, pc ≠ .close r)
    (hstops : t.stops = s.stops := by rfl) (hpc : t.pc = s.pc := by rfl) (r : Who) :
    Pending (t.moveTo w pc) r ↔ Pending s r := by
  refine or_congr (by rw [← hstops]; rfl) ⟨?_, ?_⟩
  · rintro ⟨v, hv⟩
    by_cases hvw : v = w
    · subst hvw
      rw [Service.moveTo_pc_self] at hv
      exact absurd hv (hto r)
    · rw [Service.moveTo_pc_of_ne t pc hvw, hpc] at hv
      exact ⟨v, hv⟩
  · rintro ⟨v, hv⟩
    have hvw : v ≠ w := fun heq => hfrom r (heq ▸ hv)
    exact ⟨v, by rw [Service.moveTo_pc_of_ne t pc hvw, hpc, hv]⟩

theorem mark_of_none (h : s.active = none) : s.mark = { s with generation := s.generation + 1 } := by
  simp [Service.mark, h]

theorem mark_of_active (h : s.active = some r) :
    s.mark =
      { s with
        generation := s.generation + 1
        closing := Function.update s.closing r true
        log := .stop r :: s.log } := by
  simp [Service.mark, h, Service.note]

theorem closing_mark (h : s.closing w = true) : Function.update s.closing r true w = true := by
  by_cases hwr : w = r
  · subst hwr
    exact Function.update_self ..
  · exact (Function.update_of_ne hwr ..).trans h

variable {ref : Who → Ref}

theorem Sequenced.advance (h : Sequenced ref s) {pc : Pc Who} (hfrom : ∀ r, s.pc w ≠ .close r)
    (hto : ∀ r, pc ≠ .close r := by simp) (hlog : t.log = s.log := by rfl)
    (hclosing : t.closing = s.closing := by rfl) (hactive : t.active = s.active := by rfl)
    (hstops : t.stops = s.stops := by rfl) (hpc : t.pc = s.pc := by rfl) :
    Sequenced ref (t.moveTo w pc) := by
  refine h.frame ?_ ?_ (pending_moveTo hfrom hto hstops hpc) hlog
  · intro v hv
    exact hactive.symm.trans hv
  · intro v hv
    exact (congrFun hclosing v).trans hv

/-- A section that begins a call, unless the attempt is stale. -/
theorem Sequenced.unlessStale (h : Sequenced ref s) (hfrom : ∀ r, s.pc w ≠ .close r)
    {entry : Entry Who Ref} (hentry : entry = .prepare w ∨ entry = .start w) {next : Pc Who}
    (hnext : ∀ r, next ≠ .close r := by simp) {g : UInt64} {deadline : Who → Bool} :
    Sequenced ref (if s.stale w g then s.unlock.moveTo w .cleanup
      else ({ s with deadline := deadline }.note entry).moveTo w next) := by
  split
  · exact h.advance hfrom
  · next hfresh =>
    simp only [Service.stale, Bool.or_eq_true, not_or] at hfresh
    have hactive : s.active = some w := by simpa using hfresh.1.1.1
    have hopen : s.closing w = false := by simpa using hfresh.1.1.2
    exact h.begin hentry hactive hopen (pending_moveTo hfrom hnext)

theorem Sequenced.recordStopped (h : Sequenced ref s) (r : Who) (proof : Bool) :
    Sequenced ref (s.recordStopped r proof) := by
  refine h.frame (fun _ => Service.recordStopped_active) ?_ ?_
    (by rw [Service.recordStopped_frame])
  · intro w hw
    unfold Service.recordStopped
    split
    · exact hw
    · exact closing_mark hw
  · intro w
    rw [Service.recordStopped_frame]
    exact Iff.rfl

/-- The active record is marked by a call that is yet to close its session. -/
theorem Sequenced.stop (h : Sequenced ref s) (hr : s.active = some r) (superseded : Who → Bool) :
    Sequenced ref { s.mark with superseded := superseded, stops := r :: s.stops } := by
  rw [mark_of_active hr]
  refine h.mark hr rfl (fun _ => closing_mark) (Function.update_self ..) rfl ?_
  intro w
  simp [Pending, or_assoc]

variable [DecidableEq Ref]

theorem Sequenced.approveClose (h : Sequenced ref s) {ok : Bool} (hpc : s.pc w = .close r) :
    Sequenced ref (s.approve ref w ok) := by
  unfold Service.approve
  rw [hpc]
  dsimp only
  split
  · exact h
  · have hframe := Service.workerCloses_frame (s.note (.close (ref r))) (ref r)
    rw [Service.engineClose, hframe]
    refine h.close (r := r) (.inr ⟨w, hpc⟩) ?_ ?_
    · rintro v (hv | ⟨u, hu⟩)
      · exact .inl hv
      · by_cases huw : u = w
        · subst huw
          rw [Service.moveTo_pc_self] at hu
          split at hu <;> cases hu
        · rw [Service.moveTo_pc_of_ne _ _ huw] at hu
          exact .inr ⟨u, hu⟩
    · rintro v hvr (hv | ⟨u, hu⟩)
      · exact .inl hv
      · have huw : u ≠ w := by
          rintro rfl
          cases hpc.symm.trans hu
          exact hvr rfl
        exact .inr ⟨u, by rw [Service.moveTo_pc_of_ne _ _ huw]; exact hu⟩

theorem Sequenced.approve (h : Sequenced ref s) {ok : Bool}
    (hnothing : NothingOutstanding ref s (.approve w ok)) : Sequenced ref (s.approve ref w ok) := by
  by_cases hclose : ∃ r, s.pc w = .close r
  · exact h.approveClose hclose.choose_spec
  have hfrom : ∀ r, s.pc w ≠ .close r := not_exists.mp hclose
  unfold Service.approve
  cases hpc : s.pc w with
  | sample =>
    dsimp only
    split <;> exact h.advance hfrom
  | load g | bindGrant g | decision g | iceServers g =>
    cases ok <;> exact h.advance hfrom
  | claim g =>
    rw [NothingOutstanding, hpc] at hnothing
    dsimp only
    split
    · exact h.advance hfrom
    · exact h.claim (w := w) rfl (pending_moveTo hfrom (by simp)) hnothing
  | lockPrepare g | lockStart g =>
    dsimp only [Service.lock]
    split
    · exact h
    · exact h.advance hfrom
  | checkPrepare g => exact h.unlessStale hfrom (.inl rfl)
  | prepare g =>
    dsimp only
    split <;> exact h.advance hfrom
  | commit g => exact h.unlessStale hfrom (.inr rfl)
  | start g =>
    have hframe := Service.engineStart_frame s (ref w) ok
    dsimp only
    refine h.advance hfrom (by simp) ?_ ?_ ?_ ?_ ?_ <;> rw [hframe]
  | started g started =>
    refine h.advance hfrom ?_
    split <;> simp
  | flush =>
    dsimp only
    split
    · exact h.advance hfrom
    · cases ok <;> exact h.advance hfrom
  | cleanup =>
    dsimp only
    split
    · next hnone =>
      rw [mark_of_none hnone]
      exact h.advance hfrom
    · next r hr =>
      rw [mark_of_active hr]
      refine h.mark hr rfl (fun _ => closing_mark) (Function.update_self ..) rfl ?_
      intro v
      constructor
      · rintro (hv | ⟨u, hu⟩)
        · exact .inr (.inl hv)
        · by_cases huw : u = w
          · subst huw
            rw [Service.moveTo_pc_self] at hu
            cases hu
            exact .inl rfl
          · rw [Service.moveTo_pc_of_ne _ _ huw] at hu
            exact .inr (.inr ⟨u, hu⟩)
      · rintro (rfl | hv | ⟨u, hu⟩)
        · exact .inr ⟨w, Service.moveTo_pc_self ..⟩
        · exact .inl hv
        · have huw : u ≠ w := fun heq => hfrom v (heq ▸ hu)
          exact .inr ⟨u, by rw [Service.moveTo_pc_of_ne _ _ huw]; exact hu⟩
  | close r => exact absurd hpc (hfrom r)
  | confirm r =>
    have hstopped : ∀ r', (s.recordStopped r ok).pc w ≠ .close r' := by
      rw [Service.recordStopped_frame]
      exact hfrom
    exact (h.recordStopped r ok).advance hstopped
  | done => exact h

theorem Sequenced.step (h : Sequenced ref s) {action : Action Who}
    (hnothing : NothingOutstanding ref s action) : Sequenced ref (s.step ref action) := by
  cases action with
  | approve w ok => exact h.approve hnothing
  | stop =>
    dsimp only [Service.step]
    split
    · next hnone =>
      rw [mark_of_none hnone]
      exact h.frame
    · next r hr =>
      have hstop := h.stop hr s.superseded
      rw [Service.mark_frame] at hstop ⊢
      exact hstop
  | supersede =>
    dsimp only [Service.step]
    split
    · exact h
    · next r hr => exact h.stop hr _
  | stopClose r =>
    dsimp only [Service.step]
    split
    · next hguard =>
      have hframe := Service.workerCloses_frame (s.note (.close (ref r))) (ref r)
      rw [Service.engineClose, hframe]
      refine h.close (r := r) (.inl hguard.1) ?_ ?_
      · intro w hw
        exact hw.imp List.mem_of_mem_erase id
      · intro w hwr hw
        exact hw.imp (List.mem_erase_of_ne hwr).mpr id
    · exact h
  | confirm r proof =>
    dsimp only [Service.step]
    split
    · refine Sequenced.recordStopped ?_ r proof
      exact h.frame
    · exact h
  | disable bump | enable | fail =>
    exact h.frame
  | deliver =>
    dsimp only [Service.step]
    split
    · exact h.frame
    · exact h
  | acknowledge proof =>
    dsimp only [Service.step]
    split
    · exact h
    · next r _ =>
      refine Sequenced.recordStopped ?_ r proof
      exact h.frame
  | workerEnds =>
    dsimp only [Service.step]
    split
    · exact h
    · rw [Service.workerCloses_frame]
      exact h.frame
  | release =>
    dsimp only [Service.step]
    split
    · exact h
    · split
      · exact h.frame (by simp)
      · exact h

omit [DecidableEq Who] [DecidableEq Ref] in
theorem sequenced_idle (generation : UInt64) (disabled : Bool) :
    Sequenced ref (Service.idle generation disabled) := by
  refine ⟨trivial, nofun, nofun, ?_, nofun⟩
  intro _ _ _ _ hactive
  cases hactive

omit [DecidableEq Who] [DecidableEq Ref] in
theorem Sequenced.inOrder (h : Sequenced ref s) (hlocked : Locked s) : InOrder ref s := by
  refine ⟨?_, ?_, h.ordered, h.followed⟩
  · intro v w hv hw
    exact Option.some.inj (hv.symm.trans hw)
  · intro v w hv hw
    exact Option.some.inj ((hlocked v hv).symm.trans (hlocked w hw))

/-- In every run in which no close of an earlier record of a session is outstanding when the
session takes the slot again, the calls of the engine are exclusive and in order. -/
theorem engine_calls_in_order (ref : Who → Ref) (generation : UInt64) (disabled : Bool)
    (actions : List (Action Who))
    (hnothing : Runs.Along (Service.step ref) (NothingOutstanding ref)
      (Service.idle generation disabled) actions) :
    Runs.Always (Service.step ref) (InOrder ref) (Service.idle generation disabled) actions := by
  have hboth : Runs.Always (Service.step ref) (fun s => Sequenced ref s ∧ Locked s)
      (Service.idle generation disabled) actions :=
    Runs.always_of_invariant (fun _ action h hp => ⟨h.1.step hp, h.2.step action⟩)
      ⟨sequenced_idle generation disabled, locked_idle generation disabled⟩ hnothing
  exact hboth.mono fun _ h => h.1.inOrder h.2

end Step

section Samples

variable {Who Ref : Type} [Fintype Who] [DecidableEq Who] [DecidableEq Ref]

instance (s : Service Who Ref) (r : Who) : Decidable (Pending s r) :=
  inferInstanceAs (Decidable (r ∈ s.stops ∨ ∃ v, s.pc v = .close r))

instance (ref : Who → Ref) (s : Service Who Ref) :
    ∀ action, Decidable (NothingOutstanding ref s action)
  | .approve w _ =>
    match h : s.pc w with
    | .claim _ =>
      decidable_of_iff (∀ r, Pending s r → ref r ≠ ref w) (by rw [NothingOutstanding, h])
    | .sample | .load _ | .lockPrepare _ | .checkPrepare _ | .prepare _ | .bindGrant _
    | .decision _ | .iceServers _ | .lockStart _ | .commit _ | .start _ | .started _ _ | .flush
    | .cleanup | .close _ | .confirm _ | .done =>
      .isTrue (by rw [NothingOutstanding, h]; trivial)
  | .stop | .stopClose _ | .confirm _ _ | .disable _ | .enable | .supersede | .deliver
  | .acknowledge _ | .workerEnds | .fail | .release => .isTrue trivial

end Samples

/-- The session is approved, stopped and closed, and then approved again. -/
def closedThenApproved : List (Action Bool) :=
  sections false 14 ++
    ([.stop, .stopClose false, .deliver, .acknowledge true] : List (Action Bool)) ++
    sections true 14

theorem closed_then_approved_in_order :
    Runs.Along (Service.step fun _ => ()) (NothingOutstanding fun _ => ())
        (Service.idle 0 false) closedThenApproved ∧
      Runs.Always (Service.step fun _ => ()) (InOrder fun _ => ()) (Service.idle 0 false)
        closedThenApproved :=
  have h : Runs.Along (Service.step fun _ => ()) (NothingOutstanding fun _ => ())
      (Service.idle 0 false) closedThenApproved := by decide +kernel
  ⟨h, engine_calls_in_order (fun _ => ()) 0 false closedThenApproved h⟩

/-- The first approval fails once its session is prepared, and its clean-up and a `Stop` both mark
its record. The `Stop` closes the session and the event empties the slot; the session is approved
again and prepared. Only then does the clean-up close it. -/
def lateClose : List (Action Bool) :=
  sections false 6 ++
    ([.approve false false, .approve false true, .stop, .stopClose false, .deliver,
      .acknowledge true] : List (Action Bool)) ++
    sections true 6 ++ sections false 1 ++ sections true 5

theorem lateClose_log :
    (lateClose.foldl (Service.step fun _ => ()) (Service.idle 0 false)).log =
      [.start true, .close (), .prepare true, .claim true, .close (), .stop false, .stop false,
        .prepare false, .claim false] := by
  decide +kernel

/-- The second record's `Start` begins after its session was closed. -/
theorem late_close_before_start :
    ¬ Runs.Always (Service.step fun _ => ()) (InOrder fun _ => ()) (Service.idle 0 false)
      lateClose := by
  intro h
  have hordered := h.last.ordered
  rw [lateClose_log] at hordered
  exact hordered.1 (.inl rfl)

end HomeTunnel.Host.Sessions
