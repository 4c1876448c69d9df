import HomeTunnel.Lib.Runs

/-! # Accounts and agent loops

Logins, logouts, `StopAgent` and `StartAgent` on one local server, with the agent
loops they start, one section at a time. The device state file is reduced to whose
credential it holds. An account epoch ends when `commitEnrollment` has saved a new
credential or a logout has removed the file; a loop must not write the file after
the epoch it was started in.
-/

namespace HomeTunnel.Gui

/-- What a caller does; every caller makes one call. -/
inductive Call
  | login | logout | stopAgent
deriving DecidableEq, Repr

/-- Where a call stands; the generation is the one its `beginAccountChange` returned. -/
inductive Pc
  | begin
  | lockAccount (generation : UInt64)
  | check (generation : UInt64)
  | loadState (generation : UInt64)
  | register (generation : UInt64)
  | commit (generation : UInt64)
  | startAgent
  -- the rest of a logout; `StopAgent` on its own is the middle of it
  | closeSession
  | stopBegin
  | stopRead
  | stopWait (loop : Option Nat)
  | remove
  | done
deriving DecidableEq, Repr

/-- Where an agent loop stands: `app.Run` has still to load the state, goes on with the
credential it loaded, or has returned; then `done` is closed and the flag is cleared. -/
inductive LoopPc
  | unborn
  | loading
  | holding (credential : Nat)
  | returned
  | closed
  | cleared
deriving DecidableEq, Repr

structure Server where
  -- the credential in the state file: that of the login with this number
  file : Option Nat
  epoch : Nat
  running : Bool
  -- the loop that `cancel` and `done` belong to
  current : Option Nat
  next : Nat
  loops : Nat → LoopPc
  born : Nat → Nat
  accountGeneration : UInt64
  accountMu : Option Nat
  pcs : Nat → Pc

namespace Server

def moveTo (s : Server) (w : Nat) (pc : Pc) : Server :=
  { s with pcs := Function.update s.pcs w pc }

def moveLoop (s : Server) (id : Nat) (pc : LoopPc) : Server :=
  { s with loops := Function.update s.loops id pc }

/-- A call that returns lets go of `accountMu`. -/
def leave (s : Server) (w : Nat) : Server := { s with accountMu := none }.moveTo w .done

/-- `StartAgent`. -/
def start (s : Server) : Server :=
  if s.running then s
  else
    { s with
      running := true
      current := some s.next
      next := s.next + 1
      loops := Function.update s.loops s.next .loading
      born := Function.update s.born s.next s.epoch }

/-- One section of a call; `ok` is how a wait, a request or a save ends. -/
def call (s : Server) (kind : Call) (w : Nat) (ok : Bool) : Server :=
  match s.pcs w with
  | .begin =>
    match kind with
    | .stopAgent => s.moveTo w .stopBegin
    | .login | .logout =>
      { s with accountGeneration := s.accountGeneration + 1 }.moveTo w
        (.lockAccount (s.accountGeneration + 1))
  | .lockAccount g =>
    match s.accountMu with
    | some _ => s
    | none => { s with accountMu := some w }.moveTo w (.check g)
  | .check g =>
    if !ok || g ≠ s.accountGeneration then s.leave w
    else s.moveTo w (if kind = .login then .loadState g else .closeSession)
  | .loadState g => if s.file.isSome then s.leave w else s.moveTo w (.register g)
  | .register g => if ok then s.moveTo w (.commit g) else s.leave w
  | .commit g =>
    if !ok || g ≠ s.accountGeneration then s.leave w
    else { s with file := some w, epoch := s.epoch + 1 }.moveTo w .startAgent
  | .startAgent => s.start.leave w
  | .closeSession => s.moveTo w .stopBegin
  | .stopBegin =>
    { s with accountGeneration := s.accountGeneration + 1 }.moveTo w .stopRead
  | .stopRead => s.moveTo w (.stopWait s.current)
  | .stopWait loop =>
    -- the wait ends with the loop or, when `ok` is false, after twenty seconds
    if ok ∧ ∃ id ∈ loop, s.loops id ≠ .closed ∧ s.loops id ≠ .cleared then s
    else s.moveTo w (if kind = .logout then .remove else .done)
  | .remove =>
    { s with file := if ok then none else s.file, epoch := s.epoch + 1 }.leave w
  | .done => s

end Server

/-- What an agent loop does next. -/
inductive LoopAction
  | load
  | save (ok : Bool)
  | finish
  | closeDone
  | clear
deriving DecidableEq, Repr

inductive Action
  | call (w : Nat) (ok : Bool)
  | startAgent
  | loop (id : Nat) (action : LoopAction)
deriving DecidableEq, Repr

namespace Server

def loop (s : Server) (id : Nat) : LoopAction → Server
  | .load =>
    if s.loops id = .loading then
      s.moveLoop id (match s.file with
        | none => .returned
        | some credential => .holding credential)
    else s
  | .save ok =>
    match s.loops id with
    | .holding credential => if ok then { s with file := some credential } else s
    | _ => s
  | .finish =>
    match s.loops id with
    | .loading | .holding _ => s.moveLoop id .returned
    | _ => s
  | .closeDone => if s.loops id = .returned then s.moveLoop id .closed else s
  | .clear =>
    if s.loops id = .closed then
      { s.moveLoop id .cleared with running := false, current := none }
    else s

def step (kinds : Nat → Call) (s : Server) : Action → Server
  | .call w ok => s.call (kinds w) w ok
  | .startAgent => s.start
  | .loop id action => s.loop id action

/-- A server before any call, over a state file that may hold a credential. -/
def fresh (file : Option Nat) : Server where
  file := file
  epoch := 0
  running := false
  current := none
  next := 0
  loops := fun _ => .unborn
  born := fun _ => 0
  accountGeneration := 0
  accountMu := none
  pcs := fun _ => .begin

end Server

/-! ## What a loop may write -/

/-- A loop that has not closed its `done` channel. -/
def LoopPc.live : LoopPc → Bool
  | .loading | .holding _ | .returned => true
  | .unborn | .closed | .cleared => false

/-- A write of the state file comes from a loop of the present epoch, and with the
credential that the file already holds. -/
def WritesOwnEpoch (s : Server) : Action → Prop
  | .loop id (.save _) => ∀ credential, s.loops id = .holding credential →
      s.born id = s.epoch ∧ s.file = some credential
  | _ => True

/-- A logout that has read which loop to wait for and has not removed the file yet. -/
def Pc.waits : Pc → Bool
  | .stopWait _ | .remove => true
  | _ => false

def Pc.commits : Pc → Bool
  | .commit _ => true
  | _ => false

/-- A logout waits until its loop is gone, no loop is started while it waits, and a login
commits only while no loop is running. -/
def Orderly (kinds : Nat → Call) (s : Server) : Action → Prop
  | .call w ok =>
    (kinds w = .logout → (s.pcs w).waits = true → s.pcs w = .remove ∨ ok = true) ∧
    ((s.pcs w).commits = true → s.running = false)
  | .startAgent => ∀ w, kinds w = .logout → (s.pcs w).waits = false
  | .loop _ _ => True

/-- A call in this place holds `accountMu`; `StopAgent` on its own never does. -/
def Pc.holds (kind : Call) : Pc → Bool
  | .begin | .lockAccount _ | .done => false
  | .stopBegin | .stopRead | .stopWait _ => kind ≠ .stopAgent
  | _ => true

/-- There is one loop at a time, of the present epoch, and a logout that waits waits for
it; when a logout is about to remove the file, there is none. -/
structure Orderly.Inv (kinds : Nat → Call) (s : Server) : Prop where
  unborn : ∀ id, s.next ≤ id → s.loops id = .unborn
  current : ∀ id, s.loops id ≠ .unborn → s.loops id ≠ .cleared →
    s.running = true ∧ s.current = some id
  epoch : ∀ id, (s.loops id).live = true → s.born id = s.epoch
  holding : ∀ id credential, s.loops id = .holding credential → s.file = some credential
  holder : ∀ w, (s.pcs w).holds (kinds w) = true → s.accountMu = some w
  waiting : ∀ w loop, kinds w = .logout → s.pcs w = .stopWait loop →
    ∀ id, (s.loops id).live = true → loop = some id
  removing : ∀ w, s.pcs w = .remove → kinds w = .logout ∧ ∀ id, (s.loops id).live = false

open Orderly (Inv)

variable {kinds : Nat → Call} {s : Server}

theorem inv_fresh (kinds : Nat → Call) (file : Option Nat) : Inv kinds (.fresh file) where
  unborn := fun _ _ => rfl
  current := fun _ h => absurd rfl h
  epoch := fun _ h => by cases h
  holding := fun _ _ h => by cases h
  holder := fun _ h => by cases h
  waiting := fun _ _ _ h => by cases h
  removing := fun _ h => by cases h

variable {id w v : Nat} {pc : Pc}

theorem Orderly.Inv.running_of_live (h : Inv kinds s) (hlive : (s.loops id).live = true) :
    s.running = true := by
  refine (h.current id ?_ ?_).1 <;> (intro heq; rw [heq] at hlive; cases hlive)

/-- The part of a server that belongs to the loops. -/
structure SameLoops (s t : Server) : Prop where
  file : t.file = s.file
  next : t.next = s.next
  running : t.running = s.running
  current : t.current = s.current
  loops : t.loops = s.loops
  born : t.born = s.born
  epoch : t.epoch = s.epoch

theorem Orderly.Inv.moveTo {t : Server} (h : Inv kinds s)
    (hpcs : t.pcs = Function.update s.pcs w pc)
    (hothers : ∀ v, v ≠ w → (s.pcs v).holds (kinds v) = true → t.accountMu = some v)
    (hholds : pc.holds (kinds w) = true → t.accountMu = some w)
    (hwaiting : ∀ loop, kinds w = .logout → pc = .stopWait loop →
      ∀ id, (s.loops id).live = true → loop = some id)
    (hremoving : pc = .remove → kinds w = .logout ∧ ∀ id, (s.loops id).live = false)
    (hsame : SameLoops s t := by constructor <;> rfl) : Inv kinds t := by
  refine ⟨?_, ?_, ?_, ?_, ?_, ?_, ?_⟩
  · rw [hsame.next, hsame.loops]
    exact h.unborn
  · rw [hsame.loops, hsame.running, hsame.current]
    exact h.current
  · rw [hsame.loops, hsame.born, hsame.epoch]
    exact h.epoch
  · rw [hsame.loops, hsame.file]
    exact h.holding
  · intro v hv
    by_cases hvw : v = w
    · subst hvw
      rw [hpcs, Function.update_self] at hv
      exact hholds hv
    · rw [hpcs, Function.update_of_ne hvw] at hv
      exact hothers v hvw hv
  · intro v loop hkind hv
    rw [hsame.loops]
    by_cases hvw : v = w
    · subst hvw
      rw [hpcs, Function.update_self] at hv
      exact hwaiting loop hkind hv
    · rw [hpcs, Function.update_of_ne hvw] at hv
      exact h.waiting v loop hkind hv
  · intro v hv
    rw [hsame.loops]
    by_cases hvw : v = w
    · subst hvw
      rw [hpcs, Function.update_self] at hv
      exact hremoving hv
    · rw [hpcs, Function.update_of_ne hvw] at hv
      exact h.removing v hv

/-- A call that holds `accountMu` is the only one that does. -/
theorem Orderly.Inv.alone (h : Inv kinds s) (hv : (s.pcs v).holds (kinds v) = true)
    (hw : (s.pcs w).holds (kinds w) = true) : v = w :=
  Option.some.inj ((h.holder v hv).symm.trans (h.holder w hw))

theorem moveTo_pcs_self (s : Server) (w : Nat) (pc : Pc) : (s.moveTo w pc).pcs w = pc :=
  Function.update_self ..

theorem moveTo_pcs_of_ne (s : Server) (pc : Pc) (h : v ≠ w) : (s.moveTo w pc).pcs v = s.pcs v :=
  Function.update_of_ne h ..

theorem leave_pcs_self (s : Server) (w : Nat) : (s.leave w).pcs w = .done :=
  Function.update_self ..

theorem leave_pcs_of_ne (s : Server) (h : v ≠ w) : (s.leave w).pcs v = s.pcs v :=
  Function.update_of_ne h ..

theorem Orderly.Inv.leave (h : Inv kinds s) (hholds : (s.pcs w).holds (kinds w) = true) :
    Inv kinds (s.leave w) :=
  h.moveTo rfl (fun _ hvw hv => absurd (h.alone hv hholds) hvw) nofun nofun nofun

theorem Orderly.Inv.newEpoch (h : Inv kinds s) (hnone : ∀ id, (s.loops id).live = false)
    (file : Option Nat) : Inv kinds { s with file := file, epoch := s.epoch + 1 } := by
  refine ⟨h.unborn, h.current, ?_, ?_, h.holder, h.waiting, h.removing⟩
  · intro id hlive
    cases (hnone id).symm.trans hlive
  · intro id credential hid
    have hlive := hnone id
    rw [hid] at hlive
    cases hlive

/-- `StartAgent` while no logout waits for a loop. -/
theorem Orderly.Inv.start (h : Inv kinds s)
    (hwaits : ∀ w, kinds w = .logout → (s.pcs w).waits = false) : Inv kinds s.start := by
  unfold Server.start
  split
  · exact h
  · next hrunning =>
    have hidle : ∀ id, s.loops id ≠ .unborn → s.loops id ≠ .cleared → False := by
      intro id hborn hclear
      exact hrunning (h.current id hborn hclear).1
    refine ⟨?_, ?_, ?_, ?_, h.holder, ?_, ?_⟩
    · intro id hid
      have hne : id ≠ s.next := by
        intro heq
        rw [heq] at hid
        simp at hid
      simp only [Function.update_of_ne hne]
      exact h.unborn id (by have : s.next + 1 ≤ id := hid; omega)
    · intro id hborn hclear
      by_cases hid : id = s.next
      · exact ⟨rfl, by rw [hid]⟩
      · simp only [Function.update_of_ne hid] at hborn hclear
        exact (hidle id hborn hclear).elim
    · intro id hlive
      by_cases hid : id = s.next
      · simp [hid]
      · simp only [Function.update_of_ne hid] at hlive ⊢
        exact h.epoch id hlive
    · intro id credential hholding
      by_cases hid : id = s.next
      · simp [hid] at hholding
      · simp only [Function.update_of_ne hid] at hholding
        exact h.holding id credential hholding
    · intro w loop hkind hw
      have := hwaits w hkind
      rw [hw] at this
      cases this
    · intro w hw
      have := hwaits w (h.removing w hw).1
      rw [hw] at this
      cases this

/-- A call moves on to a place where it waits for no loop. -/
theorem Orderly.Inv.moveOn {t : Server} (h : Inv kinds s)
    (hpcs : t.pcs = Function.update s.pcs w pc) (hwaits : pc.waits = false)
    (hholds : pc.holds (kinds w) = true → (s.pcs w).holds (kinds w) = true)
    (haccount : t.accountMu = s.accountMu := by rfl)
    (hsame : SameLoops s t := by constructor <;> rfl) : Inv kinds t := by
  refine h.moveTo hpcs (fun v _ hv => haccount.trans (h.holder v hv))
    (fun hpc => haccount.trans (h.holder w (hholds hpc))) ?_ ?_ hsame
  · rintro loop - rfl
    cases hwaits
  · rintro rfl
    cases hwaits

theorem holds_of_waits {kind : Call} (hkind : kind = .logout) (h : pc.waits = true) :
    pc.holds kind = true := by
  subst hkind
  cases pc <;> first | rfl | cases h

theorem start_pcs (s : Server) : s.start.pcs = s.pcs := by
  unfold Server.start
  split <;> rfl

/-- How a call gets from one place to the next; `ok` is how its section ends. -/
inductive Pc.Goes (kind : Call) (ok : Bool) : Pc → Pc → Prop
  | begins (hkind : kind = .stopAgent) : Goes kind ok .begin .stopBegin
  | changes (hkind : kind ≠ .stopAgent) (g : UInt64) : Goes kind ok .begin (.lockAccount g)
  | stays {pc : Pc} (hpc : pc ≠ .begin) : Goes kind ok pc pc
  | locks (g : UInt64) : Goes kind ok (.lockAccount g) (.check g)
  | returns {pc : Pc} (hpc : pc.holds kind = true) : Goes kind ok pc .done
  | checked (g : UInt64) (hok : ok = true) :
      Goes kind ok (.check g) (if kind = .login then .loadState g else .closeSession)
  | loaded (g : UInt64) : Goes kind ok (.loadState g) (.register g)
  | registered (g : UInt64) : Goes kind ok (.register g) (.commit g)
  | committed (g : UInt64) : Goes kind ok (.commit g) .startAgent
  | closes : Goes kind ok .closeSession .stopBegin
  | stops : Goes kind ok .stopBegin .stopRead
  | reads (loop : Option Nat) : Goes kind ok .stopRead (.stopWait loop)
  | waited (loop : Option Nat) :
      Goes kind ok (.stopWait loop) (if kind = .logout then .remove else .done)

/-- Where a section of a call gets to, and what it leaves alone. -/
structure CallStep (kind : Call) (w : Nat) (ok : Bool) (s t : Server) : Prop where
  others : ∀ v, v ≠ w → t.pcs v = s.pcs v
  goes : (s.pcs w).Goes kind ok (t.pcs w)
  generation : t.accountGeneration = s.accountGeneration ∨
    s.pcs w = .begin ∧ kind ≠ .stopAgent ∨ s.pcs w = .stopBegin
  loops : s.pcs w = .startAgent ∨
    t.next = s.next ∧ t.running = s.running ∧ t.current = s.current ∧ t.loops = s.loops
  lock : t.accountMu = s.accountMu ∧ ((t.pcs w).holds kind = true → (s.pcs w).holds kind = true) ∨
    s.accountMu = none ∧ t.accountMu = some w ∨
    (s.pcs w).holds kind = true ∧ t.pcs w = .done

section CallStep

variable {t : Server} {kind : Call} {ok : Bool}

theorem CallStep.moveTo {source : Pc} (hpc : s.pcs w = source) (hgoes : source.Goes kind ok pc)
    (hholds : pc.holds kind = true → source.holds kind = true)
    (hgeneration : t.accountGeneration = s.accountGeneration ∨
      s.pcs w = .begin ∧ kind ≠ .stopAgent ∨ s.pcs w = .stopBegin := by exact .inl rfl)
    (hpcs : t.pcs = s.pcs := by rfl) (haccount : t.accountMu = s.accountMu := by rfl)
    (hloops : t.next = s.next ∧ t.running = s.running ∧ t.current = s.current ∧
      t.loops = s.loops := by exact ⟨rfl, rfl, rfl, rfl⟩) :
    CallStep kind w ok s (t.moveTo w pc) := by
  refine ⟨fun v hv => by rw [moveTo_pcs_of_ne t pc hv, hpcs], ?_, hgeneration, .inr hloops,
    .inl ⟨haccount, ?_⟩⟩
  · rwa [moveTo_pcs_self, hpc]
  · rwa [moveTo_pcs_self, hpc]

theorem CallStep.leave (hholds : (s.pcs w).holds kind = true)
    (hloops : s.pcs w = .startAgent ∨ t.next = s.next ∧ t.running = s.running ∧
      t.current = s.current ∧ t.loops = s.loops := by exact .inr ⟨rfl, rfl, rfl, rfl⟩)
    (hpcs : t.pcs = s.pcs := by rfl)
    (hgeneration : t.accountGeneration = s.accountGeneration := by rfl) :
    CallStep kind w ok s (t.leave w) := by
  refine ⟨fun v hv => by rw [leave_pcs_of_ne t hv, hpcs], ?_, .inl hgeneration, hloops,
    .inr (.inr ⟨hholds, leave_pcs_self t w⟩)⟩
  rw [leave_pcs_self]
  exact .returns hholds

theorem CallStep.refl (hpc : s.pcs w ≠ .begin) : CallStep kind w ok s s :=
  ⟨fun _ _ => rfl, .stays hpc, .inl rfl, .inr ⟨rfl, rfl, rfl, rfl⟩, .inl ⟨rfl, id⟩⟩

theorem callStep (s : Server) (kind : Call) (w : Nat) (ok : Bool) :
    CallStep kind w ok s (s.call kind w ok) := by
  have hat : ∀ {pc : Pc}, s.pcs w = pc → pc.holds kind = true → (s.pcs w).holds kind = true :=
    fun heq hholds => heq ▸ hholds
  unfold Server.call
  cases hpc : s.pcs w with
  | begin =>
    cases kind with
    | stopAgent => exact .moveTo hpc (.begins rfl) nofun
    | login | logout => exact .moveTo hpc (.changes (by nofun) _) nofun (.inr (.inl ⟨hpc, nofun⟩))
  | lockAccount g =>
    dsimp only
    split
    · exact .refl (by rw [hpc]; nofun)
    · next hfree =>
      refine ⟨fun v hv => moveTo_pcs_of_ne _ _ hv, ?_, .inl rfl, .inr ⟨rfl, rfl, rfl, rfl⟩,
        .inr (.inl ⟨hfree, rfl⟩)⟩
      rw [moveTo_pcs_self, hpc]
      exact .locks g
  | check g =>
    dsimp only
    split
    · exact .leave (hat hpc rfl)
    · next hcurrent =>
      have hok : ok = true := by
        by_contra hoff
        exact hcurrent (by simp [hoff])
      exact .moveTo hpc (.checked g hok) fun _ => rfl
  | loadState g =>
    dsimp only
    split
    · exact .leave (hat hpc rfl)
    · exact .moveTo hpc (.loaded g) fun _ => rfl
  | register g =>
    dsimp only
    split
    · exact .moveTo hpc (.registered g) fun _ => rfl
    · exact .leave (hat hpc rfl)
  | commit g =>
    dsimp only
    split
    · exact .leave (hat hpc rfl)
    · exact .moveTo hpc (.committed g) fun _ => rfl
  | startAgent =>
    refine .leave (hat hpc rfl) (.inl hpc) (start_pcs s) ?_
    unfold Server.start
    split <;> rfl
  | closeSession => exact .moveTo hpc .closes fun _ => rfl
  | stopBegin => exact .moveTo hpc .stops id (.inr (.inr hpc))
  | stopRead => exact .moveTo hpc (.reads _) id
  | stopWait loop =>
    dsimp only
    split
    · exact .refl (by rw [hpc]; nofun)
    · refine .moveTo hpc (.waited loop) ?_
      split
      · next hkind => exact fun _ => by rw [hkind]; rfl
      · nofun
  | remove => exact .leave (hat hpc rfl)
  | done => exact .refl (by rw [hpc]; nofun)

end CallStep

theorem Orderly.Inv.call (h : Inv kinds s) {ok : Bool} (horderly : Orderly kinds s (.call w ok)) :
    Inv kinds (s.call (kinds w) w ok) := by
  have hat : ∀ {pc : Pc}, s.pcs w = pc → pc.holds (kinds w) = true →
      (s.pcs w).holds (kinds w) = true := fun heq hholds => heq ▸ hholds
  have hmove : ∀ {pc : Pc}, pc.waits = false →
      (pc.holds (kinds w) = true → (s.pcs w).holds (kinds w) = true) → Inv kinds (s.moveTo w pc) :=
    h.moveOn rfl
  unfold Server.call
  cases hpc : s.pcs w with
  | begin =>
    cases hkind : kinds w with
    | stopAgent =>
      refine hmove rfl fun hholds => ?_
      rw [hkind] at hholds
      cases hholds
    | login | logout => exact h.moveOn rfl rfl nofun
  | lockAccount g =>
    dsimp only
    split
    · exact h
    · next hfree =>
      exact h.moveTo rfl (fun v _ hv => nomatch hfree.symm.trans (h.holder v hv)) (fun _ => rfl)
        nofun nofun
  | check g =>
    dsimp only
    split
    · exact h.leave (hat hpc rfl)
    · split <;> exact hmove rfl fun _ => hat hpc rfl
  | loadState g =>
    dsimp only
    split
    · exact h.leave (hat hpc rfl)
    · exact hmove rfl fun _ => hat hpc rfl
  | register g =>
    dsimp only
    split
    · exact hmove rfl fun _ => hat hpc rfl
    · exact h.leave (hat hpc rfl)
  | commit g =>
    have hrunning := horderly.2 (by rw [hpc]; rfl)
    have hnone : ∀ id, (s.loops id).live = false := by
      intro id
      cases hlive : (s.loops id).live with
      | false => rfl
      | true => cases hrunning.symm.trans (h.running_of_live hlive)
    dsimp only
    split
    · exact h.leave (hat hpc rfl)
    · exact (h.newEpoch hnone (some w)).moveOn rfl rfl fun _ => hat hpc rfl
  | startAgent =>
    have hwaits : ∀ v, kinds v = .logout → (s.pcs v).waits = false := by
      intro v hkind
      cases hv : (s.pcs v).waits with
      | false => rfl
      | true =>
        have hvw := h.alone (holds_of_waits hkind hv) (hat hpc rfl)
        rw [hvw, hpc] at hv
        cases hv
    exact (h.start hwaits).leave (by rw [start_pcs]; exact hat hpc rfl)
  | closeSession => exact hmove rfl fun _ => hat hpc rfl
  | stopBegin => exact h.moveOn rfl rfl fun hholds => hat hpc hholds
  | stopRead =>
    refine h.moveTo rfl (fun v _ => h.holder v) (fun hholds => h.holder w (hat hpc hholds)) ?_ nofun
    rintro loop - heq id hlive
    cases heq
    refine (h.current id ?_ ?_).2 <;> (intro hid; rw [hid] at hlive; cases hlive)
  | stopWait loop =>
    dsimp only
    split
    · exact h
    · next hended =>
      split
      · next hkind =>
        have hholds : (s.pcs w).holds (kinds w) = true := by rw [hpc, hkind]; rfl
        have hok : ok = true := by
          rcases horderly.1 hkind (by rw [hpc]; rfl) with hremove | hok
          · rw [hpc] at hremove
            cases hremove
          · exact hok
        refine h.moveTo rfl (fun v _ => h.holder v) (fun _ => h.holder w hholds) nofun
          fun _ => ⟨hkind, fun id => ?_⟩
        cases hlive : (s.loops id).live with
        | false => rfl
        | true =>
          refine absurd ⟨hok, id, h.waiting w loop hkind hpc id hlive, ?_, ?_⟩ hended <;>
            (intro hid; rw [hid] at hlive; cases hlive)
      · exact hmove rfl nofun
  | remove => exact (h.newEpoch (h.removing w hpc).2 _).leave (hat hpc rfl)
  | done => exact h

/-- A loop that moves on without being born or cleared stays what it was. -/
theorem Orderly.Inv.moveLoop (h : Inv kinds s) {pc : LoopPc} (hborn : s.loops id ≠ .unborn)
    (hclear : s.loops id ≠ .cleared) (hlive : pc.live = true → (s.loops id).live = true)
    (hholding : ∀ credential, pc = .holding credential → s.file = some credential) :
    Inv kinds (s.moveLoop id pc) := by
  have hlives : ∀ id', ((s.moveLoop id pc).loops id').live = true → (s.loops id').live = true := by
    intro id' hid'
    by_cases heq : id' = id
    · rw [heq] at hid' ⊢
      exact hlive (by simpa only [Server.moveLoop, Function.update_self] using hid')
    · simpa only [Server.moveLoop, Function.update_of_ne heq] using hid'
  refine ⟨?_, ?_, fun id' hid' => h.epoch id' (hlives id' hid'), ?_, h.holder,
    fun w loop hkind hw id' hid' => h.waiting w loop hkind hw id' (hlives id' hid'), ?_⟩
  · intro id' hid'
    have heq : id' ≠ id := by
      rintro rfl
      exact hborn (h.unborn id' hid')
    simpa only [Server.moveLoop, Function.update_of_ne heq] using h.unborn id' hid'
  · intro id' hborn' hclear'
    by_cases heq : id' = id
    · rw [heq]
      exact h.current id hborn hclear
    · simp only [Server.moveLoop, Function.update_of_ne heq] at hborn' hclear'
      exact h.current id' hborn' hclear'
  · intro id' credential hid'
    by_cases heq : id' = id
    · rw [heq] at hid'
      exact hholding credential (by simpa only [Server.moveLoop, Function.update_self] using hid')
    · simp only [Server.moveLoop, Function.update_of_ne heq] at hid'
      exact h.holding id' credential hid'
  · intro w hw
    refine ⟨(h.removing w hw).1, fun id' => ?_⟩
    cases hid' : ((s.moveLoop id pc).loops id').live with
    | false => rfl
    | true => cases ((h.removing w hw).2 id').symm.trans (hlives id' hid')

theorem Orderly.Inv.loopEnds (h : Inv kinds s) {pc : LoopPc} (hborn : s.loops id ≠ .unborn)
    (hclear : s.loops id ≠ .cleared) (hlive : pc = .returned → (s.loops id).live = true)
    (hpc : pc = .returned ∨ pc.live = false := by simp [LoopPc.live]) :
    Inv kinds (s.moveLoop id pc) := by
  refine h.moveLoop hborn hclear ?_ ?_
  · rcases hpc with hpc | hpc
    · exact fun _ => hlive hpc
    · intro h
      cases hpc.symm.trans h
  · rintro credential rfl
    rcases hpc with hpc | hpc <;> cases hpc

theorem Orderly.Inv.loop (h : Inv kinds s) (id : Nat) (action : LoopAction) :
    Inv kinds (s.loop id action) := by
  cases action with
  | load =>
    dsimp only [Server.loop]
    split
    · next hpc =>
      refine h.moveLoop (by simp [hpc]) (by simp [hpc]) (fun _ => by rw [hpc]; rfl) ?_
      intro credential heq
      cases hfile : s.file with
      | none =>
        rw [hfile] at heq
        cases heq
      | some loaded =>
        rw [hfile] at heq
        cases heq
        rfl
    · exact h
  | save ok =>
    dsimp only [Server.loop]
    split
    · next credential hpc =>
      split
      · rw [← h.holding id credential hpc]
        exact h
      · exact h
    · exact h
  | finish =>
    dsimp only [Server.loop]
    split
    · next hpc => exact h.loopEnds (by simp [hpc]) (by simp [hpc]) (fun _ => by simp [hpc, LoopPc.live])
    · next hpc => exact h.loopEnds (by simp [hpc]) (by simp [hpc]) (fun _ => by simp [hpc, LoopPc.live])
    · exact h
  | closeDone =>
    dsimp only [Server.loop]
    split
    · next hpc => exact h.loopEnds (by simp [hpc]) (by simp [hpc]) (fun h => by cases h)
    · exact h
  | clear =>
    dsimp only [Server.loop]
    split
    · next hpc =>
      have hmoved : Inv kinds (s.moveLoop id .cleared) :=
        h.loopEnds (by simp [hpc]) (by simp [hpc]) (fun h => by cases h)
      have hcurrent := (h.current id (by simp [hpc]) (by simp [hpc])).2
      refine ⟨hmoved.unborn, ?_, hmoved.epoch, hmoved.holding, hmoved.holder, hmoved.waiting,
        hmoved.removing⟩
      intro id' hborn hclear
      have hid' := (hmoved.current id' hborn hclear).2
      cases hcurrent.symm.trans hid'
      exact absurd (Function.update_self ..) hclear
    · exact h

theorem Orderly.Inv.step (h : Inv kinds s) {action : Action} (horderly : Orderly kinds s action) :
    Inv kinds (s.step kinds action) := by
  cases action with
  | call w ok => exact h.call horderly
  | startAgent => exact h.start horderly
  | loop id action => exact h.loop id action

/-- In an orderly run only a loop of the present epoch writes the state file. -/
theorem loops_write_own_epoch (kinds : Nat → Call) (file : Option Nat) (actions : List Action)
    (hactions : Runs.Along (Server.step kinds) (Orderly kinds) (.fresh file) actions) :
    Runs.Along (Server.step kinds) WritesOwnEpoch (.fresh file) actions := by
  refine Runs.along_of_invariant (fun _ _ h horderly => h.step horderly) ?_
    (inv_fresh kinds file) hactions
  intro s action h _
  cases action with
  | call w ok | startAgent => trivial
  | loop id action =>
    cases action with
    | save ok =>
      intro credential hpc
      exact ⟨h.epoch id (by rw [hpc]; rfl), h.holding id credential hpc⟩
    | load | finish | closeDone | clear => trivial

/-- A logout and a login, with an agent loop before and after. -/
def logoutThenLogin : Nat → Call
  | 0 => .logout
  | _ => .login

/-- The logout waits for the loop, and the login commits after it is gone. -/
def relogin : List Action :=
  [.startAgent, .loop 0 .load, .loop 0 (.save true),
    .call 0 true, .call 0 true, .call 0 true, .call 0 true, .call 0 true, .call 0 true,
    .loop 0 (.save true), .loop 0 .finish, .loop 0 .closeDone, .call 0 true, .call 0 true,
    .loop 0 .clear, .call 1 true, .call 1 true, .call 1 true, .call 1 true, .call 1 true,
    .call 1 true, .call 1 true, .loop 1 .load, .loop 1 (.save true)]

theorem startAgent_orderly_iff (s : Server) :
    (s.pcs 0).waits = false ↔ Orderly logoutThenLogin s .startAgent := by
  constructor
  · intro h w hkind
    cases w with
    | zero => exact h
    | succ w => cases hkind
  · exact fun h => h 0 rfl

instance (s : Server) : ∀ action, Decidable (Orderly logoutThenLogin s action)
  | .call w ok => inferInstanceAs (Decidable
      ((logoutThenLogin w = .logout → (s.pcs w).waits = true → s.pcs w = .remove ∨ ok = true) ∧
        ((s.pcs w).commits = true → s.running = false)))
  | .startAgent => decidable_of_iff _ (startAgent_orderly_iff s)
  | .loop _ _ => .isTrue trivial

theorem relogin_keeps_credentials :
    Runs.Along (Server.step logoutThenLogin) WritesOwnEpoch (.fresh (some 7)) relogin ∧
      (relogin.foldl (Server.step logoutThenLogin) (.fresh (some 7))).file = some 1 :=
  ⟨loops_write_own_epoch logoutThenLogin (some 7) relogin (by decide +kernel), by decide +kernel⟩

/-- The first caller logs out. -/
def logsOut : Nat → Call := fun _ => .logout

/-- A loop has loaded the credential when a logout begins; the logout stops waiting before
the loop has returned and removes the file. -/
def givesUp : List Action :=
  [.startAgent, .loop 0 .load, .call 0 true, .call 0 true, .call 0 true, .call 0 true,
    .call 0 true, .call 0 true, .call 0 false, .call 0 true]

/-- The loop then writes the file that was removed, with the old credential. -/
theorem givesUp_credential_returns :
    let s := givesUp.foldl (Server.step logsOut) (.fresh (some 7))
    s.pcs 0 = .done ∧ s.file = none ∧ (s.loop 0 (.save true)).file = some 7 ∧
      ¬ WritesOwnEpoch s (.loop 0 (.save true)) := by
  refine ⟨by decide +kernel, by decide +kernel, by decide +kernel, ?_⟩
  intro hown
  exact absurd (hown 7 (by decide +kernel)).1 (by decide +kernel)

end HomeTunnel.Gui
