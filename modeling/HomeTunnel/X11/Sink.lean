import HomeTunnel.Lib.Runs

/-! # The X11 input sink and its release guard

`X11InputSink::key`, `button` and `wheel` in the host process, `run_release_guard` in the
other, and the ledger they share. A step is one access to the ledger, the lock or the display.
A process that dies keeps the lock until the guard takes it over. What the display and the
desktop answer, a lock that times out and an expired heartbeat are inputs of the steps; the
guard's signals are deaths of the host, which may come at any step.
-/

namespace HomeTunnel.X11

/-- An entry of the ledger: `keys[code]` or `buttons[code]`. -/
inductive Target
  | key (code : Nat)
  | button (code : Nat)
deriving DecidableEq, Repr

/-- The entries that `release` goes through, in its order. -/
def everyTarget : List Target :=
  (List.range' 1 255).map .key ++ (List.range' 1 9).map .button

inductive Axis
  | x
  | y
deriving DecidableEq, Repr

inductive Call
  | key (usage : Nat) (down : Bool)
  | button (number : Nat) (down : Bool)
  | wheel (dx dy : Int)
deriving DecidableEq, Repr

/-- What a call does once it has the lock. -/
inductive Task
  | press (t : Target) (down : Bool)
  | wheel
deriving DecidableEq, Repr

/-- Where the host process stands; inside the loop of `wheel` the axis is given. -/
inductive Pc
  | idle
  | locking (task : Task)
  | checking (task : Task)
  | turning (axis : Axis)
  -- the entry is marked, the request not yet made
  | pressing (t : Target) (previous : Bool) (axis : Option Axis)
  | restoring (t : Target) (previous : Bool) (axis : Option Axis)
  | releasing (t : Target) (axis : Option Axis)
  -- the release was made, the entry is still marked
  | clearing (t : Target) (axis : Option Axis)
  | unlocking (sent : Bool)
deriving DecidableEq, Repr

inductive GuardPc
  | watching
  | locking
  | releasing (rest : List Target) (empty : Bool)
  | finished
deriving DecidableEq, Repr

inductive Process
  | host
  | guard
deriving DecidableEq, Repr

structure State where
  active : Bool
  stop : Bool
  marks : Target → Bool
  holder : Option Process
  -- what the sink pressed and the display still holds down, and every press so far
  held : Target → Bool
  pressed : List Target
  -- the sink; `calling` holds the deltas of the `wheel` call under way
  alive : Bool
  failed : Bool
  pc : Pc
  wheel : Axis → Int
  calling : Option (Axis → Int)
  guard : GuardPc
  -- the detents sent, the deltas of the calls that returned true, the last result and the
  -- remainders that its call found
  emitted : Axis → Int
  credited : Axis → Int
  returned : Option Bool
  started : Axis → Int

/-- After the guard was started, or failed to start. -/
def State.init (failed : Bool) : State where
  active := true
  stop := false
  marks := fun _ => false
  holder := none
  held := fun _ => false
  pressed := []
  alive := true
  failed := failed
  pc := .idle
  wheel := fun _ => 0
  calling := none
  guard := .watching
  emitted := fun _ => 0
  credited := fun _ => 0
  returned := none
  started := fun _ => 0

def State.healthy (s : State) : Bool :=
  s.active && !s.stop && decide (s.guard ≠ .finished)

def State.ensure (s : State) : Bool × State :=
  if s.failed || !s.healthy then (false, { s with failed := true }) else (true, s)

theorem State.ensure_cases (s : State) :
    s.ensure = (true, s) ∨ s.ensure = (false, { s with failed := true }) := by
  unfold State.ensure
  split
  · exact .inr rfl
  · exact .inl rfl

/-- The call under way returns. -/
def State.answer (s : State) (sent : Bool) : State :=
  match s.calling with
  | none => { s with pc := .idle }
  | some deltas =>
    { s with
      pc := .idle
      calling := none
      returned := some sent
      credited := if sent then fun a => s.credited a + deltas a else s.credited }

def keyTarget (keys : Nat → Fin 256) (usage : Nat) : Option Target :=
  if 232 ≤ usage ∨ keys usage = 0 then none else some (.key (keys usage))

def buttonTarget (number : Nat) : Option Target :=
  if number < 1 then none else ([1, 3, 2, 8, 9][number - 1]?).map .button

def State.press (s : State) (down : Bool) : Option Target → State
  | none => s
  | some t =>
    if down && !s.ensure.1 then s.ensure.2 else { s with pc := .locking (.press t down) }

def Axis.of (dx dy : Int) : Axis → Int
  | .x => dx
  | .y => dy

/-- A call begins: `ordinary` is the answer of `ordinary_desktop`, `pointed` that of the tests
on the last point. -/
def State.call (keys : Nat → Fin 256) (s : State) (ordinary pointed : Bool) : Call → State
  | .key usage down => s.press down (keyTarget keys usage)
  | .button number down => s.press down (buttonTarget number)
  | .wheel dx dy =>
    let s := { s with started := s.wheel, returned := none }
    if dx < -12000 ∨ dx > 12000 ∨ dy < -12000 ∨ dy > 12000 ∨ ordinary = false then
      { s with returned := some false }
    else if !s.ensure.1 || !pointed then { s.ensure.2 with returned := some false }
    else
      { s with
        wheel := fun a => s.wheel a + Axis.of dx dy a
        calling := some (Axis.of dx dy)
        pc := .locking .wheel }

/-- The button that one detent of the axis presses. -/
def detentButton (axis : Axis) (value : Int) : Nat :=
  match axis with
  | .y => if value < 0 then 4 else 5
  | .x => if value < 0 then 6 else 7

def detent (value : Int) : Int :=
  if value < 0 then -1 else 1

/-- The end of the loop's body, with the result of the detent. -/
def State.turned (s : State) (axis : Axis) (sent : Bool) : State :=
  { s with
    wheel := Function.update s.wheel axis (s.wheel axis - 120 * detent (s.wheel axis))
    pc := if sent then .turning axis else .unlocking false }

/-- One step of the host process inside a call, with the answer to what it asks. -/
def State.proceed (s : State) (answer : Bool) : State :=
  match s.pc with
  | .idle | .locking _ => s
  | .checking (.press t down) =>
    if !down && !s.marks t then { s with pc := .unlocking true }
    else if answer && (!down || s.healthy) then
      if down then
        { s with marks := Function.update s.marks t true, pc := .pressing t (s.marks t) none }
      else { s with pc := .releasing t none }
    else { s with pc := .unlocking false }
  | .checking .wheel => { s with pc := if s.healthy then .turning .x else .unlocking false }
  | .turning axis =>
    if 120 ≤ s.wheel axis ∨ s.wheel axis ≤ -120 then
      let t := Target.button (detentButton axis (s.wheel axis))
      { s with marks := Function.update s.marks t true, pc := .pressing t (s.marks t) (some axis) }
    else { s with pc := if axis = .x then .turning .y else .unlocking true }
  | .pressing t previous axis =>
    if answer then
      { s with
        held := Function.update s.held t true
        pressed := s.pressed ++ [t]
        emitted :=
          match axis with
          | none => s.emitted
          | some a => Function.update s.emitted a (s.emitted a + detent (s.wheel a))
        pc := if axis = none then .unlocking true else .releasing t axis }
    else { s with pc := .restoring t previous axis }
  | .restoring t previous axis =>
    let s := { s with marks := Function.update s.marks t previous }
    match axis with
    | none => { s with pc := .unlocking false }
    | some axis => s.turned axis false
  | .releasing t axis =>
    if answer then { s with held := Function.update s.held t false, pc := .clearing t axis }
    else
      match axis with
      | none => { s with pc := .unlocking false }
      | some axis => { s with active := false, stop := true }.turned axis false
  | .clearing t axis =>
    let s := { s with marks := Function.update s.marks t false }
    match axis with
    | none => { s with pc := .unlocking true }
    | some axis => s.turned axis true
  | .unlocking sent => { s with holder := none }.answer sent

/-- `lock_ledger` in the host: the lock may be refused at any time. -/
def State.lock (s : State) (granted : Bool) : State :=
  match s.pc with
  | .locking task =>
    if granted && s.holder.isNone then { s with holder := some .host, pc := .checking task }
    else s.answer false
  | _ => s

/-- One round of the guard's loop up to the lock. -/
def State.wake (s : State) (expired : Bool) : State :=
  if s.guard = .watching ∧ (s.stop || !s.alive || expired) then
    { s with active := false, guard := .locking }
  else s

/-- `lock_ledger` in the guard: a lock whose holder died is granted. -/
def State.guardLock (s : State) (granted : Bool) : State :=
  if s.guard = .locking then
    if granted && (s.holder.isNone || (s.holder == some .host && !s.alive)) then
      { s with holder := some .guard, guard := .releasing everyTarget true }
    else { s with guard := .watching }
  else s

/-- One entry of `release`, then the end of the guard's round. -/
def State.guardRelease (s : State) (answer : Bool) : State :=
  match s.guard with
  | .releasing (t :: rest) empty =>
    if s.marks t then
      if answer then
        { s with
          held := Function.update s.held t false
          marks := Function.update s.marks t false
          guard := .releasing rest empty }
      else { s with guard := .releasing rest false }
    else { s with guard := .releasing rest empty }
  | .releasing [] empty =>
    { s with holder := none, guard := if empty then .finished else .watching }
  | _ => s

inductive Action
  | call (call : Call) (ordinary pointed : Bool)
  | lock (granted : Bool)
  | proceed (answer : Bool)
  | watchdogStop
  | die
  | wake (expired : Bool)
  | guardLock (granted : Bool)
  | guardRelease (answer : Bool)
deriving DecidableEq, Repr

def State.step (keys : Nat → Fin 256) (s : State) : Action → State
  | .call call ordinary pointed =>
    if s.alive ∧ s.pc = .idle then s.call keys ordinary pointed call else s
  | .lock granted => if s.alive then s.lock granted else s
  | .proceed answer => if s.alive then s.proceed answer else s
  | .watchdogStop =>
    if s.alive then { s with failed := true, active := false, stop := true } else s
  | .die => { s with alive := false }
  | .wake expired => s.wake expired
  | .guardLock granted => s.guardLock granted
  | .guardRelease answer => s.guardRelease answer

theorem mem_everyTarget_key {code : Nat} : .key code ∈ everyTarget ↔ 1 ≤ code ∧ code < 256 := by
  simp [everyTarget, List.mem_range'_1]

theorem mem_everyTarget_button {code : Nat} : .button code ∈ everyTarget ↔ 1 ≤ code ∧ code < 10 := by
  simp [everyTarget, List.mem_range'_1]

theorem keyTarget_mem {keys : Nat → Fin 256} {usage : Nat} {t : Target}
    (h : keyTarget keys usage = some t) : t ∈ everyTarget := by
  unfold keyTarget at h
  split at h
  · cases h
  · cases h
    rw [mem_everyTarget_key]
    have := (keys usage).isLt
    rename_i hn
    have : (keys usage).val ≠ 0 := fun h0 => hn (.inr (Fin.ext h0))
    omega

theorem buttonTarget_mem {number : Nat} {t : Target}
    (h : buttonTarget number = some t) : t ∈ everyTarget := by
  unfold buttonTarget at h
  split at h
  · cases h
  · rw [Option.map_eq_some_iff] at h
    obtain ⟨code, hcode, rfl⟩ := h
    have hm := List.mem_of_getElem? hcode
    rw [mem_everyTarget_button]
    simp at hm
    omega

/-- The states in which a call may leave the sink. -/
inductive State.Called (s : State) : State → Prop
  | same : Called s s
  | failed : Called s { s with failed := true }
  | press {t : Target} (ht : t ∈ everyTarget) (down : Bool) :
      Called s { s with pc := .locking (.press t down) }
  | refused (failed : Bool) :
      Called s { s with started := s.wheel, returned := some false, failed := failed }
  | wheel (dx dy : Int) : Called s
      { s with
        started := s.wheel
        returned := none
        wheel := fun a => s.wheel a + Axis.of dx dy a
        calling := some (Axis.of dx dy)
        pc := .locking .wheel }

section Steps

variable {s : State} {keys : Nat → Fin 256}

theorem State.press_called (down : Bool) {t : Option Target}
    (ht : ∀ u, t = some u → u ∈ everyTarget) : s.Called (s.press down t) := by
  cases t with
  | none => exact .same
  | some t =>
    unfold State.press
    dsimp only
    split
    · obtain he | he := s.ensure_cases <;> rw [he]
      · exact .same
      · exact .failed
    · exact .press (ht t rfl) down

theorem State.call_called (ordinary pointed : Bool) (call : Call) :
    s.Called (s.call keys ordinary pointed call) := by
  cases call with
  | key usage down => exact s.press_called down fun _ => keyTarget_mem
  | button number down => exact s.press_called down fun _ => buttonTarget_mem
  | wheel dx dy =>
    unfold State.call
    dsimp only
    split
    · exact .refused s.failed
    · split
      · obtain he | he := State.ensure_cases { s with started := s.wheel, returned := none } <;>
          rw [he]
        · exact .refused s.failed
        · exact .refused true
      · exact .wheel dx dy

/-- What holds of the state and of all that a step may make of it holds after the step. -/
theorem State.step_cases {p : State → Prop} (hs : p s) (action : Action)
    (hcall : s.pc = .idle → ∀ t, s.Called t → p t)
    (hlock : ∀ granted, action = .lock granted → s.alive = true → p (s.lock granted))
    (hproceed : ∀ answer, action = .proceed answer → s.alive = true → p (s.proceed answer))
    (hstop : p { s with failed := true, active := false, stop := true })
    (hdie : p { s with alive := false }) (hwake : ∀ expired, p (s.wake expired))
    (hguardLock : ∀ granted, p (s.guardLock granted))
    (hguardRelease : ∀ answer, p (s.guardRelease answer)) : p (s.step keys action) := by
  cases action with
  | die => exact hdie
  | wake expired => exact hwake expired
  | guardLock granted => exact hguardLock granted
  | guardRelease answer => exact hguardRelease answer
  | call call ordinary pointed =>
    dsimp only [State.step]
    split
    · next hc => exact hcall hc.2 _ (s.call_called ordinary pointed call)
    · exact hs
  | lock granted =>
    dsimp only [State.step]
    split
    · exact hlock granted rfl ‹_›
    · exact hs
  | proceed answer =>
    dsimp only [State.step]
    split
    · exact hproceed answer rfl ‹_›
    · exact hs
  | watchdogStop =>
    dsimp only [State.step]
    split
    · exact hstop
    · exact hs

end Steps

end HomeTunnel.X11
