import HomeTunnel.Lib.Runs
import HomeTunnel.Lib.Trace

/-! # The order of native authorization

`NestLinkNativeAuthorization`: all instances chain their operations on one tail. What a native
call answers, and when, is up to the native side.
-/

namespace HomeTunnel.NestLink.Authorization

open Trace

inductive Operation
  | synchronize (accessToken : Option String)
  | close
deriving DecidableEq, Repr

/-- An operation of an instance, given to `_serialize`. -/
structure Entry where
  owner : Nat
  operation : Operation
deriving DecidableEq, Repr

structure Instance where
  closed : Bool := false
  installedToken : String := ""

inductive Event
  | called (entry : Entry)
  -- the operation runs, and `native` if it makes its native call
  | ran (entry : Entry) (native : Bool)
  -- the native call answers; `none` is an exception
  | ended (error : Option String)
deriving DecidableEq, Repr

structure State where
  instances : Nat → Instance := fun _ => {}
  -- what waits on `_tail`
  queue : List Entry := []
  running : Option Entry := none
  -- the newest first
  trace : List Event := []

inductive Action
  | synchronize (owner : Nat) (accessToken : Option String)
  | close (owner : Nat)
  -- the next operation has its turn; the answer of `_ready`
  | next (ready : Bool)
  | answer (error : Option String)
deriving DecidableEq, Repr

namespace State

def serialize (s : State) (entry : Entry) : State :=
  { s with queue := s.queue ++ [entry], trace := .called entry :: s.trace }

def set (s : State) (owner : Nat) (value : Instance) : State :=
  { s with instances := Function.update s.instances owner value }

def run (s : State) (entry : Entry) (rest : List Entry) (native : Bool) : State :=
  { s with
    queue := rest
    running := if native then some entry else none
    trace := .ran entry native :: s.trace }

def next (s : State) (ready : Bool) : State :=
  match s.running, s.queue with
  | none, entry :: rest =>
    let owner := s.instances entry.owner
    match entry.operation with
    | .synchronize token =>
      s.run entry rest (!owner.closed && !(some owner.installedToken = token && ready))
    | .close => (s.run entry rest true).set entry.owner { owner with installedToken := "" }
  | _, _ => s

def answer (s : State) (error : Option String) : State :=
  match s.running with
  | none => s
  | some entry =>
    let owner := s.instances entry.owner
    let s := { s with running := none, trace := .ended error :: s.trace }
    match entry.operation, error with
    | .synchronize (some token), some "" =>
      if owner.closed then s else s.set entry.owner { owner with installedToken := token }
    | _, _ => s

def step (s : State) : Action → State
  | .synchronize owner token => s.serialize ⟨owner, .synchronize token⟩
  | .close owner =>
    if (s.instances owner).closed then s
    else (s.set owner { s.instances owner with closed := true }).serialize ⟨owner, .close⟩
  | .next ready => s.next ready
  | .answer error => s.answer error

/-- The next operation runs to its end. -/
def round (s : State) (given : Bool × Option String) : State :=
  (s.step (.next given.1)).step (.answer given.2)

end State

/-- A native call has not answered. -/
def underway : List Event → Bool
  | [] | .ended _ :: _ => false
  | .called _ :: past => underway past
  | .ran _ native :: past => native || underway past

/-- The operations that were called, the last one first. -/
def calls : List Event → List Entry
  | [] => []
  | .called entry :: past => entry :: calls past
  | _ :: past => calls past

/-- The operations that have run, the last one first. -/
def runs : List Event → List Entry
  | [] => []
  | .ran entry _ :: past => entry :: runs past
  | _ :: past => runs past

/-- An instance is closed once. An operation runs while no native call is under way, and is the
first call after those that have run. A `close` makes its native call; a `synchronize` makes
none once its instance was closed. -/
def Right : Event → List Event → Prop
  | .called entry, past => entry.operation = .close → entry ∉ calls past
  | .ended _, past => underway past
  | .ran entry native, past =>
    underway past = false ∧ (∃ waiting, calls past = waiting ++ entry :: runs past) ∧
      (entry.operation = .close → native) ∧
      (native → entry.operation ≠ .close → ⟨entry.owner, .close⟩ ∉ calls past)

structure Inv (s : State) : Prop where
  right : Each Right s.trace
  busy : underway s.trace = s.running.isSome
  order : calls s.trace = s.queue.reverse ++ runs s.trace
  closed : ∀ i, (calls s.trace).count ⟨i, .close⟩ = (s.instances i).closed.toNat

variable {s : State} {entry : Entry} {rest : List Entry}

theorem Inv.set (h : Inv s) {owner : Nat} {value : Instance}
    (hvalue : value.closed = (s.instances owner).closed) : Inv (s.set owner value) := by
  refine ⟨h.right, h.busy, h.order, fun i => (h.closed i).trans ?_⟩
  dsimp only [State.set]
  by_cases hi : i = owner
  · rw [hi, Function.update_self, hvalue]
  · rw [Function.update_of_ne hi]

theorem Inv.not_mem_calls (h : Inv s) {i : Nat} (hopen : (s.instances i).closed = false) :
    ⟨i, .close⟩ ∉ calls s.trace := by
  rw [← List.count_eq_zero, h.closed, hopen]
  rfl

theorem Inv.run (h : Inv s) (hqueue : s.queue = entry :: rest) (hrunning : s.running = none)
    {native : Bool} (hclose : entry.operation = .close → native)
    (hopen : native → entry.operation ≠ .close → (s.instances entry.owner).closed = false) :
    Inv (s.run entry rest native) := by
  have hidle : underway s.trace = false := by rw [h.busy, hrunning, Option.isSome_none]
  have horder : calls s.trace = rest.reverse ++ entry :: runs s.trace := by
    rw [h.order, hqueue, List.reverse_cons, List.append_assoc, List.singleton_append]
  refine ⟨⟨⟨hidle, ⟨_, horder⟩, hclose, fun hnative hne => h.not_mem_calls (hopen hnative hne)⟩,
    h.right⟩, ?_, horder, h.closed⟩
  dsimp only [State.run, underway]
  rw [hidle]
  cases native <;> rfl

theorem Inv.next (h : Inv s) (ready : Bool) : Inv (s.next ready) := by
  unfold State.next
  split
  · next entry rest hrunning hqueue =>
    dsimp only
    split
    · next token hoperation =>
      refine h.run hqueue hrunning (fun heq => ?_) fun hnative _ => ?_
      · cases hoperation.symm.trans heq
      · rw [Bool.and_eq_true, Bool.not_eq_true'] at hnative
        exact hnative.1
    · next hoperation =>
      exact (h.run hqueue hrunning (fun _ => rfl) fun _ hne => absurd hoperation hne).set rfl
  · exact h

theorem Inv.answer (h : Inv s) (error : Option String) : Inv (s.answer error) := by
  unfold State.answer
  split
  · exact h
  · next entry hrunning =>
    have hended : Inv { s with running := none, trace := .ended error :: s.trace } :=
      ⟨⟨by rw [Right, h.busy, hrunning]; rfl, h.right⟩, rfl, h.order, h.closed⟩
    dsimp only
    split
    · split
      · exact hended
      · exact hended.set rfl
    · exact hended

theorem order_serialize (h : Inv s) (entry : Entry) :
    entry :: calls s.trace = (s.queue ++ [entry]).reverse ++ runs s.trace := by
  rw [h.order, List.reverse_append, List.reverse_singleton, List.append_assoc,
    List.singleton_append]

theorem Inv.step (h : Inv s) (action : Action) : Inv (s.step action) := by
  cases action with
  | synchronize owner token =>
    refine ⟨⟨nofun, h.right⟩, h.busy, order_serialize h _, fun i => ?_⟩
    exact (List.count_cons_of_ne (by simp)).trans (h.closed i)
  | close owner =>
    dsimp only [State.step]
    split
    · exact h
    · next hopen =>
      rw [Bool.not_eq_true] at hopen
      refine ⟨⟨fun _ => h.not_mem_calls hopen, h.right⟩, h.busy, order_serialize h _, fun i => ?_⟩
      dsimp only [State.serialize, State.set, calls]
      by_cases hi : i = owner
      · rw [hi, List.count_cons_self, h.closed, hopen, Function.update_self]
        rfl
      · rw [List.count_cons_of_ne (by simpa using Ne.symm hi), h.closed, Function.update_of_ne hi]
  | next ready => exact h.next ready
  | answer error => exact h.answer error

theorem inv_run (actions : List Action) : Inv (actions.foldl State.step {}) :=
  (Runs.always_of_step (fun _ action h => h.step action)
    ⟨trivial, rfl, rfl, fun _ => rfl⟩).last

theorem answer_frame (s : State) (error : Option String) :
    (s.answer error).running = none ∧ (s.answer error).queue = s.queue ∧
      calls (s.answer error).trace = calls s.trace := by
  unfold State.answer
  split
  · next hrunning => exact ⟨hrunning, rfl, rfl⟩
  · dsimp only
    split
    · split <;> exact ⟨rfl, rfl, rfl⟩
    · exact ⟨rfl, rfl, rfl⟩

theorem next_frame (hrunning : s.running = none) (hqueue : s.queue = entry :: rest) (ready : Bool) :
    (s.next ready).queue = rest ∧ calls (s.next ready).trace = calls s.trace := by
  unfold State.next
  rw [hrunning, hqueue]
  dsimp only
  split <;> exact ⟨rfl, rfl⟩

/-- Whatever the native calls answer, all that was called runs. -/
theorem Inv.drain (h : Inv s) (hrunning : s.running = none) {given : List (Bool × Option String)}
    (hlength : given.length = s.queue.length) :
    (given.foldl State.round s).running = none ∧
      runs (given.foldl State.round s).trace = calls s.trace := by
  induction given generalizing s with
  | nil =>
    have hempty := List.eq_nil_of_length_eq_zero hlength.symm
    exact ⟨hrunning, by rw [h.order, hempty]; rfl⟩
  | cons first given ih =>
    obtain ⟨entry, rest, hqueue⟩ := List.exists_cons_of_length_eq_add_one hlength.symm
    obtain ⟨hrest, hcalls⟩ := next_frame hrunning hqueue first.1
    obtain ⟨hidle, hsame, hcalls'⟩ := answer_frame (s.next first.1) first.2
    rw [← hcalls, ← hcalls']
    refine ih ((h.step (.next first.1)).step (.answer first.2)) hidle ?_
    rw [hqueue] at hlength
    exact (Nat.succ.inj hlength).trans (by rw [← hrest, ← hsame]; rfl)

end HomeTunnel.NestLink.Authorization
