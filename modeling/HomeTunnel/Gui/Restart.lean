import HomeTunnel.Gui.Accounts

/-! # Starting the agent again

`StopAgent` waits for the `done` channel of the loop; the loop closes it before it takes
the lock and clears the flag. A `StartAgent` that comes in between finds the flag set and
starts nothing.
-/

namespace HomeTunnel.Gui

/-- `app.Run` has been called and has not returned. -/
def LoopPc.runs : LoopPc → Bool
  | .loading | .holding _ => true
  | .unborn | .returned | .closed | .cleared => false

/-- A loop that has not cleared the flag it set. -/
def LoopPc.uncleared : LoopPc → Bool
  | .loading | .holding _ | .returned | .closed => true
  | .unborn | .cleared => false

/-- The call `w` to `StopAgent` can go on because the loop it waits for is done. -/
def WaitOver (s : Server) (w old : Nat) : Prop :=
  s.pcs w = .stopWait (some old) ∧ (s.loops old = .closed ∨ s.loops old = .cleared)

/-- The actions that call `StartAgent`: on its own and at the end of `commitEnrollment`. -/
def Starts (s : Server) : Action → Prop
  | .startAgent => True
  | .call w _ => s.pcs w = .startAgent
  | .loop _ _ => False

/-- `app.Run` has returned in the current loop, which has still to clear the flag. -/
def Ending (s : Server) : Prop :=
  ∃ id ∈ s.current, s.loops id = .returned ∨ s.loops id = .closed

/-- The steps by which the loop `id` comes to its end. -/
def Ends (id : Nat) (action : Action) : Prop :=
  action = .loop id .load ∨ action = .loop id .finish

/-- The flag, `cancel` and `done` belong to the newest loop, and every other loop has
cleared what it set. -/
structure OneLoop (s : Server) : Prop where
  unborn : ∀ id, s.next ≤ id → s.loops id = .unborn
  newest : s.running = true →
    ∃ id, s.current = some id ∧ s.next = id + 1 ∧ (s.loops id).uncleared = true
  alone : ∀ id, (s.loops id).uncleared = true → s.running = true ∧ s.current = some id

variable {kinds : Nat → Call} {s : Server}

theorem oneLoop_fresh (file : Option Nat) : OneLoop (.fresh file) where
  unborn := fun _ _ => rfl
  newest := fun h => by cases h
  alone := fun _ h => by cases h

theorem OneLoop.congr {t : Server} (h : OneLoop s) (hnext : t.next = s.next)
    (hrunning : t.running = s.running) (hcurrent : t.current = s.current)
    (hloops : t.loops = s.loops) : OneLoop t := by
  constructor
  · rw [hnext, hloops]
    exact h.unborn
  · rw [hrunning, hcurrent, hnext, hloops]
    exact h.newest
  · rw [hrunning, hcurrent, hloops]
    exact h.alone

/-- A call leaves the loops alone until it gets to `StartAgent`. -/
theorem call_sameLoops {kind : Call} {w : Nat} {ok : Bool} (h : s.pcs w ≠ .startAgent) :
    (s.call kind w ok).next = s.next ∧ (s.call kind w ok).running = s.running ∧
      (s.call kind w ok).current = s.current ∧ (s.call kind w ok).loops = s.loops :=
  (callStep s kind w ok).loops.resolve_left h

theorem call_startAgent {kind : Call} {w : Nat} {ok : Bool} (h : s.pcs w = .startAgent) :
    s.call kind w ok = s.start.leave w := by
  unfold Server.call
  rw [h]

variable {action : Action} {id : Nat}

/-- The loops after a step that calls `StartAgent` are those after `StartAgent`. -/
theorem loops_of_starts (h : Starts s action) : (s.step kinds action).loops = s.start.loops := by
  cases action with
  | call w ok =>
    rw [Server.step, call_startAgent h]
    rfl
  | startAgent => rfl
  | loop id action => cases h

theorem OneLoop.start (h : OneLoop s) : OneLoop s.start := by
  unfold Server.start
  split
  · exact h
  · next hidle =>
    have hcleared : ∀ id, (s.loops id).uncleared = false := by
      intro id
      cases hid : (s.loops id).uncleared with
      | false => rfl
      | true => exact absurd (h.alone id hid).1 hidle
    constructor
    · intro id hid
      dsimp only at hid ⊢
      rw [Function.update_of_ne (by omega)]
      exact h.unborn id (by omega)
    · intro _
      refine ⟨s.next, rfl, rfl, ?_⟩
      dsimp only
      rw [Function.update_self]
      rfl
    · intro id hid
      refine ⟨rfl, ?_⟩
      by_cases hnew : id = s.next
      · rw [hnew]
      · dsimp only at hid
        rw [Function.update_of_ne hnew, hcleared id] at hid
        cases hid

theorem OneLoop.moveLoop (h : OneLoop s) {pc : LoopPc} (hbefore : (s.loops id).uncleared = true)
    (hafter : pc.uncleared = true) : OneLoop (s.moveLoop id pc) := by
  obtain ⟨hrunning, hcurrent⟩ := h.alone id hbefore
  obtain ⟨_, hid, hnext, -⟩ := h.newest hrunning
  cases hcurrent.symm.trans hid
  constructor
  · intro id' hid'
    dsimp only [Server.moveLoop] at hid' ⊢
    rw [Function.update_of_ne (by omega)]
    exact h.unborn id' hid'
  · intro _
    refine ⟨id, hcurrent, hnext, ?_⟩
    dsimp only [Server.moveLoop]
    rw [Function.update_self]
    exact hafter
  · intro id' hid'
    by_cases heq : id' = id
    · rw [heq]
      exact ⟨hrunning, hcurrent⟩
    · dsimp only [Server.moveLoop] at hid'
      rw [Function.update_of_ne heq] at hid'
      exact h.alone id' hid'

theorem OneLoop.clear (h : OneLoop s) (hclosed : s.loops id = .closed) :
    OneLoop { s.moveLoop id .cleared with running := false, current := none } := by
  have hbefore : (s.loops id).uncleared = true := by rw [hclosed]; rfl
  obtain ⟨hrunning, hcurrent⟩ := h.alone id hbefore
  obtain ⟨_, hid, hnext, -⟩ := h.newest hrunning
  cases hcurrent.symm.trans hid
  constructor
  · intro id' hid'
    dsimp only [Server.moveLoop] at hid' ⊢
    rw [Function.update_of_ne (by omega)]
    exact h.unborn id' hid'
  · intro hrun
    cases hrun
  · intro id' hid'
    dsimp only [Server.moveLoop] at hid'
    by_cases heq : id' = id
    · rw [heq, Function.update_self] at hid'
      cases hid'
    · rw [Function.update_of_ne heq] at hid'
      exact absurd (Option.some.inj (hcurrent.symm.trans (h.alone id' hid').2)) (Ne.symm heq)

theorem OneLoop.loop (h : OneLoop s) (id : Nat) (action : LoopAction) :
    OneLoop (s.loop id action) := by
  cases action with
  | load =>
    dsimp only [Server.loop]
    split
    · next hpc =>
      refine h.moveLoop (by rw [hpc]; rfl) ?_
      cases s.file <;> rfl
    · exact h
  | save ok =>
    dsimp only [Server.loop]
    split
    · split
      · exact h.congr rfl rfl rfl rfl
      · exact h
    · exact h
  | finish =>
    dsimp only [Server.loop]
    split
    · next hpc => exact h.moveLoop (by rw [hpc]; rfl) rfl
    · next hpc => exact h.moveLoop (by rw [hpc]; rfl) rfl
    · exact h
  | closeDone =>
    dsimp only [Server.loop]
    split
    · next hpc => exact h.moveLoop (by rw [hpc]; rfl) rfl
    · exact h
  | clear =>
    dsimp only [Server.loop]
    split
    · next hpc => exact h.clear hpc
    · exact h

theorem OneLoop.step (h : OneLoop s) (action : Action) : OneLoop (s.step kinds action) := by
  cases action with
  | call w ok =>
    by_cases hpc : s.pcs w = .startAgent
    · rw [Server.step, call_startAgent hpc]
      exact h.start.congr rfl rfl rfl rfl
    · obtain ⟨hnext, hrunning, hcurrent, hloops⟩ :=
        @call_sameLoops s (kinds w) w ok hpc
      exact h.congr hnext hrunning hcurrent hloops
  | startAgent => exact h.start
  | loop id action => exact h.loop id action

theorem OneLoop.run (h : OneLoop s) (actions : List Action) :
    OneLoop (actions.foldl (Server.step kinds) s) :=
  (Runs.always_of_step (fun _ action h => h.step action) h).last

/-- What a step does to the loops, one loop at a time. -/
theorem OneLoop.loops_step (h : OneLoop s) (action : Action) (hborn : s.loops id ≠ .unborn) :
    (s.step kinds action).loops id = s.loops id ∨
      ∃ own, action = .loop id own ∧ (s.step kinds action).loops id = (s.loop id own).loops id := by
  have hstart : s.start.loops id = s.loops id := by
    unfold Server.start
    split
    · rfl
    · refine Function.update_of_ne ?_ ..
      rintro rfl
      exact hborn (h.unborn s.next le_rfl)
  cases action with
  | call w ok =>
    left
    by_cases hpc : s.pcs w = .startAgent
    · rw [loops_of_starts (show Starts s (.call w ok) from hpc)]
      exact hstart
    · rw [Server.step, (@call_sameLoops s (kinds w) w ok hpc).2.2.2]
  | startAgent => exact .inl hstart
  | loop other own =>
    by_cases heq : other = id
    · exact .inr ⟨own, by rw [heq], by rw [heq]; rfl⟩
    · left
      have hmove : ∀ pc, (s.moveLoop other pc).loops id = s.loops id :=
        fun _ => Function.update_of_ne (Ne.symm heq) ..
      rw [Server.step]
      cases own <;> dsimp only [Server.loop] <;> repeat' split
      all_goals first | rfl | exact hmove _

theorem OneLoop.done_step (h : OneLoop s) (hdone : s.loops id = .closed ∨ s.loops id = .cleared) :
    (s.step kinds action).loops id = .closed ∨ (s.step kinds action).loops id = .cleared := by
  have hborn : s.loops id ≠ .unborn := by
    rcases hdone with hdone | hdone <;> (rw [hdone]; decide)
  rcases @OneLoop.loops_step kinds s id h action hborn with hsame | ⟨own, -, hown⟩
  · rw [hsame]
    exact hdone
  · rw [hown]
    rcases hdone with hdone | hdone <;> cases own <;>
      simp [Server.loop, Server.moveLoop, hdone]

theorem OneLoop.runs_step (h : OneLoop s) (hruns : (s.loops id).runs = true)
    (hends : ¬ Ends id action) : ((s.step kinds action).loops id).runs = true := by
  have hborn : s.loops id ≠ .unborn := by
    intro hunborn
    rw [hunborn] at hruns
    cases hruns
  rcases @OneLoop.loops_step kinds s id h action hborn with hsame | ⟨own, heq, hown⟩
  · rw [hsame]
    exact hruns
  · rw [hown]
    cases own with
    | load => exact absurd (.inl heq) hends
    | finish => exact absurd (.inr heq) hends
    | save ok =>
      dsimp only [Server.loop]
      split
      · split <;> exact hruns
      · exact hruns
    | closeDone =>
      have hpc : s.loops id ≠ .returned := by intro hpc; rw [hpc] at hruns; cases hruns
      simpa [Server.loop, hpc] using hruns
    | clear =>
      have hpc : s.loops id ≠ .closed := by intro hpc; rw [hpc] at hruns; cases hruns
      simpa [Server.loop, hpc] using hruns

theorem OneLoop.runs_run {actions : List Action} (h : OneLoop s) (hruns : (s.loops id).runs = true)
    (hends : ∀ action ∈ actions, ¬ Ends id action) :
    ((actions.foldl (Server.step kinds) s).loops id).runs = true := by
  induction actions generalizing s with
  | nil => exact hruns
  | cons action rest ih =>
    obtain ⟨hfirst, hrest⟩ := List.forall_mem_cons.mp hends
    exact ih (h.step action) (h.runs_step hruns hfirst) hrest

/-- `StartAgent` leaves a running loop behind unless the current loop is about to end. -/
theorem OneLoop.start_runs_iff (h : OneLoop s) :
    (∃ id, (s.start.loops id).runs = true) ↔ ¬ Ending s := by
  unfold Server.start
  split
  · next hrunning =>
    obtain ⟨id, hcurrent, -, huncleared⟩ := h.newest hrunning
    constructor
    · rintro ⟨id', hruns⟩ ⟨_, hid, hending⟩
      have hid' := (h.alone id' (by cases hpc : s.loops id' <;> simp_all [LoopPc.runs,
        LoopPc.uncleared])).2
      cases hid'.symm.trans hid
      rcases hending with hending | hending <;> (rw [hending] at hruns; cases hruns)
    · intro hending
      refine ⟨id, ?_⟩
      cases hpc : s.loops id with
      | loading | holding credential => rfl
      | returned => exact absurd ⟨id, hcurrent, .inl hpc⟩ hending
      | closed => exact absurd ⟨id, hcurrent, .inr hpc⟩ hending
      | unborn | cleared => rw [hpc] at huncleared; cases huncleared
  · next hidle =>
    constructor
    · rintro - ⟨id, -, hending⟩
      refine hidle (h.alone id ?_).1
      rcases hending with hending | hending <;> (rw [hending]; rfl)
    · intro _
      refine ⟨s.next, ?_⟩
      dsimp only
      rw [Function.update_self]
      rfl

/-- A running loop is newer than one that is done. -/
theorem OneLoop.newer (h : OneLoop s) {old : Nat}
    (hdone : s.loops old = .closed ∨ s.loops old = .cleared) (hruns : (s.loops id).runs = true) :
    old < id := by
  have huncleared : (s.loops id).uncleared = true := by
    cases hpc : s.loops id <;> simp_all [LoopPc.runs, LoopPc.uncleared]
  obtain ⟨hrunning, hcurrent⟩ := h.alone id huncleared
  obtain ⟨_, hid, hnext, -⟩ := h.newest hrunning
  cases hcurrent.symm.trans hid
  have hborn : ¬ s.next ≤ old := by
    intro hle
    rcases hdone with hdone | hdone <;> cases hdone.symm.trans (h.unborn old hle)
  have hne : old ≠ id := by
    rintro rfl
    rcases hdone with hdone | hdone <;> (rw [hdone] at hruns; cases hruns)
  omega

theorem OneLoop.done_run {actions : List Action} (h : OneLoop s)
    (hdone : s.loops id = .closed ∨ s.loops id = .cleared) :
    let t := actions.foldl (Server.step kinds) s
    t.loops id = .closed ∨ t.loops id = .cleared := by
  induction actions generalizing s with
  | nil => exact hdone
  | cons action rest ih => exact ih (h.step action) (h.done_step hdone)

/-- A call of `StartAgent` after one of `StopAgent` that waited for the old loop leaves a
newer loop running, until that loop ends, unless the current loop has returned and has
still to clear the flag. What a loop clears is always its own. -/
theorem start_after_stop_runs_iff (kinds : Nat → Call) (file : Option Nat)
    (before after : List Action) (w old : Nat) (start : Action)
    (hstop : WaitOver (before.foldl (Server.step kinds) (.fresh file)) w old)
    (hstart : Starts ((before ++ .call w true :: after).foldl (Server.step kinds) (.fresh file))
      start) :
    let t := (before ++ .call w true :: after).foldl (Server.step kinds) (.fresh file)
    ((∃ id, old < id ∧ ∀ later : List Action, (∀ action ∈ later, ¬ Ends id action) →
        ((later.foldl (Server.step kinds) (t.step kinds start)).loops id).runs = true) ↔
      ¬ Ending t) ∧
    ∀ id, t.loops id = .closed → t.running = true ∧ t.current = some id ∧ t.next = id + 1 := by
  intro t
  have hone : OneLoop t := (oneLoop_fresh file).run _
  have hdone : t.loops old = .closed ∨ t.loops old = .cleared := by
    have hold := @OneLoop.done_run kinds _ old (.call w true :: after)
      ((oneLoop_fresh file).run before) hstop.2
    rwa [← List.foldl_append] at hold
  have hloops : (t.step kinds start).loops = t.start.loops := loops_of_starts hstart
  have hnext : OneLoop (t.step kinds start) := hone.step start
  constructor
  · rw [← hone.start_runs_iff]
    constructor
    · rintro ⟨id, -, hlater⟩
      have hruns := hlater [] (by simp)
      exact ⟨id, by rw [← hloops]; exact hruns⟩
    · rintro ⟨id, hruns⟩
      rw [← hloops] at hruns
      exact ⟨id, hnext.newer (hone.done_step hdone) hruns, fun later => hnext.runs_run hruns⟩
  · intro id hclosed
    obtain ⟨hrunning, hcurrent⟩ := hone.alone id (by rw [hclosed]; rfl)
    obtain ⟨_, hid, hnew, -⟩ := hone.newest hrunning
    cases hcurrent.symm.trans hid
    exact ⟨hrunning, hcurrent, hnew⟩

/-- Every caller stops the agent. -/
def stopsAgent : Nat → Call := fun _ => .stopAgent

/-- A loop runs, `StopAgent` waits for it, and it closes its channel. -/
def stopped : List Action :=
  [.startAgent, .loop 0 .load, .call 0 true, .call 0 true, .call 0 true, .loop 0 .finish,
    .loop 0 .closeDone]

theorem cleared_loop_is_replaced :
    let t := (stopped ++ Action.call 0 true :: [.loop 0 .clear]).foldl (Server.step stopsAgent)
      (.fresh (some 7))
    WaitOver (stopped.foldl (Server.step stopsAgent) (.fresh (some 7))) 0 0 ∧ ¬ Ending t ∧
      ∃ id, 0 < id ∧ ((t.step stopsAgent .startAgent).loops id).runs = true := by
  have hwait : WaitOver (stopped.foldl (Server.step stopsAgent) (.fresh (some 7))) 0 0 :=
    ⟨by decide +kernel, .inl (by decide +kernel)⟩
  have hending : ¬ Ending ((stopped ++ Action.call 0 true :: [.loop 0 .clear]).foldl
      (Server.step stopsAgent) (.fresh (some 7))) := by
    rintro ⟨id, hid, -⟩
    cases hid
  obtain ⟨id, hid, hlater⟩ := (start_after_stop_runs_iff stopsAgent (some 7) stopped
    [.loop 0 .clear] 0 0 .startAgent hwait trivial).1.mpr hending
  exact ⟨hwait, hending, id, hid, hlater [] (by simp)⟩

/-- `StopAgent` returns as soon as the channel is closed; `StartAgent` then finds the flag
still set, and when the old loop has cleared it nothing runs. -/
theorem start_before_clear_is_lost :
    let s := stopped.foldl (Server.step stopsAgent) (.fresh (some 7))
    let t := (stopped ++ Action.call 0 true :: []).foldl (Server.step stopsAgent) (.fresh (some 7))
    let u := [Action.startAgent, .loop 0 .clear].foldl (Server.step stopsAgent) t
    WaitOver s 0 0 ∧ t.pcs 0 = .done ∧ Ending t ∧ u.running = false ∧
      ∀ id, (u.loops id).runs = false := by
  refine ⟨⟨by decide +kernel, .inl (by decide +kernel)⟩, by decide +kernel,
    ⟨0, by decide +kernel, .inr (by decide +kernel)⟩, by decide +kernel, ?_⟩
  intro id
  cases id with
  | zero => decide +kernel
  | succ id => rfl

end HomeTunnel.Gui
