import HomeTunnel.Gui.Windows

/-! # A logout and a newer login

The logout calls `StopAgent`, which begins an account change of its own. A login that has
begun meanwhile is waiting for `accountMu`; its context is ended and its generation is
overtaken.
-/

namespace HomeTunnel.Gui

variable {kinds : Nat → Call} {d : WindowServer} {a b : Nat}

/-- A call that holds `accountMu` is the one it says. -/
def Held (kinds : Nat → Call) (s : Server) : Prop :=
  ∀ w, (s.pcs w).holds (kinds w) = true → s.accountMu = some w

variable {s : Server}

variable {w : Nat} {action : WindowAction}

theorem Held.call (h : Held kinds s) (w : Nat) (ok : Bool) :
    Held kinds (s.call (kinds w) w ok) := by
  have hcall := callStep s (kinds w) w ok
  intro v hv
  by_cases hvw : v = w
  · subst hvw
    rcases hcall.lock with ⟨hmu, hholds⟩ | ⟨-, hmu⟩ | ⟨-, hdone⟩
    · exact hmu.trans (h v (hholds hv))
    · exact hmu
    · rw [hdone] at hv
      cases hv
  · rw [hcall.others v hvw] at hv
    rcases hcall.lock with ⟨hmu, -⟩ | ⟨hfree, -⟩ | ⟨hholds, -⟩
    · exact hmu.trans (h v hv)
    · cases hfree.symm.trans (h v hv)
    · exact absurd (Option.some.inj ((h v hv).symm.trans (h w hholds))) hvw

theorem loop_account (s : Server) (id : Nat) (own : LoopAction) :
    (s.loop id own).pcs = s.pcs ∧ (s.loop id own).accountMu = s.accountMu ∧
      (s.loop id own).accountGeneration = s.accountGeneration := by
  cases own <;> dsimp only [Server.loop] <;> repeat' split
  all_goals exact ⟨rfl, rfl, rfl⟩

theorem start_account (s : Server) : s.start.pcs = s.pcs ∧ s.start.accountMu = s.accountMu ∧
    s.start.accountGeneration = s.accountGeneration := by
  unfold Server.start
  split <;> exact ⟨rfl, rfl, rfl⟩

theorem Held.step (h : Held kinds s) (action : Action) : Held kinds (s.step kinds action) := by
  cases action with
  | call w ok => exact h.call w ok
  | startAgent =>
    intro w hw
    rw [Server.step, (start_account s).1] at hw
    exact (start_account s).2.1.trans (h w hw)
  | loop id own =>
    intro w hw
    rw [Server.step, (loop_account s id own).1] at hw
    exact (loop_account s id own).2.1.trans (h w hw)

theorem held_run (kinds : Nat → Call) (file : Option Nat) (actions : List WindowAction) :
    Held kinds (actions.foldl (WindowServer.step kinds) (.fresh file)).server := by
  obtain ⟨own, hown⟩ := run_server kinds (.fresh file) actions
  rw [hown]
  have hfresh : Held kinds (Server.fresh file) := fun _ h => by cases h
  exact (Runs.always_of_step (fun _ action h => h.step action) hfresh).last

/-- Whatever calls and windows do, at most one agent loop has still to clear its flag, and at
most one login or logout is past the account lock. -/
theorem one_loop_one_holder (kinds : Nat → Call) (file : Option Nat)
    (actions : List WindowAction) :
    let s := (actions.foldl (WindowServer.step kinds) (.fresh file)).server
    {id | (s.loops id).uncleared = true}.Subsingleton ∧
      {w | (s.pcs w).holds (kinds w) = true}.Subsingleton := by
  have hheld := held_run kinds file actions
  obtain ⟨own, hown⟩ := run_server kinds (.fresh file) actions
  have hloop : OneLoop (own.foldl (Server.step kinds) (.fresh file)) := (oneLoop_fresh file).run own
  refine ⟨fun id hid id' hid' => ?_, fun w hw w' hw' => ?_⟩
  · rw [hown] at hid hid'
    exact Option.some.inj ((hloop.alone id hid).2.symm.trans (hloop.alone id' hid').2)
  · exact Option.some.inj ((hheld w hw).symm.trans (hheld w' hw'))

/-- After the login has begun, only the two calls go on; the login is not cut short by its
own client and its requests succeed. -/
def Quiet (a b : Nat) : WindowAction → Prop
  | .account (.call w ok) => w = a ∨ w = b ∧ ok = true
  | .expire w => w ≠ b
  | _ => True

/-- The logout is about to call `StopAgent`, or is in it before its account change. -/
def Pc.aboutToStop : Pc → Bool
  | .closeSession | .stopBegin => true
  | _ => false

/-- The login was cancelled, or was turned away as superseded. -/
def Lost (d : WindowServer) (b : Nat) : Prop :=
  d.cancelled b = true ∨ .superseded b ∈ d.log

/-- A call that has not begun has no context to lose. -/
structure Untouched (d : WindowServer) : Prop where
  cancelled : ∀ w, d.server.pcs w = .begin → d.cancelled w = false
  account : ∀ w, d.server.pcs w = .begin → d.accountCancel ≠ some w
  superseded : ∀ w, d.server.pcs w = .begin → .superseded w ∉ d.log

/-- What the calls have to do with each other. -/
structure SameAccount (d e : WindowServer) : Prop where
  pcs : e.server.pcs = d.server.pcs
  accountMu : e.server.accountMu = d.server.accountMu
  generation : e.server.accountGeneration = d.server.accountGeneration
  accountCancel : e.accountCancel = d.accountCancel
  superseded : ∀ w, .superseded w ∈ e.log ↔ .superseded w ∈ d.log

/-- Only an end of the context of the call itself changes it, and only a call moves calls. -/
theorem sameAccount_step (kinds : Nat → Call) (d : WindowServer)
    (haction : ∀ w ok, action ≠ .account (.call w ok)) : SameAccount d (d.step kinds action) := by
  have hself : SameAccount d d := ⟨rfl, rfl, rfl, rfl, fun _ => Iff.rfl⟩
  cases action with
  | account action =>
    cases action with
    | call w ok => exact absurd rfl (haction w ok)
    | startAgent =>
      obtain ⟨hpcs, hmu, hgen⟩ := start_account d.server
      exact ⟨hpcs, hmu, hgen, rfl, fun _ => Iff.rfl⟩
    | loop id own =>
      obtain ⟨hpcs, hmu, hgen⟩ := loop_account d.server id own
      exact ⟨hpcs, hmu, hgen, rfl, fun _ => Iff.rfl⟩
  | expire w =>
    dsimp only [WindowServer.step]
    split
    · exact hself
    · exact ⟨rfl, rfl, rfl, rfl, fun _ => Iff.rfl⟩
  | stopRemote | expireWork r => exact ⟨rfl, rfl, rfl, rfl, fun _ => Iff.rfl⟩
  | window r ok =>
    have hserver := window_server d r ok
    refine ⟨by rw [WindowServer.step, hserver], by rw [WindowServer.step, hserver],
      by rw [WindowServer.step, hserver], ?_, fun w => ?_⟩
    all_goals
      dsimp only [WindowServer.step, WindowServer.window]
      repeat' split
    all_goals first | rfl | simp [WindowServer.note, WindowServer.moveWindow]
  | windowClosed generation =>
    dsimp only [WindowServer.step, WindowServer.windowClosed]
    split
    · exact hself
    · exact ⟨rfl, rfl, rfl, rfl, fun _ => Iff.rfl⟩
  | cancelTaken r =>
    dsimp only [WindowServer.step]
    split
    · exact ⟨rfl, rfl, rfl, rfl, fun _ => Iff.rfl⟩
    · exact hself

/-- A context ends only with its own call or when an account change begins. -/
theorem cancelled_step (kinds : Nat → Call) (d : WindowServer)
    (haction : ∀ w ok, action ≠ .account (.call w ok)) (w : Nat) :
    (d.step kinds action).cancelled w = d.cancelled w ∨
      action = .expire w ∧ d.server.pcs w ≠ .begin ∧ (d.step kinds action).cancelled w = true := by
  cases action with
  | account action =>
    cases action with
    | call w ok => exact absurd rfl (haction w ok)
    | startAgent | loop id own => exact .inl rfl
  | expire v =>
    dsimp only [WindowServer.step]
    split
    · exact .inl rfl
    · next hbegin =>
      by_cases hv : w = v
      · subst hv
        exact .inr ⟨rfl, hbegin, Function.update_self ..⟩
      · exact .inl (Function.update_of_ne hv ..)
  | stopRemote | expireWork r => exact .inl rfl
  | window r ok =>
    left
    dsimp only [WindowServer.step, WindowServer.window]
    repeat' split
    all_goals rfl
  | windowClosed generation =>
    left
    dsimp only [WindowServer.step, WindowServer.windowClosed]
    split <;> rfl
  | cancelTaken r =>
    left
    dsimp only [WindowServer.step]
    split <;> rfl

/-- What a call does to the contexts and to who was turned away. -/
structure CallEffect (kinds : Nat → Call) (d e : WindowServer) (w : Nat) : Prop where
  cancelled : ∀ v, e.cancelled v = (d.cancelled v ||
    (decide (d.server.pcs w = .begin ∧ kinds w ≠ .stopAgent ∨ d.server.pcs w = .stopBegin) &&
      decide (d.accountCancel = some v)))
  accountCancel : ∀ v, e.accountCancel = some v → d.accountCancel = some v ∨ v = w
  superseded : ∀ v, .superseded v ∈ e.log → .superseded v ∈ d.log ∨ v = w

theorem call_effect (kinds : Nat → Call) (d : WindowServer) (w : Nat) (ok : Bool) :
    CallEffect kinds d (d.call kinds w ok) w := by
  unfold WindowServer.call
  cases hpc : d.server.pcs w with
  | begin =>
    cases hkind : kinds w with
    | stopAgent => exact ⟨fun v => by simp [hkind, hpc], fun _ => .inl, fun _ => .inl⟩
    | login | logout =>
      refine ⟨fun v => ?_, fun v hv => .inr (Option.some.inj hv).symm, fun v hv => .inl ?_⟩
      · rw [beginAccountChange_cancelled]
        simp [hkind, hpc]
      · simpa [WindowServer.beginAccountChange, WindowServer.note] using hv
  | stopBegin =>
    refine ⟨fun v => ?_, fun v hv => (by cases hv), fun v hv => .inl ?_⟩
    · rw [beginAccountChange_cancelled]
      simp [hpc]
    · simpa [WindowServer.beginAccountChange, WindowServer.note] using hv
  | check g =>
    dsimp only
    split <;> refine ⟨fun v => by simp [hpc, WindowServer.note], fun _ => .inl, fun v hv => ?_⟩
    · exact .inl hv
    · simpa [WindowServer.note, or_comm] using hv
  | commit g =>
    dsimp only
    repeat' split
    all_goals refine ⟨fun v => by simp [hpc, WindowServer.note], fun _ => .inl, fun v hv => ?_⟩
    · simpa [WindowServer.note, or_comm] using hv
    · left
      simpa [WindowServer.note] using hv
    · exact .inl hv
  | _ => exact ⟨fun v => by simp [hpc], fun _ => .inl, fun _ => .inl⟩

theorem call_ne_begin {kind : Call} {ok : Bool} : (s.call kind w ok).pcs w ≠ .begin := by
  have hgoes := (callStep s kind w ok).goes
  generalize (s.call kind w ok).pcs w = target at hgoes ⊢
  generalize s.pcs w = source at hgoes
  cases hgoes with
  | stays hpc => exact hpc
  | checked g | waited loop => split <;> nofun
  | _ => nofun

/-- A call gets to `StopAgent` only past its check. -/
theorem call_aboutToStop {kind : Call} {ok : Bool} (hbegin : s.pcs w ≠ .begin)
    (h : ((s.call kind w ok).pcs w).aboutToStop = true) :
    (s.pcs w).aboutToStop = true ∨ ok = true ∧ ∃ g, s.pcs w = .check g := by
  have hgoes := (callStep s kind w ok).goes
  generalize (s.call kind w ok).pcs w = target at hgoes h
  generalize s.pcs w = source at hgoes hbegin ⊢
  cases hgoes with
  | stays | closes => exact .inl h
  | checked g hok => exact .inr ⟨hok, g, rfl⟩
  | begins => exact absurd rfl hbegin
  | waited loop => split at h <;> cases h
  | _ => cases h

theorem untouched_fresh (file : Option Nat) : Untouched (.fresh file) where
  cancelled := fun _ _ => rfl
  account := fun _ _ h => by cases h
  superseded := fun _ _ h => by cases h

theorem Untouched.step (h : Untouched d) (action : WindowAction) :
    Untouched (d.step kinds action) := by
  by_cases hcall : ∃ w ok, action = .account (.call w ok)
  · obtain ⟨w, ok, rfl⟩ := hcall
    have heffect := call_effect kinds d w ok
    have hother : ∀ v, (d.step kinds (.account (.call w ok))).server.pcs v = .begin →
        v ≠ w ∧ d.server.pcs v = .begin := by
      intro v hv
      rw [WindowServer.step, call_server] at hv
      have hvw : v ≠ w := by
        rintro rfl
        exact call_ne_begin hv
      rw [call_pcs_of_ne hvw] at hv
      exact ⟨hvw, hv⟩
    constructor
    · intro v hv
      obtain ⟨-, hbegin⟩ := hother v hv
      rw [WindowServer.step, heffect.cancelled v, h.cancelled v hbegin]
      simp [h.account v hbegin]
    · intro v hv haccount
      obtain ⟨hvw, hbegin⟩ := hother v hv
      rcases heffect.accountCancel v haccount with hbefore | heq
      · exact h.account v hbegin hbefore
      · exact hvw heq
    · intro v hv hlog
      obtain ⟨hvw, hbegin⟩ := hother v hv
      rcases heffect.superseded v hlog with hbefore | heq
      · exact h.superseded v hbegin hbefore
      · exact hvw heq
  · have haction : ∀ w ok, action ≠ .account (.call w ok) := fun w ok heq => hcall ⟨w, ok, heq⟩
    have hsame := sameAccount_step kinds d haction
    constructor
    · intro v hv
      rw [hsame.pcs] at hv
      rcases cancelled_step kinds d haction v with hkept | ⟨-, hbegun, -⟩
      · exact hkept.trans (h.cancelled v hv)
      · exact absurd hv hbegun
    · intro v hv
      rw [hsame.pcs] at hv
      rw [hsame.accountCancel]
      exact h.account v hv
    · intro v hv
      rw [hsame.pcs] at hv
      rw [hsame.superseded]
      exact h.superseded v hv

/-- The generation that a call compares. -/
def Pc.generation : Pc → Option UInt64
  | .lockAccount g | .check g | .loadState g | .register g | .commit g => some g
  | _ => none

/-- The logout will begin no change any more, and the login's is the latest. -/
structure Winning (a b : Nat) (d : WindowServer) : Prop where
  begun : d.server.pcs a ≠ .begin
  past : (d.server.pcs a).aboutToStop = false
  overtaken : (d.server.pcs a).pending = true → d.cancelled a = true
  live : d.cancelled b = false
  current : ∀ g, (d.server.pcs b).generation = some g → g = d.server.accountGeneration
  way : (d.server.pcs b).generation.isSome ∨ d.server.pcs b = .startAgent ∨ d.server.pcs b = .done
  kept : .superseded b ∉ d.log

/-- A call that begins no change ends no context. -/
theorem CallEffect.quiet {e : WindowServer} (h : CallEffect kinds d e w)
    (hbegin : d.server.pcs w ≠ .begin) (hstop : d.server.pcs w ≠ .stopBegin) (v : Nat) :
    e.cancelled v = d.cancelled v := by
  rw [h.cancelled v]
  simp [hbegin, hstop]

theorem Winning.logout (h : Winning a b d) (hne : a ≠ b) (ok : Bool) :
    Winning a b (d.call kinds a ok) := by
  have hstop : d.server.pcs a ≠ .stopBegin := by
    intro hpc
    have hpast := h.past
    rw [hpc] at hpast
    cases hpast
  have heffect := call_effect kinds d a ok
  have hcancelled := heffect.quiet h.begun hstop
  have hpcs : (d.call kinds a ok).server.pcs b = d.server.pcs b := by
    rw [call_server, call_pcs_of_ne (Ne.symm hne)]
  have hgeneration : (d.call kinds a ok).server.accountGeneration = d.server.accountGeneration := by
    rw [call_server, call_accountGeneration (.inl h.begun) hstop]
  refine ⟨by rw [call_server]; exact call_ne_begin, ?_, ?_, ?_, ?_, by rw [hpcs]; exact h.way, ?_⟩
  · rw [call_server]
    by_contra hlate
    rcases call_aboutToStop h.begun (Bool.not_eq_false _ ▸ hlate) with hbefore | ⟨hok, g, hpc⟩
    · cases h.past.symm.trans hbefore
    · -- the check has seen the end of the context
      have hended := h.overtaken (by rw [hpc]; rfl)
      rw [WindowServer.answer, hpc, hended] at hok
      cases hok
  · intro hpending
    rw [hcancelled]
    rw [call_server] at hpending
    exact h.overtaken (call_pending (.inl h.begun) hpending)
  · rw [hcancelled]
    exact h.live
  · rw [hpcs, hgeneration]
    exact h.current
  · intro hlog
    rcases heffect.superseded b hlog with hbefore | heq
    · exact h.kept hbefore
    · exact hne heq.symm

/-- A login whose change is the latest and whose context is live is never turned away. -/
theorem Winning.login (h : Winning a b d) (hne : a ≠ b) (hkind : kinds b = .login) :
    Winning a b (d.call kinds b true) := by
  have hbegin : d.server.pcs b ≠ .begin := by
    intro hpc
    rcases h.way with hway | hway | hway <;> (rw [hpc] at hway; cases hway)
  have hstop : d.server.pcs b ≠ .stopBegin := by
    intro hpc
    rcases h.way with hway | hway | hway <;> (rw [hpc] at hway; cases hway)
  have hcancelled := (call_effect kinds d b true).quiet hbegin hstop
  have hpcs : (d.call kinds b true).server.pcs a = d.server.pcs a := by
    rw [call_server, call_pcs_of_ne hne]
  have hgeneration : (d.call kinds b true).server.accountGeneration =
      d.server.accountGeneration := by
    rw [call_server, call_accountGeneration (.inl hbegin) hstop]
  have hnext : (∀ g, ((d.call kinds b true).server.pcs b).generation = some g →
      (d.server.pcs b).generation = some g) ∧
      (((d.call kinds b true).server.pcs b).generation.isSome ∨
        (d.call kinds b true).server.pcs b = .startAgent ∨
        (d.call kinds b true).server.pcs b = .done) ∧
      .superseded b ∉ (d.call kinds b true).log := by
    have hkept := h.kept
    rw [call_server, hkind]
    cases hpc : d.server.pcs b with
    | lockAccount g =>
      cases hmu : d.server.accountMu <;>
        simp [Server.call, WindowServer.call, hpc, hmu, moveTo_pcs_self, Pc.generation, hkept]
    | check g =>
      have hcurrent : g = d.server.accountGeneration := h.current g (by rw [hpc]; rfl)
      simp [Server.call, WindowServer.call, WindowServer.answer, WindowServer.current, hpc, h.live,
        ← hcurrent, moveTo_pcs_self, Pc.generation, hkept]
    | loadState g =>
      cases hfile : d.server.file <;>
        simp [Server.call, WindowServer.call, hpc, hfile, moveTo_pcs_self, leave_pcs_self,
          Pc.generation, hkept]
    | register g =>
      simp [Server.call, WindowServer.call, WindowServer.answer, hpc, moveTo_pcs_self,
        Pc.generation, hkept]
    | commit g =>
      have hcurrent : g = d.server.accountGeneration := h.current g (by rw [hpc]; rfl)
      simp [Server.call, WindowServer.call, WindowServer.answer, WindowServer.current,
        WindowServer.note, hpc, h.live, ← hcurrent, moveTo_pcs_self, Pc.generation, hkept]
    | startAgent =>
      simp [Server.call, WindowServer.call, hpc, leave_pcs_self, Pc.generation, hkept]
    | done => simp [Server.call, WindowServer.call, hpc, Pc.generation, hkept]
    | begin => exact absurd hpc hbegin
    | stopBegin => exact absurd hpc hstop
    | _ => rcases h.way with hway | hway | hway <;> (rw [hpc] at hway; cases hway)
  refine ⟨by rw [hpcs]; exact h.begun, by rw [hpcs]; exact h.past, ?_, ?_, ?_, hnext.2.1,
    hnext.2.2⟩
  · rw [hpcs, hcancelled]
    exact h.overtaken
  · rw [hcancelled]
    exact h.live
  · intro g hg
    rw [hgeneration]
    exact h.current g (hnext.1 g hg)

theorem Winning.step (h : Winning a b d) (hne : a ≠ b) (hkind : kinds b = .login)
    (hquiet : Quiet a b action) : Winning a b (d.step kinds action) := by
  by_cases hcall : ∃ w ok, action = .account (.call w ok)
  · obtain ⟨w, ok, rfl⟩ := hcall
    rcases hquiet with rfl | ⟨rfl, rfl⟩
    · exact h.logout hne ok
    · exact h.login hne hkind
  · have haction : ∀ w ok, action ≠ .account (.call w ok) := fun w ok heq => hcall ⟨w, ok, heq⟩
    have hsame := sameAccount_step kinds d haction
    refine ⟨by rw [hsame.pcs]; exact h.begun, by rw [hsame.pcs]; exact h.past, ?_, ?_, ?_,
      by rw [hsame.pcs]; exact h.way, by rw [hsame.superseded]; exact h.kept⟩
    · intro hpending
      rw [hsame.pcs] at hpending
      rcases cancelled_step kinds d haction a with hkept | ⟨-, -, hended⟩
      · exact hkept.trans (h.overtaken hpending)
      · exact hended
    · rcases cancelled_step kinds d haction b with hkept | ⟨heq, -, -⟩
      · exact hkept.trans h.live
      · rw [heq] at hquiet
        exact absurd rfl hquiet
    · rw [hsame.pcs, hsame.generation]
      exact h.current

/-- The logout is about to begin its second change while the login waits for it. -/
structure Waiting (a b : Nat) (d : WindowServer) : Prop where
  about : (d.server.pcs a).aboutToStop = true
  holds : d.server.accountMu = some a
  waits : ∃ g, d.server.pcs b = .lockAccount g
  account : d.accountCancel = some b

theorem cancelled_of_cancelled (action : WindowAction) (h : d.cancelled b = true) :
    (d.step kinds action).cancelled b = true := by
  by_cases hcall : ∃ w ok, action = .account (.call w ok)
  · obtain ⟨w, ok, rfl⟩ := hcall
    rw [WindowServer.step, (call_effect kinds d w ok).cancelled b, h]
    rfl
  · rcases cancelled_step kinds d (fun w ok heq => hcall ⟨w, ok, heq⟩) b with hkept | ⟨-, -, hended⟩
    · exact hkept.trans h
    · exact hended

theorem Waiting.step (h : Waiting a b d) (hne : a ≠ b) (hquiet : Quiet a b action) :
    Waiting a b (d.step kinds action) ∨ (d.step kinds action).cancelled b = true := by
  obtain ⟨g, hwaits⟩ := h.waits
  by_cases hcall : ∃ w ok, action = .account (.call w ok)
  · obtain ⟨w, ok, rfl⟩ := hcall
    rcases hquiet with rfl | ⟨rfl, rfl⟩
    · have habout := h.about
      cases hpc : d.server.pcs w with
      | closeSession =>
        left
        refine ⟨?_, ?_, ⟨g, ?_⟩, ?_⟩
        · simp [WindowServer.step, call_server, Server.call, hpc, moveTo_pcs_self, Pc.aboutToStop]
        · simp [WindowServer.step, call_server, Server.call, hpc, Server.moveTo, h.holds]
        · rw [WindowServer.step, call_server, call_pcs_of_ne (Ne.symm hne), hwaits]
        · simp [WindowServer.step, WindowServer.call, hpc, h.account]
      | stopBegin =>
        right
        rw [WindowServer.step, (call_effect kinds d w ok).cancelled b]
        simp [hpc, h.account]
      | _ => rw [hpc] at habout; cases habout
    · -- the lock is taken
      left
      have hstay : d.step kinds (.account (.call w true)) = d := by
        simp [WindowServer.step, WindowServer.call, Server.call, hwaits, h.holds]
      rw [hstay]
      exact h
  · have hsame := sameAccount_step kinds d (fun w ok heq => hcall ⟨w, ok, heq⟩)
    left
    exact ⟨by rw [hsame.pcs]; exact h.about, by rw [hsame.accountMu]; exact h.holds,
      ⟨g, by rw [hsame.pcs]; exact hwaits⟩, by rw [hsame.accountCancel]; exact h.account⟩

section Begin

variable (hnew : d.server.pcs b = .begin) (hkind : kinds b = .login)
include hnew hkind

theorem begin_login : d.step kinds (.account (.call b true)) =
    { d with
      server := ({ d.server with accountGeneration := d.server.accountGeneration + 1 }.moveTo b
        (.lockAccount (d.server.accountGeneration + 1))) }.beginAccountChange b (some b) := by
  simp [WindowServer.step, WindowServer.call, Server.call, hnew, hkind]

theorem Winning.begin (hguarded : Guarded d) (huntouched : Untouched d) (hne : a ≠ b)
    (hbegun : d.server.pcs a ≠ .begin) (hpast : (d.server.pcs a).aboutToStop = false) :
    Winning a b (d.step kinds (.account (.call b true))) := by
  rw [begin_login hnew hkind]
  have hpcs : ∀ t : Server, (t.moveTo b (.lockAccount (d.server.accountGeneration + 1))).pcs a =
      t.pcs a := fun t => moveTo_pcs_of_ne t _ hne
  refine ⟨?_, ?_, ?_, ?_, ?_, ?_, ?_⟩
  · rw [beginAccountChange_server, hpcs]
    exact hbegun
  · rw [beginAccountChange_server, hpcs]
    exact hpast
  · intro hpending
    rw [beginAccountChange_server, hpcs] at hpending
    rw [beginAccountChange_cancelled]
    rcases hguarded.pending a hpending with hcancelled | ⟨haccount, -⟩
    · simp [hcancelled]
    · simp [haccount]
  · rw [beginAccountChange_cancelled]
    simp [huntouched.cancelled b hnew, huntouched.account b hnew]
  · intro g hg
    rw [beginAccountChange_server, moveTo_pcs_self] at hg
    exact (Option.some.inj hg).symm
  · rw [beginAccountChange_server, moveTo_pcs_self]
    exact .inl rfl
  · simpa [WindowServer.beginAccountChange, WindowServer.note] using huntouched.superseded b hnew

theorem Waiting.begin (hheld : Held kinds d.server) (hlogout : kinds a = .logout) (hne : a ≠ b)
    (habout : (d.server.pcs a).aboutToStop = true) :
    Waiting a b (d.step kinds (.account (.call b true))) := by
  have hholds : (d.server.pcs a).holds (kinds a) = true := by
    rw [hlogout]
    cases hpc : d.server.pcs a with
    | closeSession | stopBegin => rfl
    | _ => rw [hpc] at habout; cases habout
  rw [begin_login hnew hkind]
  refine ⟨?_, hheld a hholds, ⟨_, moveTo_pcs_self ..⟩, rfl⟩
  rw [beginAccountChange_server, moveTo_pcs_of_ne _ _ hne]
  exact habout

end Begin

theorem Winning.run {actions : List WindowAction} (h : Winning a b d) (hne : a ≠ b)
    (hkind : kinds b = .login) (hquiet : ∀ action ∈ actions, Quiet a b action) :
    Winning a b (actions.foldl (WindowServer.step kinds) d) := by
  induction actions generalizing d with
  | nil => exact h
  | cons action rest ih =>
    obtain ⟨hfirst, hrest⟩ := List.forall_mem_cons.mp hquiet
    exact ih (h.step hne hkind hfirst) hrest

theorem Waiting.run {actions : List WindowAction} (h : Waiting a b d ∨ d.cancelled b = true)
    (hne : a ≠ b) (hquiet : ∀ action ∈ actions, Quiet a b action) :
    let e := actions.foldl (WindowServer.step kinds) d
    Waiting a b e ∨ e.cancelled b = true := by
  induction actions generalizing d with
  | nil => exact h
  | cons action rest ih =>
    obtain ⟨hfirst, hrest⟩ := List.forall_mem_cons.mp hquiet
    refine ih ?_ hrest
    rcases h with hwaiting | hcancelled
    · exact hwaiting.step hne hfirst
    · exact .inr (cancelled_of_cancelled action hcancelled)

/-- A login that begins after a logout is cancelled or turned away by it exactly if the
logout, when the login began, had passed its check and had still to begin the change of
its `StopAgent`. -/
theorem newer_login_kept_iff (kinds : Nat → Call) (file : Option Nat) (a b : Nat)
    (before after : List WindowAction) (hlogout : kinds a = .logout) (hlogin : kinds b = .login)
    (hbegun : (before.foldl (WindowServer.step kinds) (.fresh file)).server.pcs a ≠ .begin)
    (hnew : (before.foldl (WindowServer.step kinds) (.fresh file)).server.pcs b = .begin)
    (hquiet : ∀ action ∈ after, Quiet a b action) :
    let d := before.foldl (WindowServer.step kinds) (.fresh file)
    let e := after.foldl (WindowServer.step kinds) (d.step kinds (.account (.call b true)))
    ((d.server.pcs a).aboutToStop = false → ¬ Lost e b) ∧
      (e.server.pcs b = .done → (¬ Lost e b ↔ (d.server.pcs a).aboutToStop = false)) := by
  intro d e
  have hne : a ≠ b := by
    rintro rfl
    cases hlogout.symm.trans hlogin
  have hwins : (d.server.pcs a).aboutToStop = false → ¬ Lost e b := by
    intro hpast
    have huntouched : Untouched d :=
      (Runs.always_of_step (fun _ action h => h.step action) (untouched_fresh file)).last
    have hwinning : Winning a b e := (Winning.begin hnew hlogin ((guarded_fresh file).run before)
      huntouched hne hbegun hpast).run hne hlogin hquiet
    rintro (hcancelled | hlog)
    · cases hwinning.live.symm.trans hcancelled
    · exact hwinning.kept hlog
  refine ⟨hwins, fun hdone => ⟨fun hkept => ?_, hwins⟩⟩
  cases habout : (d.server.pcs a).aboutToStop with
  | false => rfl
  | true =>
    have hwaiting := Waiting.begin hnew hlogin (held_run kinds file before) hlogout hne habout
    rcases @Waiting.run kinds _ a b after (.inl hwaiting) hne hquiet with hstill | hcancelled
    · obtain ⟨g, hwaits⟩ := hstill.waits
      cases hdone.symm.trans hwaits
    · exact absurd (.inl hcancelled) hkept

/-- The login begins while the logout still waits for the lock: the logout is turned away
and the login commits. -/
theorem login_before_check_is_kept :
    let d := [WindowAction.account (.call 0 true)].foldl (WindowServer.step logoutThenLogin)
      (.fresh none)
    let after := [WindowAction.account (.call 0 true), .account (.call 0 true)] ++
      List.replicate 6 (.account (.call 1 true))
    let e := after.foldl (WindowServer.step logoutThenLogin)
      (d.step logoutThenLogin (.account (.call 1 true)))
    e.server.pcs 1 = .done ∧ e.server.file = some 1 ∧ ¬ Lost e 1 := by
  refine ⟨by decide +kernel, by decide +kernel, ?_⟩
  refine (newer_login_kept_iff logoutThenLogin none 0 1 [.account (.call 0 true)]
    ([.account (.call 0 true), .account (.call 0 true)] ++
      List.replicate 6 (.account (.call 1 true))) rfl rfl (by decide +kernel) (by decide +kernel)
    ?_).1 (by decide +kernel)
  intro action haction
  simp only [List.mem_append, List.mem_cons, List.not_mem_nil, or_false, or_self,
    List.mem_replicate] at haction
  rcases haction with rfl | ⟨-, rfl⟩
  · exact .inl rfl
  · exact .inr ⟨rfl, rfl⟩

/-- The logout has passed its check when the login begins; its `StopAgent` ends the
context of the login, which is then turned away, and the logout goes on to remove the
state file. -/
theorem login_during_logout_is_lost :
    let d := (List.replicate 3 (WindowAction.account (.call 0 true))).foldl
      (WindowServer.step logoutThenLogin) (.fresh none)
    let e := (List.replicate 5 (WindowAction.account (.call 0 true)) ++
      List.replicate 2 (WindowAction.account (.call 1 true))).foldl
      (WindowServer.step logoutThenLogin)
        (d.step logoutThenLogin (.account (.call 1 true)))
    d.server.pcs 0 = .closeSession ∧ d.server.pcs 1 = .begin ∧ e.server.pcs 0 = .done ∧
      e.server.pcs 1 = .done ∧ e.cancelled 1 = true ∧ Event.superseded 1 ∈ e.log := by
  decide +kernel

end HomeTunnel.Gui
