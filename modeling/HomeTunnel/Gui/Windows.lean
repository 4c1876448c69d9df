import HomeTunnel.Gui.Restart

/-! # Account changes and remote windows

The server of `Accounts` with what a change of the account and a request for a remote
window share: the context of the running account call, the flag that blocks remote
windows and the generation that a request compares before it opens one. Sections under
`remoteMu`, `accountMu`, `mu` and `remoteSessionMu` are single steps; a cancel function
that was taken out under a lock is called later, and `stopRemote` and the
`CloseRemoteSession` of an account change may come at any time. The log keeps what the
account calls and window requests did, the newest first.
-/

namespace HomeTunnel.Gui

/-- Where a request for a remote window stands, with the account generation it has seen
and the generation of its own. -/
inductive WindowPc
  | start
  | snapshot
  | register (account : UInt64)
  | prepare (account generation : UInt64)
  | launch (account generation : UInt64)
  | done
deriving DecidableEq, Repr

inductive Event
  | began (w : Nat)
  | superseded (w : Nat)
  | saved (w : Nat)
  | started (r : Nat)
  | snapshot (r : Nat)
  | opened (r : Nat)
deriving DecidableEq, Repr

structure WindowServer where
  server : Server
  -- the call whose `cancel` is kept for the next account change
  accountCancel : Option Nat
  -- whether the context of a login or logout has ended
  cancelled : Nat → Bool
  remoteBlocked : Bool
  remoteGeneration : UInt64
  remoteSession : Option Nat
  remoteSessionGeneration : UInt64
  remoteSessionCancel : Option Nat
  -- whether the `work` context of a request has ended
  workCancelled : Nat → Bool
  -- the requests whose `cancel` has been taken out and has still to be called
  taken : List Nat
  windows : Nat → WindowPc
  log : List Event

inductive WindowAction
  | account (action : Action)
  -- a login's or logout's context times out, or its client goes away
  | expire (w : Nat)
  | stopRemote
  | window (r : Nat) (ok : Bool)
  | windowClosed (generation : UInt64)
  | cancelTaken (r : Nat)
  | expireWork (r : Nat)
deriving DecidableEq, Repr

namespace WindowServer

def note (d : WindowServer) (event : Event) : WindowServer := { d with log := event :: d.log }

def moveWindow (d : WindowServer) (r : Nat) (pc : WindowPc) : WindowServer :=
  { d with windows := Function.update d.windows r pc }

/-- The section of `beginAccountChange` under `remoteMu`; `Server.call` counts the
generation. -/
def beginAccountChange (d : WindowServer) (w : Nat) (cancel : Option Nat) : WindowServer :=
  { d with
    cancelled := match d.accountCancel with
      | none => d.cancelled
      | some v => Function.update d.cancelled v true
    accountCancel := cancel
    remoteBlocked := true }.note (.began w)

/-- The context of the call is live and its generation is the present one. -/
def current (d : WindowServer) (w : Nat) (generation : UInt64) : Bool :=
  !d.cancelled w && generation = d.server.accountGeneration

/-- `currentAccountChange` and `commitEnrollment` look at the context of the call; what
else can fail is in `ok`. -/
def answer (d : WindowServer) (w : Nat) (ok : Bool) : Bool :=
  match d.server.pcs w with
  | .check _ => !d.cancelled w
  | .commit _ => !d.cancelled w && ok
  | _ => ok

def call (kinds : Nat → Call) (d : WindowServer) (w : Nat) (ok : Bool) : WindowServer :=
  let moved := { d with server := d.server.call (kinds w) w (d.answer w ok) }
  match d.server.pcs w with
  | .begin =>
    match kinds w with
    | .stopAgent => moved
    | .login | .logout => moved.beginAccountChange w (some w)
  | .stopBegin => moved.beginAccountChange w none
  | .check g => if d.current w g then moved else moved.note (.superseded w)
  | .commit g =>
    if !d.current w g then moved.note (.superseded w)
    else if ok then { moved with remoteBlocked := false }.note (.saved w)
    else moved
  | _ => moved

def window (d : WindowServer) (r : Nat) (ok : Bool) : WindowServer :=
  match d.windows r with
  | .start =>
    (d.note (.started r)).moveWindow r (if ok then .snapshot else .done)
  | .snapshot =>
    if d.remoteBlocked then d.moveWindow r .done
    else (d.note (.snapshot r)).moveWindow r (.register d.server.accountGeneration)
  | .register a =>
    { d with
      remoteGeneration := d.remoteGeneration + 1
      remoteSessionCancel := some r
      taken := d.remoteSessionCancel.toList ++ d.taken }.moveWindow r
        (.prepare a (d.remoteGeneration + 1))
  | .prepare a g => d.moveWindow r (if ok then .launch a g else .done)
  | .launch a g =>
    if d.workCancelled r || g ≠ d.remoteGeneration || d.remoteBlocked
        || a ≠ d.server.accountGeneration then
      d.moveWindow r .done
    else if ok then
      { d with
        remoteSession := some r
        remoteSessionGeneration := g }.note (.opened r) |>.moveWindow r .done
    else (d.note (.opened r)).moveWindow r .done
  | .done => d

/-- `RemoteWindowClosed`; `CloseRemoteSession` passes the generation 0. -/
def windowClosed (d : WindowServer) (generation : UInt64) : WindowServer :=
  if generation ≠ 0 && generation ≠ d.remoteSessionGeneration then d
  else
    { d with
      remoteGeneration := d.remoteGeneration + 1
      remoteSession := none
      remoteSessionCancel := none
      taken := d.remoteSessionCancel.toList ++ d.taken }

def step (kinds : Nat → Call) (d : WindowServer) : WindowAction → WindowServer
  | .account (.call w ok) => d.call kinds w ok
  | .account action => { d with server := d.server.step kinds action }
  | .expire w =>
    if d.server.pcs w = .begin then d
    else { d with cancelled := Function.update d.cancelled w true }
  | .stopRemote => { d with remoteBlocked := true }
  | .window r ok => d.window r ok
  | .windowClosed generation => d.windowClosed generation
  | .cancelTaken r =>
    if r ∈ d.taken then
      { d with
        taken := d.taken.erase r
        workCancelled := Function.update d.workCancelled r true }
    else d
  | .expireWork r => { d with workCancelled := Function.update d.workCancelled r true }

/-- A server before any call. -/
def fresh (file : Option Nat) : WindowServer where
  server := .fresh file
  accountCancel := none
  cancelled := fun _ => false
  remoteBlocked := false
  remoteGeneration := 0
  remoteSession := none
  remoteSessionGeneration := 0
  remoteSessionCancel := none
  workCancelled := fun _ => false
  taken := []
  windows := fun _ => .start
  log := []

end WindowServer

/-! ## The account part is the server of `Accounts` -/

variable {kinds : Nat → Call} {d : WindowServer}

theorem beginAccountChange_server (d : WindowServer) (w : Nat) (cancel : Option Nat) :
    (d.beginAccountChange w cancel).server = d.server :=
  rfl

theorem call_server (kinds : Nat → Call) (d : WindowServer) (w : Nat) (ok : Bool) :
    (d.call kinds w ok).server = d.server.call (kinds w) w (d.answer w ok) := by
  unfold WindowServer.call
  cases hpc : d.server.pcs w with
  | begin => cases kinds w <;> rfl
  | check g => dsimp only; split <;> rfl
  | commit g =>
    dsimp only
    split
    · rfl
    · split <;> rfl
  | _ => rfl

theorem window_server (d : WindowServer) (r : Nat) (ok : Bool) :
    (d.window r ok).server = d.server := by
  unfold WindowServer.window
  cases hpc : d.windows r with
  | snapshot => dsimp only; split <;> rfl
  | launch a g =>
    dsimp only
    split
    · rfl
    · split <;> rfl
  | _ => rfl

/-- Every step is a step of the server or leaves it alone. -/
theorem step_server (kinds : Nat → Call) (d : WindowServer) (action : WindowAction) :
    (d.step kinds action).server = d.server ∨
      ∃ own, (d.step kinds action).server = d.server.step kinds own := by
  cases action with
  | account action =>
    right
    cases action with
    | call w ok => exact ⟨.call w (d.answer w ok), call_server kinds d w ok⟩
    | startAgent => exact ⟨.startAgent, rfl⟩
    | loop id own => exact ⟨.loop id own, rfl⟩
  | expire w | cancelTaken r => dsimp only [WindowServer.step]; split <;> exact .inl rfl
  | stopRemote | expireWork r => exact .inl rfl
  | window r ok => exact .inl (window_server d r ok)
  | windowClosed generation =>
    dsimp only [WindowServer.step, WindowServer.windowClosed]
    split <;> exact .inl rfl

/-- A run with windows is a run of the server. -/
theorem run_server (kinds : Nat → Call) (d : WindowServer) (actions : List WindowAction) :
    ∃ own : List Action, (actions.foldl (WindowServer.step kinds) d).server =
      own.foldl (Server.step kinds) d.server := by
  induction actions generalizing d with
  | nil => exact ⟨[], rfl⟩
  | cons action rest ih =>
    obtain ⟨own, hown⟩ := ih (d.step kinds action)
    rcases step_server kinds d action with hsame | ⟨first, hfirst⟩
    · exact ⟨own, by rw [List.foldl_cons, hown, hsame]⟩
    · exact ⟨first :: own, by rw [List.foldl_cons, hown, hfirst, List.foldl_cons]⟩

/-- The call whose `beginAccountChange` was the latest. -/
def lastBegan : List Event → Option Nat
  | [] => none
  | .began w :: _ => some w
  | _ :: before => lastBegan before

/-- A `beginAccountChange` has run and no enrollment has been committed since. -/
def changing : List Event → Bool
  | [] => false
  | .began _ :: _ => true
  | .saved _ :: _ => false
  | _ :: before => changing before

def Event.isBegan : Event → Bool
  | .began _ => true
  | _ => false

/-- How often `beginAccountChange` has run since the event. -/
def begunSince (event : Event) (log : List Event) : Nat :=
  (log.takeWhile (· ≠ event)).countP Event.isBegan

theorem begunSince_cons_self (event : Event) (log : List Event) :
    begunSince event (event :: log) = 0 := by
  simp [begunSince]

variable {event : Event} {w : Nat} {s : Server} {kind : Call} {ok : Bool} {a : UInt64}

theorem begunSince_cons_of_ne {other : Event} (h : other ≠ event) (log : List Event) :
    begunSince event (other :: log) = begunSince event log + if other.isBegan then 1 else 0 := by
  simp [begunSince, h, List.countP_cons]

/-- A login saves its credentials only while its own change is the latest. The callback of
a request is called only when no change is under way and none has begun since the request
took its snapshot; the generation that it compares repeats after 2^64 changes. -/
def Allowed (before : List Event) : Event → Prop
  | .saved w => lastBegan before = some w
  | .opened r => changing before = false ∧ .snapshot r ∈ before ∧
      (begunSince (.snapshot r) before < 2 ^ 64 → begunSince (.snapshot r) before = 0)
  | _ => True

/-- Every event was allowed when it was noted. -/
def Lawful : List Event → Prop
  | [] => True
  | event :: before => Allowed before event ∧ Lawful before

theorem Lawful.allowed {log later before : List Event} (h : Lawful log)
    (hlog : log = later ++ event :: before) : Allowed before event := by
  subst hlog
  induction later with
  | nil => exact h.1
  | cons _ _ ih => exact ih h.2

/-- A login or logout that has begun and has not yet been found current, or a login that
has not committed. -/
def Pc.pending : Pc → Bool
  | .lockAccount _ | .check _ | .loadState _ | .register _ | .commit _ => true
  | _ => false

/-- The account generation that a request will compare. -/
def WindowPc.account : WindowPc → Option UInt64
  | .register a | .prepare a _ | .launch a _ => some a
  | .start | .snapshot | .done => none

structure Guarded (d : WindowServer) : Prop where
  lawful : Lawful d.log
  blocked : changing d.log = true → d.remoteBlocked = true
  pending : ∀ w, (d.server.pcs w).pending = true → d.cancelled w = true ∨
    d.accountCancel = some w ∧ lastBegan d.log = some w
  snapshot : ∀ r a, (d.windows r).account = some a → .snapshot r ∈ d.log ∧
    d.server.accountGeneration = a + UInt64.ofNat (begunSince (.snapshot r) d.log)

theorem guarded_fresh (file : Option Nat) : Guarded (.fresh file) where
  lawful := trivial
  blocked := fun h => by cases h
  pending := fun _ h => by cases h
  snapshot := fun _ _ h => by cases h

theorem lastBegan_cons (h : event.isBegan = false) (log : List Event) :
    lastBegan (event :: log) = lastBegan log := by
  cases event with
  | began w => cases h
  | _ => rfl

theorem beginAccountChange_cancelled (d : WindowServer) (v w : Nat) (cancel : Option Nat) :
    (d.beginAccountChange w cancel).cancelled v = (d.cancelled v || d.accountCancel = some v) := by
  dsimp only [WindowServer.beginAccountChange, WindowServer.note]
  cases d.accountCancel with
  | none => simp
  | some u =>
    by_cases hu : v = u
    · simp [hu]
    · simp [hu, Ne.symm hu]

theorem Guarded.frame {e : WindowServer} (h : Guarded d)
    (hwindows : ∀ r a, (e.windows r).account = some a → (d.windows r).account = some a := by
      exact fun _ _ => id)
    (hpending : ∀ w, (e.server.pcs w).pending = true → (d.server.pcs w).pending = true := by
      exact fun _ => id)
    (hgeneration : e.server.accountGeneration = d.server.accountGeneration := by rfl)
    (hcancelled : ∀ w, d.cancelled w = true → e.cancelled w = true := by exact fun _ => id)
    (hblocked : d.remoteBlocked = true → e.remoteBlocked = true := by exact id)
    (hlog : e.log = d.log := by rfl) (haccount : e.accountCancel = d.accountCancel := by rfl) :
    Guarded e := by
  constructor
  · rw [hlog]
    exact h.lawful
  · rw [hlog]
    exact fun hchanging => hblocked (h.blocked hchanging)
  · intro w hw
    rw [hlog, haccount]
    exact (h.pending w (hpending w hw)).imp (hcancelled w) id
  · intro r a hr
    rw [hlog, hgeneration]
    exact h.snapshot r a (hwindows r a hr)

theorem Guarded.noted {e : WindowServer} (h : Guarded d) (hlog : e.log = event :: d.log)
    (hallowed : Allowed d.log event) (hblocked : changing e.log = true → e.remoteBlocked = true)
    (hwindows : ∀ r a, (e.windows r).account = some a →
      (d.windows r).account = some a ∧ event ≠ .snapshot r ∨
        event = .snapshot r ∧ a = d.server.accountGeneration)
    (hpending : ∀ w, (e.server.pcs w).pending = true → (d.server.pcs w).pending = true := by
      exact fun _ => id)
    (hgeneration : e.server.accountGeneration = d.server.accountGeneration := by rfl)
    (hcancelled : e.cancelled = d.cancelled := by rfl)
    (haccount : e.accountCancel = d.accountCancel := by rfl)
    (hevent : event.isBegan = false := by rfl) : Guarded e := by
  refine ⟨by rw [hlog]; exact ⟨hallowed, h.lawful⟩, hblocked, ?_, ?_⟩
  · intro w hw
    rw [hlog, lastBegan_cons hevent, hcancelled, haccount]
    exact h.pending w (hpending w hw)
  · intro r a hr
    rw [hlog, hgeneration]
    rcases hwindows r a hr with ⟨hbefore, hne⟩ | ⟨heq, ha⟩
    · obtain ⟨hmem, hgen⟩ := h.snapshot r a hbefore
      rw [begunSince_cons_of_ne hne, hevent]
      exact ⟨List.mem_cons_of_mem _ hmem, hgen⟩
    · rw [heq, begunSince_cons_self, ha]
      exact ⟨List.mem_cons_self, (UInt64.add_zero _).symm⟩

/-- A change begins: whoever was waiting has lost its context, and every request that took
a snapshot is one generation behind. -/
theorem Guarded.began {server : Server} (h : Guarded d) {cancel : Option Nat}
    (hgeneration : server.accountGeneration = d.server.accountGeneration + 1)
    (hpending : ∀ v, (server.pcs v).pending = true →
      (d.server.pcs v).pending = true ∧ v ≠ w ∨ v = w ∧ cancel = some w) :
    Guarded ({ d with server := server }.beginAccountChange w cancel) := by
  refine ⟨⟨trivial, h.lawful⟩, fun _ => rfl, ?_, ?_⟩
  · intro v hv
    rcases hpending v hv with ⟨hbefore, hne⟩ | ⟨rfl, hcancel⟩
    · left
      rw [beginAccountChange_cancelled]
      rcases h.pending v hbefore with hcancelled | ⟨haccount, -⟩
      · simp [hcancelled]
      · simp [haccount]
    · exact .inr ⟨hcancel, rfl⟩
  · intro r a hr
    obtain ⟨hmem, hgen⟩ := h.snapshot r a hr
    refine ⟨List.mem_cons_of_mem _ hmem, ?_⟩
    show server.accountGeneration = _
    rw [hgeneration, hgen]
    dsimp only [WindowServer.beginAccountChange, WindowServer.note]
    rw [begunSince_cons_of_ne (by simp)]
    simp [Event.isBegan, UInt64.add_assoc]

theorem call_pcs_of_ne {v : Nat} (h : v ≠ w) : (s.call kind w ok).pcs v = s.pcs v :=
  (callStep s kind w ok).others v h

/-- A call counts the generation only where it begins a change. -/
theorem call_accountGeneration (hbegin : s.pcs w ≠ .begin ∨ kind = .stopAgent)
    (hstop : s.pcs w ≠ .stopBegin) :
    (s.call kind w ok).accountGeneration = s.accountGeneration := by
  rcases (callStep s kind w ok).generation with hsame | ⟨hpc, hkind⟩ | hpc
  · exact hsame
  · exact absurd (hbegin.resolve_left (not_not.mpr hpc)) hkind
  · exact absurd hpc hstop

theorem call_pending (hbegin : s.pcs w ≠ .begin ∨ kind = .stopAgent)
    (h : ((s.call kind w ok).pcs w).pending = true) : (s.pcs w).pending = true := by
  have hgoes := (callStep s kind w ok).goes
  generalize (s.call kind w ok).pcs w = target at hgoes h
  generalize s.pcs w = source at hgoes hbegin ⊢
  cases hgoes with
  | stays => exact h
  | locks g | checked g | loaded g | registered g => rfl
  | changes hkind g => exact absurd (hbegin.resolve_left (not_not.mpr rfl)) hkind
  | waited loop => split at h <;> cases h
  | _ => cases h

/-- The pending calls after a step of the call `w` that begins no change. -/
theorem call_pending_all (hbegin : s.pcs w ≠ .begin ∨ kind = .stopAgent) (v : Nat)
    (h : ((s.call kind w ok).pcs v).pending = true) : (s.pcs v).pending = true := by
  by_cases hv : v = w
  · subst hv
    exact call_pending hbegin h
  · rwa [call_pcs_of_ne hv] at h

theorem Guarded.call (h : Guarded d) (w : Nat) (ok : Bool) : Guarded (d.call kinds w ok) := by
  have hquiet (hbegin : d.server.pcs w ≠ .begin ∨ kinds w = .stopAgent)
      (hstop : d.server.pcs w ≠ .stopBegin) :
      Guarded { d with server := d.server.call (kinds w) w (d.answer w ok) } :=
    h.frame (fun _ _ => id) (call_pending_all hbegin) (call_accountGeneration hbegin hstop)
  have hsuperseded (hbegin : d.server.pcs w ≠ .begin) (hstop : d.server.pcs w ≠ .stopBegin) :
      Guarded ({ d with server := d.server.call (kinds w) w (d.answer w ok) }.note
        (.superseded w)) :=
    h.noted rfl trivial h.blocked (fun _ _ hr => .inl ⟨hr, by simp⟩)
      (call_pending_all (.inl hbegin)) (call_accountGeneration (.inl hbegin) hstop)
  unfold WindowServer.call
  cases hpc : d.server.pcs w with
  | begin =>
    cases hkind : kinds w with
    | stopAgent =>
      have hserver := hquiet (.inr hkind) (by simp [hpc])
      rwa [hkind] at hserver
    | login | logout =>
      refine h.began (by simp [Server.call, hpc, Server.moveTo]) fun v hv => ?_
      by_cases hvw : v = w
      · exact .inr ⟨hvw, rfl⟩
      · rw [call_pcs_of_ne hvw] at hv
        exact .inl ⟨hv, hvw⟩
  | stopBegin =>
    refine h.began (by simp [Server.call, hpc, Server.moveTo]) fun v hv => ?_
    by_cases hvw : v = w
    · subst hvw
      simp [Server.call, hpc, moveTo_pcs_self, Pc.pending] at hv
    · rw [call_pcs_of_ne hvw] at hv
      exact .inl ⟨hv, hvw⟩
  | check g =>
    dsimp only
    split
    · exact hquiet (by simp [hpc]) (by simp [hpc])
    · exact hsuperseded (by simp [hpc]) (by simp [hpc])
  | commit g =>
    dsimp only
    split
    · exact hsuperseded (by simp [hpc]) (by simp [hpc])
    · next hcurrent =>
      split
      · -- the context is live, so that no other change has begun
        have hlive : d.cancelled w = false := by
          simp only [WindowServer.current, Bool.not_eq_true', Bool.not_eq_false,
            Bool.and_eq_true] at hcurrent
          simpa using hcurrent.1
        have hlast : lastBegan d.log = some w := by
          rcases h.pending w (by rw [hpc]; rfl) with hcancelled | ⟨-, hlast⟩
          · cases hlive.symm.trans hcancelled
          · exact hlast
        exact h.noted rfl hlast nofun (fun _ _ hr => .inl ⟨hr, by simp⟩)
          (call_pending_all (.inl (by simp [hpc])))
          (call_accountGeneration (.inl (by simp [hpc])) (by simp [hpc]))
      · exact hquiet (by simp [hpc]) (by simp [hpc])
  | _ => exact hquiet (by simp [hpc]) (by simp [hpc])

theorem account_moveWindow {windows : Nat → WindowPc} {r v : Nat} {pc : WindowPc}
    (hpc : ∀ a, pc.account = some a → (windows r).account = some a)
    (h : (Function.update windows r pc v).account = some a) : (windows v).account = some a := by
  by_cases hv : v = r
  · rw [hv, Function.update_self] at h
    rw [hv]
    exact hpc a h
  · rwa [Function.update_of_ne hv] at h

/-- A generation that was seen fewer than 2^64 changes ago and is the present one has not
changed since. -/
theorem begun_eq_zero {g : UInt64} {n : Nat} (hgen : g = a + UInt64.ofNat n) (heq : a = g)
    (hn : n < 2 ^ 64) : n = 0 := by
  have hzero : UInt64.ofNat n = 0 := by
    have hadd : a + UInt64.ofNat n = a + 0 := by rw [← hgen, UInt64.add_zero, heq]
    exact (UInt64.add_right_inj a).mp hadd
  have hmod : n % 2 ^ 64 = 0 := by simpa using congrArg UInt64.toNat hzero
  rwa [Nat.mod_eq_of_lt hn] at hmod

theorem Guarded.opened (h : Guarded d) {r : Nat} {g : UInt64} (hpc : d.windows r = .launch a g)
    (hblocked : d.remoteBlocked = false) (hgeneration : a = d.server.accountGeneration) :
    Allowed d.log (.opened r) := by
  obtain ⟨hmem, hgen⟩ := h.snapshot r a (by rw [hpc]; rfl)
  refine ⟨?_, hmem, begun_eq_zero hgen hgeneration⟩
  cases hchanging : changing d.log with
  | false => rfl
  | true => cases hblocked.symm.trans (h.blocked hchanging)

theorem Guarded.window (h : Guarded d) (r : Nat) (ok : Bool) : Guarded (d.window r ok) := by
  unfold WindowServer.window
  cases hpc : d.windows r with
  | start =>
    refine h.noted rfl trivial h.blocked fun v a hv => ?_
    refine .inl ⟨account_moveWindow (fun a ha => ?_) hv, by simp⟩
    cases ok <;> cases ha
  | snapshot =>
    dsimp only
    split
    · refine h.frame fun v a hv => ?_
      exact account_moveWindow (fun a ha => by cases ha) hv
    · refine h.noted rfl trivial h.blocked fun v a hv => ?_
      by_cases hvr : v = r
      · right
        dsimp only [WindowServer.moveWindow, WindowServer.note] at hv
        rw [hvr, Function.update_self] at hv
        exact ⟨by rw [hvr], (Option.some.inj hv).symm⟩
      · left
        dsimp only [WindowServer.moveWindow, WindowServer.note] at hv
        rw [Function.update_of_ne hvr] at hv
        exact ⟨hv, by simpa using Ne.symm hvr⟩
  | register a =>
    refine h.frame fun v b hv => ?_
    exact account_moveWindow (fun b hb => by rw [hpc]; exact hb) hv
  | prepare a g =>
    refine h.frame fun v b hv => ?_
    refine account_moveWindow (fun b hb => ?_) hv
    rw [hpc]
    cases ok with
    | true => exact hb
    | false => cases hb
  | launch a g =>
    dsimp only
    split
    · refine h.frame fun v b hv => ?_
      exact account_moveWindow (fun b hb => by cases hb) hv
    · next hopen =>
      simp only [Bool.or_eq_true, not_or, Bool.not_eq_true, decide_eq_true_eq, not_not] at hopen
      have hallowed := h.opened hpc hopen.1.2 hopen.2
      split <;>
      · refine h.noted rfl hallowed h.blocked fun v b hv => ?_
        exact .inl ⟨account_moveWindow (fun b hb => by cases hb) hv, by simp⟩
  | done => exact h

theorem Guarded.step (h : Guarded d) (action : WindowAction) :
    Guarded (d.step kinds action) := by
  cases action with
  | account action =>
    cases action with
    | call w ok => exact h.call w ok
    | startAgent =>
      refine h.frame (fun _ _ => id) (fun w hw => ?_) ?_
      · dsimp only [WindowServer.step, Server.step] at hw
        rwa [start_pcs] at hw
      · dsimp only [WindowServer.step, Server.step, Server.start]
        split <;> rfl
    | loop id own =>
      have hsame : (d.server.loop id own).accountGeneration = d.server.accountGeneration ∧
          (d.server.loop id own).pcs = d.server.pcs := by
        cases own <;> dsimp only [Server.loop] <;> repeat' split
        all_goals exact ⟨rfl, rfl⟩
      refine h.frame (fun _ _ hr => hr) (fun w hw => ?_) hsame.1 (fun _ hc => hc) fun hb => hb
      dsimp only [WindowServer.step, Server.step] at hw
      rwa [hsame.2] at hw
  | expire w =>
    dsimp only [WindowServer.step]
    split
    · exact h
    · refine h.frame (fun _ _ => id) (fun _ => id) rfl fun v hv => ?_
      by_cases hvw : v = w
      · rw [hvw]
        exact Function.update_self ..
      · dsimp only
        rwa [Function.update_of_ne hvw]
  | stopRemote => exact h.frame (fun _ _ => id) (fun _ => id) rfl (fun _ => id) fun _ => rfl
  | window r ok => exact h.window r ok
  | windowClosed generation =>
    dsimp only [WindowServer.step, WindowServer.windowClosed]
    split
    · exact h
    · exact h.frame
  | cancelTaken r =>
    dsimp only [WindowServer.step]
    split
    · exact h.frame
    · exact h
  | expireWork r => exact h.frame

theorem Guarded.run (h : Guarded d) (actions : List WindowAction) :
    Guarded (actions.foldl (WindowServer.step kinds) d) :=
  (Runs.always_of_step (fun _ action h => h.step action) h).last

/-- In every run a login saves its credentials only while no other change has begun since
its own, and the callback that opens a remote window is called only when no change is
under way and none has begun since the request saw the account generation, as far as
fewer than 2^64 have. -/
theorem superseded_operation_never_commits (kinds : Nat → Call) (file : Option Nat)
    (actions : List WindowAction) :
    let log := (actions.foldl (WindowServer.step kinds) (.fresh file)).log
    (∀ w later before, log = later ++ .saved w :: before → lastBegan before = some w) ∧
    ∀ r later before, log = later ++ .opened r :: before →
      changing before = false ∧ .snapshot r ∈ before ∧
        (begunSince (.snapshot r) before < 2 ^ 64 → begunSince (.snapshot r) before = 0) := by
  intro log
  have hlawful : Lawful log := ((guarded_fresh file).run actions).lawful
  exact ⟨fun _ _ _ hlog => hlawful.allowed hlog, fun _ _ _ hlog => hlawful.allowed hlog⟩

/-- Every caller logs in. -/
def logsIn : Nat → Call := fun _ => .login

/-- A login up to its commit. -/
def wholeLogin : List WindowAction :=
  List.replicate 6 (.account (.call 0 true))

/-- A request reads `openRemote`; then a login begins and commits, and the request sees
the generation of the new account. -/
def requestBeforeLogin : List WindowAction :=
  .window 0 true :: (wholeLogin ++ List.replicate 4 (.window 0 true))

/-- The window is opened for a request that had begun before the latest change. -/
theorem window_opened_for_earlier_request :
    let log := (requestBeforeLogin.foldl (WindowServer.step logsIn) (.fresh none)).log
    log = .opened 0 :: [.snapshot 0, .saved 0, .began 0, .started 0] ∧
      begunSince (.started 0) [.snapshot 0, .saved 0, .began 0, .started 0] = 1 := by
  decide +kernel

/-- In the same run the credentials are saved while the change is the latest, and no change
begins after the snapshot. -/
theorem window_opened_after_snapshot :
    lastBegan [.began 0, .started 0] = some 0 ∧
      begunSince (.snapshot 0) [.snapshot 0, .saved 0, .began 0, .started 0] = 0 := by
  have hlog : (requestBeforeLogin.foldl (WindowServer.step logsIn) (.fresh none)).log =
      [.opened 0, .snapshot 0, .saved 0, .began 0, .started 0] := by decide +kernel
  obtain ⟨hsaved, hopened⟩ := superseded_operation_never_commits logsIn none requestBeforeLogin
  refine ⟨hsaved 0 [.opened 0, .snapshot 0] [.began 0, .started 0] hlog, ?_⟩
  exact (hopened 0 [] [.snapshot 0, .saved 0, .began 0, .started 0] hlog).2.2 (by decide)

end HomeTunnel.Gui
