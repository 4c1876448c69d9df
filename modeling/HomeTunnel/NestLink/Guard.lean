import HomeTunnel.NestLink.Rotation

/-! # The guard of a remote permission

`prepare` and `accept` take an authorization, make a request with it and create a
`SessionGuard` for its epoch. The guard's loop sends heartbeats and its destructor asks for
the permission's end, each with the authorization that is installed at that time. The steps
are single reads and sends, with those of the account between them.
-/

namespace HomeTunnel.NestLink

inductive Method
  | post
  | delete
deriving DecidableEq, Repr

/-- A request for a permit, with the authorization whose token it carries. -/
structure PermitRequest where
  method : Method
  path : String
  auth : ValidatedAuth
deriving DecidableEq, Repr

/-- The heartbeat loop: the two reads of its condition, the timer, the request. -/
inductive LoopPc (V : Type)
  | checkAlive
  | checkEpoch
  | ticking
  | calling (call : Call V)
  | ending
  | ended

/-- The destructor: not run, `alive` cleared, a request spawned, over. -/
inductive DropPc
  | held
  | dropped
  | deleting (auth : ValidatedAuth)
  | closed
deriving DecidableEq, Repr

structure SessionGuard (V : Type) where
  epoch : Nat
  permitId : String
  alive : Bool
  loop : LoopPc V
  drop : DropPc
  -- the requests sent so far, the newest first
  sent : List PermitRequest

/-- How far `prepare` or `accept` has come. `under` is the authorization it works with. -/
inductive Stage (V : Type)
  | idle
  | asking (under : ValidatedAuth) (call : Call V)
  | checking (under : ValidatedAuth) (permitId : String)
  | confirming (under : ValidatedAuth) (permitId : String)
  | guarded (under : ValidatedAuth) (guard : SessionGuard V)
  | failed

inductive GuardAction (V : Type)
  | checkAlive
  | checkEpoch
  | tick
  | call (action : CallAction V)
  | resume
  | stop
  | drop
  | close
  | sendDelete

variable {V : Type}

namespace SessionGuard

def start (permitId : String) (epoch : Nat) : SessionGuard V :=
  ⟨epoch, permitId, true, .checkAlive, .held, []⟩

/-- The authorization that a call is about to send, if its next step sends one. -/
def sending (call : Call V) : CallAction V → Option ValidatedAuth
  | .go =>
    match call.pc with
    | .sending current _ => some current
    | _ => none
  | .reply _ | .updated | .timedOut => none

def heartbeat (guard : SessionGuard V) (auth : ValidatedAuth) : PermitRequest :=
  ⟨.post, "/api/v2/remote/permits/" ++ guard.permitId ++ "/heartbeat", auth⟩

def delete (guard : SessionGuard V) (auth : ValidatedAuth) : PermitRequest :=
  ⟨.delete, "/api/v2/remote/permits/" ++ guard.permitId, auth⟩

def step (s : Account) (guard : SessionGuard V) : GuardAction V → SessionGuard V
  | .checkAlive =>
    match guard.loop with
    | .checkAlive => { guard with loop := if guard.alive then .checkEpoch else .ending }
    | _ => guard
  | .checkEpoch =>
    match guard.loop with
    | .checkEpoch =>
      { guard with loop := if guard.epoch = s.epoch then .ticking else .ending }
    | _ => guard
  | .tick =>
    match guard.loop with
    | .ticking =>
      match s.snapshot with
      | none => { guard with loop := .ending }
      | some auth => { guard with loop := .calling (Call.start auth) }
    | _ => guard
  | .call action =>
    match guard.loop with
    | .calling call =>
      { guard with
        loop := .calling (call.step s action)
        sent := ((sending call action).map guard.heartbeat).toList ++ guard.sent }
    | _ => guard
  | .resume =>
    match guard.loop with
    | .calling call =>
      match call.pc with
      | .done (.ok _) => { guard with loop := .checkAlive }
      | .done (.error _) => { guard with loop := .ending }
      | _ => guard
    | _ => guard
  | .stop =>
    match guard.loop with
    | .ending => { guard with loop := .ended, alive := false }
    | _ => guard
  | .drop =>
    match guard.drop with
    | .held => { guard with alive := false, drop := .dropped }
    | _ => guard
  | .close =>
    match guard.drop with
    | .dropped =>
      match s.snapshot with
      | none => { guard with drop := .closed }
      | some auth => { guard with drop := .deleting auth }
    | _ => guard
  | .sendDelete =>
    match guard.drop with
    | .deleting auth =>
      { guard with
        drop := .closed
        sent := guard.delete auth :: guard.sent }
    | _ => guard

end SessionGuard

structure Guarding (V : Type) where
  account : Account
  stage : Stage V

inductive GuardingAction (V : Type)
  | account (action : Action)
  | ask
  | call (action : CallAction V)
  | obtained (permitId : String)
  | check
  | confirm
  | guard (action : GuardAction V)

def Guarding.step (checks : Checks) (s : Guarding V) : GuardingAction V → Guarding V
  | .account action => { s with account := s.account.step checks action }
  | .ask =>
    match s.stage with
    | .idle =>
      match s.account.snapshot with
      | none => { s with stage := .failed }
      | some auth => { s with stage := .asking auth (Call.start auth) }
    | _ => s
  | .call action =>
    match s.stage with
    | .asking under call => { s with stage := .asking under (call.step s.account action) }
    | _ => s
  | .obtained permitId =>
    match s.stage with
    | .asking under call =>
      match call.pc with
      | .done (.ok _) => { s with stage := .checking under permitId }
      | .done (.error _) => { s with stage := .failed }
      | _ => s
    | _ => s
  | .check =>
    match s.stage with
    | .checking under permitId =>
      { s with
        stage := if under.epoch = s.account.epoch then .confirming under permitId
          else .failed }
    | _ => s
  | .confirm =>
    match s.stage with
    | .confirming under permitId =>
      { s with
        stage := if s.account.ready then .guarded under (.start permitId under.epoch)
          else .failed }
    | _ => s
  | .guard action =>
    match s.stage with
    | .guarded under guard => { s with stage := .guarded under (guard.step s.account action) }
    | _ => s

def Guarding.fresh : Guarding V := ⟨Account.fresh, .idle⟩

/-- Where a guard takes the installed authorization, that of its own epoch is installed or
there is none. -/
def epochStays (s : Guarding V) : GuardingAction V → Bool
  | .guard .tick | .guard .close =>
    match s.stage with
    | .guarded _ guard => !s.account.ready || s.account.epoch = guard.epoch
    | _ => true
  | _ => true

/-- The same epoch, origin and presence. -/
structure SameAccount (under a : ValidatedAuth) : Prop where
  epoch : a.epoch = under.epoch
  origin : a.request.origin = under.request.origin
  presence : a.presence = under.presence

/-- An authorization that was installed once: while its epoch lasts, one of the same origin
and presence is installed. -/
def Account.Scoped (s : Account) (a : ValidatedAuth) : Prop :=
  a.epoch ≤ s.epoch ∧ (a.epoch = s.epoch → ∃ b, s.auth = some b ∧
    b.request.origin = a.request.origin ∧ b.presence = a.presence)

namespace Account

variable {s t : Account} {a : ValidatedAuth}

theorem Inv.scoped (h : s.Inv) (ha : s.auth = some a) : s.Scoped a :=
  ⟨(h.epoch a ha).le, fun _ => ⟨a, ha, rfl, rfl⟩⟩

theorem Scoped.effect (h : s.Scoped a) (heffect : Effect s t) : t.Scoped a := by
  obtain ⟨hle, hinstalled⟩ := h
  have hup := heffect.counters.1.1
  refine ⟨by omega, fun heq => ?_⟩
  obtain ⟨b, hb, horigin, hpresence⟩ := hinstalled (by omega)
  rcases heffect.follows hb with hlater | ⟨_, c, hc, horigin', hpresence'⟩
  · omega
  · exact ⟨c, hc, horigin'.trans horigin, hpresence'.trans hpresence⟩

/-- What is installed in the epoch of `under` is of its account. -/
theorem Inv.sameAccount {under : ValidatedAuth} (h : s.Inv) (hunder : s.Scoped under)
    (ha : s.auth = some a) (hepoch : s.epoch = under.epoch) : SameAccount under a := by
  obtain ⟨b, hb, horigin, hpresence⟩ := hunder.2 hepoch.symm
  cases ha.symm.trans hb
  exact ⟨(h.epoch a ha).trans hepoch, horigin, hpresence⟩

theorem auth_of_snapshot (h : s.snapshot = some a) : s.auth = some a :=
  (Option.filter_eq_some_iff.mp h).1

theorem ready_of_snapshot (h : s.snapshot = some a) : s.ready = true :=
  ready_iff.mpr ⟨a, auth_of_snapshot h, of_decide_eq_true (Option.filter_eq_some_iff.mp h).2⟩

end Account

/-- A retry stays in the account. -/
theorem Began.sameAccount {auth c : ValidatedAuth} {retried : Bool} {log : List (CallEvent V)}
    (h : Began auth retried c log) : SameAccount auth c := by
  cases h with
  | first => exact ⟨rfl, rfl, rfl⟩
  | again _ _ h => exact ⟨h.epoch, h.origin, h.presence⟩

theorem SameAccount.trans {a b c : ValidatedAuth} (h : SameAccount a b) (h' : SameAccount b c) :
    SameAccount a c :=
  ⟨h'.epoch.trans h.epoch, h'.origin.trans h.origin, h'.presence.trans h.presence⟩

structure SessionGuard.Inv (s : Account) (under : ValidatedAuth) (guard : SessionGuard V) :
    Prop where
  epoch : guard.epoch = under.epoch
  loop : ∀ call, guard.loop = .calling call →
    Calling.Inv call.auth ⟨s, call⟩ ∧ SameAccount under call.auth
  drop : ∀ a, guard.drop = .deleting a → SameAccount under a
  sent : ∀ request ∈ guard.sent, SameAccount under request.auth

namespace SessionGuard

variable {s : Account} {under : ValidatedAuth} {guard : SessionGuard V}

theorem inv_start (s : Account) (permitId : String) (under : ValidatedAuth) :
    (start permitId under.epoch : SessionGuard V).Inv s under :=
  ⟨rfl, fun _ h => (nomatch h), fun _ h => (nomatch h), fun _ h => (nomatch h)⟩

theorem Inv.moveLoop (h : guard.Inv s under) {pc : LoopPc V} (alive : Bool)
    (hpc : ∀ call, pc ≠ .calling call) : Inv s under { guard with loop := pc, alive := alive } :=
  ⟨h.epoch, fun call heq => absurd heq (hpc call), h.drop, h.sent⟩

/-- What a call of the loop sends is of the account of the call. -/
theorem sameAccount_of_sending {call : Call V} {action : CallAction V} {a : ValidatedAuth}
    (h : Calling.Inv call.auth ⟨s, call⟩) (ha : sending call action = some a) :
    SameAccount call.auth a := by
  have hpc := h.pc
  cases action with
  | go =>
    dsimp only [sending] at ha
    split at ha
    · next current retried heq =>
      cases ha
      dsimp only at hpc
      rw [heq] at hpc
      exact hpc.sameAccount
    · cases ha
  | reply _ | updated | timedOut => cases ha

theorem Inv.step (h : guard.Inv s under) (hs : s.Inv) (hunder : s.Scoped under)
    (action : GuardAction V) (hstays : epochStays ⟨s, .guarded under guard⟩ (.guard action)) :
    (guard.step s action).Inv s under := by
  have hsnapshot : ∀ a, s.snapshot = some a → (!s.ready || s.epoch = guard.epoch) = true →
      SameAccount under a := by
    intro a ha hkept
    rw [Account.ready_of_snapshot ha, Bool.not_true, Bool.false_or, decide_eq_true_eq] at hkept
    exact hs.sameAccount hunder (Account.auth_of_snapshot ha) (hkept.trans h.epoch)
  cases action with
  | checkAlive | checkEpoch =>
    dsimp only [SessionGuard.step]
    split
    · exact h.moveLoop guard.alive fun call heq => by split at heq <;> cases heq
    · exact h
  | tick =>
    dsimp only [SessionGuard.step]
    split
    · split
      · exact h.moveLoop guard.alive fun call heq => nomatch heq
      · next auth hauth =>
        refine ⟨h.epoch, fun call heq => ?_, h.drop, h.sent⟩
        cases heq
        exact ⟨Calling.Inv.start hs, hsnapshot auth hauth hstays⟩
    · exact h
  | call action =>
    dsimp only [SessionGuard.step]
    split
    · next call heq =>
      obtain ⟨hcall, haccount⟩ := h.loop call heq
      refine ⟨h.epoch, fun call' heq' => ?_, h.drop, fun request hrequest => ?_⟩
      · cases heq'
        have hnext := hcall.call action
        rw [show (call.step s action).auth = call.auth from hnext.starting]
        exact ⟨hnext, haccount⟩
      · rcases List.mem_append.mp hrequest with hnew | hold
        · rw [Option.mem_toList, Option.map_eq_some_iff] at hnew
          obtain ⟨a, ha, rfl⟩ := hnew
          exact haccount.trans (sameAccount_of_sending hcall ha)
        · exact h.sent request hold
    · exact h
  | resume =>
    dsimp only [SessionGuard.step]
    split
    · split
      · exact h.moveLoop guard.alive fun call heq => nomatch heq
      · exact h.moveLoop guard.alive fun call heq => nomatch heq
      · exact h
    · exact h
  | stop =>
    dsimp only [SessionGuard.step]
    split
    · exact h.moveLoop false fun call heq => nomatch heq
    · exact h
  | drop =>
    dsimp only [SessionGuard.step]
    split
    · exact ⟨h.epoch, h.loop, fun a heq => (nomatch heq), h.sent⟩
    · exact h
  | close =>
    dsimp only [SessionGuard.step]
    split
    · split
      · exact ⟨h.epoch, h.loop, fun a heq => (nomatch heq), h.sent⟩
      · next auth hauth =>
        refine ⟨h.epoch, h.loop, fun a heq => ?_, h.sent⟩
        cases heq
        exact hsnapshot auth hauth hstays
    · exact h
  | sendDelete =>
    dsimp only [SessionGuard.step]
    split
    · next auth heq =>
      refine ⟨h.epoch, h.loop, fun a heq => (nomatch heq), fun request hrequest => ?_⟩
      rcases List.mem_cons.mp hrequest with rfl | hold
      · exact h.drop auth heq
      · exact h.sent request hold
    · exact h

end SessionGuard

def Stage.Inv (s : Account) : Stage V → Prop
  | .idle | .failed => True
  | .asking under _ | .checking under _ | .confirming under _ => s.Scoped under
  | .guarded under guard => s.Scoped under ∧ guard.Inv s under

def Guarding.Inv (s : Guarding V) : Prop := s.account.Inv ∧ s.stage.Inv s.account

theorem Stage.Inv.account {s : Account} {stage : Stage V} (h : stage.Inv s)
    (checks : Checks) (action : Action) : stage.Inv (s.step checks action) := by
  have heffect := Account.effect_step checks s action
  cases stage with
  | idle | failed => trivial
  | asking under call | checking under permitId | confirming under permitId =>
    exact Account.Scoped.effect h heffect
  | guarded under guard =>
    refine ⟨h.1.effect heffect, h.2.epoch, fun call heq => ?_, h.2.drop, h.2.sent⟩
    obtain ⟨hcall, haccount⟩ := h.2.loop call heq
    exact ⟨hcall.step checks (.account action), haccount⟩

theorem Guarding.Inv.step {s : Guarding V} (h : s.Inv) (checks : Checks)
    (action : GuardingAction V) (hstays : epochStays s action) :
    (s.step checks action).Inv := by
  obtain ⟨hs, hstage⟩ := h
  cases action with
  | account action => exact ⟨hs.step action, hstage.account checks action⟩
  | ask =>
    dsimp only [Guarding.step]
    split
    · split
      · exact ⟨hs, trivial⟩
      · next auth hauth => exact ⟨hs, hs.scoped (Account.auth_of_snapshot hauth)⟩
    · exact ⟨hs, hstage⟩
  | call action =>
    dsimp only [Guarding.step]
    split
    · next under call heq =>
      rw [heq] at hstage
      exact ⟨hs, hstage⟩
    · exact ⟨hs, hstage⟩
  | obtained permitId =>
    dsimp only [Guarding.step]
    split
    · next under call heq =>
      split
      · rw [heq] at hstage
        exact ⟨hs, hstage⟩
      · exact ⟨hs, trivial⟩
      · exact ⟨hs, hstage⟩
    · exact ⟨hs, hstage⟩
  | check =>
    dsimp only [Guarding.step]
    split
    · next under permitId heq =>
      rw [heq] at hstage
      refine ⟨hs, ?_⟩
      dsimp only
      split
      · exact hstage
      · trivial
    · exact ⟨hs, hstage⟩
  | confirm =>
    dsimp only [Guarding.step]
    split
    · next under permitId heq =>
      rw [heq] at hstage
      refine ⟨hs, ?_⟩
      dsimp only
      split
      · exact ⟨hstage, SessionGuard.inv_start s.account permitId under⟩
      · trivial
    · exact ⟨hs, hstage⟩
  | guard action =>
    obtain ⟨account, stage⟩ := s
    dsimp only [Guarding.step]
    split
    · exact ⟨hs, hstage.1, hstage.2.step hs hstage.1 action hstays⟩
    · exact ⟨hs, hstage⟩

/-- Every request of the guard carries the token of the account and epoch that its permit was
obtained under. -/
def Guarding.OwnToken (s : Guarding V) : Prop :=
  ∀ under guard, s.stage = .guarded under guard → guard.epoch = under.epoch ∧
    ∀ request ∈ guard.sent, request.auth.epoch = guard.epoch ∧
      request.auth.request.origin = under.request.origin ∧
      request.auth.presence = under.presence

theorem Guarding.Inv.ownToken {s : Guarding V} (h : s.Inv) : s.OwnToken := by
  intro under guard heq
  have hstage := h.2
  rw [heq] at hstage
  refine ⟨hstage.2.epoch, fun request hrequest => ?_⟩
  have hsame := hstage.2.sent request hrequest
  exact ⟨hsame.epoch.trans hstage.2.epoch.symm, hsame.origin, hsame.presence⟩

/-- In every run in which the epoch of the guard lasts, or nobody is logged in, whenever the
guard takes the installed authorization, its requests are made with its own account. -/
theorem permit_sent_by_its_account (checks : Checks) (actions : List (GuardingAction V))
    (hstays : Runs.Along (Guarding.step checks) (fun s action => epochStays s action)
      Guarding.fresh actions) :
    Runs.Always (Guarding.step checks) Guarding.OwnToken Guarding.fresh actions := by
  have hfresh : (Guarding.fresh : Guarding V).Inv := ⟨Account.inv_fresh, trivial⟩
  have hall : Runs.Always (Guarding.step checks) Guarding.Inv Guarding.fresh actions :=
    Runs.always_of_invariant (fun _ action h => h.step checks action) hfresh hstays
  exact hall.mono fun _ h => h.ownToken

/-- The permit `p` is obtained by the first account. -/
def permitRun : List (GuardingAction Nat) :=
  [.account (.begin 0 homeRequest), .account (.fetched 0 (some homePresence)),
    .account (.store 0 true), .ask, .call .go, .call (.reply (.ok 0)), .call .go, .call .go,
    .obtained "p", .check, .confirm, .guard .checkAlive, .guard .checkEpoch]

/-- A heartbeat and the end of the permission, with the account unchanged. -/
def guardedRun : List (GuardingAction Nat) :=
  permitRun ++ [.guard .tick, .guard (.call .go), .guard .drop, .guard .close, .guard .sendDelete]

def otherPresence : Presence := { homePresence with sessionId := "other" }

def otherAuth : ValidatedAuth := ⟨freshToken, otherPresence, 15000, 3, 3⟩

/-- Another account is installed while the heartbeat waits for its timer. -/
def switchedRun : List (GuardingAction Nat) :=
  permitRun ++ [.account (.begin 1 freshToken), .account (.fetched 1 (some otherPresence)),
    .account (.store 1 true), .guard .tick, .guard (.call .go), .guard .drop, .guard .close,
    .guard .sendDelete]

/-- The requests that the guard of a run has sent. -/
def Guarding.sent (s : Guarding V) : List PermitRequest :=
  match s.stage with
  | .guarded _ guard => guard.sent
  | _ => []

theorem guard_of_one_account :
    Runs.Always (Guarding.step anyChecks) Guarding.OwnToken Guarding.fresh guardedRun ∧
      (guardedRun.foldl (Guarding.step anyChecks) Guarding.fresh).sent =
        [⟨.delete, "/api/v2/remote/permits/p", homeAuth⟩,
          ⟨.post, "/api/v2/remote/permits/p/heartbeat", homeAuth⟩] :=
  ⟨permit_sent_by_its_account anyChecks guardedRun (by decide +kernel), by decide +kernel⟩

/-- The permit of the first account goes out with the token of the second, in a heartbeat and
in the request that ends it. -/
theorem permit_sent_by_other_account :
    (switchedRun.foldl (Guarding.step anyChecks) Guarding.fresh).sent =
        [⟨.delete, "/api/v2/remote/permits/p", otherAuth⟩,
          ⟨.post, "/api/v2/remote/permits/p/heartbeat", otherAuth⟩] ∧
      ¬ (switchedRun.foldl (Guarding.step anyChecks) Guarding.fresh).OwnToken := by
  refine ⟨by decide +kernel, fun hown => ?_⟩
  have hsent := (hown homeAuth _ rfl).2 ⟨.delete, "/api/v2/remote/permits/p", otherAuth⟩
    (by decide +kernel)
  exact absurd hsent.1 (by decide +kernel)

end HomeTunnel.NestLink
