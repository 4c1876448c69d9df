import HomeTunnel.NestLink.Account

/-! # Requests that survive a token rotation

`authorized_request_using` with `replacement_after_401`. A call reads `AUTH`, `REVISION` and
`EPOCH` one at a time, and the account may change between any two of its steps. A wake-up from
`AUTH_UPDATES` may come at any time while the call waits for one.
-/

namespace HomeTunnel.NestLink

inductive RequestError
  -- `AuthorizationHttpError`
  | http (status : Nat)
  | other (message : String)
deriving DecidableEq, Repr

inductive CallError
  | ended
  | request (error : RequestError)
deriving DecidableEq, Repr

/-- The shared cells and the clock at one instant. -/
structure Moment where
  auth : Option ValidatedAuth
  revision : Nat
  epoch : Nat
  now : Nat
deriving DecidableEq, Repr

def Account.moment (s : Account) : Moment := ⟨s.auth, s.revision, s.epoch, s.now⟩

/-- What a call has done: a request was sent, its reply came, a replacement was chosen,
`EPOCH` was read and found right, an unexpired authorization was found. -/
inductive CallEvent (V : Type)
  | sent (request : AuthRequest)
  | received (reply : Except RequestError V)
  | chose (current : ValidatedAuth) (now : Moment)
  | matched (now : Moment)
  | found (now : Moment)

/-- What a call does next. -/
inductive CallPc (V : Type)
  | sending (current : ValidatedAuth) (retried : Bool)
  | waiting (current : ValidatedAuth) (retried : Bool)
  -- a response is there, `EPOCH` is read next, then `ready` is asked
  | accepted (current : ValidatedAuth) (value : V)
  | matched (value : V)
  | rejected
  | looking (deadline : Nat)
  | compared (current : ValidatedAuth) (deadline : Nat)
  | watching (deadline : Nat)
  | done (result : Except CallError V)

structure Call (V : Type) where
  auth : ValidatedAuth
  pc : CallPc V
  -- the newest first
  log : List (CallEvent V)

inductive CallAction (V : Type)
  | go
  | reply (answer : Except RequestError V)
  | updated
  | timedOut

variable {V : Type}

/-- Epoch, origin, device and presence agree. -/
def ValidatedAuth.sameScope (current auth : ValidatedAuth) : Bool :=
  current.epoch = auth.epoch && current.request.origin = auth.request.origin &&
    current.request.deviceId = auth.request.deviceId && current.presence = auth.presence

namespace Call

def start (auth : ValidatedAuth) : Call V := ⟨auth, .sending auth false, []⟩

def finish (call : Call V) (result : Except CallError V) : Call V :=
  { call with pc := .done result }

def unauthorized : RequestError := .http 401

/-- The call goes on by itself. -/
def go (s : Account) (call : Call V) : Call V :=
  match call.pc with
  | .sending current retried =>
    { call with
      pc := .waiting current retried
      log := .sent current.request :: call.log }
  | .accepted current value =>
    if current.epoch = s.epoch then
      { call with
        pc := .matched value
        log := .matched s.moment :: call.log }
    else call.finish (.error .ended)
  | .matched value =>
    if s.ready then
      { call with
        pc := .done (.ok value)
        log := .found s.moment :: call.log }
    else call.finish (.error .ended)
  | .rejected =>
    { call with pc := .looking (s.now + min (call.auth.validUntil - s.now) 2000) }
  | .looking deadline =>
    match s.snapshot with
    | none => call.finish (.error (.request unauthorized))
    | some current =>
      if current.sameScope call.auth then { call with pc := .compared current deadline }
      else call.finish (.error (.request unauthorized))
  | .compared current deadline =>
    if current.revision ≠ call.auth.revision ∧ current.revision = s.revision ∧
        current.request.accessToken ≠ call.auth.request.accessToken then
      { call with
        pc := .sending current true
        log := .chose current s.moment :: call.log }
    else { call with pc := .watching deadline }
  | .waiting _ _ | .watching _ | .done _ => call

def reply (call : Call V) (answer : Except RequestError V) : Call V :=
  match call.pc with
  | .waiting current retried =>
    let heard : Call V := { call with log := .received answer :: call.log }
    match answer with
    | .ok value => { heard with pc := .accepted current value }
    | .error error =>
      if !retried && error = unauthorized then { heard with pc := .rejected }
      else heard.finish (.error (.request error))
  | _ => call

def step (s : Account) (call : Call V) : CallAction V → Call V
  | .go => call.go s
  | .reply answer => call.reply answer
  | .updated =>
    match call.pc with
    | .watching deadline => { call with pc := .looking deadline }
    | _ => call
  | .timedOut =>
    match call.pc with
    | .watching deadline =>
      if s.now < deadline then call else call.finish (.error (.request unauthorized))
    | _ => call

end Call

/-- A call, and the account that it reads. -/
structure Calling (V : Type) where
  account : Account
  call : Call V

inductive CallingAction (V : Type)
  | account (action : Action)
  | call (action : CallAction V)

def Calling.step (checks : Checks) (s : Calling V) : CallingAction V → Calling V
  | .account action => { s with account := s.account.step checks action }
  | .call action => { s with call := s.call.step s.account action }

/-- A replacement in the scope of `auth`: it is installed, is the newest and has another
token. -/
structure Chosen (auth c : ValidatedAuth) (m : Moment) : Prop where
  installed : ∃ b, m.auth = some b ∧ SameGrant b c
  newest : c.revision = m.revision
  epoch : c.epoch = auth.epoch
  origin : c.request.origin = auth.request.origin
  device : c.request.deviceId = auth.request.deviceId
  presence : c.presence = auth.presence
  token : c.request.accessToken ≠ auth.request.accessToken

/-- The events before a request: none before the first, and before the second the first, its
401 and the choice of a replacement. -/
inductive Began (auth : ValidatedAuth) : Bool → ValidatedAuth → List (CallEvent V) → Prop
  | first : Began auth false auth []
  | again (c : ValidatedAuth) (m : Moment) (h : Chosen auth c m) : Began auth true c
      [.chose c m, .received (.error Call.unauthorized), .sent auth.request]

def CallEvent.isSent : CallEvent V → Bool
  | .sent _ => true
  | .received _ | .chose _ _ | .matched _ | .found _ => false

/-- Every request of the log was sent after such a beginning. -/
def SendsAllowed (auth : ValidatedAuth) : List (CallEvent V) → Prop
  | [] => True
  | .sent request :: before =>
    (∃ retried c, request = c.request ∧ Began auth retried c before) ∧ SendsAllowed auth before
  | _ :: before => SendsAllowed auth before

variable {log : List (CallEvent V)} {s : Account} {c : ValidatedAuth}

theorem SendsAllowed.began {auth : ValidatedAuth} {later before : List (CallEvent V)}
    {request : AuthRequest} (h : SendsAllowed auth log)
    (hlog : log = later ++ .sent request :: before) :
    ∃ retried c, request = c.request ∧ Began auth retried c before := by
  subst hlog
  induction later with
  | nil => exact h.1
  | cons event _ ih =>
    cases event with
    | sent _ => exact ih h.2
    | received _ | chose _ _ | matched _ | found _ => exact ih h

theorem SendsAllowed.countP_le {auth : ValidatedAuth} (h : SendsAllowed auth log) :
    log.countP CallEvent.isSent ≤ 2 := by
  induction log with
  | nil => exact Nat.zero_le _
  | cons event before ih =>
    cases event with
    | sent request =>
      obtain ⟨_, c, _, hbegan⟩ := h.1
      cases hbegan with
      | first => simp [CallEvent.isSent]
      | again _ _ => exact Nat.le_refl 2
    | received _ | chose _ _ | matched _ | found _ => simpa [CallEvent.isSent] using ih h

/-- An authorization that was installed once still is if its revision is the newest. -/
def Account.Newest (s : Account) (c : ValidatedAuth) : Prop :=
  c.revision ≤ s.revision ∧ (c.revision = s.revision → ∃ b, s.auth = some b ∧ SameGrant b c)

theorem Account.Inv.newest (h : s.Inv) (hc : s.auth = some c) : s.Newest c :=
  ⟨h.revision c (.inl hc), fun _ => ⟨c, hc, SameGrant.refl c⟩⟩

theorem Account.Newest.effect {t : Account} (hc : s.Newest c) (h : s.Inv)
    (heffect : Account.Effect s t) : t.Newest c := by
  obtain ⟨hle, hinstalled⟩ := hc
  cases heffect with
  | kept hauth hrevision _ => exact ⟨by omega, fun heq => hauth ▸ hinstalled (by omega)⟩
  | cleared _ hrevision _ | counted _ hrevision _ => exact ⟨by omega, fun heq => by omega⟩
  | stored i request presence hpending _ hrevision _ =>
    refine ⟨by omega, fun heq => ?_⟩
    obtain ⟨b, hb, hsame⟩ := hinstalled (by omega)
    exact absurd (hsame.revision.trans (by omega)) (h.unused i _ hpending b (.inl hb))
  | renewed b hb hauth hrevision _ =>
    refine ⟨by omega, fun heq => ?_⟩
    obtain ⟨b', hb', hsame⟩ := hinstalled (by omega)
    cases hb.symm.trans hb'
    exact ⟨_, hauth, hsame.request, hsame.presence, hsame.epoch, hsame.revision⟩

/-- The events of a first request that was answered with 401. -/
def refused (auth : ValidatedAuth) : List (CallEvent V) :=
  [.received (.error Call.unauthorized), .sent auth.request]

/-- An answered request of an allowed beginning. -/
def Answered (auth c : ValidatedAuth) (value : V) (log : List (CallEvent V)) : Prop :=
  c.epoch = auth.epoch ∧ ∃ before, log = .received (.ok value) :: .sent c.request :: before

/-- What a call knows at each of its steps. -/
def CallPc.Sound (s : Account) (auth : ValidatedAuth) (log : List (CallEvent V)) :
    CallPc V → Prop
  | .sending c retried => Began auth retried c log
  | .waiting c retried => ∃ before, Began auth retried c before ∧ log = .sent c.request :: before
  | .accepted c value => Answered auth c value log
  | .matched value => ∃ c m before, Answered auth c value before ∧ log = .matched m :: before ∧
      m.epoch = auth.epoch
  | .rejected | .looking _ | .watching _ => log = refused auth
  | .compared c _ => log = refused auth ∧ c.sameScope auth ∧ s.Newest c
  | .done (.ok value) => ∃ c m m' before, Answered auth c value before ∧
      log = .found m' :: .matched m :: before ∧ m.epoch = auth.epoch ∧
      ∃ b, m'.auth = some b ∧ m'.now < b.validUntil
  | .done (.error _) => True

structure Calling.Inv (auth : ValidatedAuth) (s : Calling V) : Prop where
  account : s.account.Inv
  starting : s.call.auth = auth
  sends : SendsAllowed auth s.call.log
  pc : s.call.pc.Sound s.account auth s.call.log

variable {auth : ValidatedAuth}

theorem Began.epoch {retried : Bool} (h : Began auth retried c log) : c.epoch = auth.epoch := by
  cases h with
  | first => rfl
  | again _ _ h => exact h.epoch

/-- Only what the call has compared depends on the account. -/
theorem CallPc.Sound.account {t : Account} {pc : CallPc V} (h : pc.Sound s auth log)
    (hnewest : ∀ c, s.Newest c → t.Newest c) : pc.Sound t auth log := by
  cases pc with
  | compared c deadline => exact ⟨h.1, h.2.1, hnewest c h.2.2⟩
  | done result => cases result <;> exact h
  | sending | waiting | accepted | matched | rejected | looking | watching => exact h

theorem ValidatedAuth.sameScope_iff :
    c.sameScope auth ↔
    c.epoch = auth.epoch ∧ c.request.origin = auth.request.origin ∧
      c.request.deviceId = auth.request.deviceId ∧ c.presence = auth.presence := by
  simp [ValidatedAuth.sameScope, and_assoc]

theorem Account.ready_iff : s.ready ↔ ∃ b, s.auth = some b ∧ s.now < b.validUntil := by
  simp [Account.ready, Option.any_eq_true_iff_get, Option.eq_some_iff_get_eq]

/-- A call that goes on, one case for each place. -/
theorem Calling.Inv.go {s : Calling V} (h : s.Inv auth) :
    Calling.Inv auth { s with call := s.call.go s.account } := by
  have hpc := h.pc
  unfold Call.go
  split
  · next current retried heq =>
    rw [heq] at hpc
    exact ⟨h.account, h.starting, ⟨⟨retried, current, rfl, hpc⟩, h.sends⟩, ⟨_, hpc, rfl⟩⟩
  · next current value heq =>
    rw [heq] at hpc
    split
    · next hepoch =>
      exact ⟨h.account, h.starting, h.sends, current, _, _, hpc, rfl, hepoch.symm.trans hpc.1⟩
    · exact ⟨h.account, h.starting, h.sends, trivial⟩
  · next value heq =>
    rw [heq] at hpc
    split
    · next hready =>
      obtain ⟨c, m, before, hanswered, hlog, hepoch⟩ := hpc
      refine ⟨h.account, h.starting, h.sends, c, m, s.account.moment, before, hanswered, ?_, hepoch,
        Account.ready_iff.mp hready⟩
      rw [hlog]
    · exact ⟨h.account, h.starting, h.sends, trivial⟩
  · next heq =>
    rw [heq] at hpc
    exact ⟨h.account, h.starting, h.sends, hpc⟩
  · next deadline heq =>
    rw [heq] at hpc
    split
    · exact ⟨h.account, h.starting, h.sends, trivial⟩
    · next current hsnapshot =>
      have hinstalled : s.account.auth = some current :=
        (Option.filter_eq_some_iff.mp hsnapshot).1
      split
      · next hscope =>
        rw [h.starting] at hscope
        exact ⟨h.account, h.starting, h.sends, hpc, hscope, h.account.newest hinstalled⟩
      · exact ⟨h.account, h.starting, h.sends, trivial⟩
  · next current deadline heq =>
    rw [heq] at hpc
    obtain ⟨hlog, hscope, hnewest⟩ := hpc
    rw [ValidatedAuth.sameScope_iff] at hscope
    obtain ⟨hepoch, horigin, hdevice, hpresence⟩ := hscope
    split
    · next hchosen =>
      rw [h.starting] at hchosen
      have hright : Chosen auth current s.account.moment :=
        ⟨hnewest.2 hchosen.2.1, hchosen.2.1, hepoch, horigin, hdevice, hpresence, hchosen.2.2⟩
      refine ⟨h.account, h.starting, h.sends, ?_⟩
      dsimp only
      rw [hlog]
      exact Began.again current _ hright
    · exact ⟨h.account, h.starting, h.sends, hlog⟩
  · exact h
  · exact h
  · exact h

theorem Calling.Inv.reply {s : Calling V} (h : s.Inv auth) (answer : Except RequestError V) :
    Calling.Inv auth { s with call := s.call.reply answer } := by
  have hpc := h.pc
  unfold Call.reply
  split
  · next current retried heq =>
    rw [heq] at hpc
    obtain ⟨before, hbegan, hlog⟩ := hpc
    dsimp only
    split
    · next value =>
      refine ⟨h.account, h.starting, h.sends, hbegan.epoch, before, ?_⟩
      rw [hlog]
    · next error =>
      split
      · next hfirst =>
        rw [Bool.and_eq_true, Bool.not_eq_true', decide_eq_true_eq] at hfirst
        refine ⟨h.account, h.starting, h.sends, ?_⟩
        dsimp only [CallPc.Sound]
        rw [hfirst.1] at hbegan
        cases hbegan with
        | first => rw [hlog, hfirst.2]; rfl
      · exact ⟨h.account, h.starting, h.sends, trivial⟩
  · exact h

theorem Calling.Inv.call {s : Calling V} (h : s.Inv auth) (action : CallAction V) :
    Calling.Inv auth { s with call := s.call.step s.account action } := by
  have hpc := h.pc
  cases action with
  | go => exact h.go
  | reply answer => exact h.reply answer
  | updated =>
    dsimp only [Call.step]
    split
    · next deadline heq =>
      rw [heq] at hpc
      exact ⟨h.account, h.starting, h.sends, hpc⟩
    · exact h
  | timedOut =>
    dsimp only [Call.step]
    split
    · split
      · exact h
      · exact ⟨h.account, h.starting, h.sends, trivial⟩
    · exact h

theorem Calling.Inv.step {s : Calling V} (h : s.Inv auth) (checks : Checks)
    (action : CallingAction V) : (s.step checks action).Inv auth := by
  cases action with
  | account action =>
    have heffect := Account.effect_step checks s.account action
    exact ⟨h.account.step action, h.starting, h.sends,
      h.pc.account fun c hc => hc.effect h.account heffect⟩
  | call action => exact h.call action

theorem Calling.Inv.start (h : s.Inv) : Calling.Inv (V := V) auth ⟨s, Call.start auth⟩ :=
  ⟨h, rfl, trivial, .first⟩

theorem Calling.Inv.run {s : Calling V} (h : s.Inv auth) (checks : Checks)
    (actions : List (CallingAction V)) :
    (actions.foldl (Calling.step checks) s).Inv auth :=
  (Runs.always_of_step (fun _ action h => h.step checks action) h).last

def CallingAction.onAccount : CallingAction V → Option Action
  | .account action => some action
  | .call _ => none

/-- The account goes its way as if there were no call. -/
theorem Calling.account_run (checks : Checks) (s : Calling V) (actions : List (CallingAction V)) :
    (actions.foldl (Calling.step checks) s).account =
      (actions.filterMap CallingAction.onAccount).foldl (Account.step checks) s.account := by
  induction actions generalizing s with
  | nil => rfl
  | cons action rest ih =>
    rw [List.foldl_cons, ih]
    cases action <;> rfl

/-- A call of any run sends at most two requests. The second follows the 401 of the first and
is made with a replacement in its scope. The call returns a value only after it has, since the
response, read the epoch of the starting authorization and found an unexpired one; and it
leaves the account alone. -/
theorem rotation_stays_in_scope (checks : Checks) (before : List Action) (auth : ValidatedAuth)
    (actions : List (CallingAction V)) (s : Account) (t : Calling V)
    (hs : s = before.foldl (Account.step checks) Account.fresh)
    (ht : t = actions.foldl (Calling.step checks) ⟨s, Call.start auth⟩) :
    t.call.log.countP CallEvent.isSent ≤ 2 ∧
      (∀ later earlier request, t.call.log = later ++ .sent request :: earlier →
        request = auth.request ∧ earlier = [] ∨
        ∃ c m, request = c.request ∧ Chosen auth c m ∧ earlier =
          [.chose c m, .received (.error (.http 401)), .sent auth.request]) ∧
      (∀ value, t.call.pc = .done (.ok value) → ∃ m m' earlier,
        t.call.log = .found m' :: .matched m :: .received (.ok value) :: earlier ∧
          m.epoch = auth.epoch ∧ ∃ b, m'.auth = some b ∧ m'.now < b.validUntil) ∧
      t.account = (actions.filterMap CallingAction.onAccount).foldl (Account.step checks) s := by
  have haccount : s.Inv := hs ▸ Account.inv_fresh.run before
  have h : t.Inv auth := ht ▸ (Calling.Inv.start haccount).run checks actions
  refine ⟨h.sends.countP_le, ?_, ?_, ?_⟩
  · intro later earlier request hlog
    obtain ⟨retried, c, hrequest, hbegan⟩ := h.sends.began hlog
    cases hbegan with
    | first => exact .inl ⟨hrequest, rfl⟩
    | again _ m hchosen => exact .inr ⟨c, m, hrequest, hchosen, rfl⟩
  · intro value hdone
    have hpc := h.pc
    rw [hdone] at hpc
    obtain ⟨c, m, m', rest, ⟨_, earlier, hrest⟩, hlog, hepoch, hready⟩ := hpc
    exact ⟨m, m', _, by rw [hlog, hrest], hepoch, hready⟩
  · rw [ht, Calling.account_run]

def freshToken : AuthRequest := ⟨"https://home", "device", "fedcba9876543210fedcba9876543210"⟩

def homeAuth : ValidatedAuth := ⟨homeRequest, homePresence, 15000, 2, 2⟩

def freshAuth : ValidatedAuth := ⟨freshToken, homePresence, 20000, 3, 2⟩

/-- The token is rotated while the first request of a call is on its way. -/
def rotatedRun : List (CallingAction Nat) :=
  [.call .go, .account (.begin 1 freshToken), .call (.reply (.error (.http 401))), .call .go,
    .call .go, .call .go, .account (.fetched 1 (some homePresence)), .account (.store 1 true),
    .call .updated, .call .go, .call .go, .call .go, .call (.reply (.ok 7)), .call .go, .call .go]

/-- The second request of that run is made with the new token. -/
theorem rotated_call_is_retried :
    ∃ t : Calling Nat, t = rotatedRun.foldl (Calling.step anyChecks)
        ⟨installedRun.foldl (Account.step anyChecks) Account.fresh, Call.start homeAuth⟩ ∧
      t.call.pc = .done (.ok 7) ∧ t.call.log.countP CallEvent.isSent ≤ 2 ∧
      ∃ later earlier c m, t.call.log = later ++ .sent freshToken :: earlier ∧
        freshToken = c.request ∧ Chosen homeAuth c m := by
  have hall := rotation_stays_in_scope anyChecks installedRun homeAuth rotatedRun _ _ rfl rfl
  have hlog : (rotatedRun.foldl (Calling.step anyChecks)
      ⟨installedRun.foldl (Account.step anyChecks) Account.fresh,
        Call.start homeAuth⟩).call.log =
      [.found ⟨some freshAuth, 3, 2, 5000⟩, .matched ⟨some freshAuth, 3, 2, 5000⟩,
        .received (.ok 7)] ++ .sent freshToken ::
        [.chose freshAuth ⟨some freshAuth, 3, 2, 5000⟩, .received (.error (.http 401)),
          .sent homeRequest] := by
    rfl
  rcases hall.2.1 _ _ _ hlog with ⟨_, hnil⟩ | ⟨c, m, hrequest, hchosen, _⟩
  · cases hnil
  · exact ⟨_, rfl, rfl, hall.1, _, _, c, m, hlog, hrequest, hchosen⟩

end HomeTunnel.NestLink
