import HomeTunnel.Lib.Runs

/-! # The native account authorization

`AUTH`, `REVISION` and `EPOCH` with the operations that change them: installs that wait for
the network between counting a revision and storing, logouts, failed checks and the renewals
of the monitor. A step is one section under the lock. The two `u64` counters are natural
numbers; a run of `n` steps counts neither beyond `n + 1`.
-/

namespace HomeTunnel.NestLink

structure AuthRequest where
  origin : String
  deviceId : String
  accessToken : String
deriving DecidableEq, Repr

structure Trust where
  algorithm : String
  publicKey : String
  realm : String
deriving DecidableEq, Repr

structure Presence where
  deviceId : String
  sessionId : String
  server : String
  key : String
  keySha256 : String
  familyCidr : String
  sourceCidr : String
  permitTrust : Trust
deriving DecidableEq, Repr

structure ValidatedAuth where
  request : AuthRequest
  presence : Presence
  validUntil : Nat
  revision : Nat
  epoch : Nat
deriving DecidableEq, Repr

/-- What the checks take from other libraries. -/
structure Checks where
  -- `normalize_portal_origin` gives the origin back unchanged
  normalOrigin : String → Bool
  uuid : String → Bool
  publicKey : String → Bool

def AuthRequest.valid (checks : Checks) (request : AuthRequest) : Bool :=
  checks.normalOrigin request.origin && checks.uuid request.deviceId &&
    32 ≤ request.accessToken.utf8ByteSize && request.accessToken.utf8ByteSize ≤ 256

def Presence.valid (checks : Checks) (request : AuthRequest) (presence : Presence) : Bool :=
  presence.deviceId = request.deviceId && presence.permitTrust.algorithm = "Ed25519" &&
    checks.uuid presence.sessionId && presence.permitTrust.realm ≠ "" &&
    presence.permitTrust.realm.utf8ByteSize ≤ 128 &&
    checks.publicKey presence.permitTrust.publicKey

/-- The validity of an authorization, in milliseconds. -/
def lifetime : Nat := 15000

/-- Where an install stands: its presence is being fetched, it is about to store, or it
has failed and is about to clear its own revision. -/
inductive InstallPc
  | idle
  | fetching (request : AuthRequest) (revision : Nat)
  | confirming (request : AuthRequest) (presence : Presence) (revision : Nat)
  | failed (revision : Nat)
  | done
deriving DecidableEq, Repr

inductive Event
  | began (i : Nat)
  | cleared
  | stored (i : Nat)
deriving DecidableEq, Repr

structure Account where
  auth : Option ValidatedAuth
  revision : Nat
  epoch : Nat
  now : Nat
  installs : Nat → InstallPc
  monitors : Nat → Option ValidatedAuth
  -- the newest first
  log : List Event

inductive Action
  | tick (elapsed : Nat)
  | clear
  | begin (i : Nat) (request : AuthRequest)
  | fetched (i : Nat) (reply : Option Presence)
  | store (i : Nat) (saved : Bool)
  | giveUp (i : Nat)
  | take (m : Nat)
  | answered (m : Nat) (reply : Option Presence)
deriving DecidableEq, Repr

namespace Account

def ready (s : Account) : Bool := s.auth.any fun auth => s.now < auth.validUntil

def snapshot (s : Account) : Option ValidatedAuth :=
  s.auth.filter fun auth => s.now < auth.validUntil

def clear (s : Account) : Account :=
  { s with
    auth := none
    revision := s.revision + 1
    epoch := s.epoch + 1
    log := .cleared :: s.log }

def invalidateRevision (s : Account) (revision : Nat) (requireInstalled : Bool) : Account :=
  if s.revision ≠ revision ∨ (requireInstalled ∧ s.auth.map (·.revision) ≠ some revision) then s
  else s.clear

/-- `store_validated_auth` keeps the epoch only if origin and presence stay. -/
def storeValidatedAuth (s : Account) (request : AuthRequest) (presence : Presence)
    (revision : Nat) : Account :=
  let changed := match s.auth with
    | none => true
    | some old => old.request.origin ≠ request.origin ∨ old.presence ≠ presence
  let epoch := if changed then s.epoch + 1 else s.epoch
  { s with
    auth := some ⟨request, presence, s.now + lifetime, revision, epoch⟩
    epoch := epoch }

def renewPresenceRevision (s : Account) (revision : Nat) : Account :=
  match s.auth with
  | none => s
  | some current =>
    if current.revision = revision then
      { s with auth := some { current with validUntil := s.now + lifetime } }
    else s

def moveInstall (s : Account) (i : Nat) (pc : InstallPc) : Account :=
  { s with installs := Function.update s.installs i pc }

/-- One section of the install `i`. -/
def begin (checks : Checks) (s : Account) (i : Nat) (request : AuthRequest) : Account :=
  match s.installs i with
  | .idle =>
    if !request.valid checks then s.moveInstall i .done
    else
      { s with
        revision := s.revision + 1
        log := .began i :: s.log }.moveInstall i (.fetching request (s.revision + 1))
  | _ => s

def fetched (checks : Checks) (s : Account) (i : Nat) (reply : Option Presence) : Account :=
  match s.installs i with
  | .fetching request revision =>
    match reply with
    | none => s.moveInstall i (.failed revision)
    | some presence =>
      if !presence.valid checks request then s.moveInstall i (.failed revision)
      else s.moveInstall i (.confirming request presence revision)
  | _ => s

/-- `saved` says whether the network profile could be saved. -/
def store (s : Account) (i : Nat) (saved : Bool) : Account :=
  match s.installs i with
  | .confirming request presence revision =>
    if revision ≠ s.revision then s.moveInstall i .done
    else if !saved then s.moveInstall i (.failed revision)
    else
      { s.storeValidatedAuth request presence revision with
        log := .stored i :: s.log }.moveInstall i .done
  | _ => s

def giveUp (s : Account) (i : Nat) : Account :=
  match s.installs i with
  | .failed revision => (s.invalidateRevision revision false).moveInstall i .done
  | _ => s

/-- The monitor takes the authorization whose presence it will ask for. -/
def take (s : Account) (m : Nat) : Account :=
  match s.monitors m with
  | none => { s with monitors := Function.update s.monitors m s.snapshot }
  | some _ => s

def answered (s : Account) (m : Nat) (reply : Option Presence) : Account :=
  match s.monitors m with
  | none => s
  | some auth =>
    let checked := if reply = some auth.presence then s.renewPresenceRevision auth.revision
      else s.invalidateRevision auth.revision true
    { checked with monitors := Function.update s.monitors m none }

def step (checks : Checks) (s : Account) : Action → Account
  | .tick elapsed => { s with now := s.now + elapsed }
  | .clear => s.clear
  | .begin i request => s.begin checks i request
  | .fetched i reply => s.fetched checks i reply
  | .store i saved => s.store i saved
  | .giveUp i => s.giveUp i
  | .take m => s.take m
  | .answered m reply => s.answered m reply

/-- The process has just started. -/
def fresh : Account where
  auth := none
  revision := 1
  epoch := 1
  now := 0
  installs := fun _ => .idle
  monitors := fun _ => none
  log := []

end Account

/-- The latest install that began or authorization that was cleared. -/
def lastChange : List Event → Option Event
  | [] => none
  | .began i :: _ => some (.began i)
  | .cleared :: _ => some .cleared
  | .stored _ :: before => lastChange before

/-- An install stores only if nothing began or was cleared since it began. -/
def Allowed (before : List Event) : Event → Prop
  | .stored i => lastChange before = some (.began i)
  | .began _ | .cleared => True

/-- Every event was allowed when it was noted. -/
def Lawful : List Event → Prop
  | [] => True
  | event :: before => Allowed before event ∧ Lawful before

theorem Lawful.allowed {log later before : List Event} {event : Event} (h : Lawful log)
    (hlog : log = later ++ event :: before) : Allowed before event := by
  subst hlog
  induction later with
  | nil => exact h.1
  | cons _ _ ih => exact ih h.2

/-- The revision of an install that may still store. -/
def InstallPc.pending : InstallPc → Option Nat
  | .fetching _ revision | .confirming _ _ revision => some revision
  | .idle | .failed _ | .done => none

/-- The same authorization, but for how long it is valid. -/
structure SameGrant (a b : ValidatedAuth) : Prop where
  request : a.request = b.request
  presence : a.presence = b.presence
  epoch : a.epoch = b.epoch
  revision : a.revision = b.revision

theorem SameGrant.refl (a : ValidatedAuth) : SameGrant a a := ⟨rfl, rfl, rfl, rfl⟩

namespace Account

/-- The authorization is installed, or a monitor is checking its presence. -/
def Known (s : Account) (a : ValidatedAuth) : Prop := s.auth = some a ∨ ∃ m, s.monitors m = some a

structure Inv (s : Account) : Prop where
  lawful : Lawful s.log
  epoch : ∀ a, s.auth = some a → a.epoch = s.epoch
  revision : ∀ a, s.Known a → a.revision ≤ s.revision
  pending : ∀ i r, (s.installs i).pending = some r →
    r ≤ s.revision ∧ (r = s.revision → lastChange s.log = some (.began i))
  unused : ∀ i r, (s.installs i).pending = some r → ∀ a, s.Known a → a.revision ≠ r
  -- what a monitor checks is still installed if its revision is
  held : ∀ m a, s.monitors m = some a → ∀ c, s.auth = some c → c.revision = a.revision →
    SameGrant c a

theorem inv_fresh : Inv fresh where
  lawful := trivial
  epoch := fun _ h => by cases h
  revision := fun _ h => by rcases h with h | ⟨_, h⟩ <;> cases h
  pending := fun _ _ h => by cases h
  unused := fun _ _ h => by cases h
  held := fun _ _ h => by cases h

variable {s t : Account} {checks : Checks}

theorem Inv.frame (h : s.Inv) (hauth : t.auth = s.auth) (hrevision : t.revision = s.revision)
    (hepoch : t.epoch = s.epoch) (hlog : t.log = s.log)
    (hpending : ∀ i r, (t.installs i).pending = some r → (s.installs i).pending = some r)
    (hmonitors : ∀ m a, t.monitors m = some a → s.monitors m = some a ∨ s.auth = some a) :
    t.Inv := by
  have hknown : ∀ a, t.Known a → s.Known a := by
    rintro a (ha | ⟨m, ha⟩)
    · exact .inl (hauth ▸ ha)
    · rcases hmonitors m a ha with hm | hin
      · exact .inr ⟨m, hm⟩
      · exact .inl hin
  refine ⟨hlog ▸ h.lawful, ?_, ?_, ?_, ?_, ?_⟩
  · rw [hauth, hepoch]
    exact h.epoch
  · rw [hrevision]
    exact fun a ha => h.revision a (hknown a ha)
  · rw [hrevision, hlog]
    exact fun i r hi => h.pending i r (hpending i r hi)
  · exact fun i r hi a ha => h.unused i r (hpending i r hi) a (hknown a ha)
  · rw [hauth]
    intro m a hm c hc hrev
    rcases hmonitors m a hm with hheld | hin
    · exact h.held m a hheld c hc hrev
    · cases hc.symm.trans hin
      exact SameGrant.refl a

theorem Inv.clear (h : s.Inv) : s.clear.Inv := by
  refine ⟨⟨trivial, h.lawful⟩, fun _ ha => (nomatch ha), ?_, ?_, ?_,
    fun _ _ _ _ hc => nomatch hc⟩
  · rintro a (ha | ha)
    · cases ha
    · exact (h.revision a (.inr ha)).trans (Nat.le_succ _)
  · intro i r hi
    have hle := (h.pending i r hi).1
    refine ⟨hle.trans (Nat.le_succ _), fun heq => ?_⟩
    dsimp only [Account.clear] at heq
    omega
  · rintro i r hi a (ha | ha)
    · cases ha
    · exact h.unused i r hi a (.inr ha)

theorem Inv.invalidateRevision (h : s.Inv) (revision : Nat) (requireInstalled : Bool) :
    (s.invalidateRevision revision requireInstalled).Inv := by
  unfold Account.invalidateRevision
  split
  · exact h
  · exact h.clear

theorem Inv.renewPresenceRevision (h : s.Inv) (revision : Nat) :
    (s.renewPresenceRevision revision).Inv := by
  unfold Account.renewPresenceRevision
  split
  · exact h
  · next current hcurrent =>
    split
    · have hknown : ∀ a,
          Known { s with auth := some { current with validUntil := s.now + lifetime } } a →
            ∃ b, s.Known b ∧ b.revision = a.revision := by
        rintro a (ha | ha)
        · cases ha
          exact ⟨current, .inl hcurrent, rfl⟩
        · exact ⟨a, .inr ha, rfl⟩
      refine ⟨h.lawful, ?_, ?_, h.pending, ?_, ?_⟩
      · rintro a ha
        cases ha
        exact h.epoch current hcurrent
      · intro a ha
        obtain ⟨b, hb, hrev⟩ := hknown a ha
        exact hrev ▸ h.revision b hb
      · intro i r hi a ha
        obtain ⟨b, hb, hrev⟩ := hknown a ha
        exact hrev ▸ h.unused i r hi b hb
      · intro m a hm c hc hrev
        cases hc
        obtain ⟨hrequest, hpresence, hepoch, hrevision⟩ := h.held m a hm current hcurrent hrev
        exact ⟨hrequest, hpresence, hepoch, hrevision⟩
    · exact h

theorem pending_moveInstall {installs : Nat → InstallPc} {i j r : Nat} {pc : InstallPc}
    (hpc : ∀ r, pc.pending = some r → (installs i).pending = some r)
    (h : (Function.update installs i pc j).pending = some r) : (installs j).pending = some r := by
  by_cases hj : j = i
  · rw [hj, Function.update_self] at h
    rw [hj]
    exact hpc r h
  · rwa [Function.update_of_ne hj] at h

theorem Inv.moveInstall (h : s.Inv) {i : Nat} {pc : InstallPc}
    (hpc : ∀ r, pc.pending = some r → (s.installs i).pending = some r) :
    (s.moveInstall i pc).Inv :=
  h.frame rfl rfl rfl rfl (fun _ _ => pending_moveInstall hpc) fun _ _ => .inl

/-- The revision of an install that begins is new. -/
theorem Inv.begin (h : s.Inv) (i : Nat) (request : AuthRequest) :
    (s.begin checks i request).Inv := by
  unfold Account.begin
  split
  · split
    · exact h.moveInstall fun r hr => by cases hr
    · refine ⟨⟨trivial, h.lawful⟩, h.epoch, ?_, ?_, ?_, h.held⟩
      · exact fun a ha => (h.revision a ha).trans (Nat.le_succ _)
      · intro j r hj
        by_cases hji : j = i
        · rw [hji] at hj ⊢
          dsimp only [Account.moveInstall] at hj
          rw [Function.update_self] at hj
          cases hj
          exact ⟨le_rfl, fun _ => rfl⟩
        · dsimp only [Account.moveInstall] at hj
          rw [Function.update_of_ne hji] at hj
          have hle := (h.pending j r hj).1
          refine ⟨hle.trans (Nat.le_succ _), fun heq => ?_⟩
          dsimp only [Account.moveInstall] at heq
          omega
      · intro j r hj a ha
        have hle := h.revision a ha
        by_cases hji : j = i
        · rw [hji] at hj
          dsimp only [Account.moveInstall] at hj
          rw [Function.update_self] at hj
          cases hj
          omega
        · dsimp only [Account.moveInstall] at hj
          rw [Function.update_of_ne hji] at hj
          exact h.unused j r hj a ha
  · exact h

/-- An install that stores is the only one with its revision. -/
theorem Inv.store (h : s.Inv) (i : Nat) (saved : Bool) : (s.store i saved).Inv := by
  unfold Account.store
  split
  · next request presence revision hpc =>
    have hpending : (s.installs i).pending = some revision := by rw [hpc]; rfl
    split
    · exact h.moveInstall fun r hr => by cases hr
    · next hcurrent =>
      have hrevision : revision = s.revision := not_not.mp hcurrent
      have hlast := (h.pending i revision hpending).2 hrevision
      split
      · exact h.moveInstall fun r hr => by cases hr
      · refine ⟨⟨hlast, h.lawful⟩, ?_, ?_, ?_, ?_, ?_⟩
        · rintro a ha
          cases ha
          rfl
        · rintro a (ha | ha)
          · cases ha
            exact hrevision.le
          · exact h.revision a (.inr ha)
        · intro j r hj
          exact h.pending j r (pending_moveInstall (fun r hr => by cases hr) hj)
        · rintro j r hj a (ha | ha)
          · cases ha
            rintro rfl
            -- the other install with this revision would have been the last to begin, too
            by_cases hji : j = i
            · rw [hji] at hj
              dsimp only [Account.moveInstall] at hj
              rw [Function.update_self] at hj
              cases hj
            · have hj' := pending_moveInstall (fun r hr => by cases hr) hj
              have hother := (h.pending j revision hj').2 hrevision
              exact hji (by simpa using hother.symm.trans hlast)
          · exact h.unused j r (pending_moveInstall (fun r hr => by cases hr) hj) a (.inr ha)
        · intro m a hm c hc hrev
          cases hc
          exact absurd hrev.symm (h.unused i revision hpending a (.inr ⟨m, hm⟩))
  · exact h

theorem Inv.step (h : s.Inv) (action : Action) : (s.step checks action).Inv := by
  cases action with
  | tick elapsed => exact h.frame rfl rfl rfl rfl (fun _ _ => id) fun _ _ => .inl
  | clear => exact h.clear
  | begin i request => exact h.begin i request
  | fetched i reply =>
    dsimp only [Account.step, Account.fetched]
    split
    · next request revision hpc =>
      have hkept : (s.installs i).pending = some revision := by rw [hpc]; rfl
      split
      · exact h.moveInstall fun r hr => by cases hr
      · split
        · exact h.moveInstall fun r hr => by cases hr
        · exact h.moveInstall fun r hr => hkept.trans hr
    · exact h
  | store i saved => exact h.store i saved
  | giveUp i =>
    dsimp only [Account.step, Account.giveUp]
    split
    · exact (h.invalidateRevision _ false).moveInstall fun r hr => by cases hr
    · exact h
  | take m =>
    dsimp only [Account.step, Account.take]
    split
    · refine h.frame rfl rfl rfl rfl (fun _ _ => id) fun n a hn => ?_
      by_cases hnm : n = m
      · rw [hnm] at hn
        dsimp only at hn
        rw [Function.update_self] at hn
        exact .inr (Option.filter_eq_some_iff.mp hn).1
      · dsimp only at hn
        rw [Function.update_of_ne hnm] at hn
        exact .inl hn
    · exact h
  | answered m reply =>
    dsimp only [Account.step, Account.answered]
    split
    · exact h
    · next auth hauth =>
      have hforget : ∀ t : Account, t.Inv → t.monitors = s.monitors →
          Inv { t with monitors := Function.update s.monitors m none } := by
        intro t ht hmonitors
        refine ht.frame rfl rfl rfl rfl (fun _ _ => id) fun n a hn => .inl ?_
        dsimp only at hn
        rw [hmonitors]
        by_cases hnm : n = m
        · rw [hnm, Function.update_self] at hn
          cases hn
        · rwa [Function.update_of_ne hnm] at hn
      split
      · refine hforget _ (h.renewPresenceRevision auth.revision) ?_
        unfold Account.renewPresenceRevision
        split
        · rfl
        · split <;> rfl
      · refine hforget _ (h.invalidateRevision auth.revision true) ?_
        unfold Account.invalidateRevision
        split <;> rfl

theorem Inv.run (h : s.Inv) (actions : List Action) :
    (actions.foldl (Account.step checks) s).Inv :=
  (Runs.always_of_step (fun _ action h => h.step action) h).last

/-- The five things that a step can do to `AUTH`, `REVISION` and `EPOCH`. -/
inductive Effect (s t : Account) : Prop
  | kept (hauth : t.auth = s.auth) (hrevision : t.revision = s.revision)
      (hepoch : t.epoch = s.epoch)
  | cleared (hauth : t.auth = none) (hrevision : t.revision = s.revision + 1)
      (hepoch : t.epoch = s.epoch + 1)
  | counted (hauth : t.auth = s.auth) (hrevision : t.revision = s.revision + 1)
      (hepoch : t.epoch = s.epoch)
  | stored (i : Nat) (request : AuthRequest) (presence : Presence)
      (hpending : (s.installs i).pending = some s.revision)
      (hauth : t.auth = (s.storeValidatedAuth request presence s.revision).auth)
      (hrevision : t.revision = s.revision)
      (hepoch : t.epoch = (s.storeValidatedAuth request presence s.revision).epoch)
  | renewed (c : ValidatedAuth) (hc : s.auth = some c)
      (hauth : t.auth = some { c with validUntil := s.now + lifetime })
      (hrevision : t.revision = s.revision) (hepoch : t.epoch = s.epoch)

theorem effect_invalidate (s : Account) (revision : Nat) (requireInstalled : Bool) :
    Effect s (s.invalidateRevision revision requireInstalled) := by
  unfold Account.invalidateRevision
  split
  · exact .kept rfl rfl rfl
  · exact .cleared rfl rfl rfl

theorem effect_renew (s : Account) (revision : Nat) :
    Effect s (s.renewPresenceRevision revision) := by
  unfold Account.renewPresenceRevision
  split
  · exact .kept rfl rfl rfl
  · next current hcurrent =>
    split
    · exact .renewed current hcurrent rfl rfl rfl
    · exact .kept rfl rfl rfl

/-- An effect is one on the cells only. -/
theorem Effect.congr {t' : Account} (h : Effect s t) (hauth : t'.auth = t.auth)
    (hrevision : t'.revision = t.revision) (hepoch : t'.epoch = t.epoch) : Effect s t' := by
  cases h with
  | kept ha hr he => exact .kept (hauth.trans ha) (hrevision.trans hr) (hepoch.trans he)
  | cleared ha hr he => exact .cleared (hauth.trans ha) (hrevision.trans hr) (hepoch.trans he)
  | counted ha hr he => exact .counted (hauth.trans ha) (hrevision.trans hr) (hepoch.trans he)
  | stored i request presence hp ha hr he =>
    exact .stored i request presence hp (hauth.trans ha) (hrevision.trans hr) (hepoch.trans he)
  | renewed c hc ha hr he =>
    exact .renewed c hc (hauth.trans ha) (hrevision.trans hr) (hepoch.trans he)

theorem effect_step (checks : Checks) (s : Account) (action : Action) :
    Effect s (s.step checks action) := by
  cases action with
  | tick elapsed => exact .kept rfl rfl rfl
  | clear => exact .cleared rfl rfl rfl
  | begin i request =>
    dsimp only [Account.step, Account.begin]
    split
    · split
      · exact .kept rfl rfl rfl
      · exact .counted rfl rfl rfl
    · exact .kept rfl rfl rfl
  | fetched i reply =>
    dsimp only [Account.step, Account.fetched]
    split
    · split
      · exact .kept rfl rfl rfl
      · split <;> exact .kept rfl rfl rfl
    · exact .kept rfl rfl rfl
  | store i saved =>
    dsimp only [Account.step, Account.store]
    split
    · next request presence revision hpc =>
      split
      · exact .kept rfl rfl rfl
      · next hrevision =>
        have hnewest : revision = s.revision := not_not.mp hrevision
        split
        · exact .kept rfl rfl rfl
        · exact .stored i request presence (by rw [hpc, ← hnewest]; rfl) (by rw [← hnewest]; rfl)
            rfl (by rw [← hnewest]; rfl)
    · exact .kept rfl rfl rfl
  | giveUp i =>
    dsimp only [Account.step, Account.giveUp]
    split
    · exact (effect_invalidate s _ false).congr rfl rfl rfl
    · exact .kept rfl rfl rfl
  | take m =>
    dsimp only [Account.step, Account.take]
    split <;> exact .kept rfl rfl rfl
  | answered m reply =>
    dsimp only [Account.step, Account.answered]
    split
    · exact .kept rfl rfl rfl
    · split
      · exact (effect_renew s _).congr rfl rfl rfl
      · exact (effect_invalidate s _ true).congr rfl rfl rfl

/-- The epoch goes up, or the origin and the presence stay. -/
def Follows (a : ValidatedAuth) (s t : Account) : Prop :=
  s.epoch < t.epoch ∨ s.epoch = t.epoch ∧ ∃ b, t.auth = some b ∧
    b.request.origin = a.request.origin ∧ b.presence = a.presence

theorem follows_refl {a : ValidatedAuth} (ha : s.auth = some a) : Follows a s s :=
  .inr ⟨rfl, a, ha, rfl, rfl⟩

theorem follows_store {a : ValidatedAuth} (ha : s.auth = some a) (request : AuthRequest)
    (presence : Presence) (revision : Nat) :
    Follows a s (s.storeValidatedAuth request presence revision) := by
  unfold Account.storeValidatedAuth
  rw [ha]
  by_cases hchanged : a.request.origin ≠ request.origin ∨ a.presence ≠ presence
  · left
    simp [hchanged]
  · right
    have hkept := not_or.mp hchanged
    refine ⟨by simp [hchanged], _, rfl, (not_not.mp hkept.1).symm, (not_not.mp hkept.2).symm⟩

theorem Effect.follows {a : ValidatedAuth} (h : Effect s t) (ha : s.auth = some a) :
    Follows a s t := by
  cases h with
  | kept hauth _ hepoch | counted hauth _ hepoch =>
    exact .inr ⟨hepoch.symm, a, hauth.trans ha, rfl, rfl⟩
  | cleared _ _ hepoch => exact .inl (by omega)
  | stored i request presence _ hauth _ hepoch =>
    have hstored := follows_store ha request presence s.revision
    unfold Follows at hstored ⊢
    rwa [hauth, hepoch]
  | renewed c hc hauth _ hepoch =>
    cases ha.symm.trans hc
    exact .inr ⟨hepoch.symm, _, hauth, rfl, rfl⟩

/-- The two counters go up by one at most, and never down. -/
theorem Effect.counters (h : Effect s t) :
    (s.epoch ≤ t.epoch ∧ t.epoch ≤ s.epoch + 1) ∧
      s.revision ≤ t.revision ∧ t.revision ≤ s.revision + 1 := by
  cases h with
  | kept _ hrevision hepoch | cleared _ hrevision hepoch | counted _ hrevision hepoch
    | renewed _ _ _ hrevision hepoch => omega
  | stored i request presence _ _ hrevision hepoch =>
    have hup : s.epoch ≤ (s.storeValidatedAuth request presence s.revision).epoch ∧
        (s.storeValidatedAuth request presence s.revision).epoch ≤ s.epoch + 1 := by
      dsimp only [Account.storeValidatedAuth]
      generalize (match s.auth with
        | none => true
        | some old => decide (old.request.origin ≠ request.origin ∨ old.presence ≠ presence)) = b
      cases b <;> simp
    omega

theorem counters_run (checks : Checks) (s : Account) (actions : List Action) :
    (s.epoch ≤ (actions.foldl (Account.step checks) s).epoch ∧
        (actions.foldl (Account.step checks) s).epoch ≤ s.epoch + actions.length) ∧
      (s.revision ≤ (actions.foldl (Account.step checks) s).revision ∧
        (actions.foldl (Account.step checks) s).revision ≤ s.revision + actions.length) := by
  induction actions generalizing s with
  | nil => simp
  | cons action rest ih =>
    have hfirst := (effect_step checks s action).counters
    have hrest := ih (s.step checks action)
    rw [List.foldl_cons, List.length_cons]
    omega

theorem now_step (checks : Checks) (s : Account) (action : Action) :
    s.now ≤ (s.step checks action).now := by
  cases action with
  | tick elapsed => exact Nat.le_add_right _ _
  | clear => exact Nat.le_refl _
  | begin i request =>
    dsimp only [Account.step, Account.begin]
    repeat' split
    all_goals exact Nat.le_refl _
  | fetched i reply =>
    dsimp only [Account.step, Account.fetched]
    repeat' split
    all_goals exact Nat.le_refl _
  | store i saved =>
    dsimp only [Account.step, Account.store]
    repeat' split
    all_goals exact Nat.le_refl _
  | giveUp i =>
    dsimp only [Account.step, Account.giveUp, Account.invalidateRevision]
    repeat' split
    all_goals exact Nat.le_refl _
  | take m =>
    dsimp only [Account.step, Account.take]
    split <;> exact Nat.le_refl _
  | answered m reply =>
    dsimp only [Account.step, Account.answered, Account.renewPresenceRevision,
      Account.invalidateRevision]
    repeat' split
    all_goals exact Nat.le_refl _

theorem follows_run {a : ValidatedAuth} (ha : s.auth = some a) (actions : List Action) :
    Follows a s (actions.foldl (Account.step checks) s) := by
  induction actions generalizing s a with
  | nil => exact follows_refl ha
  | cons action rest ih =>
    rw [List.foldl_cons]
    rcases (effect_step checks s action).follows ha with hup | ⟨hsame, b, hb, horigin, hpresence⟩
    · have hmono := (counters_run checks (s.step checks action) rest).1.1
      exact .inl (lt_of_lt_of_le hup hmono)
    · rcases ih hb with hup | ⟨hlast, c, hc, horigin', hpresence'⟩
      · exact .inl (hsame ▸ hup)
      · exact .inr ⟨hsame.trans hlast, c, hc, horigin'.trans horigin, hpresence'.trans hpresence⟩

/-- A monitor renews what it has checked, or nothing. -/
theorem Inv.answered_auth (h : s.Inv) {m : Nat} {reply : Option Presence} {c c' : ValidatedAuth}
    (hc : s.auth = some c) (hc' : (s.step checks (.answered m reply)).auth = some c') :
    c' = c ∨ ∃ a, s.monitors m = some a ∧ reply = some a.presence ∧ SameGrant c a ∧
      c' = { c with validUntil := s.now + lifetime } := by
  dsimp only [Account.step, Account.answered] at hc'
  split at hc'
  · exact .inl (Option.some.inj (hc'.symm.trans hc))
  · next a ha =>
    split at hc'
    · next hreply =>
      dsimp only [Account.renewPresenceRevision] at hc'
      rw [hc] at hc'
      dsimp only at hc'
      split at hc'
      · next hrevision =>
        exact .inr ⟨a, ha, hreply, h.held m a ha c hc hrevision, (Option.some.inj hc').symm⟩
      · exact .inl (Option.some.inj (hc'.symm.trans hc))
    · dsimp only [Account.invalidateRevision] at hc'
      split at hc'
      · exact .inl (Option.some.inj (hc'.symm.trans hc))
      · cases hc'

/-- In every run a revision names one authorization: an install that is still to store shares its
own with none that is installed or being checked, and a monitor that finds its revision again
finds what it has checked. -/
theorem revision_names_authorization (checks : Checks) (actions : List Action) :
    let s := actions.foldl (Account.step checks) fresh
    (∀ i r, (s.installs i).pending = some r → ∀ a, s.Known a → a.revision ≠ r) ∧
      ∀ m a, s.monitors m = some a → ∀ c, s.auth = some c → c.revision = a.revision →
        SameGrant c a := by
  intro s
  have h : s.Inv := inv_fresh.run actions
  exact ⟨h.unused, h.held⟩

end Account

def anyChecks : Checks := ⟨fun _ => true, fun _ => true, fun _ => true⟩

def homeRequest : AuthRequest := ⟨"https://home", "device", "0123456789abcdef0123456789abcdef"⟩

def homePresence : Presence :=
  ⟨"device", "session", "server", "key", "sha", "fam", "src", ⟨"Ed25519", "pk", "realm"⟩⟩

/-- An authorization is installed, and a monitor has asked for its presence. -/
def installedRun : List Action :=
  [.begin 0 homeRequest, .fetched 0 (some homePresence), .store 0 true, .take 0, .tick 5000]

end HomeTunnel.NestLink
