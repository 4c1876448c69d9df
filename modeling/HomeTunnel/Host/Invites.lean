import HomeTunnel.Lib.Runs

/-! # Assist invites

Trust in an invite lives in four places: the service's `assistInvites` and
`assistRevoked`, and the store's `AssistInvites` and `FixedInvites`. The
operations advance one `s.mu` section or store update at a time; a restart
builds a new service from what the store has persisted.
-/

namespace HomeTunnel.Host.Invites

/-- Invite ids with the time at which they expire. -/
abbrev Expiries := Std.ExtTreeMap String Int

structure Disk where
  enabled : Bool := false
  fixedRevision : Int := 0
  assistInvites : Expiries := ∅
  fixedInvites : Expiries := ∅

structure Service where
  disabled : Bool
  assistInvites : Expiries
  assistRevoked : Std.ExtTreeSet String := ∅

structure State where
  disk : Disk
  service : Service

/-- The entries that have not expired. -/
def unexpired (invites : Expiries) (now : Int) : Expiries := invites.filter fun _ expiry => expiry > now

/-- `New`: the invites of both kinds that the store still holds. -/
def new (saved : Disk) (now : Int) : Service where
  disabled := !saved.enabled
  assistInvites :=
    if saved.enabled then
      if saved.fixedRevision > 0 then
        (unexpired saved.fixedInvites now).foldl (·.insert) (unexpired saved.assistInvites now)
      else unexpired saved.assistInvites now
    else ∅

def trustAccessInvite (id : String) (expires fixedRevision now : Int) (saves : Bool) (h : State) :
    State :=
  if h.service.disabled ∨ ¬ expires > now ∨ ¬ h.disk.enabled ∨
      (fixedRevision > 0 ∧ h.disk.fixedRevision ≠ fixedRevision) ∨ ¬ saves then h
  else
    { disk := { h.disk with
        assistInvites := h.disk.assistInvites.insert id expires
        fixedInvites :=
          if fixedRevision > 0 then h.disk.fixedInvites.insert id expires
          else h.disk.fixedInvites }
      service := { h.service with assistInvites := h.service.assistInvites.insert id expires } }

/-- The last section of `CreateAssistInvite`; `current` says that the service still runs
in the generation in which the call began. -/
def createAssistInvite (id : String) (expires now : Int) (current saves : Bool) (h : State) : State :=
  if h.service.disabled ∨ ¬ current ∨ ¬ h.disk.enabled ∨ ¬ saves then h
  else
    { disk := { h.disk with
        assistInvites := (unexpired h.disk.assistInvites now).insert id expires }
      service := { h.service with
        assistInvites := (unexpired h.service.assistInvites now).insert id expires
        assistRevoked := h.service.assistRevoked.erase id } }

/-- The section of `RevokeAssistInvite`, with `RevokeAssistGrants` on the store. -/
def revokeAssistInvite (id : String) (saves : Bool) (h : State) : State :=
  if id = "" ∨ id.utf8ByteSize > 128 then h
  else
    { disk :=
        if saves then { h.disk with assistInvites := h.disk.assistInvites.erase id } else h.disk
      service := { h.service with
        assistRevoked := h.service.assistRevoked.insert id
        assistInvites := h.service.assistInvites.erase id } }

/-- The first section of `SetEnabled(false)` and of `DisableLocally`, and the one of a
`RefreshKeys` that has seen a changed restore epoch. -/
def disableService (h : State) : State :=
  { h with service := { h.service with disabled := true, assistInvites := ∅ } }

/-- The store update of `SetEnabled(false)` and `RefreshKeys`, and of `Enroll`. -/
def disableStore (saves : Bool) (h : State) : State :=
  if saves then { h with disk := { h.disk with enabled := false, assistInvites := ∅ } } else h

/-- The last section of `SetEnabled`; `enabled` is false for a stale or disabling call. -/
def commitEnabled (enabled saves : Bool) (h : State) : State :=
  if saves then
    { disk := { h.disk with enabled := enabled }
      service := if enabled then { h.service with disabled := false } else h.service }
  else h

/-- `RevokeFixedGrants`. -/
def revokeFixed (saves : Bool) (h : State) : State :=
  if saves then
    { h with disk := { h.disk with
        assistInvites := h.disk.fixedInvites.foldl (fun m id _ => m.erase id) h.disk.assistInvites
        fixedInvites := ∅
        fixedRevision := 0 } }
  else h

/-- The section of `disableFixedLocally` after it; `previous` is the snapshot of the fixed
invites that the operation took. -/
def forgetFixed (previous : List String) (h : State) : State :=
  { h with service := { h.service with
      assistInvites := previous.foldl (·.erase) h.service.assistInvites } }

/-- The store update of `SetFixedPassword`. -/
def setFixedRevision (revision : Int) (saves : Bool) (h : State) : State :=
  if h.disk.enabled ∧ saves then { h with disk := { h.disk with fixedRevision := revision } } else h

/-- `DisableLocally` on the store. -/
def disableLocally (saves : Bool) (h : State) : State :=
  if saves then
    { h with disk := { h.disk with enabled := false, assistInvites := ∅, fixedInvites := ∅ } }
  else h

inductive Action
  | trust (id : String) (expires fixedRevision now : Int) (saves : Bool)
  | create (id : String) (expires now : Int) (current saves : Bool)
  | revoke (id : String) (saves : Bool)
  | disableService
  | disableStore (saves : Bool)
  | commitEnabled (enabled saves : Bool)
  | revokeFixed (saves : Bool)
  | forgetFixed (previous : List String)
  | setFixedRevision (revision : Int) (saves : Bool)
  | disableLocally (saves : Bool)
  | restart (now : Int)
deriving DecidableEq, Repr

def step (h : State) : Action → State
  | .trust id expires fixedRevision now saves =>
    trustAccessInvite id expires fixedRevision now saves h
  | .create id expires now current saves => createAssistInvite id expires now current saves h
  | .revoke id saves => revokeAssistInvite id saves h
  | .disableService => disableService h
  | .disableStore saves => disableStore saves h
  | .commitEnabled enabled saves => commitEnabled enabled saves h
  | .revokeFixed saves => revokeFixed saves h
  | .forgetFixed previous => forgetFixed previous h
  | .setFixedRevision revision saves => setFixedRevision revision saves h
  | .disableLocally saves => disableLocally saves h
  | .restart now => { h with service := new h.disk now }

def run (h : State) (actions : List Action) : State := actions.foldl step h

/-- `handleServer` would approve a pairing made through the invite: it is trusted and
carries no revocation mark. -/
def autoApproves (s : Service) (id : String) : Bool :=
  s.assistInvites.contains id && !s.assistRevoked.contains id

/-- The action is a call of `trustAccessInvite` or `CreateAssistInvite` that adds the id. -/
def adds (id : String) (h : State) : Action → Prop
  | .trust id' expires fixedRevision now saves =>
    id' = id ∧ ¬ (h.service.disabled ∨ ¬ expires > now ∨ ¬ h.disk.enabled ∨
      (fixedRevision > 0 ∧ h.disk.fixedRevision ≠ fixedRevision) ∨ ¬ saves)
  | .create id' _ _ current saves =>
    id' = id ∧ ¬ (h.service.disabled ∨ ¬ current ∨ ¬ h.disk.enabled ∨ ¬ saves)
  | _ => False

/-- The action is a restart that finds the id among the fixed invites in force. -/
def revives (id : String) (h : State) : Action → Prop
  | .restart now => h.disk.enabled ∧ h.disk.fixedRevision > 0 ∧
      ∃ expiry, h.disk.fixedInvites[id]? = some expiry ∧ expiry > now
  | _ => False

variable {invites : Expiries} {now : Int} {id : String} {h : State}

theorem mem_unexpired :
    id ∈ unexpired invites now ↔ ∃ expiry, invites[id]? = some expiry ∧ expiry > now := by
  unfold unexpired
  rw [Std.ExtTreeMap.mem_iff_isSome_getElem?, Std.ExtTreeMap.getElem?_filter]
  cases invites[id]? <;> simp

theorem mem_foldl_insert (entries : List (String × Int)) (m : Expiries) :
    id ∈ entries.foldl (fun m entry => m.insert entry.1 entry.2) m ↔
      id ∈ m ∨ id ∈ entries.map Prod.fst := by
  induction entries generalizing m with
  | nil => simp
  | cons entry rest ih =>
    simp only [List.foldl_cons, ih, Std.ExtTreeMap.mem_insert, List.map_cons, List.mem_cons]
    grind

theorem mem_foldl_erase (ids : List String) (m : Expiries) :
    id ∈ ids.foldl (·.erase) m → id ∈ m := by
  induction ids generalizing m with
  | nil => simp
  | cons other rest ih =>
    intro h
    exact Std.ExtTreeMap.mem_of_mem_erase (ih _ h)

theorem mem_foldl_insert_map (entries m : Expiries) :
    id ∈ entries.foldl (·.insert) m ↔ id ∈ m ∨ id ∈ entries := by
  rw [Std.ExtTreeMap.foldl_eq_foldl_toList, mem_foldl_insert,
    Std.ExtTreeMap.map_fst_toList_eq_keys, Std.ExtTreeMap.mem_keys]

theorem mem_new {saved : Disk} :
    id ∈ (new saved now).assistInvites ↔
      saved.enabled ∧ (id ∈ unexpired saved.assistInvites now ∨
        saved.fixedRevision > 0 ∧ id ∈ unexpired saved.fixedInvites now) := by
  unfold new
  by_cases henabled : saved.enabled = true
  · by_cases hfixed : saved.fixedRevision > 0
    · simp [henabled, hfixed, mem_foldl_insert_map]
    · simp [henabled, hfixed]
  · simp [henabled]

theorem autoApproves_iff {s : Service} :
    autoApproves s id = true ↔ id ∈ s.assistInvites ∧ id ∉ s.assistRevoked := by
  rw [autoApproves, Bool.and_eq_true, Std.ExtTreeMap.contains_iff_mem, Bool.not_eq_true',
    ← Bool.not_eq_true, Std.ExtTreeSet.contains_iff_mem]

theorem autoApproves_new {saved : Disk} :
    autoApproves (new saved now) id = true ↔ id ∈ (new saved now).assistInvites := by
  simp [autoApproves, new]

/-- The revocation stands: the store has no assist invite with the id, and the service
would not approve a pairing through it. -/
structure Revoked (id : String) (h : State) : Prop where
  disk : id ∉ h.disk.assistInvites
  service : ¬ autoApproves h.service id

theorem revokeAssistInvite_revoked (hid : id ≠ "") (hlen : id.utf8ByteSize ≤ 128) (h : State) :
    Revoked id (revokeAssistInvite id true h) := by
  have hguard : ¬ (id = "" ∨ id.utf8ByteSize > 128) := by
    simp only [not_or, hid, not_false_eq_true, true_and]
    omega
  constructor <;> simp [revokeAssistInvite, hguard, autoApproves]

/-- What adds no trust in the id and keeps its mark leaves the revocation standing. -/
theorem Revoked.of_less {h' : State} (hrevoked : Revoked id h)
    (hdisk : id ∈ h'.disk.assistInvites → id ∈ h.disk.assistInvites)
    (hservice : id ∈ h'.service.assistInvites → id ∈ h.service.assistInvites)
    (hmark : id ∈ h.service.assistRevoked → id ∈ h'.service.assistRevoked) : Revoked id h' := by
  refine ⟨fun hmem => hrevoked.disk (hdisk hmem), fun happroves => hrevoked.service ?_⟩
  obtain ⟨htrusted, hunmarked⟩ := autoApproves_iff.mp happroves
  exact autoApproves_iff.mpr ⟨hservice htrusted, fun hmem => hunmarked (hmark hmem)⟩

theorem mem_of_mem_unexpired (hmem : id ∈ unexpired invites now) : id ∈ invites := by
  obtain ⟨expiry, hget, _⟩ := mem_unexpired.mp hmem
  simp [Std.ExtTreeMap.mem_iff_isSome_getElem?, hget]

theorem mem_of_mem_insert_ne {id' : String} {expires : Int} (hne : id' ≠ id)
    (hmem : id ∈ invites.insert id' expires) : id ∈ invites := by
  simpa [Std.ExtTreeMap.mem_insert, hne] using hmem

/-- Any step but one that adds the id, or a restart that finds it among the fixed invites,
leaves the revocation standing. -/
theorem step_revoked {action : Action} (hrevoked : Revoked id h) (hadds : ¬ adds id h action)
    (hrevives : ¬ revives id h action) : Revoked id (step h action) := by
  cases action with
  | trust id' expires fixedRevision now saves =>
    simp only [step, trustAccessInvite]
    split
    · exact hrevoked
    · next hopen =>
      have hne : id' ≠ id := fun heq => hadds ⟨heq, hopen⟩
      exact hrevoked.of_less (mem_of_mem_insert_ne hne) (mem_of_mem_insert_ne hne) fun hmark => hmark
  | create id' expires now current saves =>
    simp only [step, createAssistInvite]
    split
    · exact hrevoked
    · next hopen =>
      have hne : id' ≠ id := fun heq => hadds ⟨heq, hopen⟩
      refine hrevoked.of_less ?_ ?_ ?_
      · exact fun hmem => mem_of_mem_unexpired (mem_of_mem_insert_ne hne hmem)
      · exact fun hmem => mem_of_mem_unexpired (mem_of_mem_insert_ne hne hmem)
      · intro hmark
        simpa [Std.ExtTreeSet.mem_erase, hne] using hmark
  | revoke id' saves =>
    simp only [step, revokeAssistInvite]
    split
    · exact hrevoked
    · refine hrevoked.of_less ?_ Std.ExtTreeMap.mem_of_mem_erase ?_
      · cases saves with
        | true => exact Std.ExtTreeMap.mem_of_mem_erase
        | false => exact fun hmem => hmem
      · intro hmark
        simp [hmark]
  | disableService =>
    exact hrevoked.of_less (fun hmem => hmem) (by simp [step, disableService]) fun hmark => hmark
  | disableStore saves =>
    cases saves with
    | true => exact hrevoked.of_less (by simp [step, disableStore]) (fun hmem => hmem) fun hmark => hmark
    | false => exact hrevoked
  | commitEnabled enabled saves =>
    cases saves with
    | true =>
      cases enabled <;>
        exact hrevoked.of_less (fun hmem => hmem) (fun hmem => hmem) fun hmark => hmark
    | false => exact hrevoked
  | revokeFixed saves =>
    cases saves with
    | true =>
      refine hrevoked.of_less ?_ (fun hmem => hmem) fun hmark => hmark
      simp only [step, revokeFixed, reduceIte, Std.ExtTreeMap.foldl_eq_foldl_toList]
      intro hmem
      apply mem_foldl_erase (h.disk.fixedInvites.toList.map Prod.fst)
      rw [List.foldl_map]
      exact hmem
    | false => exact hrevoked
  | forgetFixed previous =>
    exact hrevoked.of_less (fun hmem => hmem) (mem_foldl_erase previous _) fun hmark => hmark
  | setFixedRevision revision saves =>
    simp only [step, setFixedRevision]
    split
    · exact hrevoked.of_less (fun hmem => hmem) (fun hmem => hmem) fun hmark => hmark
    · exact hrevoked
  | disableLocally saves =>
    cases saves with
    | true =>
      exact hrevoked.of_less (by simp [step, disableLocally]) (fun hmem => hmem) fun hmark => hmark
    | false => exact hrevoked
  | restart now =>
    refine ⟨hrevoked.disk, fun happroves => ?_⟩
    obtain ⟨henabled, hassist | ⟨hrevision, hfixed⟩⟩ := mem_new.mp (autoApproves_new.mp happroves)
    · exact hrevoked.disk (mem_of_mem_unexpired hassist)
    · exact hrevives ⟨henabled, hrevision, mem_unexpired.mp hfixed⟩

theorem step_revives {action : Action} (hrevives : revives id h action) :
    autoApproves (step h action).service id := by
  cases action with
  | restart now =>
    obtain ⟨henabled, hrevision, hfixed⟩ := hrevives
    exact autoApproves_new.mpr
      (mem_new.mpr ⟨henabled, .inr ⟨hrevision, mem_unexpired.mpr hfixed⟩⟩)
  | _ => exact hrevives.elim

/-- After a revocation that reached the store, and until the id is added again, no service
approves pairings through it exactly when no restart finds it among the fixed invites. -/
theorem revoked_stays_revoked_iff (id : String) (hid : id ≠ "") (hlen : id.utf8ByteSize ≤ 128)
    (h : State) (before after : List Action)
    (hadds : Runs.Along step (fun s action => ¬ adds id s action)
      (run h (before ++ [.revoke id true])) after) :
    Runs.Always step (fun s => ¬ autoApproves s.service id)
        (run h (before ++ [.revoke id true])) after ↔
      Runs.Along step (fun s action => ¬ revives id s action)
        (run h (before ++ [.revoke id true])) after := by
  have hrevoked : Revoked id (run h (before ++ [.revoke id true])) := by
    simp only [run, List.foldl_append, List.foldl_cons, List.foldl_nil, step]
    exact revokeAssistInvite_revoked hid hlen _
  generalize run h (before ++ [.revoke id true]) = s at hrevoked hadds
  induction after generalizing s with
  | nil => simpa [Runs.Always, Runs.Along] using hrevoked.service
  | cons action rest ih =>
    simp only [Runs.Always, Runs.Along]
    by_cases hrevives : revives id s action
    · have hback := step_revives hrevives
      simp only [hrevives, not_true_eq_false, false_and, iff_false, not_and]
      exact fun _ halways => halways.head hback
    · simp only [hrevoked.service, hrevives, Bool.false_eq_true, not_false_eq_true, true_and]
      exact ih _ (step_revoked hrevoked hadds.1 hrevives) hadds.2

/-- A host that has trusted the invite `a` under a fixed password. -/
def fixedPasswordHost : State :=
  run { disk := {}, service := new {} 0 }
    [.commitEnabled true true, .setFixedRevision 1 true, .trust "a" 100 1 0 true]

theorem revoked_stays_revoked_fixed_disabled :
    Runs.Always step (fun s => ¬ autoApproves s.service "a")
      (run fixedPasswordHost ([] ++ [.revoke "a" true])) [.revokeFixed true, .restart 0] := by
  refine (revoked_stays_revoked_iff "a" (by decide) (by decide) fixedPasswordHost []
    [.revokeFixed true, .restart 0] ?_).mpr ?_
  · exact ⟨id, id, trivial⟩
  · refine ⟨id, ?_, trivial⟩
    rintro ⟨_, hrevision, _⟩
    revert hrevision
    decide

/-- The restart after the revocation trusts the invite again. -/
theorem restart_trusts_revoked_fixed :
    Runs.Along step (fun s action => ¬ adds "a" s action)
        (run fixedPasswordHost ([] ++ [.revoke "a" true])) [.restart 0] ∧
      ¬ Runs.Always step (fun s => ¬ autoApproves s.service "a")
        (run fixedPasswordHost ([] ++ [.revoke "a" true])) [.restart 0] := by
  have hlen : ¬ 128 < "a".utf8ByteSize := by decide
  have hfixed : revives "a" (run fixedPasswordHost ([] ++ [.revoke "a" true])) (.restart 0) := by
    refine ⟨rfl, by decide, 100, ?_, by decide⟩
    simp [fixedPasswordHost, run, step, revokeAssistInvite, trustAccessInvite, setFixedRevision,
      commitEnabled, new, hlen]
  exact ⟨⟨id, trivial⟩, fun halways => halways.2 (step_revives hfixed)⟩

end HomeTunnel.Host.Invites
