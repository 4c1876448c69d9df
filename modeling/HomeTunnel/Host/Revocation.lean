import HomeTunnel.Host.GrantLife
import HomeTunnel.Lib.Runs

/-! # Revocation is permanent

Callers of the store, pairing approvals and session approvals run side by side; a step is one
update of the store or one check between two of them. A call that fails, or that is given up
between two steps, is one that takes no further step.
-/

namespace HomeTunnel.Host.Grants

open Rfc3339 (Time)

/-- Where an `ApprovePairing` is. -/
inductive PairingPc
  | returned
  | loaded (id : String) (t : Transcript)
  | checked (grant : LocalGrant)
  | inserted (id : String)

/-- Where an `approveSession` is. -/
inductive ApprovalPc
  | returned
  | granted (session : Session) (grant : LocalGrant)
  | prepared (session : Session) (grant : LocalGrant)
  | bound (session : Session) (grant : LocalGrant)
  | authorized (session : Session) (grant : LocalGrant)

/-- The grant that the call holds a copy of. -/
def ApprovalPc.grant? : ApprovalPc → Option LocalGrant
  | .returned => none
  | .granted _ grant | .prepared _ grant | .bound _ grant | .authorized _ grant => some grant

/-- The session that the call has bound its grant to. -/
def ApprovalPc.binding? : ApprovalPc → Option (String × String)
  | .bound session grant | .authorized session grant => some (grant.id, session.sessionId)
  | _ => none

/-- The engine, of which only this matters here: a session without an id is not prepared. -/
structure Worker where
  prepares : SessionRef → Bool
  named : ∀ ref, prepares ref = true → ref.sessionId ≠ ""

/-- The service around the store; `starts` are the calls of `Engine.Start`, as grant and session. -/
structure State (B Who : Type) where
  store : Store B
  assistRevoked : Std.ExtTreeSet String := ∅
  pairings : Who → PairingPc := fun _ => .returned
  approvals : Who → ApprovalPc := fun _ => .returned
  starts : List (String × String) := []

inductive Action (Who : Type)
  | update (c : Callback) (saves : Bool)
  | revokeAssistInvite (id : String) (saves : Bool)
  | load (w : Who) (id : String) (p : Pairing) (now : Int)
  | check (w : Who) (decision : Decision) (now : Int) (later : Time) (grantJws : String)
  | insert (w : Who) (saves : Bool)
  | confirm (w : Who) (confirmed saves : Bool)
  | request (w : Who) (id : String) (expected : Option (Int × Int)) (session : Session) (now : Int)
  | prepare (w : Who)
  | bind (w : Who) (saves : Bool)
  | decide (w : Who) (answer : Session) (now : Int)
  | start (w : Who)

/-- `loadSession` on the server's answer, and the checks of `approveSession` up to its grant. -/
def requestGranted (d : DiskState) (id : String) (expected : Option (Int × Int)) (session : Session)
    (now : Int) : Bool :=
  d.enabled && session.sessionId == id && session.id == id && session.hostEndpointId == d.endpointId &&
  1 ≤ session.connectionEpoch && session.connectionEpoch ≤ 0xffffffff &&
  expected.all (fun e => session.connectionEpoch == e.1 && session.stateVersion == e.2) &&
  (session.state == .reconnecting ||
    (session.state == .pendingApproval && session.approvalExpiresAt.instant > now))

section Steps

variable {B Who : Type} [DecidableEq Who]

namespace State

def setPairing (s : State B Who) (w : Who) (pc : PairingPc) : State B Who :=
  { s with pairings := Function.update s.pairings w pc }

def setApproval (s : State B Who) (w : Who) (pc : ApprovalPc) : State B Who :=
  { s with approvals := Function.update s.approvals w pc }

/-- `CreateAssistInvite` takes the mark of a revoked invite away. -/
def unmark (c : Callback) (marks : Std.ExtTreeSet String) : Std.ExtTreeSet String :=
  match c with
  | .createAssistInvite id _ _ => marks.erase id
  | _ => marks

variable (I : Identity B) (W : Worker)

def step (s : State B Who) : Action Who → State B Who
  | .update c saves =>
    let (ok, store) := s.store.update I.codec c.work saves
    { s with
      store := store
      assistRevoked := if ok then unmark c s.assistRevoked else s.assistRevoked }
  | .revokeAssistInvite id saves =>
    { s with
      store := (s.store.update I.codec (Callback.revokeAssistGrants id).work saves).2
      assistRevoked := s.assistRevoked.insert id }
  | .load w id p now =>
    match loadPairing I s.store id p now with
    | some t => s.setPairing w (.loaded id t)
    | none => s.setPairing w .returned
  | .check w decision now later grantJws =>
    match s.pairings w with
    | .loaded id t =>
      match pairingGrant (s.store.snapshot I.codec) id t decision now later grantJws with
      | .ok grant => s.setPairing w (.checked grant)
      | .error _ => s.setPairing w .returned
    | _ => s
  | .insert w saves =>
    match s.pairings w with
    | .checked grant =>
      if grant.assistInviteId ≠ "" ∧ grant.assistInviteId ∈ s.assistRevoked then
        s.setPairing w .returned
      else
        let (ok, store) := s.store.update I.codec (insertGrant grant) saves
        { s with store := store }.setPairing w (if ok then .inserted grant.id else .returned)
    | _ => s
  | .confirm w confirmed saves =>
    match s.pairings w with
    | .inserted id =>
      if confirmed then s.setPairing w .returned
      else
        { s with store := (s.store.update I.codec (revokeGrant id) saves).2 }.setPairing w .returned
    | _ => s
  | .request w id expected session now =>
    if requestGranted (s.store.snapshot I.codec) id expected session now then
      match grantFor I s.store session now with
      | some grant => s.setApproval w (.granted session grant)
      | none => s.setApproval w .returned
    else s.setApproval w .returned
  | .prepare w =>
    match s.approvals w with
    | .granted session grant =>
      if W.prepares session.toSessionRef then s.setApproval w (.prepared session grant)
      else s.setApproval w .returned
    | _ => s
  | .bind w saves =>
    match s.approvals w with
    | .prepared session grant =>
      let (ok, store) := s.store.update I.codec (bindSession grant session.sessionId) saves
      { s with store := store }.setApproval w (if ok then .bound session grant else .returned)
    | _ => s
  | .decide w answer now =>
    match s.approvals w with
    | .bound session grant =>
      if answer.toSessionRef = session.toSessionRef ∧
          (checkAuthority I s.store ⟨answer, grant, false⟩ now).isSome then
        s.setApproval w (.authorized answer grant)
      else s.setApproval w .returned
    | _ => s
  | .start w =>
    match s.approvals w with
    | .authorized session grant =>
      { s with starts := (grant.id, session.sessionId) :: s.starts }.setApproval w .returned
    | _ => s

end State

end Steps

section Invariant

variable {B Who : Type}

abbrev State.grants (s : State B Who) : GrantMap := s.store.data.grants

/-- A one-session grant with this id is bound to this session. -/
structure BoundTo (grants : GrantMap) (id sessionId : String) : Prop where
  named : sessionId ≠ ""
  bound : ∃ g, grants[id]? = some g ∧ (g.mode = .oneSession → g.sessionId = sessionId)

theorem BoundTo.evolves {a b : GrantMap} {id sessionId : String} (h : BoundTo a id sessionId)
    (hevolves : Evolves a b) : BoundTo b id sessionId := by
  obtain ⟨g, hg, hbound⟩ := h.bound
  obtain ⟨g', hg', hlater⟩ := hevolves.kept id g hg
  refine ⟨h.named, g', hg', fun hmode => ?_⟩
  have hmode' : g.mode = .oneSession := hlater.mode.symm.trans hmode
  rw [hlater.bound hmode' (by rw [hbound hmode']; exact h.named), hbound hmode']

/-- What the store has of the copies that an approval holds. -/
structure ApprovalPc.Backed (pc : ApprovalPc) (grants : GrantMap) : Prop where
  held : ∀ grant, pc.grant? = some grant → ∃ g, grants[grant.id]? = some g
  binding : ∀ id sessionId, pc.binding? = some (id, sessionId) → BoundTo grants id sessionId
  named : ∀ session grant, pc = .prepared session grant → session.sessionId ≠ ""

theorem ApprovalPc.Backed.evolves {pc : ApprovalPc} {a b : GrantMap} (h : pc.Backed a)
    (hevolves : Evolves a b) : pc.Backed b := by
  refine ⟨fun grant hgrant => ?_, fun id sessionId hbinding => ?_, h.named⟩
  · obtain ⟨g, hg⟩ := h.held grant hgrant
    obtain ⟨g', hg', _⟩ := hevolves.kept _ g hg
    exact ⟨g', hg'⟩
  · exact (h.binding id sessionId hbinding).evolves hevolves

theorem ApprovalPc.backed_returned (grants : GrantMap) : ApprovalPc.returned.Backed grants where
  held _ h := by cases h
  binding _ _ h := by cases h
  named _ _ h := by cases h

namespace State

structure Sound (s : State B Who) : Prop where
  keyed : Keyed s.grants
  approvals : ∀ w, (s.approvals w).Backed s.grants
  starts : ∀ id sessionId, (id, sessionId) ∈ s.starts → BoundTo s.grants id sessionId

/-- What a step keeps, besides the grants that it finds. -/
structure Keeps (s t : State B Who) : Prop where
  evolves : Evolves s.grants t.grants
  sound : Sound t

variable {s t : State B Who}

theorem Sound.refl (h : Sound s) : Keeps s s := ⟨Evolves.refl _, h⟩

theorem Keeps.trans {u : State B Who} (hst : Keeps s t) (htu : Keeps t u) : Keeps s u :=
  ⟨hst.evolves.trans htu.evolves, htu.sound⟩

/-- Pairings may move on, and the store may change by a callback. -/
theorem Sound.store (h : Sound s) (hevolves : Evolves s.grants t.grants)
    (happrovals : t.approvals = s.approvals) (hstarts : t.starts = s.starts) : Keeps s t := by
  refine ⟨hevolves, hevolves.keyed h.keyed, fun w => ?_, fun id sessionId hmem => ?_⟩
  · rw [happrovals]
    exact (h.approvals w).evolves hevolves
  · rw [hstarts] at hmem
    exact (h.starts id sessionId hmem).evolves hevolves

theorem Keeps.setApproval [DecidableEq Who] (h : Keeps s t) (w : Who) {pc : ApprovalPc}
    (hpc : pc.Backed t.grants) : Keeps s (t.setApproval w pc) := by
  refine ⟨h.evolves, h.sound.keyed, fun v => ?_, h.sound.starts⟩
  by_cases hv : v = w
  · subst hv
    change (Function.update t.approvals v pc v).Backed t.grants
    rw [Function.update_self]
    exact hpc
  · change (Function.update t.approvals w pc v).Backed t.grants
    rw [Function.update_of_ne hv]
    exact h.sound.approvals v

/-- A service that has just opened a store. -/
def opened (store : Store B) : State B Who := { store := store }

theorem sound_opened {store : Store B} (h : Keyed store.data.grants) :
    Sound (opened store : State B Who) where
  keyed := h
  approvals _ := ApprovalPc.backed_returned _
  starts _ _ hmem := by cases hmem

variable {I : Identity B}

/-- An update by a callback that only lets grants live on. -/
theorem update_evolves {s : Store B} {work : DiskState → Option DiskState} {saves : Bool}
    (hwork : ∀ next, work s.data.copied = some next → Evolves s.data.grants next.grants) :
    Evolves s.data.grants (s.update I.codec work saves).2.data.grants := by
  rcases s.update_cases I.codec work saves with hupdate | ⟨next, bytes, hupdate, hnext, _⟩
  · rw [hupdate]
    exact Evolves.refl _
  · rw [hupdate]
    exact hwork next hnext

variable [DecidableEq Who] {W : Worker}

theorem step_keeps (h : Sound s) (action : Action Who) : Keeps s (s.step I W action) := by
  cases action with
  | update c saves => exact h.store (update_evolves fun _ => c.evolves) rfl rfl
  | revokeAssistInvite id saves =>
    exact h.store (update_evolves fun _ => (Callback.revokeAssistGrants id).evolves) rfl rfl
  | load w id p now =>
    unfold step
    dsimp only
    split <;> exact h.store (Evolves.refl _) rfl rfl
  | check w decision now later grantJws =>
    unfold step
    dsimp only
    split
    · split <;> exact h.store (Evolves.refl _) rfl rfl
    · exact h.refl
  | insert w saves =>
    unfold step
    dsimp only
    split
    · split
      · exact h.store (Evolves.refl _) rfl rfl
      · exact h.store (update_evolves fun _ hnext => (insertGrant_evolves hnext).1) rfl rfl
    · exact h.refl
  | confirm w confirmed saves =>
    unfold step
    dsimp only
    split
    · split
      · exact h.store (Evolves.refl _) rfl rfl
      · exact h.store (update_evolves fun _ hnext => (revokeGrant_evolves hnext).1) rfl rfl
    · exact h.refl
  | request w id expected session now =>
    unfold step
    dsimp only
    split
    · split
      · rename_i grant hgrant
        refine h.refl.setApproval w ⟨fun g hg => ?_, fun _ _ hb => (by cases hb), fun _ _ hp => (by cases hp)⟩
        cases hg
        obtain ⟨key, hkey, _⟩ := grantFor_eq_some hgrant
        exact ⟨grant, by rw [h.keyed key grant hkey]; exact hkey⟩
      · exact h.refl.setApproval w (ApprovalPc.backed_returned _)
    · exact h.refl.setApproval w (ApprovalPc.backed_returned _)
  | prepare w =>
    unfold step
    dsimp only
    split
    · rename_i session grant hpc
      split
      · rename_i hprepares
        refine h.refl.setApproval w ⟨fun g hg => ?_, fun _ _ hb => (by cases hb), fun _ _ hp => ?_⟩
        · cases hg
          exact (h.approvals w).held grant (by rw [hpc]; rfl)
        · cases hp
          exact W.named _ hprepares
      · exact h.refl.setApproval w (ApprovalPc.backed_returned _)
    · exact h.refl
  | bind w saves =>
    unfold step
    dsimp only
    split
    · rename_i session grant hpc
      rcases s.store.update_cases I.codec (bindSession grant session.sessionId) saves with
        hupdate | ⟨next, bytes, hupdate, hnext, _⟩
      · rw [hupdate]
        exact h.refl.setApproval w (ApprovalPc.backed_returned _)
      · rw [hupdate]
        obtain ⟨g, hg⟩ := (h.approvals w).held grant (by rw [hpc]; rfl)
        obtain ⟨hevolves, g', hg', hbound⟩ := bindSession_evolves (d := s.store.data.copied) h.keyed hg hnext
        have hkeeps : Keeps s { s with store := ⟨next, some bytes⟩ } := h.store hevolves rfl rfl
        refine hkeeps.setApproval w ⟨fun _ hgrant => ?_, fun _ _ hbinding => ?_, fun _ _ hp => ?_⟩
        · cases hgrant
          exact ⟨g', hg'⟩
        · cases hbinding
          exact ⟨(h.approvals w).named session grant hpc, g', hg', hbound⟩
        · cases hp
    · exact h.refl
  | decide w answer now =>
    unfold step
    dsimp only
    split
    · rename_i session grant hpc
      split
      · rename_i hauthorized
        have hbacked := h.approvals w
        rw [hpc] at hbacked
        refine h.refl.setApproval w ⟨hbacked.held, fun _ _ hbinding => ?_, fun _ _ hp => (by cases hp)⟩
        cases hbinding
        rw [hauthorized.1]
        exact hbacked.binding _ _ rfl
      · exact h.refl.setApproval w (ApprovalPc.backed_returned _)
    · exact h.refl
  | start w =>
    unfold step
    dsimp only
    split
    · rename_i session grant hpc
      have hbacked := h.approvals w
      rw [hpc] at hbacked
      have hkeeps : Keeps s { s with starts := (grant.id, session.sessionId) :: s.starts } := by
        refine ⟨Evolves.refl _, h.keyed, h.approvals, fun id sessionId hmem => ?_⟩
        rcases List.mem_cons.mp hmem with hsame | hmem
        · cases hsame
          exact hbacked.binding _ _ rfl
        · exact h.starts id sessionId hmem
      exact hkeeps.setApproval w (ApprovalPc.backed_returned _)
    · exact h.refl

variable (I W) in
def run (s : State B Who) (actions : List (Action Who)) : State B Who := actions.foldl (step I W) s

theorem run_keeps (h : Sound s) (actions : List (Action Who)) : Keeps s (s.run I W actions) := by
  induction actions generalizing s with
  | nil => exact h.refl
  | cons action actions ih =>
    have hstep := step_keeps (I := I) (W := W) h action
    exact hstep.trans (ih hstep.sound)

end State

/-- A revoked grant is of no use to any session. -/
theorem revoked_refused {I : Identity B} {store : Store B} (hkeyed : Keyed store.data.grants) {id : String}
    {g : LocalGrant} (hg : store.data.grants[id]? = some g) (hrevoked : g.revoked = true) :
    (∀ session now g', grantFor I store session now = some g' → g'.id ≠ id) ∧
      ∀ (r : Checked) now, r.grant.id = id → checkAuthority I store r now = none := by
  constructor
  · rintro session now g' hfor rfl
    obtain ⟨key, hkey, hfalse, _⟩ := grantFor_eq_some hfor
    rw [← hkeyed key g' hkey, hg] at hkey
    cases hkey
    rw [hrevoked] at hfalse
    cases hfalse
  · rintro r now rfl
    cases hcheck : checkAuthority I store r now with
    | none => rfl
    | some result =>
      obtain ⟨g', hg', hfalse, _⟩ := checkAuthority_eq_some hcheck
      rw [hg] at hg'
      cases hg'
      rw [hrevoked] at hfalse
      cases hfalse

end Invariant

/-- A codec that keeps the state itself. -/
def plainCodec : Codec DiskState where
  encode d := some d.copied
  decode := some
  decode_encode d b h := by
    cases h
    rfl

def sampleIdentity : Identity DiskState where
  curve := ⟨fun _ _ => true, id, fun _ _ _ => true⟩
  codec := plainCodec
  key := {}
  origin := ""

def sampleWorker : Worker where
  prepares ref := ref.sessionId != ""
  named ref h := by simpa using h

def sampleStore : Store DiskState :=
  ⟨{ grants := (∅ : GrantMap).insert "a" { id := "a", mode := .oneSession, version := 1 } }, none⟩

end HomeTunnel.Host.Grants
