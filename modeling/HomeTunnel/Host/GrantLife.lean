import HomeTunnel.Host.Pairing

/-! # The life of a grant

No callback of the store removes a grant, takes a revocation back, lowers a version or binds a
one-session grant a second time: each leaves behind a later state of every grant it found.
-/

namespace HomeTunnel.Host.Grants

/-- `g'` is what `g` may have become. -/
structure LocalGrant.Later (g g' : LocalGrant) : Prop where
  id : g'.id = g.id
  mode : g'.mode = g.mode
  invite : g'.assistInviteId = g.assistInviteId
  revoked : g.revoked = true → g'.revoked = true
  version : g.version ≤ g'.version
  raised : g.revoked = false → g'.revoked = true → g.version < g'.version
  bound : g.mode = .oneSession → g.sessionId ≠ "" → g'.sessionId = g.sessionId

theorem LocalGrant.Later.refl (g : LocalGrant) : g.Later g where
  id := rfl
  mode := rfl
  invite := rfl
  revoked h := h
  version := le_rfl
  raised hfalse htrue := by
    rw [hfalse] at htrue
    cases htrue
  bound _ _ := rfl

theorem LocalGrant.Later.trans {a b c : LocalGrant} (hab : a.Later b) (hbc : b.Later c) : a.Later c where
  id := hbc.id.trans hab.id
  mode := hbc.mode.trans hab.mode
  invite := hbc.invite.trans hab.invite
  revoked h := hbc.revoked (hab.revoked h)
  version := hab.version.trans hbc.version
  raised hfalse htrue := by
    cases hb : b.revoked with
    | true => exact (hab.raised hfalse hb).trans_le hbc.version
    | false => exact hab.version.trans_lt (hbc.raised hb htrue)
  bound hmode hne := by
    have hb := hab.bound hmode hne
    rw [hbc.bound (hab.mode.trans hmode) (by rw [hb]; exact hne), hb]

theorem LocalGrant.later_revoke (g : LocalGrant) : g.Later g.revoke where
  id := rfl
  mode := rfl
  invite := rfl
  revoked _ := rfl
  version := by simp [LocalGrant.revoke]
  raised _ _ := by simp [LocalGrant.revoke]
  bound _ _ := rfl

variable {id : String} {g : LocalGrant} {d next : DiskState}

theorem LocalGrant.later_bind (g : LocalGrant) (h : g.sessionId ≠ "" → g.sessionId = id) :
    g.Later { g with sessionId := id } where
  id := rfl
  mode := rfl
  invite := rfl
  revoked h := h
  version := le_rfl
  raised hfalse htrue := by
    have hsame : g.revoked = true := htrue
    rw [hsame] at hfalse
    cases hfalse
  bound _ hne := (h hne).symm

/-- Every grant is stored under its own id. -/
def Keyed (grants : GrantMap) : Prop := ∀ (id : String) g, grants[id]? = some g → g.id = id

/-- The second map has a later state of every grant of the first. -/
structure Evolves (a b : GrantMap) : Prop where
  kept : ∀ (id : String) g, a[id]? = some g → ∃ g', b[id]? = some g' ∧ g.Later g'
  keyed : Keyed a → Keyed b

theorem Evolves.refl (a : GrantMap) : Evolves a a :=
  ⟨fun _ g hg => ⟨g, hg, LocalGrant.Later.refl g⟩, fun h => h⟩

theorem Evolves.trans {a b c : GrantMap} (hab : Evolves a b) (hbc : Evolves b c) : Evolves a c := by
  refine ⟨fun id g hg => ?_, fun h => hbc.keyed (hab.keyed h)⟩
  obtain ⟨g₁, hg₁, hlater₁⟩ := hab.kept id g hg
  obtain ⟨g₂, hg₂, hlater₂⟩ := hbc.kept id g₁ hg₁
  exact ⟨g₂, hg₂, hlater₁.trans hlater₂⟩

theorem getElem?_insert (grants : GrantMap) (id key : String) (g : LocalGrant) :
    (grants.insert id g)[key]? = if id = key then some g else grants[key]? := by
  rw [Std.ExtTreeMap.getElem?_insert]
  simp

theorem Evolves.insert_later {grants : GrantMap} {g' : LocalGrant} (hg : grants[id]? = some g)
    (hlater : g.Later g') : Evolves grants (grants.insert id g') := by
  refine ⟨fun key other hother => ?_, fun hkeyed key other hother => ?_⟩
  · rw [getElem?_insert]
    by_cases hkey : id = key
    · subst hkey
      rw [hg] at hother
      cases hother
      exact ⟨g', if_pos rfl, hlater⟩
    · exact ⟨other, by rw [if_neg hkey, hother], LocalGrant.Later.refl other⟩
  · rw [getElem?_insert] at hother
    by_cases hkey : id = key
    · subst hkey
      rw [if_pos rfl] at hother
      cases hother
      exact hlater.id.trans (hkeyed id g hg)
    · rw [if_neg hkey] at hother
      exact hkeyed key other hother

theorem Evolves.insert_fresh {grants : GrantMap} (hfresh : grants[g.id]? = none) :
    Evolves grants (grants.insert g.id g) := by
  refine ⟨fun key other hother => ?_, fun hkeyed key other hother => ?_⟩
  · have hkey : g.id ≠ key := by
      rintro rfl
      rw [hfresh] at hother
      cases hother
    exact ⟨other, by rw [getElem?_insert, if_neg hkey, hother], LocalGrant.Later.refl other⟩
  · rw [getElem?_insert] at hother
    by_cases hkey : g.id = key
    · rw [if_pos hkey] at hother
      cases hother
      exact hkey
    · rw [if_neg hkey] at hother
      exact hkeyed key other hother

theorem revokeWhere_evolves (kind : LocalGrant → Bool) (grants : GrantMap) :
    Evolves grants (revokeWhere kind grants) := by
  have hlater : ∀ g : LocalGrant, g.Later (if !kind g || g.revoked then g else g.revoke) := by
    intro g
    split
    · exact LocalGrant.Later.refl g
    · exact g.later_revoke
  refine ⟨fun id g hg => ⟨_, ?_, hlater g⟩, fun hkeyed id g hg => ?_⟩
  · rw [revokeWhere, Std.ExtTreeMap.getElem?_map, hg]
    rfl
  · rw [revokeWhere, Std.ExtTreeMap.getElem?_map, Option.map_eq_some_iff] at hg
    obtain ⟨old, hold, rfl⟩ := hg
    exact (hlater old).id.trans (hkeyed id old hold)

theorem revokeGrant_evolves (h : revokeGrant id d = some next) :
    Evolves d.grants next.grants ∧ ∃ g, d.grants[id]? = some g ∧ next.grants[id]? = some g.revoke := by
  unfold revokeGrant at h
  split at h
  · cases h
  · rename_i g hg
    cases h
    refine ⟨Evolves.insert_later hg g.later_revoke, g, hg, ?_⟩
    rw [getElem?_insert, if_pos rfl]

theorem insertGrant_evolves {grant : LocalGrant} (h : insertGrant grant d = some next) :
    Evolves d.grants next.grants ∧ next.grants = d.grants.insert grant.id grant := by
  unfold insertGrant at h
  split at h
  · cases h
  · rename_i hfresh
    cases h
    rw [not_or] at hfresh
    have hnone : d.grants[grant.id]? = none :=
      Std.ExtTreeMap.getElem?_eq_none fun hmem => hfresh.1 (Std.ExtTreeMap.mem_iff_contains.mp hmem)
    exact ⟨Evolves.insert_fresh hnone, rfl⟩

/-- Binding writes the record of the grant that it has read, with the session in it. -/
theorem bindSession_evolves {grant : LocalGrant} (hkeyed : Keyed d.grants)
    (hg : d.grants[grant.id]? = some g) (h : bindSession grant id d = some next) :
    Evolves d.grants next.grants ∧ ∃ g', next.grants[grant.id]? = some g' ∧
      (g'.mode = .oneSession → g'.sessionId = id) := by
  unfold bindSession at h
  rw [hg] at h
  dsimp only [Option.getD_some] at h
  split at h
  · cases h
  · rename_i hbind
    cases h
    have hid : g.id = grant.id := hkeyed grant.id g hg
    simp only [not_or, not_and, not_not] at hbind
    obtain ⟨_, _, _, hsession⟩ := hbind
    by_cases hmode : g.mode = .oneSession
    · rw [if_pos hmode]
      have hlater : g.Later { g with sessionId := id } := by
        refine g.later_bind fun hne => ?_
        by_contra hother
        exact hsession hne hother hmode
      refine ⟨?_, { g with sessionId := id }, ?_, fun _ => rfl⟩
      · exact Evolves.insert_later (hid ▸ hg) hlater
      · rw [getElem?_insert, if_pos hid]
    · rw [if_neg hmode]
      refine ⟨Evolves.insert_later (hid ▸ hg) (LocalGrant.Later.refl g), g, ?_, fun h => absurd h hmode⟩
      rw [getElem?_insert, if_pos hid]

theorem Callback.evolves (c : Callback) (h : c.work d = some next) :
    Evolves d.grants next.grants := by
  cases c with
  | revokeGrant id => exact (revokeGrant_evolves h).1
  | revokeAssistGrants | revokeFixedGrants | disableLocally | enroll | disable | disableUnattended =>
    cases h
    exact revokeWhere_evolves _ _
  | refreshKeys keyset changed =>
    cases h
    cases changed with
    | true => exact revokeWhere_evolves _ _
    | false => exact Evolves.refl _
  | commitEnabled | setEmergencyKey | commitUnattended =>
    cases h
    exact Evolves.refl _
  | setFixedRevision | trustAccessInvite | createAssistInvite | exportForService
  | setUnattendedController =>
    simp only [Callback.work] at h
    split at h
    all_goals
      cases h
      try exact Evolves.refl _

end HomeTunnel.Host.Grants
