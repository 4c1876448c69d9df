import HomeTunnel.Agent.Managed

/-! # What the agent reads back

The supervisor joins the collected domains and ports with commas, and the agent splits, trims
and checks them again. Here is which of them it reads, and as what.
-/

namespace HomeTunnel.Agent

/-- What is used of the Unicode table: spaces and ASCII characters other than capital letters
stay, and what changes becomes a letter. -/
structure LowerCase (toLower : Char → Char) : Prop where
  space : ∀ c, isSpace c = true → toLower c = c
  ascii : ∀ c, c.toNat < 128 → ¬ ('A' ≤ c ∧ c ≤ 'Z') → toLower c = c
  letter : ∀ c, toLower c = c ∨ ('a' ≤ toLower c ∧ toLower c ≤ 'z') ∨ 128 ≤ (toLower c).toNat

variable {c x : Char} {p : Char → Bool} {text : String} {ports : List Int}

theorem LowerCase.comma {toLower : Char → Char} (h : LowerCase toLower) :
    toLower c = ',' ↔ c = ',' := by
  constructor
  · intro hc
    rcases h.letter c with hsame | hletter | hbig
    · exact hsame.symm.trans hc
    · rw [hc] at hletter
      exact absurd hletter (by decide)
    · rw [hc] at hbig
      exact absurd hbig (by decide)
  · rintro rfl
    exact h.ascii _ (by decide) (by decide)

theorem LowerCase.dot {toLower : Char → Char} (h : LowerCase toLower) : toLower '.' = '.' :=
  h.ascii _ (by decide) (by decide)

theorem mem_dropWhile {α : Type} {p : α → Bool} {x : α} (hx : p x = false) {l : List α} :
    x ∈ l.dropWhile p ↔ x ∈ l := by
  conv_rhs => rw [← List.takeWhile_append_dropWhile (p := p) (l := l), List.mem_append]
  refine (or_iff_right fun htaken => ?_).symm
  rw [List.mem_takeWhile_imp htaken] at hx
  cases hx

theorem mem_trim (hx : p x = false) {l : List Char} : x ∈ trim p l ↔ x ∈ l := by
  rw [trim, List.mem_reverse, mem_dropWhile hx, List.mem_reverse, mem_dropWhile hx]

theorem mem_of_mem_trim {l : List Char} (h : x ∈ trim p l) : x ∈ l := by
  rw [trim, List.mem_reverse] at h
  have h := (List.dropWhile_sublist p).subset h
  rw [List.mem_reverse] at h
  exact (List.dropWhile_sublist p).subset h

theorem mem_trimSpace (hx : isSpace x = false) : x ∈ (trimSpace text).toList ↔ x ∈ text.toList := by
  rw [trimSpace, String.toList_ofList, mem_trim hx]

theorem mem_normalDomain (toLower : Char → Char) (hspace : isSpace x = false) (hdot : x ≠ '.')
    {value : String} (h : x ∈ value.toList) : toLower x ∈ (normalDomain toLower value).toList := by
  rw [normalDomain, String.toList_ofList]
  exact List.mem_map_of_mem ((mem_trim (by simpa using hdot)).mpr ((mem_trimSpace hspace).mpr h))

theorem exists_of_mem_normalDomain {toLower : Char → Char} {y : Char} {value : String}
    (h : y ∈ (normalDomain toLower value).toList) : ∃ x ∈ value.toList, toLower x = y := by
  rw [normalDomain, String.toList_ofList] at h
  obtain ⟨x, hx, rfl⟩ := List.mem_map.mp h
  have hx := mem_of_mem_trim hx
  rw [trimSpace, String.toList_ofList] at hx
  exact ⟨x, mem_of_mem_trim hx, rfl⟩

theorem comma_mem_normalDomain {toLower : Char → Char} (h : LowerCase toLower) {value : String} :
    ',' ∈ (normalDomain toLower value).toList ↔ ',' ∈ value.toList := by
  constructor
  · intro hmem
    obtain ⟨x, hx, hcomma⟩ := exists_of_mem_normalDomain hmem
    rwa [h.comma.mp hcomma] at hx
  · intro hmem
    have hkept := mem_normalDomain toLower (by decide) (by decide) hmem
    rwa [h.comma.mpr rfl] at hkept

theorem mem_tomlValue {value : String} :
    x ∈ (tomlValue value).toList ↔ x ∈ value.toList ∧ x ≠ '\r' ∧ x ≠ '\n' := by
  rw [tomlValue, String.toList_ofList, List.mem_filter, decide_eq_true_eq]

theorem replaceAll_of_not_mem {old : Char} {new : String} (h : old ∉ text.toList) :
    replaceAll old new text = text := by
  have hmap : text.toList.flatMap (fun c => if c = old then new.toList else [c]) = text.toList := by
    rw [List.flatMap_congr (g := fun c => [c]) fun c hc => ?_]
    · exact List.flatMap_singleton' _
    · rw [if_neg]
      rintro rfl
      exact h hc
  rw [replaceAll, hmap, String.ofList_toList]

theorem char_of_pattern {extra : List Char} {limit : Nat} {text : List Char}
    (h : matchesPattern extra limit text = true) (hc : c ∈ text) :
    isLabelChar c = true ∨ c ∈ extra := by
  simp only [matchesPattern, Bool.and_eq_true, List.all_eq_true, Bool.or_eq_true,
    List.contains_iff_mem] at h
  exact h.1.2 c hc

theorem label_of_pattern {extra : List Char} {limit : Nat} {text : List Char}
    (h : matchesPattern extra limit text = true) : ∃ c ∈ text, isLabelChar c = true := by
  simp only [matchesPattern, Bool.and_eq_true] at h
  cases text with
  | nil => cases h.1.1.1
  | cons c rest => exact ⟨c, List.mem_cons_self, by simpa using h.1.1.1⟩

theorem validTunnelDomain_pattern {value : String} (h : validTunnelDomain value = true) :
    domainPattern value.toList = true := by
  simp only [validTunnelDomain, Bool.and_eq_true, Bool.not_eq_true', Bool.or_eq_false_iff,
    Bool.not_eq_false'] at h
  exact h.1.1.2

theorem comma_not_mem_of_valid {value : String} (h : validTunnelDomain value = true) :
    ',' ∉ value.toList := by
  intro hmem
  have hchar := char_of_pattern (validTunnelDomain_pattern h) hmem
  exact absurd hchar (by decide)

section Managed

variable {toLower : Char → Char} {value tunnelDomain : String}

/-- A managed domain ends in the tunnel domain, behind one label. -/
theorem managed_split (h : isManagedDomain toLower value tunnelDomain = true) :
    ∃ label, subdomainPattern label = true ∧ (trimSpace value).toList.map toLower =
      label ++ '.' :: (trim (· == '.') (trimSpace tunnelDomain).toList).map toLower := by
  simp only [isManagedDomain, Bool.and_eq_true, List.isSuffixOf_iff_suffix] at h
  obtain ⟨⟨_, before, hbefore⟩, hlabel⟩ := h
  refine ⟨before, ?_, hbefore.symm⟩
  rw [← hbefore] at hlabel
  simpa using hlabel

theorem comma_not_mem_of_managed (hlower : LowerCase toLower)
    (hdomain : validTunnelDomain tunnelDomain = true)
    (h : isManagedDomain toLower value tunnelDomain = true) : ',' ∉ value.toList := by
  intro hmem
  obtain ⟨label, hlabel, hsplit⟩ := managed_split h
  have hcomma : ',' ∈ (trimSpace value).toList.map toLower :=
    List.mem_map.mpr ⟨',', (mem_trimSpace (by decide)).mpr hmem, hlower.comma.mpr rfl⟩
  rw [hsplit, List.mem_append, List.mem_cons] at hcomma
  rcases hcomma with hcomma | hcomma | hcomma
  · exact absurd (char_of_pattern hlabel hcomma) (by decide)
  · exact absurd hcomma (by decide)
  · obtain ⟨x, hx, hcomma⟩ := List.mem_map.mp hcomma
    rw [hlower.comma.mp hcomma] at hx
    exact comma_not_mem_of_valid hdomain ((mem_trimSpace (by decide)).mp (mem_of_mem_trim hx))

/-- Some character of a managed domain becomes a letter or digit. -/
theorem label_of_managed (h : isManagedDomain toLower value tunnelDomain = true) :
    ∃ x ∈ value.toList, isLabelChar (toLower x) = true := by
  obtain ⟨label, hlabel, hsplit⟩ := managed_split h
  obtain ⟨c, hmem, hc⟩ := label_of_pattern hlabel
  obtain ⟨x, hx, rfl⟩ := List.mem_map.mp (hsplit ▸ List.mem_append_left _ hmem)
  rw [trimSpace, String.toList_ofList] at hx
  exact ⟨x, mem_of_mem_trim hx, hc⟩

end Managed

theorem publicDomains_allowed {R : Runtime} {trust : TrustProfile} {values seen : List String}
    {before managed : Nat} (h : publicDomains R trust values seen before = .ok managed) :
    ∀ value ∈ values, isManagedDomain R.toLower (normalDomain R.toLower value) trust.domain = true ∨
      normalDomain R.toLower value ∈ trust.allowedCustomDomains := by
  induction values generalizing seen before with
  | nil => simp
  | cons value values ih =>
    rw [publicDomains] at h
    split at h
    · cases h
    · split at h
      · rename_i hmanaged
        exact List.forall_mem_cons.mpr ⟨Or.inl hmanaged, ih h⟩
      · split at h
        · rename_i hallowed
          exact List.forall_mem_cons.mpr ⟨Or.inr hallowed, ih h⟩
        · cases h

theorem publicDomains_mono {R : Runtime} {trust wider : TrustProfile}
    (hdomain : wider.domain = trust.domain) {values seen : List String} {before managed : Nat}
    (hwider : ∀ value ∈ values, normalDomain R.toLower value ∈ trust.allowedCustomDomains →
      normalDomain R.toLower value ∈ wider.allowedCustomDomains)
    (h : publicDomains R trust values seen before = .ok managed) :
    publicDomains R wider values seen before = .ok managed := by
  induction values generalizing seen before with
  | nil => exact h
  | cons value values ih =>
    have htail := fun v hv => hwider v (List.mem_cons_of_mem value hv)
    rw [publicDomains] at h ⊢
    rw [hdomain]
    split at h
    · cases h
    · rename_i hseen
      rw [if_neg hseen]
      split at h
      · rename_i hmanaged
        rw [if_pos hmanaged]
        exact ih htail h
      · rename_i hmanaged
        rw [if_neg hmanaged]
        split at h
        · rename_i hallowed
          rw [if_pos (hwider value List.mem_cons_self hallowed)]
          exact ih htail h
        · cases h

/-! ## Reading the allow-lists -/

section Reading

variable {α : Type} [DecidableEq α] {read : List Char → Option α} {tooMany invalid duplicate : AgentError}

theorem readAllowed_ok {parts : List (List Char)} {allowed result : List α}
    (h : readAllowed read invalid duplicate parts allowed = .ok result) :
    (∃ values, parts.map read = values.map some ∧ result = allowed ++ values) ∧
      (allowed.Nodup → result.Nodup) := by
  induction parts generalizing allowed with
  | nil =>
    cases h
    exact ⟨⟨[], rfl, (List.append_nil _).symm⟩, id⟩
  | cons part parts ih =>
    rw [readAllowed] at h
    split at h
    · cases h
    · rename_i value hvalue
      split at h
      · cases h
      · rename_i hfresh
        obtain ⟨⟨values, hvalues, hresult⟩, hnodup⟩ := ih h
        refine ⟨⟨value :: values, ?_, ?_⟩, fun hallowed => hnodup ?_⟩
        · rw [List.map_cons, List.map_cons, hvalue, hvalues]
        · rw [hresult, List.append_assoc]
          rfl
        · refine List.nodup_append.mpr ⟨hallowed, List.nodup_singleton value, ?_⟩
          intro a ha b hb hab
          rw [List.mem_singleton.mp hb] at hab
          exact hfresh (hab ▸ ha)

theorem readAllowed_of_read {parts : List (List Char)} {allowed values : List α}
    (hread : parts.map read = values.map some) (hnodup : (allowed ++ values).Nodup) :
    readAllowed read invalid duplicate parts allowed = .ok (allowed ++ values) := by
  induction parts generalizing allowed values with
  | nil =>
    rw [List.map_nil] at hread
    rw [List.map_eq_nil_iff.mp hread.symm, readAllowed, List.append_nil]
  | cons part parts ih =>
    cases values with
    | nil => cases hread
    | cons value values =>
      rw [List.map_cons, List.map_cons, List.cons.injEq] at hread
      have hfresh : value ∉ allowed := by
        intro hmem
        exact (List.nodup_append.mp hnodup).2.2 value hmem value List.mem_cons_self rfl
      rw [readAllowed, hread.1]
      dsimp only
      rw [if_neg hfresh, ih hread.2 (by simpa using hnodup), List.append_assoc]
      rfl

theorem parseAllowed_join {limit : Nat} {texts : List String} (hne : texts ≠ [])
    (hcomma : ∀ text ∈ texts, ',' ∉ text.toList) (hblank : trimSpace (",".intercalate texts) ≠ "") :
    parseAllowed read limit tooMany invalid duplicate (",".intercalate texts) =
      if texts.length > limit then .error tooMany
      else readAllowed read invalid duplicate (texts.map String.toList) [] := by
  have hsplit : (",".intercalate texts).toList.splitOn ',' = texts.map String.toList := by
    rw [String.toList_intercalate]
    refine List.splitOn_intercalate ',' ?_ (by simpa using hne)
    intro part hpart
    obtain ⟨text, htext, rfl⟩ := List.mem_map.mp hpart
    exact hcomma text htext
  unfold parseAllowed
  rw [if_neg hblank, hsplit]
  simp

end Reading

theorem trimSpace_ne_empty (hc : c ∈ text.toList) (hspace : isSpace c = false) :
    trimSpace text ≠ "" := by
  intro h
  have hmem := (mem_trimSpace hspace).mpr hc
  rw [h] at hmem
  cases hmem

theorem mem_intercalate_comma {texts : List String} (htext : text ∈ texts) (hc : c ∈ text.toList) :
    c ∈ (",".intercalate texts).toList := by
  rw [String.toList_intercalate]
  induction texts with
  | nil => cases htext
  | cons first texts ih =>
    cases texts with
    | nil =>
      rw [List.mem_singleton.mp htext] at hc
      simpa [List.intercalate] using hc
    | cons second texts =>
      rw [List.map_cons, List.map_cons, List.intercalate_cons_cons, List.mem_append, List.mem_append]
      rcases List.mem_cons.mp htext with rfl | htext
      · exact Or.inl (Or.inl hc)
      · exact Or.inr (ih htext)

theorem isSpace_of_label (h : isLabelChar c = true) : isSpace c = false := by
  have hrange : (97 ≤ c.toNat ∧ c.toNat ≤ 122) ∨ (48 ≤ c.toNat ∧ c.toNat ≤ 57) := by
    simpa [isLabelChar, Char.le_def, UInt32.le_iff_toNat_le] using h
  have hbounds : 48 ≤ c.toNat ∧ c.toNat ≤ 122 := by omega
  obtain ⟨hlow, hhigh⟩ := hbounds
  simp only [isSpace, Bool.or_eq_false_iff, Bool.and_eq_false_iff, decide_eq_false_iff_not]
  refine ⟨⟨by omega, by omega⟩, ?_⟩
  rw [← Bool.not_eq_true, List.contains_iff_mem]
  intro hmem
  simp only [List.mem_cons, List.not_mem_nil, or_false] at hmem
  omega

theorem LowerCase.not_space {toLower : Char → Char} (h : LowerCase toLower)
    (hc : isLabelChar (toLower c) = true) : isSpace c = false := by
  cases hspace : isSpace c with
  | false => rfl
  | true =>
    rw [h.space c hspace] at hc
    rw [isSpace_of_label hc] at hspace
    cases hspace

theorem mem_collectCustomDomains {toLower : Char → Char} {connections : List Connection} {e : String} :
    e ∈ collectCustomDomains toLower connections ↔ e ≠ "" ∧ ∃ c ∈ connections,
      (c.enabled = true ∧ c.proxyType = .http) ∧ ∃ v ∈ c.customDomains, normalDomain toLower v = e := by
  simp only [collectCustomDomains, List.mem_mergeSort, List.mem_dedup, List.mem_filter,
    List.mem_flatMap, List.mem_map, Bool.and_eq_true, beq_iff_eq, decide_eq_true_eq]
  constructor
  · rintro ⟨⟨c, ⟨hc, hkind⟩, v, hv, hnormal⟩, hne⟩
    exact ⟨hne, c, hc, hkind, v, hv, hnormal⟩
  · rintro ⟨hne, c, hc, hkind, v, hv, hnormal⟩
    exact ⟨⟨c, ⟨hc, hkind⟩, v, hv, hnormal⟩, hne⟩

theorem nodup_collectCustomDomains (toLower : Char → Char) (connections : List Connection) :
    (collectCustomDomains toLower connections).Nodup := by
  unfold collectCustomDomains
  exact (List.mergeSort_perm _ _).nodup_iff.mpr (List.nodup_dedup _)

theorem readDomain_eq_some {toLower : Char → Char} {part : List Char} {d : String}
    (h : readDomain toLower part = some d) :
    d = normalDomain toLower (String.ofList part) ∧ validTunnelDomain d = true := by
  unfold readDomain at h
  by_cases hvalid : validTunnelDomain (normalDomain toLower (String.ofList part)) = true
  · rw [if_pos hvalid] at h
    rw [← Option.some.inj h]
    exact ⟨rfl, hvalid⟩
  · rw [if_neg hvalid] at h
    cases h

theorem parseAllowedCustomDomains_valid {toLower : Char → Char} {value : String} {domains : List String}
    (h : parseAllowedCustomDomains toLower value = .ok domains) :
    ∀ d ∈ domains, validTunnelDomain d = true := by
  unfold parseAllowedCustomDomains parseAllowed at h
  split at h
  · cases h
    simp
  · dsimp only at h
    split at h
    · cases h
    · obtain ⟨⟨values, hread, hvalues⟩, _⟩ := readAllowed_ok h
      intro d hd
      rw [hvalues, List.nil_append] at hd
      have hsome : some d ∈ values.map some := List.mem_map_of_mem hd
      rw [← hread] at hsome
      obtain ⟨part, _, hpart⟩ := List.mem_map.mp hsome
      exact (readDomain_eq_some hpart).2

section CustomDomains

variable {toLower : Char → Char}

/-- A collected domain that the agent reads, as one part and as its normal form. -/
def Readable (toLower : Char → Char) (e : String) : Prop :=
  ',' ∉ e.toList ∧ readDomain toLower e.toList = some (normalDomain toLower e)

theorem readable_of_some {e : String} (hcomma : ',' ∉ e.toList) {d : String}
    (h : readDomain toLower e.toList = some d) : Readable toLower e := by
  obtain ⟨hd, _⟩ := readDomain_eq_some h
  rw [String.ofList_toList] at hd
  exact ⟨hcomma, by rw [h, hd]⟩

theorem Readable.not_blank (hlower : LowerCase toLower) {e : String} (h : Readable toLower e) :
    ∃ c ∈ e.toList, isSpace c = false := by
  obtain ⟨_, hvalid⟩ := readDomain_eq_some h.2
  obtain ⟨y, hy, hlabel⟩ := label_of_pattern (validTunnelDomain_pattern hvalid)
  obtain ⟨x, hx, rfl⟩ := exists_of_mem_normalDomain hy
  exact ⟨x, hx, hlower.not_space hlabel⟩

variable {domains : List String}

theorem map_readDomain (hread : ∀ e ∈ domains, Readable toLower e) :
    (domains.map String.toList).map (readDomain toLower) =
      (domains.map (normalDomain toLower)).map some := by
  induction domains with
  | nil => rfl
  | cons e domains ih =>
    obtain ⟨hfirst, hrest⟩ := List.forall_mem_cons.mp hread
    simp only [List.map_cons, hfirst.2, ih hrest]

theorem parse_readable (hlower : LowerCase toLower) {allowed : List String}
    (hread : ∀ e ∈ domains, Readable toLower e) :
    parseAllowedCustomDomains toLower (",".intercalate domains) = .ok allowed ↔
      domains.length ≤ 100 ∧ (domains.map (normalDomain toLower)).Nodup ∧
        allowed = domains.map (normalDomain toLower) := by
  cases domains with
  | nil =>
    change Except.ok [] = Except.ok allowed ↔ _
    simp [eq_comm]
  | cons first rest =>
    obtain ⟨c, hc, hspace⟩ := (hread first List.mem_cons_self).not_blank hlower
    have hblank : trimSpace (",".intercalate (first :: rest)) ≠ "" :=
      trimSpace_ne_empty (mem_intercalate_comma List.mem_cons_self hc) hspace
    unfold parseAllowedCustomDomains
    rw [parseAllowed_join (by simp) (fun e he => (hread e he).1) hblank]
    by_cases hlength : (first :: rest).length > 100
    · rw [if_pos hlength]
      constructor
      · intro h
        cases h
      · rintro ⟨hle, _⟩
        omega
    · rw [if_neg hlength]
      constructor
      · intro h
        obtain ⟨⟨values, hvalues, hallowed⟩, hnodup⟩ := readAllowed_ok h
        rw [map_readDomain hread] at hvalues
        have hsame := List.map_injective_iff.mpr (Option.some_injective _) hvalues
        rw [List.nil_append, ← hsame] at hallowed
        exact ⟨by omega, hallowed ▸ hnodup List.nodup_nil, hallowed⟩
      · rintro ⟨_, hnodup, rfl⟩
        rw [readAllowed_of_read (map_readDomain hread) (by simpa using hnodup), List.nil_append]

/-- What makes a rendered domain a managed one is in the collected domain as well. -/
theorem kept_of_label (hlower : LowerCase toLower) {v : String} {y : Char}
    (hy : y ∈ (normalDomain toLower (tomlValue v)).toList) (hlabel : isLabelChar (toLower y) = true) :
    ∃ c ∈ (normalDomain toLower v).toList, isSpace c = false := by
  obtain ⟨z, hz, rfl⟩ := exists_of_mem_normalDomain hy
  have hspace := hlower.not_space hlabel
  have hz' : isSpace z = false := by
    cases hsp : isSpace z with
    | false => rfl
    | true =>
      rw [hlower.space z hsp, hsp] at hspace
      cases hspace
  have hdot : z ≠ '.' := by
    rintro rfl
    rw [hlower.dot, hlower.dot] at hlabel
    exact absurd hlabel (by decide)
  exact ⟨toLower z, mem_normalDomain toLower hz' hdot (mem_tomlValue.mp hz).1, hspace⟩

/-- The custom domains of a connection that passes alone are all readable. -/
theorem collected_readable (hlower : LowerCase toLower) {trustDomain : String}
    (hdomain : validTunnelDomain trustDomain = true) {c : Connection}
    (hparse : parseAllowedCustomDomains toLower
      (",".intercalate (collectCustomDomains toLower [c])) = .ok domains)
    (hpublic : c.proxyType = .http → ∀ v ∈ c.customDomains,
      isManagedDomain toLower (normalDomain toLower (tomlValue v)) trustDomain = true ∨
        normalDomain toLower (tomlValue v) ∈ domains) :
    (∀ e ∈ collectCustomDomains toLower [c], Readable toLower e) ∧
      domains = (collectCustomDomains toLower [c]).map (normalDomain toLower) := by
  have hsource : ∀ e ∈ collectCustomDomains toLower [c], ∃ v, normalDomain toLower v = e ∧
      (isManagedDomain toLower (normalDomain toLower (tomlValue v)) trustDomain = true ∨
        normalDomain toLower (tomlValue v) ∈ domains) := by
    intro e he
    obtain ⟨_, c', hc', ⟨_, hhttp⟩, v, hv, hnormal⟩ := mem_collectCustomDomains.mp he
    rw [List.mem_singleton.mp hc'] at hhttp hv
    exact ⟨v, hnormal, hpublic hhttp v hv⟩
  have hcomma : ∀ e ∈ collectCustomDomains toLower [c], ',' ∉ e.toList := by
    intro e he hmem
    obtain ⟨v, rfl, hpublic⟩ := hsource e he
    have hrendered : ',' ∈ (normalDomain toLower (tomlValue v)).toList :=
      (comma_mem_normalDomain hlower).mpr
        (mem_tomlValue.mpr ⟨(comma_mem_normalDomain hlower).mp hmem, by decide, by decide⟩)
    rcases hpublic with hmanaged | hallowed
    · exact comma_not_mem_of_managed hlower hdomain hmanaged hrendered
    · exact comma_not_mem_of_valid (parseAllowedCustomDomains_valid hparse _ hallowed) hrendered
  by_cases hempty : collectCustomDomains toLower [c] = []
  · rw [hempty] at hparse ⊢
    have hnone : domains = [] := by
      cases hparse
      rfl
    exact ⟨by simp, hnone⟩
  · have hblank : trimSpace (",".intercalate (collectCustomDomains toLower [c])) ≠ "" := by
      intro hblank
      have hnone : domains = [] := by
        unfold parseAllowedCustomDomains parseAllowed at hparse
        rw [if_pos hblank] at hparse
        cases hparse
        rfl
      obtain ⟨e, he⟩ := List.exists_mem_of_ne_nil _ hempty
      obtain ⟨v, rfl, hpublic⟩ := hsource e he
      rw [hnone] at hpublic
      obtain ⟨y, hy, hlabel⟩ := label_of_managed (hpublic.resolve_right (by simp))
      obtain ⟨c, hc, hspace⟩ := kept_of_label hlower hy hlabel
      exact trimSpace_ne_empty (mem_intercalate_comma he hc) hspace hblank
    unfold parseAllowedCustomDomains at hparse
    rw [parseAllowed_join hempty hcomma hblank] at hparse
    split at hparse
    · cases hparse
    · obtain ⟨⟨values, hvalues, hdomains⟩, _⟩ := readAllowed_ok hparse
      have hread : ∀ e ∈ collectCustomDomains toLower [c], Readable toLower e := by
        intro e he
        have hsome := List.mem_map_of_mem (f := readDomain toLower)
          (List.mem_map_of_mem (f := String.toList) he)
        rw [hvalues] at hsome
        obtain ⟨d, _, hd⟩ := List.mem_map.mp hsome
        exact readable_of_some (hcomma e he) hd.symm
      refine ⟨hread, ?_⟩
      rw [hdomains, List.nil_append]
      rw [map_readDomain hread] at hvalues
      exact (List.map_injective_iff.mpr (Option.some_injective _) hvalues).symm

end CustomDomains

theorem mem_collectRemotePorts {connections : List Connection} {proxyType : ProxyType} {port : Int} :
    port ∈ collectRemotePorts connections proxyType ↔ ∃ c ∈ connections,
      ((c.enabled = true ∧ c.proxyType = proxyType) ∧ 0 < c.remotePort) ∧ c.remotePort = port := by
  simp only [collectRemotePorts, List.mem_mergeSort, List.mem_dedup, List.mem_map, List.mem_filter,
    Bool.and_eq_true, beq_iff_eq, decide_eq_true_eq]
  constructor
  · rintro ⟨c, ⟨hc, hkind⟩, hport⟩
    exact ⟨c, hc, hkind, hport⟩
  · rintro ⟨c, hc, hkind, hport⟩
    exact ⟨c, ⟨hc, hkind⟩, hport⟩

theorem nodup_collectRemotePorts (connections : List Connection) (proxyType : ProxyType) :
    (collectRemotePorts connections proxyType).Nodup := by
  unfold collectRemotePorts
  exact (List.mergeSort_perm _ _).nodup_iff.mpr (List.nodup_dedup _)

theorem length_collectRemotePorts_le (connections : List Connection) (proxyType : ProxyType) :
    (collectRemotePorts connections proxyType).length ≤ connections.length := by
  unfold collectRemotePorts
  rw [List.length_mergeSort]
  refine (List.dedup_sublist _).length_le.trans ?_
  rw [List.length_map]
  exact List.length_filter_le _ _

theorem trim_eq_self {text : List Char} (h : ∀ c ∈ text, p c = false) : trim p text = text := by
  have hdrop : ∀ l : List Char, (∀ c ∈ l, p c = false) → l.dropWhile p = l := by
    intro l hl
    cases l with
    | nil => rfl
    | cons c l => rw [List.dropWhile_cons_of_neg (by simp [hl c List.mem_cons_self])]
  rw [trim, hdrop text h, hdrop _ fun c hc => h c (List.mem_reverse.mp hc), List.reverse_reverse]

theorem intText_char {n : Int} (h : c ∈ Decimal.intText n) :
    isSpace c = false ∧ c ≠ ',' ∧ c ≠ '+' := by
  rcases Decimal.intText_isDigit_or_minus h with rfl | hdigit
  · decide
  · have hlabel : isLabelChar c = true := by
      have hrange : 48 ≤ c.toNat ∧ c.toNat ≤ 57 := by simpa [Decimal.isDigit] using hdigit
      have hle : '0' ≤ c ∧ c ≤ '9' := by
        simpa [Char.le_def, UInt32.le_iff_toNat_le] using hrange
      simp [isLabelChar, hle]
    refine ⟨isSpace_of_label hlabel, ?_, ?_⟩
    · rintro rfl
      exact absurd hlabel (by decide)
    · rintro rfl
      exact absurd hlabel (by decide)

theorem atoi_intText (n : Int) :
    atoi (Decimal.intText n) = if -2 ^ 63 ≤ n ∧ n < 2 ^ 63 then some n else none := by
  have hread := Decimal.readInt_intText n
  unfold atoi
  cases htext : Decimal.intText n with
  | nil =>
    rw [htext] at hread
    simp [hread]
  | cons c rest =>
    have hplus := (intText_char (htext ▸ List.mem_cons_self : c ∈ Decimal.intText n)).2.2
    rw [htext] at hread
    simp [hplus, hread]

theorem readPort_intText (port : Int) :
    readPort (Decimal.intText port) = if 1 ≤ port ∧ port ≤ 65535 then some port else none := by
  unfold readPort
  rw [trim_eq_self fun c hc => (intText_char hc).1, atoi_intText]
  by_cases hrange : 1 ≤ port ∧ port ≤ 65535
  · rw [if_pos (by omega), if_pos hrange]
    dsimp only
    rw [if_neg (by omega)]
  · rw [if_neg hrange]
    by_cases hbits : -2 ^ 63 ≤ port ∧ port < 2 ^ 63
    · rw [if_pos hbits]
      dsimp only
      rw [if_pos (by omega)]
    · rw [if_neg hbits]

theorem parse_ports (ports : List Int) :
    parseAllowedPorts (joinPorts ports) =
      if ports.length > 1000 then .error .tooManyPorts
      else readAllowed readPort .port .duplicatePort (ports.map Decimal.intText) [] := by
  cases ports with
  | nil => rfl
  | cons first rest =>
    have hchars : ∀ text ∈ (first :: rest).map (fun port => String.ofList (Decimal.intText port)),
        ',' ∉ text.toList := by
      intro text htext hmem
      obtain ⟨port, _, rfl⟩ := List.mem_map.mp htext
      rw [String.toList_ofList] at hmem
      exact (intText_char hmem).2.1 rfl
    have hblank : trimSpace (joinPorts (first :: rest)) ≠ "" := by
      obtain ⟨c, hc⟩ := List.exists_mem_of_ne_nil _ (Decimal.natText_ne_nil first.natAbs)
      have hc : c ∈ Decimal.intText first := by
        unfold Decimal.intText
        split
        · exact List.mem_cons_of_mem _ hc
        · exact hc
      refine trimSpace_ne_empty (mem_intercalate_comma List.mem_cons_self ?_) (intText_char hc).1
      rwa [String.toList_ofList]
    unfold parseAllowedPorts joinPorts
    rw [parseAllowed_join (by simp) hchars hblank, List.length_map, List.map_map]
    congr 2
    exact List.map_congr_left fun port _ => String.toList_ofList

theorem read_ports {values : List Int}
    (h : (ports.map Decimal.intText).map readPort = values.map some) :
    (∀ port ∈ ports, 1 ≤ port ∧ port ≤ 65535) ∧ values = ports := by
  induction ports generalizing values with
  | nil => exact ⟨by simp, List.map_eq_nil_iff.mp h.symm⟩
  | cons port ports ih =>
    cases values with
    | nil => cases h
    | cons value values =>
      rw [List.map_cons, List.map_cons, List.map_cons, List.cons.injEq, readPort_intText] at h
      obtain ⟨hport, hrest⟩ := h
      obtain ⟨hranges, hvalues⟩ := ih hrest
      by_cases hrange : 1 ≤ port ∧ port ≤ 65535
      · rw [if_pos hrange] at hport
        rw [hvalues, Option.some.inj hport]
        exact ⟨List.forall_mem_cons.mpr ⟨Option.some.inj hport ▸ hrange, hranges⟩, rfl⟩
      · rw [if_neg hrange] at hport
        cases hport

theorem parse_ports_ok {allowed : List Int} (h : parseAllowedPorts (joinPorts ports) = .ok allowed)
    : (∀ port ∈ ports, 1 ≤ port ∧ port ≤ 65535) ∧ allowed = ports := by
  rw [parse_ports] at h
  split at h
  · cases h
  · obtain ⟨⟨values, hvalues, hallowed⟩, _⟩ := readAllowed_ok h
    obtain ⟨hrange, hsame⟩ := read_ports hvalues
    exact ⟨hrange, by rw [hallowed, List.nil_append, hsame]⟩

theorem parse_ports_of_range (hrange : ∀ port ∈ ports, 1 ≤ port ∧ port ≤ 65535)
    (hnodup : ports.Nodup) (hlength : ports.length ≤ 1000) :
    parseAllowedPorts (joinPorts ports) = .ok ports := by
  have hread : (ports.map Decimal.intText).map readPort = ports.map some := by
    rw [List.map_map]
    refine List.map_congr_left fun port hport => ?_
    rw [Function.comp_apply, readPort_intText, if_pos (hrange port hport)]
  rw [parse_ports, if_neg (by omega), readAllowed_of_read hread (by simpa using hnodup),
    List.nil_append]

end HomeTunnel.Agent
