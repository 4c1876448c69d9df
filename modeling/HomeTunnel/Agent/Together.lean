import HomeTunnel.Agent.Reading

/-! # Connections that are valid one by one

The renderer, the collectors of the allow-lists and the agent's checks each go over the whole
list of connections. Here is what the checks ask of a list when they accept each of its
connections alone.
-/

namespace HomeTunnel.Agent

theorem bytes_append (a b : String) : bytes (a ++ b) = bytes a ++ bytes b := by
  simp [bytes]

theorem hasPair_append {b : UInt8} {xs ys : List UInt8} (h : ys.head? ≠ some b) :
    hasPair b (xs ++ ys) = (hasPair b xs || hasPair b ys) := by
  induction xs with
  | nil => rfl
  | cons x xs ih =>
    cases xs with
    | nil =>
      cases ys with
      | nil => rfl
      | cons y ys =>
        have hy : (y == b) = false := by simpa using h
        simp [hasPair, hy]
    | cons x' xs =>
      rw [List.cons_append] at ih ⊢
      rw [List.cons_append, hasPair, ih, hasPair, Bool.or_assoc]

/-- The text is empty or starts on a new line, so nothing in front of it runs into it. -/
def StartsLine (text : String) : Prop := text = "" ∨ ∃ rest, text = "\n" ++ rest

variable {b : String} {n : Nat}

/-- What follows does not start with a brace, so no mark of a template is made of both texts. -/
theorem hasTemplate_append_of_head (a : String) (h : ∀ x ∈ (bytes b).head?, x ≠ 0x7b ∧ x ≠ 0x7d) :
    hasTemplate (bytes (a ++ b)) = (hasTemplate (bytes a) || hasTemplate (bytes b)) := by
  unfold hasTemplate
  rw [bytes_append, hasPair_append fun hhead => (h _ hhead).1 rfl,
    hasPair_append fun hhead => (h _ hhead).2 rfl]
  cases hasPair 0x7b (bytes a) <;> cases hasPair 0x7b (bytes b) <;> cases hasPair 0x7d (bytes a) <;>
    rfl

theorem hasTemplate_append (a : String) (h : StartsLine b) :
    hasTemplate (bytes (a ++ b)) = (hasTemplate (bytes a) || hasTemplate (bytes b)) := by
  refine hasTemplate_append_of_head a fun x hx => ?_
  rcases h with rfl | ⟨rest, rfl⟩
  · cases hx
  · rw [bytes_append, show bytes "\n" = [10] by decide] at hx
    cases hx
    decide

theorem renderConnection_startsLine {profile : Profile} {c : Connection} {text : String}
    (h : renderConnection profile c = .ok text) : StartsLine text := by
  unfold renderConnection at h
  cases hkind : renderKind profile c with
  | error e =>
    rw [hkind] at h
    cases h
  | ok kind =>
    rw [hkind] at h
    have htext := Except.ok.inj h
    rw [← htext, show "\n[[proxies]]\n" = "\n" ++ "[[proxies]]\n" by decide]
    simp only [String.append_assoc]
    exact Or.inr ⟨_, rfl⟩

theorem renderConnections_cons {profile : Profile} {c : Connection} {rest : List Connection}
    {text tail : String} (henabled : c.enabled = true) (htext : renderConnection profile c = .ok text)
    (htail : renderConnections profile rest = .ok tail) :
    renderConnections profile (c :: rest) = .ok (text ++ tail) := by
  rw [renderConnections, if_pos henabled, htext, htail]
  rfl

theorem renderConnections_together {profile : Profile} {connections : List Connection}
    (henabled : ∀ c ∈ connections, c.enabled = true)
    (halone : ∀ c ∈ connections, ∃ text, renderConnection profile c = .ok text ∧
      hasTemplate (bytes text) = false) :
    ∃ text, renderConnections profile connections = .ok text ∧ hasTemplate (bytes text) = false ∧
      StartsLine text := by
  induction connections with
  | nil => exact ⟨"", rfl, by decide, Or.inl rfl⟩
  | cons c connections ih =>
    obtain ⟨henabled, henabledRest⟩ := List.forall_mem_cons.mp henabled
    obtain ⟨⟨text, htext, hplain⟩, hrest⟩ := List.forall_mem_cons.mp halone
    obtain ⟨tail, htail, hplainTail, hstarts⟩ := ih henabledRest hrest
    refine ⟨text ++ tail, renderConnections_cons henabled htext htail, ?_, ?_⟩
    · rw [hasTemplate_append text hstarts, hplain, hplainTail]
      rfl
    · rcases renderConnection_startsLine htext with rfl | ⟨rest, rfl⟩
      · rcases hstarts with rfl | ⟨rest, rfl⟩
        · exact Or.inl rfl
        · exact Or.inr ⟨rest, rfl⟩
      · exact Or.inr ⟨rest ++ tail, String.append_assoc⟩

theorem renderConfig_ok {profile : Profile} {response : SyncResponse} {trustedCaPath text : String} :
    renderConfig profile response trustedCaPath = .ok text ↔
      ∃ lease, response.lease = some lease ∧ trimSpace lease.value ≠ "" ∧
        ∃ tail, renderConnections profile response.connections = .ok tail ∧
          text = renderHead profile response.deviceId lease.value trustedCaPath ++ tail := by
  unfold renderConfig
  cases response.lease with
  | none => simp
  | some lease =>
    by_cases hvalue : trimSpace lease.value = ""
    · simp [hvalue]
    · dsimp only
      rw [if_neg hvalue]
      rw [bind_eq_ok]
      constructor
      · rintro ⟨tail, htail, htext⟩
        exact ⟨lease, rfl, hvalue, tail, htail, (Except.ok.inj htext).symm⟩
      · rintro ⟨_, hlease, _, tail, htail, rfl⟩
        cases hlease
        exact ⟨tail, htail, rfl⟩

theorem validateManagedProxy_mono {R : Runtime} {trust wider : TrustProfile}
    (hdomain : wider.domain = trust.domain)
    (hdomains : trust.allowedCustomDomains ⊆ wider.allowedCustomDomains)
    (htcp : trust.allowedTcpPorts ⊆ wider.allowedTcpPorts)
    (hudp : trust.allowedUdpPorts ⊆ wider.allowedUdpPorts) {proxy : ProxyConfig}
    (h : validateManagedProxy R trust proxy = .ok ()) :
    validateManagedProxy R wider proxy = .ok () := by
  cases proxy with
  | http base customDomains =>
    simp only [validateManagedProxy, validateManagedHttpProxy, bind_eq_ok, check_eq_ok] at h ⊢
    obtain ⟨u, hcount, managed, hpublic, hrest⟩ := h
    exact ⟨u, hcount, managed, publicDomains_mono hdomain (fun _ _ hmem => hdomains hmem) hpublic,
      hrest⟩
  | tcp base remotePort =>
    simp only [validateManagedProxy, validateManagedPortProxy, bind_eq_ok, check_eq_ok,
      decide_eq_true_eq] at h ⊢
    obtain ⟨u, hport, hrest⟩ := h
    exact ⟨u, htcp hport, hrest⟩
  | udp base remotePort =>
    simp only [validateManagedProxy, validateManagedPortProxy, bind_eq_ok, check_eq_ok,
      decide_eq_true_eq] at h ⊢
    obtain ⟨u, hport, hrest⟩ := h
    exact ⟨u, hudp hport, hrest⟩

/-- The response with one connection only. -/
def SyncResponse.only (response : SyncResponse) (c : Connection) : SyncResponse :=
  { response with connections := [c] }

theorem mem_proxies {profile : Profile} {response : SyncResponse} {trustedCaPath : String}
    {proxy : ProxyConfig} :
    proxy ∈ (configOf profile response trustedCaPath).proxies ↔
      ∃ c ∈ response.connections, proxy ∈ (configOf profile (response.only c) trustedCaPath).proxies := by
  simp only [configOf, SyncResponse.only, List.mem_filterMap, List.mem_filter, List.mem_singleton]
  constructor
  · rintro ⟨c, ⟨hc, hon⟩, hproxy⟩
    exact ⟨c, hc, c, ⟨rfl, hon⟩, hproxy⟩
  · rintro ⟨c, hc, _, ⟨rfl, hon⟩, hproxy⟩
    exact ⟨_, ⟨hc, hon⟩, hproxy⟩

theorem length_proxies_le (profile : Profile) (response : SyncResponse) (trustedCaPath : String) :
    (configOf profile response trustedCaPath).proxies.length ≤ response.connections.length :=
  (List.length_filterMap_le _ _).trans (List.length_filter_le _ _)

section Alone

variable {R : Runtime} {profile : Profile} {response : SyncResponse} {c : Connection}
  {trustedCaPath tlsCaSha256 text : String} {port : Int} {domains : List String} {tcp udp : List Int}

/-- The agent has read each public domain of a connection that passes. -/
theorem public_of_checks (henabled : c.enabled = true) (h : ListChecks R profile tlsCaSha256 port text
      (collect R.toLower [c]) (configOf profile (response.only c) trustedCaPath).proxies domains tcp udp)
    (hhttp : c.proxyType = .http) : ∀ v ∈ c.customDomains,
      isManagedDomain R.toLower (normalDomain R.toLower (tomlValue v))
        (normalDomain R.toLower profile.tunnelDomain) = true ∨
      normalDomain R.toLower (tomlValue v) ∈ domains := by
  intro v hv
  have hproxy : ProxyConfig.http (baseOf c)
      (((c.subdomain ++ "." ++ profile.tunnelDomain) :: c.customDomains).map tomlValue) ∈
      (configOf profile (response.only c) trustedCaPath).proxies := by
    simp [configOf, SyncResponse.only, henabled, proxyOf, hhttp]
  have hvalid := h.proxies _ hproxy
  simp only [ProxyConfig.complete, validateManagedProxy, validateManagedHttpProxy, bind_eq_ok] at hvalid
  obtain ⟨_, _, managed, hpublic, _⟩ := hvalid
  exact publicDomains_allowed hpublic (tomlValue v)
    (List.mem_map_of_mem (List.mem_cons_of_mem _ hv))

theorem domain_of_shared {disk : Disk} {configPath : String} {common : CommonConfig}
    (h : SharedChecks R disk profile tlsCaSha256 configPath common port) :
    validTunnelDomain (normalDomain R.toLower profile.tunnelDomain) = true := by
  have htrust := h.trust
  rw [validateTrustProfile, check_eq_ok] at htrust
  simp only [Bool.not_eq_true', Bool.or_eq_false_iff, Bool.not_eq_false'] at htrust
  exact htrust.2

/-- What is known of a connection that passes alone, free of what the agent has parsed. -/
structure AloneChecks (R : Runtime) (profile : Profile) (response : SyncResponse)
    (trustedCaPath tlsCaSha256 : String) (port : Int) (c : Connection) : Prop where
  rendered : ∃ text, renderConnection profile c = .ok text ∧ hasTemplate (bytes text) = false
  domains : ∀ e ∈ collectCustomDomains R.toLower [c], Readable R.toLower e
  tcpPorts : ∀ p ∈ collectTcpPorts [c], 1 ≤ p ∧ p ≤ 65535
  udpPorts : ∀ p ∈ collectUdpPorts [c], 1 ≤ p ∧ p ≤ 65535
  valid : ∀ proxy ∈ (configOf profile (response.only c) trustedCaPath).proxies,
    R.proxyValid proxy.complete = true
  proxies : ∀ proxy ∈ (configOf profile (response.only c) trustedCaPath).proxies,
    validateManagedProxy R (trustOf R profile tlsCaSha256 port
      ((collectCustomDomains R.toLower [c]).map (normalDomain R.toLower)) (collectTcpPorts [c])
      (collectUdpPorts [c])) proxy.complete = .ok ()

theorem renderConfig_only (henabled : c.enabled = true)
    (h : renderConfig profile (response.only c) trustedCaPath = .ok text)
    (hplain : hasTemplate (bytes text) = false) :
    ∃ lease, response.lease = some lease ∧ trimSpace lease.value ≠ "" ∧
      hasTemplate (bytes (renderHead profile response.deviceId lease.value trustedCaPath)) = false ∧
      ∃ own, renderConnection profile c = .ok own ∧ hasTemplate (bytes own) = false := by
  obtain ⟨lease, hlease, hvalue, tail, htail, rfl⟩ := renderConfig_ok.mp h
  rw [SyncResponse.only, renderConnections, if_pos henabled, bind_eq_ok] at htail
  obtain ⟨own, hown, htail⟩ := htail
  have hsame : own ++ "" = tail := Except.ok.inj htail
  rw [String.append_empty] at hsame
  subst hsame
  rw [hasTemplate_append _ (renderConnection_startsLine hown), Bool.or_eq_false_iff] at hplain
  exact ⟨lease, hlease, hvalue, hplain.1, own, hown, hplain.2⟩

theorem aloneChecks {disk : Disk} {configPath : String} {common : CommonConfig}
    (hlower : LowerCase R.toLower) (henabled : c.enabled = true)
    (htext : renderConfig profile (response.only c) trustedCaPath = .ok text)
    (hshared : SharedChecks R disk profile tlsCaSha256 configPath common port)
    (h : ListChecks R profile tlsCaSha256 port text (collect R.toLower [c])
      (configOf profile (response.only c) trustedCaPath).proxies domains tcp udp) :
    AloneChecks R profile response trustedCaPath tlsCaSha256 port c := by
  obtain ⟨_, _, _, _, hrendered⟩ := renderConfig_only henabled htext h.plain
  obtain ⟨hreadable, hdomains⟩ := collected_readable hlower (domain_of_shared hshared)
    h.readsDomains (public_of_checks henabled h)
  obtain ⟨htcp, htcpSame⟩ := parse_ports_ok h.readsTcpPorts
  obtain ⟨hudp, hudpSame⟩ := parse_ports_ok h.readsUdpPorts
  have hproxies := h.proxies
  rw [hdomains, htcpSame, hudpSame] at hproxies
  exact ⟨hrendered, hreadable, htcp, hudp, h.valid, hproxies⟩

end Alone

section Whole

variable {R : Runtime} {profile : Profile} {response : SyncResponse}
  {trustedCaPath tlsCaSha256 : String} {port : Int}

variable {connections : List Connection}

theorem mem_collected_only {toLower : Char → Char} {e : String}
    (h : e ∈ collectCustomDomains toLower connections) :
    ∃ c ∈ connections, e ∈ collectCustomDomains toLower [c] := by
  obtain ⟨hne, c, hc, hkind, hv⟩ := mem_collectCustomDomains.mp h
  exact ⟨c, hc, mem_collectCustomDomains.mpr ⟨hne, c, List.mem_singleton_self c, hkind, hv⟩⟩

theorem collected_only_subset {toLower : Char → Char} {c : Connection} (hc : c ∈ connections) :
    collectCustomDomains toLower [c] ⊆ collectCustomDomains toLower connections := by
  intro e he
  obtain ⟨hne, c', hc', hkind, hv⟩ := mem_collectCustomDomains.mp he
  rw [List.mem_singleton.mp hc'] at hkind hv
  exact mem_collectCustomDomains.mpr ⟨hne, c, hc, hkind, hv⟩

theorem ports_only {proxyType : ProxyType} {p : Int}
    (h : p ∈ collectRemotePorts connections proxyType) :
    ∃ c ∈ connections, p ∈ collectRemotePorts [c] proxyType := by
  obtain ⟨c, hc, hkind⟩ := mem_collectRemotePorts.mp h
  exact ⟨c, hc, mem_collectRemotePorts.mpr ⟨c, List.mem_singleton_self c, hkind⟩⟩

theorem ports_only_subset {proxyType : ProxyType} {c : Connection} (hc : c ∈ connections) :
    collectRemotePorts [c] proxyType ⊆ collectRemotePorts connections proxyType := by
  intro p hp
  obtain ⟨c', hc', hkind⟩ := mem_collectRemotePorts.mp hp
  rw [List.mem_singleton.mp hc'] at hkind
  exact mem_collectRemotePorts.mpr ⟨c, hc, hkind⟩

theorem parse_ports_together (hcount : connections.length ≤ 100) {proxyType : ProxyType}
    (h : ∀ c ∈ connections, ∀ p ∈ collectRemotePorts [c] proxyType, 1 ≤ p ∧ p ≤ 65535) :
    parseAllowedPorts (joinPorts (collectRemotePorts connections proxyType)) =
      .ok (collectRemotePorts connections proxyType) := by
  refine parse_ports_of_range ?_ (nodup_collectRemotePorts connections proxyType) ?_
  · intro p hp
    obtain ⟨c, hc, hp⟩ := ports_only hp
    exact h c hc p hp
  · have hle := length_collectRemotePorts_le connections proxyType
    omega

/-- The lists pass together exactly if the agent reads all custom domains and the text is not too
long. -/
theorem listChecks_together (hlower : LowerCase R.toLower)
    (hcount : response.connections.length ≤ 100) {text : String}
    (hplain : hasTemplate (bytes text) = false) (hne : 0 < (bytes text).length)
    (h : ∀ c ∈ response.connections,
      AloneChecks R profile response trustedCaPath tlsCaSha256 port c) :
    (∃ domains tcp udp, ListChecks R profile tlsCaSha256 port text
        (collect R.toLower response.connections) (configOf profile response trustedCaPath).proxies
        domains tcp udp) ↔
      (collectCustomDomains R.toLower response.connections).length ≤ 100 ∧
      ((collectCustomDomains R.toLower response.connections).map (normalDomain R.toLower)).Nodup ∧
      (bytes text).length ≤ maxConfigBytes := by
  have hread : ∀ e ∈ collectCustomDomains R.toLower response.connections, Readable R.toLower e := by
    intro e he
    obtain ⟨c, hc, he⟩ := mem_collected_only he
    exact (h c hc).domains e he
  constructor
  · rintro ⟨domains, tcp, udp, hchecks⟩
    obtain ⟨hlength, hnodup, _⟩ := (parse_readable hlower hread).mp hchecks.readsDomains
    exact ⟨hlength, hnodup, hchecks.size.2⟩
  · rintro ⟨hlength, hnodup, hsize⟩
    refine ⟨_, _, _, (parse_readable hlower hread).mpr ⟨hlength, hnodup, rfl⟩,
      parse_ports_together hcount fun c hc => (h c hc).tcpPorts,
      parse_ports_together hcount fun c hc => (h c hc).udpPorts, ⟨hne, hsize⟩, hplain, ?_,
      (length_proxies_le profile response trustedCaPath).trans hcount, ?_⟩
    · intro proxy hproxy
      obtain ⟨c, hc, hproxy⟩ := mem_proxies.mp hproxy
      exact (h c hc).valid proxy hproxy
    · intro proxy hproxy
      obtain ⟨c, hc, hproxy⟩ := mem_proxies.mp hproxy
      refine validateManagedProxy_mono ?_ ?_ ?_ ?_ ((h c hc).proxies proxy hproxy)
      · rfl
      · exact List.map_subset _ (collected_only_subset hc)
      · exact ports_only_subset hc
      · exact ports_only_subset hc

theorem renderHead_length_pos (deviceId value : String) :
    0 < (bytes (renderHead profile deviceId value trustedCaPath)).length := by
  unfold renderHead
  simp only [bytes_append, List.length_append]
  have hfirst : (bytes "serverAddr = ").length = 13 := by decide
  omega

theorem renderConfig_together {lease : Lease} (hlease : response.lease = some lease)
    (hvalue : trimSpace lease.value ≠ "")
    (hhead : hasTemplate (bytes (renderHead profile response.deviceId lease.value trustedCaPath)) = false)
    (henabled : ∀ c ∈ response.connections, c.enabled = true)
    (h : ∀ c ∈ response.connections,
      AloneChecks R profile response trustedCaPath tlsCaSha256 port c) :
    ∃ text, renderConfig profile response trustedCaPath = .ok text ∧
      hasTemplate (bytes text) = false ∧ 0 < (bytes text).length := by
  obtain ⟨tail, htail, hplain, hstarts⟩ :=
    renderConnections_together henabled fun c hc => (h c hc).rendered
  refine ⟨_, renderConfig_ok.mpr ⟨lease, hlease, hvalue, tail, htail, rfl⟩, ?_, ?_⟩
  · rw [hasTemplate_append _ hstarts, hhead, hplain]
    rfl
  · rw [bytes_append, List.length_append]
    have hpos := @renderHead_length_pos profile trustedCaPath response.deviceId lease.value
    omega

end Whole

/-- The same connection with another local service on the same port. -/
def Connection.withTarget (c : Connection) (scheme host : String) : Connection :=
  { c with localScheme := scheme, localHost := host }

section Http

variable {R : Runtime} {c : Connection} {trust : TrustProfile} {domains : List String}

theorem renderTarget_http (hscheme : c.localScheme ≠ "https") :
    renderTarget c = "localIP = " ++ toml c.localHost ++ "\n" ++
      "localPort = " ++ toString c.localPort ++ "\n" := by
  unfold renderTarget
  rw [if_neg fun h => hscheme h.2]

/-- What stands in front of the target, which it does not depend on. -/
def connectionLead (profile : Profile) (c : Connection) : String :=
  "\n[[proxies]]\n" ++ "name = " ++ toml (proxyName c) ++ "\n" ++
    ("type = \"http\"\n" ++ "customDomains = [" ++ ", ".intercalate
      (((c.subdomain ++ "." ++ profile.tunnelDomain) :: c.customDomains).map toml) ++ "]\n") ++
    "transport.useEncryption = true\n" ++ "transport.useCompression = true\n" ++
    ("healthCheck.type = \"tcp\"\n" ++ "healthCheck.timeoutSeconds = 3\n" ++
      "healthCheck.intervalSeconds = 10\n")

theorem renderConnection_http (profile : Profile) (hhttp : c.proxyType = .http) :
    renderConnection profile c = .ok (connectionLead profile c ++ renderTarget c) := by
  unfold renderConnection renderKind
  rw [hhttp]
  rfl

theorem baseOf_http (hhttp : c.proxyType = .http) (hscheme : c.localScheme ≠ "https") :
    baseOf c = { (templateBase tcpHealth) with
      name := tomlValue (proxyName c), localIP := tomlValue c.localHost, localPort := c.localPort } := by
  unfold baseOf
  rw [if_neg fun h => hscheme h.2, hhttp]
  rfl

theorem validateManagedProxy_http (hhttp : c.proxyType = .http) (hscheme : c.localScheme ≠ "https") :
    validateManagedProxy R trust (ProxyConfig.http (baseOf c) domains).complete = .ok () ↔
      ((1 ≤ domains.length ∧ domains.length ≤ 101) ∧ publicDomains R trust domains [] 0 = .ok 1) ∧
      (1 ≤ c.localPort ∧ c.localPort ≤ 65535) ∧
      (tomlValue c.localHost ≠ "" → validLocalHost (tomlValue c.localHost) = true) := by
  have htarget : validTarget (baseOf c).complete = true ↔ (1 ≤ c.localPort ∧ c.localPort ≤ 65535) ∧
      (tomlValue c.localHost ≠ "" → validLocalHost (tomlValue c.localHost) = true) := by
    rw [baseOf_http hhttp hscheme]
    simp only [validTarget, ProxyBase.complete, Bool.not_eq_true', Bool.or_eq_false_iff,
      decide_eq_false_iff_not, Bool.not_eq_false', not_lt]
    refine and_congr_right fun _ => ?_
    by_cases hempty : tomlValue c.localHost = ""
    · rw [if_pos hempty]
      simp only [hempty, ne_eq, not_true, false_implies, iff_true]
      decide
    · rw [if_neg hempty]
      simp [hempty]
  rw [← htarget, baseOf_http hhttp hscheme]
  simp only [ProxyConfig.complete, validateManagedProxy, validateManagedHttpProxy, ProxyBase.complete,
    templateBase, bind_eq_ok, check_eq_ok, Bool.and_eq_true, decide_eq_true_eq, beq_iff_eq]
  constructor
  · rintro ⟨_, hcount, managed, hpublic, _, rfl, _, htarget, _⟩
    exact ⟨⟨hcount, hpublic⟩, htarget⟩
  · rintro ⟨⟨hcount, hpublic⟩, htarget⟩
    refine ⟨(), hcount, 1, hpublic, (), rfl, (), htarget, ?_⟩
    split <;> rfl

theorem proxies_only (profile : Profile) (response : SyncResponse) (trustedCaPath : String)
    (henabled : c.enabled = true) (hhttp : c.proxyType = .http) :
    (configOf profile (response.only c) trustedCaPath).proxies =
      [.http (baseOf c) (((c.subdomain ++ "." ++ profile.tunnelDomain) :: c.customDomains).map
        tomlValue)] := by
  simp [configOf, SyncResponse.only, henabled, proxyOf, hhttp]

end Http

theorem toLower_of_not_capital {c : Char} (h : ¬ ('A' ≤ c ∧ c ≤ 'Z')) : c.toLower = c := by
  unfold Char.toLower
  exact dif_neg h

theorem lowerCase_ascii : LowerCase Char.toLower where
  space := by
    intro c hc
    refine toLower_of_not_capital ?_
    rintro ⟨hlow, hhigh⟩
    have hrange : 65 ≤ c.toNat ∧ c.toNat ≤ 90 := ⟨hlow, hhigh⟩
    simp only [isSpace, Bool.or_eq_true, Bool.and_eq_true, decide_eq_true_eq,
      List.contains_iff_mem, List.mem_cons, List.not_mem_nil, or_false] at hc
    omega
  ascii := fun c _ hc => toLower_of_not_capital hc
  letter := by
    intro c
    by_cases hc : 'A' ≤ c ∧ c ≤ 'Z'
    · right
      left
      have hrange : 65 ≤ c.toNat ∧ c.toNat ≤ 90 := hc
      have hlower : c.toLower.toNat = c.toNat + 32 := by
        have hval : c.val ≥ 'A'.val ∧ c.val ≤ 'Z'.val := hc
        unfold Char.toLower
        rw [dif_pos hval]
        change (c.val + 32).toNat = c.toNat + 32
        rw [UInt32.toNat_add]
        change (c.toNat + 32) % 2 ^ 32 = c.toNat + 32
        omega
      have hbounds : 97 ≤ c.toLower.toNat ∧ c.toLower.toNat ≤ 122 := by omega
      exact hbounds
    · exact Or.inl (toLower_of_not_capital hc)

/-- The text has at most that many bytes and no brace. -/
def Short (limit : Nat) (text : String) : Prop :=
  (bytes text).length ≤ limit ∧ (0x7b : UInt8) ∉ bytes text ∧ (0x7d : UInt8) ∉ bytes text

instance (limit : Nat) (text : String) : Decidable (Short limit text) :=
  inferInstanceAs (Decidable (_ ∧ _ ∧ _))

theorem Short.append {m : Nat} {a : String} (ha : Short m a) (hb : Short n b) :
    Short (m + n) (a ++ b) := by
  unfold Short at *
  rw [bytes_append, List.length_append, List.mem_append, List.mem_append]
  exact ⟨by omega, by tauto, by tauto⟩

theorem Short.intercalate {texts : List String} (h : ∀ text ∈ texts, Short n text) :
    Short ((n + 2) * texts.length) (", ".intercalate texts) := by
  induction texts with
  | nil => exact (by decide : Short 0 "")
  | cons first texts ih =>
    obtain ⟨hfirst, hrest⟩ := List.forall_mem_cons.mp h
    cases texts with
    | nil =>
      refine ⟨?_, hfirst.2⟩
      have hle := hfirst.1
      simp only [String.intercalate_singleton, List.length_cons, List.length_nil]
      omega
    | cons second texts =>
      have hcomma : Short 2 ", " := by decide
      have happend := (hfirst.append hcomma).append (ih hrest)
      rw [String.intercalate_cons_cons]
      refine ⟨happend.1.trans ?_, happend.2⟩
      simp only [List.length_cons]
      ring_nf
      omega

theorem hasPair_of_not_mem {b : UInt8} {content : List UInt8} (h : b ∉ content) :
    hasPair b content = false := by
  induction content with
  | nil => rfl
  | cons x content ih =>
    cases content with
    | nil => rfl
    | cons y rest =>
      have hx : (x == b) = false := by
        rw [beq_eq_false_iff_ne]
        rintro rfl
        exact h List.mem_cons_self
      rw [hasPair, hx, ih fun hmem => h (List.mem_cons_of_mem x hmem)]
      rfl

theorem Short.plain {text : String} (h : Short n text) : hasTemplate (bytes text) = false := by
  unfold hasTemplate
  rw [hasPair_of_not_mem h.2.1, hasPair_of_not_mem h.2.2]
  rfl

theorem publicDomains_plain {R : Runtime} {trust : TrustProfile} {values seen : List String}
    (hnormal : ∀ v ∈ values, normalDomain R.toLower v = v)
    (hmanaged : ∀ v ∈ values, isManagedDomain R.toLower v trust.domain = false)
    (hallowed : ∀ v ∈ values, v ∈ trust.allowedCustomDomains) (hnodup : values.Nodup)
    (hseen : ∀ v ∈ values, v ∉ seen) (managed : Nat) :
    publicDomains R trust values seen managed = .ok managed := by
  induction values generalizing seen with
  | nil => rfl
  | cons v values ih =>
    obtain ⟨hv, hrest⟩ := List.nodup_cons.mp hnodup
    have hfresh : ∀ w ∈ values, w ∉ v :: seen := by
      intro w hw hmem
      rcases List.mem_cons.mp hmem with rfl | hmem
      · exact hv hw
      · exact hseen w (List.mem_cons_of_mem v hw) hmem
    rw [publicDomains, hnormal v List.mem_cons_self, if_neg (hseen v List.mem_cons_self),
      hmanaged v List.mem_cons_self, if_neg (by simp), if_pos (hallowed v List.mem_cons_self)]
    exact ih (fun w hw => hnormal w (List.mem_cons_of_mem v hw))
      (fun w hw => hmanaged w (List.mem_cons_of_mem v hw))
      (fun w hw => hallowed w (List.mem_cons_of_mem v hw)) hrest hfresh

def managedProfile : Profile where
  frpsHost := "frps.example"
  frpsPort := 7000
  tunnelDomain := "t.example"
  frpsTlsCertificatePem := ""

def managedConnection (name : String) (domains : List String) : Connection where
  id := name
  subdomain := name
  proxyType := .http
  remotePort := domains.length
  customDomains := domains
  localScheme := "http"
  localHost := "127.0.0.1"
  localPort := 8080
  enabled := true
  version := 1
  proxyName := name
  state := ""
  appliedVersion := 0
  lastErrorCode := ""
  lastErrorSummary := ""

def managedResponse (connections : List Connection) : SyncResponse where
  deviceId := "device"
  fullSync := true
  targetConfigVersion := 1
  connections := connections
  lease := some ⟨"lease", 0⟩

/-- `000.x`, `001.x` and so on. -/
def sampleDomain (n : Nat) : String :=
  String.ofList [Decimal.digitChar (n / 100), Decimal.digitChar (n / 10 % 10),
    Decimal.digitChar (n % 10), '.', 'x']

/-- What one of these domains is to the agent. -/
structure PlainDomain (d : String) : Prop where
  valid : validTunnelDomain d = true
  normal : normalDomain Char.toLower d = d
  managed : isManagedDomain Char.toLower d "t.example" = false
  rendered : tomlValue d = d
  short : Short 7 (toml d)

theorem sampleDomain_plain : ∀ n < 101, PlainDomain (sampleDomain n) := by
  have h : ∀ n < 101, validTunnelDomain (sampleDomain n) = true ∧
      normalDomain Char.toLower (sampleDomain n) = sampleDomain n ∧
      isManagedDomain Char.toLower (sampleDomain n) "t.example" = false ∧
      tomlValue (sampleDomain n) = sampleDomain n ∧ Short 7 (toml (sampleDomain n)) := by
    simp only [sampleDomain, validTunnelDomain, normalDomain, isManagedDomain, trimSpace, tomlValue,
      Short, toml, replaceAll, bytes, String.toList_append, String.toList_ofList, String.ofList_inj]
    decide +kernel
  intro n hn
  obtain ⟨hvalid, hnormal, hmanaged, hrendered, hshort⟩ := h n hn
  exact ⟨hvalid, hnormal, hmanaged, hrendered, hshort⟩

/-- Custom domains that a connection may have. -/
structure PlainDomains (domains : List String) : Prop where
  plain : ∀ d ∈ domains, PlainDomain d
  nodup : domains.Nodup
  length : domains.length ≤ 100

def sampleRuntime (load : List UInt8 → Option ClientConfig) : Runtime where
  toLower := Char.toLower
  equalFold a b := a == b
  sha256Hex _ := ""
  load := load
  commonValid _ := true
  proxyValid _ := true

def sampleTrust (domains : List String) : TrustProfile where
  server := "frps.example"
  port := 7000
  domain := "t.example"
  allowedCustomDomains := domains
  allowedTcpPorts := []
  allowedUdpPorts := []
  tlsCaSha256 := ""

section Sample

variable (load : List UInt8 → Option ClientConfig)

theorem sample_trustOf (domains : List String) :
    trustOf (sampleRuntime load) managedProfile "" 7000 domains [] [] = sampleTrust domains := by
  have hserver : trimSpace "frps.example" = "frps.example" := by decide
  have hdomain : normalDomain Char.toLower "t.example" = "t.example" := by decide
  have hhash : String.ofList ((trimSpace "").toList.map Char.toLower) = "" := by decide
  unfold trustOf sampleTrust
  simp only [sampleRuntime, managedProfile, hserver, hdomain, hhash]

theorem sample_shared (disk : Disk) :
    SharedChecks (sampleRuntime load) disk managedProfile "" "config.toml"
      (commonOf managedProfile "device" "lease" "") 7000 where
  readsPort := by decide
  hash := by
    rw [sample_trustOf]
    exact Or.inl rfl
  trust := by
    rw [sample_trustOf, validateTrustProfile, check_eq_ok]
    decide
  path := by
    change (extension "config.toml" == ".toml") = true
    decide
  valid := rfl
  template := by
    rw [sample_trustOf]
    simp only [validateCommon, bind_eq_ok, check_eq_ok]
    refine ⟨(), ?_, (), ?_, (), ?_, ?_⟩
    · change ((commonOf managedProfile "device" "lease" "").serverAddr == "frps.example" && _) = true
      decide
    · decide
    · decide
    · rw [if_pos (show (sampleTrust []).tlsCaSha256 = "" from rfl)]
      simp only [bind_eq_ok, check_eq_ok]
      exact ⟨(), by decide, by decide⟩

/-- A host that stands for itself in the configuration. -/
structure PlainHost (host : String) : Prop where
  rendered : tomlValue host = host
  valid : validLocalHost host = true
  short : Short 20 (toml host)

/-- The names of the two connections. -/
def SampleName (name : String) : Prop := name = "a" ∨ name = "b"

def webConnection (name : String) (domains : List String) (host : String) : Connection :=
  (managedConnection name domains).withTarget "http" host

variable {name host : String} {connections : List Connection}

theorem proxyName_sample (hname : SampleName name) (domains : List String) (host : String) :
    proxyName (webConnection name domains host) = name := by
  have hne : trimSpace name ≠ "" := by
    rcases hname with rfl | rfl <;> decide
  unfold proxyName
  rw [if_neg (show trimSpace (webConnection name domains host).proxyName ≠ "" from hne)]
  rfl

theorem short_domains (hname : SampleName name) {domains : List String}
    (hplain : ∀ d ∈ domains, PlainDomain d) :
    Short (15 * (domains.length + 1)) (", ".intercalate
      (((name ++ "." ++ "t.example") :: domains).map toml)) := by
  have hall : ∀ text ∈ ((name ++ "." ++ "t.example") :: domains).map toml, Short 13 text := by
    intro text htext
    obtain ⟨d, hd, rfl⟩ := List.mem_map.mp htext
    rcases List.mem_cons.mp hd with rfl | hd
    · rcases hname with rfl | rfl <;> decide
    · obtain ⟨hlength, hbraces⟩ := (hplain d hd).short
      exact ⟨by omega, hbraces⟩
  have hshort := Short.intercalate hall
  rwa [List.length_map, List.length_cons] at hshort

theorem sample_rendered (hname : SampleName name) (hhost : PlainHost host) {domains : List String}
    (hplain : ∀ d ∈ domains, PlainDomain d) :
    ∃ own, renderConnection managedProfile (webConnection name domains host) =
        .ok ("\n[[proxies]]\n" ++ "name = " ++ toml name ++ "\n" ++ own) ∧
      Short (300 + 15 * (domains.length + 1)) ("\n[[proxies]]\n" ++ "name = " ++ toml name ++ "\n" ++ own) := by
  have hlead : Short 30 ("\n[[proxies]]\n" ++ "name = " ++ toml name ++ "\n") := by
    rcases hname with rfl | rfl <;> decide
  have hkind : Short 40 ("type = \"http\"\n" ++ "customDomains = [") := by decide
  have hhealth : Short 170 ("]\n" ++ "transport.useEncryption = true\n" ++
      "transport.useCompression = true\n" ++ ("healthCheck.type = \"tcp\"\n" ++
        "healthCheck.timeoutSeconds = 3\n" ++ "healthCheck.intervalSeconds = 10\n") ++
      "localIP = ") := by
    simp only [Short, bytes_append]
    decide +kernel
  have hport : Short 18 ("\n" ++ "localPort = " ++ toString (8080 : Int) ++ "\n") := by
    decide +kernel
  have hshort := hlead.append ((hkind.append (short_domains hname hplain)).append
    ((hhealth.append hhost.short).append hport))
  have htarget : renderTarget (webConnection name domains host) = "localIP = " ++ toml host ++
      "\n" ++ "localPort = " ++ toString (8080 : Int) ++ "\n" :=
    renderTarget_http (show "http" ≠ "https" by decide)
  have hrendered := renderConnection_http (c := webConnection name domains host) managedProfile rfl
  unfold connectionLead at hrendered
  rw [proxyName_sample hname, htarget] at hrendered
  refine ⟨_, hrendered.trans ?_, hshort.1.trans (by omega), hshort.2⟩
  simp only [String.append_assoc]
  rfl

theorem collected_plain (connections : List Connection)
    (hplain : ∀ c ∈ connections, ∀ d ∈ c.customDomains, PlainDomain d) :
    (∀ e ∈ collectCustomDomains Char.toLower connections, PlainDomain e) ∧
      (collectCustomDomains Char.toLower connections).map (normalDomain Char.toLower) =
        collectCustomDomains Char.toLower connections := by
  have hall : ∀ e ∈ collectCustomDomains Char.toLower connections, PlainDomain e := by
    intro e he
    obtain ⟨_, c, hc, _, v, hv, rfl⟩ := mem_collectCustomDomains.mp he
    have hv := hplain c hc v hv
    rw [hv.normal]
    exact hv
  refine ⟨hall, ?_⟩
  conv_rhs => rw [← List.map_id (collectCustomDomains Char.toLower connections)]
  exact List.map_congr_left fun e he => (hall e he).normal

theorem PlainDomain.readable {d : String} (h : PlainDomain d) : Readable Char.toLower d := by
  refine ⟨comma_not_mem_of_valid h.valid, ?_⟩
  unfold readDomain
  rw [String.ofList_toList, h.normal, if_pos h.valid]

theorem PlainDomain.collected {d : String} (h : PlainDomain d) {c : Connection}
    (hc : c ∈ connections) (hkind : c.enabled = true ∧ c.proxyType = .http)
    (hd : d ∈ c.customDomains) : d ∈ collectCustomDomains Char.toLower connections := by
  refine mem_collectCustomDomains.mpr ⟨?_, c, hc, hkind, d, hd, h.normal⟩
  rintro rfl
  exact absurd h.valid (by decide)

theorem sample_proxy (hname : SampleName name) (hhost : PlainHost host)
    {domains allowed : List String} (hdomains : PlainDomains domains) (hallowed : domains ⊆ allowed) :
    validateManagedProxy (sampleRuntime load) (sampleTrust allowed)
      (ProxyConfig.http (baseOf (webConnection name domains host))
        (((name ++ "." ++ "t.example") :: domains).map tomlValue)).complete = .ok () := by
  obtain ⟨hplain, hnodup, hlength⟩ := hdomains
  have hmap : domains.map tomlValue = domains := by
    conv_rhs => rw [← List.map_id domains]
    exact List.map_congr_left fun d hd => (hplain d hd).rendered
  have hfirst : tomlValue (name ++ "." ++ "t.example") = name ++ "." ++ "t.example" ∧
      normalDomain Char.toLower (name ++ "." ++ "t.example") = name ++ "." ++ "t.example" ∧
      isManagedDomain Char.toLower (name ++ "." ++ "t.example") "t.example" = true := by
    rcases hname with rfl | rfl <;> decide
  have hpublic : publicDomains (sampleRuntime load) (sampleTrust allowed)
      ((name ++ "." ++ "t.example") :: domains) [] 0 = .ok 1 := by
    rw [publicDomains, show normalDomain (sampleRuntime load).toLower (name ++ "." ++ "t.example") =
        name ++ "." ++ "t.example" from hfirst.2.1, if_neg List.not_mem_nil,
      if_pos (show isManagedDomain (sampleRuntime load).toLower _ (sampleTrust allowed).domain = true
        from hfirst.2.2)]
    refine publicDomains_plain ?_ ?_ ?_ hnodup ?_ 1
    · intro v hv
      exact (hplain v hv).normal
    · intro v hv
      exact (hplain v hv).managed
    · intro v hv
      exact hallowed hv
    · intro v hv hmem
      rw [List.mem_singleton.mp hmem] at hv
      have hmanaged := (hplain _ hv).managed
      rw [hfirst.2.2] at hmanaged
      cases hmanaged
  have hcount : 1 ≤ domains.length + 1 ∧ domains.length + 1 ≤ 101 := by omega
  have hport : 1 ≤ (8080 : Int) ∧ (8080 : Int) ≤ 65535 := by decide
  rw [List.map_cons, hmap, hfirst.1]
  refine (validateManagedProxy_http rfl (show "http" ≠ "https" by decide)).mpr
    ⟨⟨hcount, hpublic⟩, hport, fun _ => ?_⟩
  change validLocalHost (tomlValue host) = true
  rw [hhost.rendered]
  exact hhost.valid

theorem renderConfig_sample {tail : String}
    (h : renderConnections managedProfile connections = .ok tail) :
    renderConfig managedProfile (managedResponse connections) "" =
      .ok (renderHead managedProfile "device" "lease" "" ++ tail) :=
  renderConfig_ok.mpr ⟨⟨"lease", 0⟩, rfl, by decide, tail, h, rfl⟩

theorem short_head : Short 500 (renderHead managedProfile "device" "lease" "") := by
  unfold Short renderHead
  simp only [bytes_append]
  decide +kernel

theorem renderConnections_only {domains : List String} {text : String}
    (h : renderConnection managedProfile (webConnection name domains host) = .ok text) :
    renderConnections managedProfile [webConnection name domains host] = .ok text := by
  rw [renderConnections_cons rfl h rfl, String.append_empty]

theorem length_collected_le (connections : List Connection) (toLower : Char → Char) :
    (collectCustomDomains toLower connections).length ≤
      (connections.flatMap Connection.customDomains).length := by
  unfold collectCustomDomains
  rw [List.length_mergeSort]
  refine (List.dedup_sublist _).length_le.trans ((List.length_filter_le _ _).trans ?_)
  rw [List.length_flatMap, List.length_flatMap]
  simp only [List.length_map]
  exact (List.filter_sublist.map _).sum_le_sum fun _ _ => Nat.zero_le _

theorem ports_of_http (h : ∀ c ∈ connections, c.proxyType = .http) {proxyType : ProxyType}
    (hother : proxyType ≠ .http) : collectRemotePorts connections proxyType = [] := by
  refine List.eq_nil_iff_forall_not_mem.mpr fun port hport => ?_
  obtain ⟨c, hc, ⟨⟨_, htype⟩, _⟩, _⟩ := mem_collectRemotePorts.mp hport
  exact hother (htype.symm.trans (h c hc))

theorem sample_passes (disk : Disk) (hname : SampleName name) (hhost : PlainHost host)
    {domains : List String} (hdomains : PlainDomains domains)
    (hload : (sampleRuntime load).Loads managedProfile
      (managedResponse [webConnection name domains host]) "") :
    Passes (sampleRuntime load) disk managedProfile (managedResponse [webConnection name domains host]) ""
      "" "config.toml" := by
  have hplain := hdomains.plain
  have hlength := hdomains.length
  obtain ⟨own, hown, hshort⟩ := sample_rendered hname hhost hplain
  have hrendered := renderConfig_sample (renderConnections_only hown)
  obtain ⟨hcollected, hsame⟩ := collected_plain [webConnection name domains host]
    (List.forall_mem_singleton.mpr hplain)
  have hpath : "" ≠ "config.toml" := by decide
  have hhttp : ∀ c ∈ [webConnection name domains host], c.proxyType = .http :=
    List.forall_mem_singleton.mpr rfl
  have htext := short_head.append hshort
  rw [passes_iff hload hpath]
  refine ⟨_, hrendered, 7000, sample_shared load disk, collectCustomDomains Char.toLower [webConnection name domains host], [], [], ?_⟩
  refine ⟨?_, ?_, ?_, ?_, ?_, ?_, ?_, ?_⟩
  · refine (parse_readable lowerCase_ascii fun e he => (hcollected e he).readable).mpr ⟨?_, ?_, hsame.symm⟩
    · have hle := length_collected_le [webConnection name domains host] Char.toLower
      rw [List.flatMap_singleton] at hle
      exact hle.trans hlength
    · rw [hsame]
      exact nodup_collectCustomDomains _ _
  · change parseAllowedPorts (joinPorts (collectRemotePorts [webConnection name domains host] .tcp)) = _
    rw [ports_of_http hhttp (by decide)]
    rfl
  · change parseAllowedPorts (joinPorts (collectRemotePorts [webConnection name domains host] .udp)) = _
    rw [ports_of_http hhttp (by decide)]
    rfl
  · have hle := htext.1
    refine ⟨?_, ?_⟩
    · rw [bytes_append, List.length_append]
      have hpos := @renderHead_length_pos managedProfile "" "device" "lease"
      omega
    · unfold maxConfigBytes
      omega
  · exact htext.plain
  · intro proxy _
    rfl
  · exact (length_proxies_le _ _ _).trans (by simp [managedResponse])
  · intro proxy hproxy
    have hproxies := proxies_only (c := webConnection name domains host) managedProfile
      (managedResponse []) "" rfl rfl
    rw [show proxy = _ from List.mem_singleton.mp (hproxies ▸ hproxy), sample_trustOf]
    refine sample_proxy load hname hhost hdomains ?_
    intro d hd
    exact (hplain d hd).collected (List.mem_singleton_self _) ⟨rfl, rfl⟩ hd

end Sample

def sampleText (response : SyncResponse) : List UInt8 :=
  match renderConfig managedProfile response "" with
  | .ok text => bytes text
  | .error _ => []

/-- A loader that knows the configurations of two connections, alone and together. -/
def pairLoad (first second : List String) (content : List UInt8) : Option ClientConfig :=
  let a := managedResponse [managedConnection "a" first]
  let b := managedResponse [managedConnection "b" second]
  if content = sampleText a then some (configOf managedProfile a "")
  else if content = sampleText b then some (configOf managedProfile b "")
  else some (configOf managedProfile
    (managedResponse [managedConnection "a" first, managedConnection "b" second]) "")

/-- The two connections. -/
abbrev pairOf (first second : List String) : List Connection :=
  [managedConnection "a" first, managedConnection "b" second]

theorem sampleText_eq {response : SyncResponse} {text : String}
    (h : renderConfig managedProfile response "" = .ok text) : sampleText response = bytes text := by
  rw [sampleText, h]

theorem bytes_injective {a : String} (h : bytes a = bytes b) : a = b := by
  have hdecode := congrArg Utf8.decode h
  rw [bytes, bytes, Utf8.decode_encode, Utf8.decode_encode] at hdecode
  exact String.toList_inj.mp (Option.some.inj hdecode)

theorem plainHost_local : PlainHost "127.0.0.1" := ⟨by decide, by decide, by decide⟩

section Pair

variable {first second : List String} (hfirst : ∀ d ∈ first, PlainDomain d)
  (hsecond : ∀ d ∈ second, PlainDomain d)

include hfirst hsecond

theorem pair_texts : ∃ ownA ownB head,
    sampleText (managedResponse [managedConnection "a" first]) =
      bytes (head ++ ("\n[[proxies]]\nname = \"a\"\n" ++ ownA)) ∧
    sampleText (managedResponse [managedConnection "b" second]) =
      bytes (head ++ ("\n[[proxies]]\nname = \"b\"\n" ++ ownB)) ∧
    sampleText (managedResponse (pairOf first second)) =
      bytes (head ++ (("\n[[proxies]]\nname = \"a\"\n" ++ ownA) ++
        ("\n[[proxies]]\nname = \"b\"\n" ++ ownB))) := by
  obtain ⟨ownA, hownA, _⟩ := sample_rendered (Or.inl rfl) plainHost_local hfirst
  obtain ⟨ownB, hownB, _⟩ := sample_rendered (Or.inr rfl) plainHost_local hsecond
  rw [show "\n[[proxies]]\n" ++ "name = " ++ toml "a" ++ "\n" = "\n[[proxies]]\nname = \"a\"\n" by
    decide] at hownA
  rw [show "\n[[proxies]]\n" ++ "name = " ++ toml "b" ++ "\n" = "\n[[proxies]]\nname = \"b\"\n" by
    decide] at hownB
  refine ⟨ownA, ownB, renderHead managedProfile "device" "lease" "", ?_, ?_, ?_⟩
  · exact sampleText_eq (renderConfig_sample (renderConnections_only hownA))
  · exact sampleText_eq (renderConfig_sample (renderConnections_only hownB))
  · exact sampleText_eq (renderConfig_sample
      (renderConnections_cons rfl hownA (renderConnections_only hownB)))

theorem pair_texts_ne :
    sampleText (managedResponse [managedConnection "a" first]) ≠
      sampleText (managedResponse [managedConnection "b" second]) ∧
    sampleText (managedResponse [managedConnection "a" first]) ≠
      sampleText (managedResponse (pairOf first second)) ∧
    sampleText (managedResponse [managedConnection "b" second]) ≠
      sampleText (managedResponse (pairOf first second)) := by
  obtain ⟨ownA, ownB, head, hA, hB, hAB⟩ := pair_texts hfirst hsecond
  rw [hA, hB, hAB]
  refine ⟨?_, ?_, ?_⟩
  · intro h
    have htext := congrArg String.toList (bytes_injective h)
    simp only [String.toList_append, List.append_cancel_left_eq] at htext
    rw [show "\n[[proxies]]\nname = \"a\"\n".toList = "\n[[proxies]]\nname = \"".toList ++ ['a', '"', '\n'] by
        decide,
      show "\n[[proxies]]\nname = \"b\"\n".toList = "\n[[proxies]]\nname = \"".toList ++ ['b', '"', '\n'] by
        decide, List.append_assoc, List.append_assoc, List.append_cancel_left_eq] at htext
    cases htext
  · intro h
    have hlength := congrArg List.length h
    simp only [bytes_append, List.length_append] at hlength
    have hpos : (bytes "\n[[proxies]]\nname = \"b\"\n").length = 24 := by decide
    omega
  · intro h
    have hlength := congrArg List.length h
    simp only [bytes_append, List.length_append] at hlength
    have hpos : (bytes "\n[[proxies]]\nname = \"a\"\n").length = 24 := by decide
    omega

theorem pair_loads :
    (sampleRuntime (pairLoad first second)).Loads managedProfile
      (managedResponse [managedConnection "a" first]) "" ∧
    (sampleRuntime (pairLoad first second)).Loads managedProfile
      (managedResponse [managedConnection "b" second]) "" ∧
    (sampleRuntime (pairLoad first second)).Loads managedProfile
      (managedResponse (pairOf first second)) "" := by
  obtain ⟨hAB, hA, hB⟩ := pair_texts_ne hfirst hsecond
  refine ⟨?_, ?_, ?_⟩
  · intro text htext
    change pairLoad first second (bytes text) = _
    rw [pairLoad, if_pos (sampleText_eq htext).symm]
  · intro text htext
    change pairLoad first second (bytes text) = _
    rw [pairLoad, ← sampleText_eq htext, if_neg hAB.symm, if_pos rfl]
  · intro text htext
    change pairLoad first second (bytes text) = _
    rw [pairLoad, ← sampleText_eq htext, if_neg hA.symm, if_neg hB.symm]

end Pair

theorem pair_collected {first second : List String} (hfirst : ∀ d ∈ first, PlainDomain d)
    (hsecond : ∀ d ∈ second, PlainDomain d) :
    (∀ e ∈ collectCustomDomains Char.toLower (pairOf first second),
      PlainDomain e) ∧
    (collectCustomDomains Char.toLower (pairOf first second)).map
        (normalDomain Char.toLower) =
      collectCustomDomains Char.toLower (pairOf first second) :=
  collected_plain _ (List.forall_mem_cons.mpr ⟨hfirst, List.forall_mem_singleton.mpr hsecond⟩)

theorem pair_alone (disk : Disk) {first second : List String} (hfirst : PlainDomains first)
    (hsecond : PlainDomains second) :
    ∀ c ∈ (pairOf first second),
      Passes (sampleRuntime (pairLoad first second)) disk managedProfile (managedResponse [c]) "" ""
        "config.toml" := by
  obtain ⟨hA, hB, _⟩ := pair_loads hfirst.plain hsecond.plain
  refine List.forall_mem_cons.mpr ⟨?_, List.forall_mem_singleton.mpr ?_⟩
  · exact sample_passes _ disk (Or.inl rfl) plainHost_local hfirst hA
  · exact sample_passes _ disk (Or.inr rfl) plainHost_local hsecond hB

theorem sampleDomain_injective {m : Nat} (hm : m < 1000) (hn : n < 1000)
    (h : sampleDomain m = sampleDomain n) : m = n := by
  have hchars := congrArg String.toList h
  simp only [sampleDomain, String.toList_ofList, List.cons.injEq, and_true] at hchars
  obtain ⟨hhundreds, htens, hones⟩ := hchars
  have hdigit : ∀ {a b : Nat}, a < 10 → b < 10 → Decimal.digitChar a = Decimal.digitChar b → a = b := by
    intro a b ha hb hab
    have hvalue := congrArg Decimal.digitValue hab
    rwa [Decimal.digitValue_digitChar ha, Decimal.digitValue_digitChar hb] at hvalue
  have h1 := hdigit (by omega) (by omega) hhundreds
  have h2 := hdigit (by omega) (by omega) htens
  have h3 := hdigit (by omega) (by omega) hones
  omega

/-- The sample domains from one number on. -/
def sampleDomains (start count : Nat) : List String := (List.range' start count).map sampleDomain

theorem sampleDomains_plain (start count : Nat) (h : start + count ≤ 101) :
    (∀ d ∈ sampleDomains start count, PlainDomain d) ∧ (sampleDomains start count).Nodup ∧
      (sampleDomains start count).length = count := by
  refine ⟨?_, ?_, by simp [sampleDomains]⟩
  · intro d hd
    obtain ⟨n, hn, rfl⟩ := List.mem_map.mp hd
    rw [List.mem_range'_1] at hn
    exact sampleDomain_plain n (by omega)
  · refine List.Nodup.map_on ?_ List.nodup_range'
    intro m hm n hn hmn
    rw [List.mem_range'_1] at hm hn
    exact sampleDomain_injective (by omega) (by omega) hmn

/-! ## One by one and together -/

/-- Connections that pass the agent's checks one by one pass them together exactly if their custom
domains fit into one allow-list and their configuration into one file. -/
theorem valid_connections_valid_together (R : Runtime) (hlower : LowerCase R.toLower) (disk : Disk)
    (profile : Profile) (response : SyncResponse) (trustedCaPath tlsCaSha256 configPath : String)
    (hpath : (configOf profile response trustedCaPath).common.trustedCaFile ≠ configPath)
    (hload : R.Loads profile response trustedCaPath)
    (hloadOnly : ∀ c ∈ response.connections, R.Loads profile (response.only c) trustedCaPath)
    (hsome : response.connections ≠ []) (hcount : response.connections.length ≤ 100)
    (henabled : ∀ c ∈ response.connections, c.enabled = true)
    (halone : ∀ c ∈ response.connections,
      Passes R disk profile (response.only c) trustedCaPath tlsCaSha256 configPath) :
    Passes R disk profile response trustedCaPath tlsCaSha256 configPath ↔
      (collectCustomDomains R.toLower response.connections).length ≤ 100 ∧
      ((collectCustomDomains R.toLower response.connections).map (normalDomain R.toLower)).Nodup ∧
      ∀ text, renderConfig profile response trustedCaPath = .ok text →
        (bytes text).length ≤ maxConfigBytes := by
  obtain ⟨first, hfirst⟩ := List.exists_mem_of_ne_nil _ hsome
  obtain ⟨text₀, htext₀, port, hshared, _, _, _, hchecks₀⟩ :=
    (passes_iff (hloadOnly first hfirst) hpath).mp (halone first hfirst)
  obtain ⟨lease, hlease, hvalue, hhead, _⟩ :=
    renderConfig_only (henabled first hfirst) htext₀ hchecks₀.plain
  have hall : ∀ c ∈ response.connections,
      AloneChecks R profile response trustedCaPath tlsCaSha256 port c := by
    intro c hc
    obtain ⟨text, htext, port', hshared', domains, tcp, udp, hchecks⟩ :=
      (passes_iff (hloadOnly c hc) hpath).mp (halone c hc)
    have hport := hshared'.readsPort
    rw [hshared.readsPort] at hport
    cases hport
    exact aloneChecks hlower (henabled c hc) htext hshared' hchecks
  obtain ⟨text, htext, hplain, hlength⟩ := renderConfig_together hlease hvalue hhead henabled hall
  have htogether := listChecks_together hlower hcount hplain hlength hall
  rw [passes_iff hload hpath]
  constructor
  · rintro ⟨text', htext', port', hshared', hchecks⟩
    have hport := hshared'.readsPort
    rw [hshared.readsPort] at hport
    cases hport
    rw [htext] at htext'
    cases htext'
    obtain ⟨hdomains, hnodup, hsize⟩ := htogether.mp hchecks
    refine ⟨hdomains, hnodup, fun text' htext' => ?_⟩
    rw [htext] at htext'
    cases htext'
    exact hsize
  · rintro ⟨hdomains, hnodup, hsize⟩
    exact ⟨text, htext, port, hshared, htogether.mpr ⟨hdomains, hnodup, hsize text htext⟩⟩

/-- Two connections with one custom domain each pass together. -/
theorem two_connections_pass : Passes
    (sampleRuntime (pairLoad (sampleDomains 0 1) (sampleDomains 1 1))) (fun _ => none) managedProfile
    (managedResponse [managedConnection "a" (sampleDomains 0 1), managedConnection "b" (sampleDomains 1 1)])
    "" "" "config.toml" := by
  obtain ⟨hfirst, hfirstNodup, hfirstLength⟩ := sampleDomains_plain 0 1 (by decide)
  obtain ⟨hsecond, hsecondNodup, hsecondLength⟩ := sampleDomains_plain 1 1 (by decide)
  obtain ⟨hloadA, hloadB, hload⟩ := pair_loads hfirst hsecond
  refine (valid_connections_valid_together _ lowerCase_ascii _ _ _ _ _ _ ?_ hload ?_ ?_ ?_ ?_
    (pair_alone _ ⟨hfirst, hfirstNodup, by omega⟩ ⟨hsecond, hsecondNodup, by omega⟩)).mpr ⟨?_, ?_, ?_⟩
  · change "" ≠ "config.toml"
    decide
  · exact List.forall_mem_cons.mpr ⟨hloadA, List.forall_mem_singleton.mpr hloadB⟩
  · exact List.cons_ne_nil _ _
  · exact (by decide : 2 ≤ 100)
  · exact List.forall_mem_cons.mpr ⟨rfl, List.forall_mem_singleton.mpr rfl⟩
  · exact (length_collected_le (pairOf (sampleDomains 0 1) (sampleDomains 1 1)) Char.toLower).trans
      (by decide +kernel)
  · exact (congrArg List.Nodup (pair_collected hfirst hsecond).2).mpr (nodup_collectCustomDomains _ _)
  · obtain ⟨ownA, hownA, hshortA⟩ := sample_rendered (Or.inl rfl) plainHost_local hfirst
    obtain ⟨ownB, hownB, hshortB⟩ := sample_rendered (Or.inr rfl) plainHost_local hsecond
    have hrendered := renderConfig_sample (renderConnections_cons rfl hownA (renderConnections_only hownB))
    intro text htext
    rw [Except.ok.inj (htext.symm.trans hrendered)]
    have hle := (short_head.append (hshortA.append hshortB)).1
    rw [hfirstLength, hsecondLength] at hle
    exact hle.trans (by decide)

/-- Connections with 51 and 50 custom domains each pass alone, and together they are one domain
over the agent's limit. -/
theorem crowded_connections_refused :
    (∀ c ∈ [managedConnection "a" (sampleDomains 0 51), managedConnection "b" (sampleDomains 51 50)],
      Passes (sampleRuntime (pairLoad (sampleDomains 0 51) (sampleDomains 51 50))) (fun _ => none)
        managedProfile (managedResponse [c]) "" "" "config.toml") ∧
    (sampleDomains 0 51 ++ sampleDomains 51 50).Nodup ∧
    ¬ Passes (sampleRuntime (pairLoad (sampleDomains 0 51) (sampleDomains 51 50))) (fun _ => none)
      managedProfile (managedResponse [managedConnection "a" (sampleDomains 0 51),
        managedConnection "b" (sampleDomains 51 50)]) "" "" "config.toml" := by
  obtain ⟨hfirst, hfirstNodup, hfirstLength⟩ := sampleDomains_plain 0 51 (by decide)
  obtain ⟨hsecond, hsecondNodup, hsecondLength⟩ := sampleDomains_plain 51 50 (by decide)
  obtain ⟨_, hnodup, hlength⟩ := sampleDomains_plain 0 101 (by decide)
  have hall : sampleDomains 0 101 = sampleDomains 0 51 ++ sampleDomains 51 50 := by
    unfold sampleDomains
    rw [← List.map_append, List.range'_append_1]
  obtain ⟨_, _, hload⟩ := pair_loads hfirst hsecond
  refine ⟨pair_alone _ ⟨hfirst, hfirstNodup, by omega⟩ ⟨hsecond, hsecondNodup, by omega⟩,
    hall ▸ hnodup, ?_⟩
  intro hpasses
  have hpath : "" ≠ "config.toml" := by decide
  obtain ⟨text, _, port, _, domains, _, _, hchecks⟩ := (passes_iff hload hpath).mp hpasses
  have hcollected := (pair_collected hfirst hsecond).1
  obtain ⟨hcount, _⟩ := (parse_readable lowerCase_ascii fun e he => (hcollected e he).readable).mp
    hchecks.readsDomains
  have hsubset : sampleDomains 0 101 ⊆ collectCustomDomains Char.toLower
      (pairOf (sampleDomains 0 51) (sampleDomains 51 50)) := by
    intro d hd
    rw [hall, List.mem_append] at hd
    rcases hd with hd | hd
    · exact (hfirst d hd).collected List.mem_cons_self ⟨rfl, rfl⟩ hd
    · exact (hsecond d hd).collected (List.mem_cons_of_mem _ List.mem_cons_self) ⟨rfl, rfl⟩ hd
  have hle := (hnodup.subperm hsubset).length_le
  omega

end HomeTunnel.Agent
