import HomeTunnel.Agent.Together

/-! # HTTPS targets

A connection to a local HTTPS service is rendered with one joined address where one to a local
HTTP service has a host and a port, and the agent takes the address apart again. Here is which
hosts survive that.
-/

namespace HomeTunnel.Agent

def isProbeChar (c : Char) : Bool :=
  ('a' ≤ c && c ≤ 'z') || ('A' ≤ c && c ≤ 'Z') || ('0' ≤ c && c ≤ '9') || c == '-'

/-- `strings.TrimSuffix` for a single character. -/
def trimSuffix (last : Char) (text : List Char) : List Char :=
  if text.getLast? = some last then text.dropLast else text

/-- `validProbeHost`: an address, or labels of letters, digits and inner dashes. -/
def validProbeHost (host : String) : Bool :=
  Net.isIP host.toList ||
    (!((bytes host).length == 0 || (bytes host).length > 253 || trimSpace host != host) &&
      ((trimSuffix '.' host.toList).splitOn '.').all fun label =>
        !((Utf8.encode label).length == 0 || (Utf8.encode label).length > 63 ||
            label.head? == some '-' || label.getLast? == some '-') &&
          label.all isProbeChar)

theorem mem_of_mem_intercalate {c d : Char} {parts : List (List Char)}
    (h : c ∈ [d].intercalate parts) : c = d ∨ ∃ part ∈ parts, c ∈ part := by
  induction parts with
  | nil => cases h
  | cons part parts ih =>
    cases parts with
    | nil =>
      rw [List.intercalate_singleton] at h
      exact Or.inr ⟨part, List.mem_cons_self, h⟩
    | cons next parts =>
      rw [List.intercalate_cons_cons, List.mem_append, List.mem_append, List.mem_singleton] at h
      rcases h with (h | h) | h
      · exact Or.inr ⟨part, List.mem_cons_self, h⟩
      · exact Or.inl h
      · rcases ih h with h | ⟨other, hother, h⟩
        · exact Or.inl h
        · exact Or.inr ⟨other, List.mem_cons_of_mem part hother, h⟩

theorem mem_trimSuffix (last : Char) {c : Char} {text : List Char} (h : c ∈ text) :
    c = last ∨ c ∈ trimSuffix last text := by
  unfold trimSuffix
  split
  · rename_i hlast
    have hjoin := List.dropLast_append_getLast? last hlast
    rw [← hjoin, List.mem_append, List.mem_singleton] at h
    exact h.symm
  · exact Or.inr h

variable {host : String} {port : Int}

theorem validProbeHost_chars (h : validProbeHost host = true) :
    ∀ c ∈ host.toList, Net.isAddressChar c = true ∨ isProbeChar c = true := by
  intro c hc
  have hdot : Net.isAddressChar '.' = true := by decide
  unfold validProbeHost at h
  rw [Bool.or_eq_true, Bool.and_eq_true, List.all_eq_true] at h
  rcases h with h | ⟨_, h⟩
  · exact Or.inl (Net.isIP_chars h c hc)
  · rcases mem_trimSuffix '.' hc with rfl | hc
    · exact Or.inl hdot
    · have hjoin : ['.'].intercalate ((trimSuffix '.' host.toList).splitOn '.') =
          trimSuffix '.' host.toList := List.intercalate_splitOn '.'
      rw [← hjoin] at hc
      rcases mem_of_mem_intercalate hc with rfl | ⟨label, hlabel, hc⟩
      · exact Or.inl hdot
      · have hchars := h label hlabel
        rw [Bool.and_eq_true, List.all_eq_true] at hchars
        exact Or.inr (hchars.2 c hc)

/-- Neither list of characters has brackets or the ends of lines. -/
theorem validProbeHost_not_mem (h : validProbeHost host = true) {c : Char}
    (hc : (Net.isAddressChar c || isProbeChar c) = false) : c ∉ host.toList := by
  intro hmem
  have hchar := validProbeHost_chars h c hmem
  rw [← Bool.or_eq_true, hc] at hchar
  cases hchar

theorem mem_portText (hport : 0 ≤ port) {c : Char} (hc : c ∈ (toString port).toList) :
    c.isDigit = true := by
  obtain ⟨n, rfl⟩ := Int.eq_ofNat_of_zero_le hport
  change c ∈ n.repr.toList at hc
  rw [Nat.toList_repr] at hc
  exact Nat.isDigit_of_mem_toDigits (by decide) (by decide) hc

theorem not_mem_portText (hport : 0 ≤ port) {c : Char} (hc : c.isDigit = false) :
    c ∉ (toString port).toList := by
  intro hmem
  rw [mem_portText hport hmem] at hc
  cases hc

theorem portText_unbracketed (hport : 0 ≤ port) : Net.Unbracketed (toString port).toList :=
  ⟨not_mem_portText hport (by decide), not_mem_portText hport (by decide),
    not_mem_portText hport (by decide)⟩

theorem portText_ne_zero (hport : 1 ≤ port) : toString port ≠ "0" := by
  obtain ⟨n, rfl⟩ := Int.eq_ofNat_of_zero_le (show 0 ≤ port by omega)
  intro h
  have hrepr : n.repr = (0 : Nat).repr := h
  have hzero : n = 0 := Nat.repr_inj.mp hrepr
  omega

theorem replaceAll_append (old : Char) (new a b : String) :
    replaceAll old new (a ++ b) = replaceAll old new a ++ replaceAll old new b := by
  simp [replaceAll]

theorem tomlValue_append (a b : String) : tomlValue (a ++ b) = tomlValue a ++ tomlValue b := by
  simp [tomlValue]

theorem tomlValue_of_not_mem {value : String} (hr : '\r' ∉ value.toList) (hn : '\n' ∉ value.toList) :
    tomlValue value = value := by
  have hfilter : value.toList.filter (fun c => c ≠ '\r' ∧ c ≠ '\n') = value.toList := by
    rw [List.filter_eq_self]
    intro c hc
    rw [decide_eq_true_eq]
    exact ⟨fun h => hr (h ▸ hc), fun h => hn (h ▸ hc)⟩
  rw [tomlValue, hfilter, String.ofList_toList]

/-- The local address as `RenderConfig` joins it. -/
def joined (host : String) (port : Int) : String := host ++ ":" ++ toString port

theorem tomlValue_joined (host : String) (hport : 0 ≤ port) :
    (tomlValue (joined host port)).toList = (tomlValue host).toList ++ ':' :: (toString port).toList := by
  have hcolon : tomlValue ":" = ":" := by decide
  rw [joined, tomlValue_append, tomlValue_append, hcolon, tomlValue_of_not_mem
    (not_mem_portText hport (by decide)) (not_mem_portText hport (by decide))]
  simp

/-- A quoted host and the quoted address that starts with it differ behind the host only. -/
theorem toml_joined (host : String) (hport : 0 ≤ port) :
    ∃ opened,
    toml host = opened ++ "\"" ∧ toml (joined host port) = opened ++ (":" ++ toString port ++ "\"") := by
  have hsame : ∀ (old : Char) (new : String), old.isDigit = false → old ≠ ':' →
      replaceAll old new (":" ++ toString port) = ":" ++ toString port := by
    intro old new hdigit hcolon
    refine replaceAll_of_not_mem ?_
    have hnot := not_mem_portText hport hdigit
    rw [String.toList_append, List.mem_append]
    rintro (hmem | hmem)
    · exact hcolon (List.mem_singleton.mp hmem)
    · exact hnot hmem
  have hback := hsame '\\' "\\\\" (by decide) (by decide)
  have hquote := hsame '"' "\\\"" (by decide) (by decide)
  have hreturn := hsame '\r' "" (by decide) (by decide)
  have hnewline := hsame '\n' "" (by decide) (by decide)
  refine ⟨"\"" ++ replaceAll '\n' "" (replaceAll '\r' "" (replaceAll '"' "\\\""
    (replaceAll '\\' "\\\\" host))), rfl, ?_⟩
  have hassoc : joined host port = host ++ (":" ++ toString port) := String.append_assoc
  unfold toml
  dsimp only
  rw [hassoc, replaceAll_append _ _ host, hback, replaceAll_append _ _ _ (":" ++ _),
    hquote, replaceAll_append _ _ _ (":" ++ _), hreturn, replaceAll_append _ _ _ (":" ++ _), hnewline]
  simp only [String.append_assoc]

/-- The same connection with a local HTTPS service. -/
def Connection.https (c : Connection) : Connection := { c with localScheme := "https" }

/-- How much longer the text gets. -/
def httpsGrowth (c : Connection) : Nat := 48 + (bytes (toml c.localHost)).length

section Text

variable {c : Connection}

theorem renderTarget_https (hhttp : c.proxyType = .http) :
    renderTarget c.https = "[proxies.plugin]\n" ++ "type = \"http2https\"\n" ++
      "localAddr = " ++ toml (joined c.localHost c.localPort) ++ "\n" ++
      "hostHeaderRewrite = " ++ toml c.localHost ++ "\n" := by
  unfold renderTarget
  rw [if_pos ⟨hhttp, rfl⟩]
  rfl

theorem renderTarget_growth (hhttp : c.proxyType = .http) (hscheme : c.localScheme ≠ "https")
    (hport : 0 ≤ c.localPort) :
    (bytes (renderTarget c.https)).length = (bytes (renderTarget c)).length + httpsGrowth c := by
  obtain ⟨opened, hhost, haddress⟩ := toml_joined c.localHost hport
  have hquote : (bytes "\"").length = 1 := by decide
  have hcolon : (bytes ":").length = 1 := by decide
  have hnewline : (bytes "\n").length = 1 := by decide
  have hip : (bytes "localIP = ").length = 10 := by decide
  have hportName : (bytes "localPort = ").length = 12 := by decide
  have hplugin : (bytes "[proxies.plugin]\n").length = 17 := by decide
  have htype : (bytes "type = \"http2https\"\n").length = 20 := by decide
  have haddr : (bytes "localAddr = ").length = 12 := by decide
  have hrewrite : (bytes "hostHeaderRewrite = ").length = 20 := by decide
  rw [renderTarget_http hscheme, renderTarget_https hhttp, httpsGrowth, haddress, hhost]
  simp only [bytes_append, List.length_append]
  omega

theorem head_bytes_append {a b : String} {x : UInt8} {rest : List UInt8} (h : bytes a = x :: rest) :
    (bytes (a ++ b)).head? = some x := by
  rw [bytes_append, h]
  rfl

theorem head_toml (value : String) : (bytes (toml value)).head? = some 0x22 := by
  unfold toml
  dsimp only
  rw [String.append_assoc]
  exact head_bytes_append (show bytes "\"" = [0x22] by decide)

theorem hasTemplate_append_head (a : String) {b : String} {x : UInt8} (hhead : (bytes b).head? = some x)
    (hx : x ≠ 0x7b ∧ x ≠ 0x7d) :
    hasTemplate (bytes (a ++ b)) = (hasTemplate (bytes a) || hasTemplate (bytes b)) := by
  refine hasTemplate_append_of_head a fun y hy => ?_
  rw [hhead] at hy
  cases hy
  exact hx

theorem short_portText {port : Int} (hport : 0 ≤ port) :
    Short (bytes (toString port)).length (toString port) := by
  have hbrace : ∀ b : UInt8, b.toNat < 128 → (Char.ofNat b.toNat).isDigit = false →
      b ∉ bytes (toString port) := by
    intro b hb hdigit hmem
    exact not_mem_portText hport hdigit ((Utf8.mem_encode_ascii hb).mp hmem)
  exact ⟨le_rfl, hbrace _ (by decide) (by decide), hbrace _ (by decide) (by decide)⟩

theorem toml_joined_plain (host : String) {port : Int} (hport : 0 ≤ port) :
    hasTemplate (bytes (toml (joined host port))) = hasTemplate (bytes (toml host)) := by
  obtain ⟨opened, hhost, haddress⟩ := toml_joined host hport
  have hquote : (bytes "\"").head? = some 0x22 := by decide
  have hcolon : (bytes (":" ++ toString port ++ "\"")).head? = some 0x3a := by
    rw [String.append_assoc]
    exact head_bytes_append (show bytes ":" = [0x3a] by decide)
  have hport : hasTemplate (bytes (":" ++ toString port ++ "\"")) = false :=
    (((by decide : Short 1 ":").append (short_portText hport)).append (by decide : Short 1 "\"")).plain
  rw [haddress, hhost, hasTemplate_append_head opened hquote (by decide),
    hasTemplate_append_head opened hcolon (by decide), hport]
  rfl

theorem hasTemplate_quoted (before value : String) {after : String} (hafter : StartsLine after) :
    hasTemplate (bytes (before ++ (toml value ++ after))) =
      (hasTemplate (bytes before) || (hasTemplate (bytes (toml value)) || hasTemplate (bytes after))) := by
  have hhead : (bytes (toml value ++ after)).head? = some 0x22 := by
    rw [bytes_append, List.head?_append, head_toml]
    rfl
  rw [hasTemplate_append_head before hhead (by decide), hasTemplate_append _ hafter]

theorem renderTarget_plain (hscheme : c.localScheme ≠ "https") (hport : 0 ≤ c.localPort) :
    hasTemplate (bytes (renderTarget c)) = hasTemplate (bytes (toml c.localHost)) := by
  have hrest : hasTemplate (bytes ("\n" ++ ("localPort = " ++ toString c.localPort ++ "\n"))) = false :=
    ((by decide : Short 1 "\n").append (((by decide : Short 12 "localPort = ").append
      (short_portText hport)).append (by decide : Short 1 "\n"))).plain
  have htext : renderTarget c = "localIP = " ++ (toml c.localHost ++
      ("\n" ++ ("localPort = " ++ toString c.localPort ++ "\n"))) := by
    rw [renderTarget_http hscheme]
    simp only [String.append_assoc]
  rw [htext, hasTemplate_quoted _ _ (Or.inr ⟨_, rfl⟩), hrest,
    (by decide : Short 10 "localIP = ").plain]
  simp

theorem renderTarget_https_plain (hhttp : c.proxyType = .http) (hport : 0 ≤ c.localPort) :
    hasTemplate (bytes (renderTarget c.https)) = hasTemplate (bytes (toml c.localHost)) := by
  have hrewrite : hasTemplate (bytes ("\nhostHeaderRewrite = " ++ (toml c.localHost ++ "\n"))) =
      hasTemplate (bytes (toml c.localHost)) := by
    have hline : StartsLine "\n" := Or.inr ⟨"", by decide⟩
    rw [hasTemplate_quoted _ _ hline, (by decide : Short 21 "\nhostHeaderRewrite = ").plain,
      (by decide : Short 1 "\n").plain]
    simp
  have htext : renderTarget c.https = "[proxies.plugin]\ntype = \"http2https\"\nlocalAddr = " ++
      (toml (joined c.localHost c.localPort) ++
        ("\nhostHeaderRewrite = " ++ (toml c.localHost ++ "\n"))) := by
    rw [renderTarget_https hhttp, show "[proxies.plugin]\n" ++ "type = \"http2https\"\n" ++ "localAddr = " =
        "[proxies.plugin]\ntype = \"http2https\"\nlocalAddr = " by decide,
      show "\nhostHeaderRewrite = " = "\n" ++ "hostHeaderRewrite = " by decide]
    simp only [String.append_assoc]
  have hstarts : StartsLine ("\nhostHeaderRewrite = " ++ (toml c.localHost ++ "\n")) :=
    Or.inr ⟨"hostHeaderRewrite = " ++ (toml c.localHost ++ "\n"), by
      rw [show "\nhostHeaderRewrite = " = "\n" ++ "hostHeaderRewrite = " by decide, String.append_assoc]⟩
  rw [htext, hasTemplate_quoted _ _ hstarts, hrewrite, toml_joined_plain _ hport,
    (by decide : Short 60 "[proxies.plugin]\ntype = \"http2https\"\nlocalAddr = ").plain]
  simp

end Text

section Proxy

variable {R : Runtime} {c : Connection} {trust : TrustProfile} {domains : List String}

def httpsPlugin (c : Connection) : Plugin where
  type := "http2https"
  localAddr := tomlValue (joined c.localHost c.localPort)
  hostHeaderRewrite := tomlValue c.localHost

theorem baseOf_https (hhttp : c.proxyType = .http) :
    baseOf c.https = { (templateBase tcpHealth) with
      name := tomlValue (proxyName c), plugin := some (httpsPlugin c) } := by
  have hhttps : c.https.proxyType = .http := hhttp
  unfold baseOf
  rw [if_pos ⟨hhttps, rfl⟩, hhttps]
  rfl

theorem validatePlugin_https (hport : 1 ≤ c.localPort) :
    validatePlugin (httpsPlugin c) = .ok () ↔
      Net.Unbracketed (tomlValue c.localHost).toList ∧ validLocalHost (tomlValue c.localHost) = true := by
  have hnonneg : 0 ≤ c.localPort := by omega
  have hjoin := fun text => @Net.splitHostPort_join text (tomlValue c.localHost).toList
    (toString c.localPort).toList (portText_unbracketed hnonneg)
  rw [← tomlValue_joined _ hnonneg] at hjoin
  unfold validatePlugin
  simp only [bind_eq_ok, check_eq_ok]
  constructor
  · rintro ⟨_, _, h⟩
    cases hsplit : Net.splitHostPort (httpsPlugin c).localAddr.toList with
    | none =>
      rw [hsplit] at h
      cases h
    | some pair =>
      obtain ⟨host, port⟩ := pair
      rw [hsplit] at h
      simp only [bind_eq_ok, check_eq_ok, Bool.and_eq_true, beq_iff_eq] at h
      obtain ⟨_, ⟨hhost, _⟩, hrewrite⟩ := h
      have hsame : (tomlValue c.localHost).toList = host := by
        rw [show tomlValue c.localHost = String.ofList host from hrewrite, String.toList_ofList]
      subst hsame
      rw [String.ofList_toList] at hhost
      exact ⟨((hjoin port).mp hsplit).1, hhost⟩
  · rintro ⟨hunbracketed, hhost⟩
    have hsplit : Net.splitHostPort (httpsPlugin c).localAddr.toList =
        some ((tomlValue c.localHost).toList, (toString c.localPort).toList) :=
      (hjoin _).mpr ⟨hunbracketed, rfl⟩
    refine ⟨(), beq_self_eq_true _, ?_⟩
    rw [hsplit]
    simp only [bind_eq_ok, check_eq_ok, Bool.and_eq_true, String.ofList_toList, bne_iff_ne]
    exact ⟨(), ⟨hhost, portText_ne_zero hport⟩, beq_self_eq_true _⟩

theorem https_of_plugin (hhttp : c.proxyType = .http)
    (hcount : 1 ≤ domains.length ∧ domains.length ≤ 101)
    (hpublic : publicDomains R trust domains [] 0 = .ok 1)
    (hplugin : validatePlugin (httpsPlugin c) = .ok ()) :
    validateManagedProxy R trust (ProxyConfig.http (baseOf c.https) domains).complete = .ok () := by
  rw [baseOf_https hhttp]
  simp only [ProxyConfig.complete, validateManagedProxy, validateManagedHttpProxy, ProxyBase.complete,
    templateBase, bind_eq_ok, check_eq_ok, hpublic]
  exact ⟨(), by simpa using hcount, 1, rfl, (), rfl, (), hplugin, beq_self_eq_true _⟩

theorem plugin_of_https (hhttp : c.proxyType = .http)
    (h : validateManagedProxy R trust (ProxyConfig.http (baseOf c.https) domains).complete = .ok ()) :
    validatePlugin (httpsPlugin c) = .ok () := by
  rw [baseOf_https hhttp] at h
  simp only [ProxyConfig.complete, validateManagedProxy, validateManagedHttpProxy, ProxyBase.complete,
    templateBase, bind_eq_ok, check_eq_ok] at h
  obtain ⟨_, _, _, _, _, _, _, hplugin, _⟩ := h
  exact hplugin

end Proxy

/-- FRP's validation of an `http2https` plugin: its address is there, and the target of the proxy,
which then goes unused, is not looked at. -/
def Runtime.ChecksPlugin (R : Runtime) : Prop :=
  ∀ (base : ProxyBase) (customDomains : List String) (plugin : Plugin), base.plugin = none →
    plugin.type = "http2https" → plugin.localAddr ≠ "" →
    R.proxyValid (.http base customDomains) = true →
    R.proxyValid (.http { base with localIP := "127.0.0.1", localPort := 0, plugin := some plugin }
      customDomains) = true

section Config

variable {R : Runtime} {profile : Profile} {response : SyncResponse} {c : Connection}
  {trustedCaPath tlsCaSha256 text : String}

theorem map_filter_https {α : Type} {keep : Connection → Bool} {read : Connection → α}
    (hkeep : keep c.https = keep c) (hread : read c.https = read c) :
    ([c.https].filter keep).map read = ([c].filter keep).map read := by
  cases h : keep c with
  | true => simp [hkeep, h, hread]
  | false => simp [hkeep, h]

theorem collect_https (toLower : Char → Char) (c : Connection) :
    collect toLower [c.https] = collect toLower [c] := by
  have hports : ∀ proxyType, collectRemotePorts [c.https] proxyType = collectRemotePorts [c] proxyType := by
    intro proxyType
    unfold collectRemotePorts
    dsimp only
    rw [map_filter_https (c := c) rfl rfl]
  have hdomains : collectCustomDomains toLower [c.https] = collectCustomDomains toLower [c] := by
    unfold collectCustomDomains
    dsimp only
    rw [List.flatMap_def, List.flatMap_def, map_filter_https (c := c) rfl rfl]
  simp only [collect, collectTcpPorts, collectUdpPorts, hports, hdomains]

theorem disabled_https (henabled : ¬ c.enabled = true) :
    renderConfig profile (response.only c.https) trustedCaPath =
        renderConfig profile (response.only c) trustedCaPath ∧
      configOf profile (response.only c.https) trustedCaPath =
        configOf profile (response.only c) trustedCaPath := by
  have hhttps : ¬ c.https.enabled = true := henabled
  have hrender : renderConnections profile [c.https] = renderConnections profile [c] := by
    rw [renderConnections, if_neg hhttps, renderConnections.eq_def profile [c]]
    dsimp only
    rw [if_neg henabled]
  constructor
  · unfold renderConfig
    simp only [SyncResponse.only, hrender]
  · simp [configOf, SyncResponse.only, List.filter, henabled, hhttps]

theorem renderConfig_https (henabled : c.enabled = true) (hhttp : c.proxyType = .http)
    (h : renderConfig profile (response.only c) trustedCaPath = .ok text) : ∃ lead,
    text = lead ++ renderTarget c ∧
      renderConfig profile (response.only c.https) trustedCaPath = .ok (lead ++ renderTarget c.https) := by
  have hown := renderConnection_http profile hhttp
  have hownHttps := renderConnection_http (c := c.https) profile hhttp
  obtain ⟨lease, hlease, hvalue, tail, htail, rfl⟩ := renderConfig_ok.mp h
  have hnil : renderConnections profile [] = .ok "" := rfl
  have htail' : renderConnections profile [c] = .ok tail := htail
  rw [renderConnections_cons henabled hown hnil, String.append_empty] at htail'
  have htails := renderConnections_cons (c := c.https) henabled hownHttps hnil
  rw [String.append_empty] at htails
  refine ⟨renderHead profile response.deviceId lease.value trustedCaPath ++ connectionLead profile c, ?_, ?_⟩
  · rw [← Except.ok.inj htail', String.append_assoc]
    rfl
  · exact renderConfig_ok.mpr ⟨lease, hlease, hvalue, _, htails, String.append_assoc⟩

/-- The text of the HTTPS target has no mark of a template if that of the HTTP target has none. -/
theorem text_https (hhttp : c.proxyType = .http) (hscheme : c.localScheme ≠ "https")
    (hport : 0 ≤ c.localPort) (lead : String) :
    hasTemplate (bytes (lead ++ renderTarget c.https)) = hasTemplate (bytes (lead ++ renderTarget c)) ∧
      (bytes (lead ++ renderTarget c.https)).length =
        (bytes (lead ++ renderTarget c)).length + httpsGrowth c := by
  have hip : (bytes (renderTarget c)).head? = some 0x6c := by
    rw [renderTarget_http hscheme]
    simp only [String.append_assoc]
    exact head_bytes_append (show bytes "localIP = " = 0x6c :: bytes "ocalIP = " by decide)
  have hplugin : (bytes (renderTarget c.https)).head? = some 0x5b := by
    rw [renderTarget_https hhttp]
    simp only [String.append_assoc]
    exact head_bytes_append (show bytes "[proxies.plugin]\n" = 0x5b :: bytes "proxies.plugin]\n" by decide)
  constructor
  · rw [hasTemplate_append_head lead hip (by decide), hasTemplate_append_head lead hplugin (by decide),
      renderTarget_plain hscheme hport, renderTarget_https_plain hhttp hport]
  · rw [bytes_append, bytes_append, List.length_append, List.length_append,
      renderTarget_growth hhttp hscheme hport]
    omega

/-- What the agent asks of the HTTPS target beyond what it asked of the HTTP one. -/
structure HttpsReady (profile : Profile) (response : SyncResponse) (trustedCaPath : String)
    (c : Connection) : Prop where
  named : tomlValue c.localHost ≠ ""
  unbracketed : Net.Unbracketed (tomlValue c.localHost).toList
  room : ∀ text, renderConfig profile (response.only c) trustedCaPath = .ok text →
    (bytes text).length + httpsGrowth c ≤ maxConfigBytes

theorem listChecks_https {port : Int} {domains : List String} {tcp udp : List Int}
    (hplugin : R.ChecksPlugin) (henabled : c.enabled = true) (hhttp : c.proxyType = .http)
    (hscheme : c.localScheme ≠ "https")
    (htext : renderConfig profile (response.only c) trustedCaPath = .ok text)
    (h : ListChecks R profile tlsCaSha256 port text (collect R.toLower [c])
      (configOf profile (response.only c) trustedCaPath).proxies domains tcp udp)
    (hready : HttpsReady profile response trustedCaPath c) : ∃ https,
    renderConfig profile (response.only c.https) trustedCaPath = .ok https ∧
      ListChecks R profile tlsCaSha256 port https (collect R.toLower [c.https])
        (configOf profile (response.only c.https) trustedCaPath).proxies domains tcp udp := by
  obtain ⟨lead, rfl, hhttps⟩ := renderConfig_https henabled hhttp htext
  have hproxies := proxies_only profile response trustedCaPath henabled hhttp
  have hvalid := h.valid
  have hmanaged := h.proxies
  rw [hproxies, List.forall_mem_singleton] at hvalid hmanaged
  obtain ⟨⟨hcount, hpublic⟩, ⟨hport, _⟩, hhost⟩ := (validateManagedProxy_http hhttp hscheme).mp hmanaged
  obtain ⟨hplain, hlength⟩ := text_https hhttp hscheme (by omega) lead
  have hroom := hready.room _ htext
  have hsize := h.size
  refine ⟨_, hhttps, ?_⟩
  rw [proxies_only (c := c.https) _ _ _ henabled hhttp, collect_https]
  refine ⟨h.readsDomains, h.readsTcpPorts, h.readsUdpPorts, ⟨by omega, by omega⟩,
    hplain.trans h.plain, ?_, by simp, ?_⟩
  · have hnone : (baseOf c).complete.plugin = none := by
      rw [baseOf_http hhttp hscheme]
      rfl
    have haddress : (httpsPlugin c).localAddr ≠ "" := by
      intro hempty
      have hchars := @tomlValue_joined c.localPort c.localHost (by omega)
      rw [show tomlValue (joined c.localHost c.localPort) = "" from hempty] at hchars
      simp at hchars
    have haccepted := hplugin _ _ (httpsPlugin c) hnone rfl haddress hvalid
    rw [baseOf_http hhttp hscheme] at haccepted
    rw [List.forall_mem_singleton, baseOf_https hhttp]
    exact haccepted
  · rw [List.forall_mem_singleton]
    exact https_of_plugin hhttp hcount hpublic
      ((validatePlugin_https hport).mpr ⟨hready.unbracketed, hhost hready.named⟩)

/-- The same connection, with the checks of the HTTP target behind it. -/
theorem passes_https_iff {disk : Disk} {configPath : String} (hplugin : R.ChecksPlugin)
    (hpath : (configOf profile response trustedCaPath).common.trustedCaFile ≠ configPath)
    (hload : R.Loads profile (response.only c) trustedCaPath)
    (hloadHttps : R.Loads profile (response.only c.https) trustedCaPath)
    (hhttp : c.proxyType = .http) (hscheme : c.localScheme ≠ "https")
    (h : Passes R disk profile (response.only c) trustedCaPath tlsCaSha256 configPath) :
    Passes R disk profile (response.only c.https) trustedCaPath tlsCaSha256 configPath ↔
      (c.enabled = true → HttpsReady profile response trustedCaPath c) := by
  have hpasses := (passes_iff hload hpath).mp h
  rw [passes_iff hloadHttps hpath]
  by_cases henabled : c.enabled = true
  · obtain ⟨text, htext, port, hshared, domains, tcp, udp, hchecks⟩ := hpasses
    constructor
    · rintro ⟨text', htext', port', _, domains', tcp', udp', hchecks'⟩ _
      obtain ⟨lead, rfl, hhttps⟩ := renderConfig_https henabled hhttp htext
      rw [htext'] at hhttps
      cases hhttps
      have hmanaged := hchecks.proxies
      have hmanaged' := hchecks'.proxies
      rw [proxies_only _ _ _ henabled hhttp, List.forall_mem_singleton] at hmanaged
      rw [proxies_only (c := c.https) _ _ _ henabled hhttp, List.forall_mem_singleton] at hmanaged'
      obtain ⟨_, ⟨hport, _⟩, _⟩ := (validateManagedProxy_http hhttp hscheme).mp hmanaged
      obtain ⟨hunbracketed, hhost⟩ :=
        (validatePlugin_https hport).mp (plugin_of_https hhttp hmanaged')
      refine ⟨?_, hunbracketed, fun text hrendered => ?_⟩
      · intro hempty
        rw [hempty] at hhost
        exact absurd hhost (by decide)
      · rw [htext] at hrendered
        cases hrendered
        have hlength := (text_https hhttp hscheme (by omega) lead).2
        have hsize := hchecks'.size
        omega
    · intro hready
      obtain ⟨https, hhttps, hchecksHttps⟩ :=
        listChecks_https hplugin henabled hhttp hscheme htext hchecks (hready henabled)
      exact ⟨https, hhttps, port, hshared, domains, tcp, udp, hchecksHttps⟩
  · obtain ⟨hrender, hconfig⟩ := @disabled_https profile response c trustedCaPath henabled
    have hcollect : collect R.toLower (response.only c.https).connections =
        collect R.toLower (response.only c).connections := collect_https R.toLower c
    rw [hrender, hconfig, hcollect]
    exact ⟨fun _ h => absurd h henabled, fun _ => hpasses⟩

end Config

/-- The local address of an HTTPS target is read back as the same host and port exactly if the host
is not an IPv6 address. -/
theorem address_parsed_iff (hprobe : validProbeHost host = true) (hport : 1 ≤ port) :
    Net.splitHostPort (tomlValue (joined host port)).toList =
        some (host.toList, (toString port).toList) ↔ ':' ∉ host.toList := by
  have hsame : tomlValue host = host := tomlValue_of_not_mem
    (validProbeHost_not_mem hprobe (by decide)) (validProbeHost_not_mem hprobe (by decide))
  have hnonneg : 0 ≤ port := by omega
  rw [tomlValue_joined host hnonneg, hsame, Net.splitHostPort_join (portText_unbracketed hnonneg)]
  constructor
  · rintro ⟨h, _⟩
    exact h.1
  · intro h
    exact ⟨⟨h, validProbeHost_not_mem hprobe (by decide), validProbeHost_not_mem hprobe (by decide)⟩,
      rfl⟩

/-- The sample connection to a service on this host. -/
def sampleTarget (host : String) : Connection := (managedConnection "a" []).withTarget "http" host

/-- A loader that knows the sample configurations for this host. -/
def targetLoad (host : String) (content : List UInt8) : Option ClientConfig :=
  if content = sampleText (managedResponse [sampleTarget host]) then
    some (configOf managedProfile (managedResponse [sampleTarget host]) "")
  else some (configOf managedProfile (managedResponse [(sampleTarget host).https]) "")

theorem sampleTarget_rendered (h : PlainHost host) :
    ∃ lead,
    renderConfig managedProfile (managedResponse [sampleTarget host]) "" =
        .ok (lead ++ renderTarget (sampleTarget host)) ∧
      renderConfig managedProfile (managedResponse [(sampleTarget host).https]) "" =
        .ok (lead ++ renderTarget (sampleTarget host).https) ∧
      Short 1000 (lead ++ renderTarget (sampleTarget host)) := by
  have hnil : renderConnections managedProfile [] = .ok "" := rfl
  have hrendered := renderConfig_sample (renderConnections_cons rfl
    (renderConnection_http (c := sampleTarget host) managedProfile rfl) hnil)
  rw [String.append_empty, ← String.append_assoc] at hrendered
  have hhttps := renderConfig_sample (renderConnections_cons rfl
    (renderConnection_http (c := (sampleTarget host).https) managedProfile rfl) hnil)
  rw [String.append_empty, ← String.append_assoc] at hhttps
  obtain ⟨own, hown, hshort⟩ := @sample_rendered "a" host (Or.inl rfl) h [] (by simp)
  rw [renderConnection_http managedProfile rfl] at hown
  rw [← Except.ok.inj hown] at hshort
  have hall := short_head.append hshort
  rw [← String.append_assoc] at hall
  exact ⟨_, hrendered, hhttps, hall.1.trans (by decide), hall.2⟩

theorem target_loads (h : PlainHost host) :
    (sampleRuntime (targetLoad host)).Loads managedProfile (managedResponse [sampleTarget host]) "" ∧
    (sampleRuntime (targetLoad host)).Loads managedProfile
      (managedResponse [(sampleTarget host).https]) "" := by
  obtain ⟨lead, hrendered, hhttps, _⟩ := sampleTarget_rendered h
  constructor
  · intro text htext
    change targetLoad host (bytes text) = _
    rw [targetLoad, if_pos (sampleText_eq htext).symm]
  · intro text htext
    rw [hhttps] at htext
    cases htext
    change targetLoad host _ = _
    rw [targetLoad, sampleText_eq hrendered, if_neg]
    intro hsame
    have hlength := (text_https (c := sampleTarget host) rfl (show "http" ≠ "https" by decide)
      (show 0 ≤ (8080 : Int) by decide) lead).2
    rw [hsame, httpsGrowth] at hlength
    omega

theorem target_passes (disk : Disk) (h : PlainHost host) :
    Passes (sampleRuntime (targetLoad host)) disk managedProfile (managedResponse [sampleTarget host]) ""
      "" "config.toml" :=
  sample_passes (targetLoad host) disk (Or.inl rfl) h ⟨by simp, List.nodup_nil, by simp⟩
    (target_loads h).1

theorem sampleRuntime_checksPlugin (load : List UInt8 → Option ClientConfig) :
    (sampleRuntime load).ChecksPlugin :=
  fun _ _ _ _ _ _ _ => rfl

/-- An HTTP connection that the agent accepts is accepted with a local HTTPS service exactly if it is
disabled or its host is there, is not an IPv6 address and has no brackets, and the file has room for
the longer text. Of the hosts that the probe admits, the joined address loses those with colons. -/
theorem accepted_target_works_for_https (R : Runtime) (hplugin : R.ChecksPlugin) (disk : Disk)
    (profile : Profile) (response : SyncResponse) (c : Connection)
    (trustedCaPath tlsCaSha256 configPath : String)
    (hpath : (configOf profile response trustedCaPath).common.trustedCaFile ≠ configPath)
    (hload : R.Loads profile (response.only c) trustedCaPath)
    (hloadHttps : R.Loads profile (response.only c.https) trustedCaPath)
    (hhttp : c.proxyType = .http) (hscheme : c.localScheme ≠ "https")
    (h : Passes R disk profile (response.only c) trustedCaPath tlsCaSha256 configPath) :
    (Passes R disk profile (response.only c.https) trustedCaPath tlsCaSha256 configPath ↔
      (c.enabled = true → HttpsReady profile response trustedCaPath c)) ∧
    ∀ (host : String) (port : Int), validLocalHost host = true → validProbeHost host = true →
      1 ≤ port →
      (Net.splitHostPort (tomlValue (joined host port)).toList =
        some (host.toList, (toString port).toList) ↔ ':' ∉ host.toList) :=
  ⟨passes_https_iff hplugin hpath hload hloadHttps hhttp hscheme h,
    fun _ _ _ hprobe hport => address_parsed_iff hprobe hport⟩

/-- A service on an IPv4 address is accepted with both schemes. -/
theorem ipv4_target_works_for_https :
    Passes (sampleRuntime (targetLoad "127.0.0.1")) (fun _ => none) managedProfile
      (managedResponse [(sampleTarget "127.0.0.1").https]) "" "" "config.toml" := by
  have hhost := plainHost_local
  obtain ⟨hload, hloadHttps⟩ := target_loads hhost
  have hpath : "" ≠ "config.toml" := by decide
  refine (accepted_target_works_for_https _ (sampleRuntime_checksPlugin _) _ managedProfile
    (managedResponse []) (sampleTarget "127.0.0.1") "" "" "config.toml" hpath hload hloadHttps rfl (by decide)
    (target_passes _ hhost)).1.mpr fun _ => ⟨by decide, by decide, ?_⟩
  obtain ⟨lead, hrendered, _, hshort⟩ := sampleTarget_rendered hhost
  intro text htext
  have hsame := htext.symm.trans hrendered
  rw [Except.ok.inj hsame, httpsGrowth]
  have hgrowth : (bytes (toml (sampleTarget "127.0.0.1").localHost)).length = 11 := by decide
  have hlength := hshort.1
  unfold maxConfigBytes
  omega

/-- A service on the IPv6 address of the machine itself is accepted over HTTP by the agent and by
the probe, and refused over HTTPS. -/
theorem ipv6_target_refused_for_https :
    validLocalHost "::1" = true ∧ validProbeHost "::1" = true ∧
    Passes (sampleRuntime (targetLoad "::1")) (fun _ => none) managedProfile
      (managedResponse [sampleTarget "::1"]) "" "" "config.toml" ∧
    ¬ Passes (sampleRuntime (targetLoad "::1")) (fun _ => none) managedProfile
      (managedResponse [(sampleTarget "::1").https]) "" "" "config.toml" ∧
    Net.splitHostPort (tomlValue (joined "::1" 8080)).toList = none := by
  have hhost : PlainHost "::1" := ⟨by decide, by decide, by decide⟩
  obtain ⟨hload, hloadHttps⟩ := target_loads hhost
  have hpath : "" ≠ "config.toml" := by decide
  refine ⟨by decide, by decide, target_passes _ hhost, fun hpasses => ?_, by decide⟩
  have hready := (@passes_https_iff _ managedProfile (managedResponse []) (sampleTarget "::1") "" "" _
    "config.toml" (sampleRuntime_checksPlugin _) hpath hload hloadHttps rfl (by decide)
    (target_passes _ hhost)).mp hpasses rfl
  exact absurd hready.unbracketed (by decide)

end HomeTunnel.Agent
