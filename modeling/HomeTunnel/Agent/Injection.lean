import HomeTunnel.Agent.Together
import HomeTunnel.Lib.Quoted

/-! # No connection field adds to the configuration

The text of `RenderConfig`, read line by line with quoted strings that end at the first
unescaped quote: it has the fixed lines of the head and one table for every enabled
connection, and what comes from outside stands in quoted strings.
-/

namespace HomeTunnel.Agent

open Quoted (Line)

theorem replaced_escape (text : List Char) :
    ((((text.flatMap fun c => if c = '\\' then "\\\\".toList else [c]).flatMap
      fun c => if c = '"' then "\\\"".toList else [c]).flatMap
      fun c => if c = '\r' then "".toList else [c]).flatMap
      fun c => if c = '\n' then "".toList else [c]) =
    Quoted.escape (text.filter fun c => c ≠ '\r' ∧ c ≠ '\n') := by
  induction text with
  | nil => rfl
  | cons c text ih =>
    simp only [List.flatMap_cons, List.flatMap_append, List.filter_cons, ih]
    by_cases hback : c = '\\'
    · subst hback
      rfl
    by_cases hquote : c = '"'
    · subst hquote
      rfl
    by_cases hreturn : c = '\r'
    · subst hreturn
      rfl
    by_cases hend : c = '\n'
    · subst hend
      rfl
    simp [hback, hquote, hreturn, hend, Quoted.escape, Quoted.escapeChar]

theorem toml_toList (value : String) :
    (toml value).toList = Quoted.quote (tomlValue value).toList := by
  have hvalue := replaced_escape value.toList
  unfold toml replaceAll tomlValue Quoted.quote
  simp only [String.toList_append, String.toList_ofList]
  rw [hvalue]
  rfl

def plain (text : String) : Line := ⟨text.toList, []⟩

def entry (lead value : String) : Line := ⟨lead.toList, [((tomlValue value).toList, [])]⟩

def number (lead : String) (n : Int) : Line := plain (lead ++ toString n)

/-- The domains, with commas between them and the closing bracket behind the last. -/
def listed : List String → List (List Char × List Char)
  | [] => []
  | [domain] => [((tomlValue domain).toList, "]".toList)]
  | domain :: rest => ((tomlValue domain).toList, ", ".toList) :: listed rest

def headLines (profile : Profile) (deviceId value trustedCaPath : String) : List Line :=
  [entry "serverAddr = " profile.frpsHost,
    number "serverPort = " profile.frpsPort,
    entry "user = " deviceId,
    plain "loginFailExit = true",
    plain "transport.tls.enable = true",
    plain "transport.tls.disableCustomTLSFirstByte = true"] ++
  (if trustedCaPath ≠ "" then
    [entry "transport.tls.trustedCaFile = " trustedCaPath,
      entry "transport.tls.serverName = " profile.frpsHost]
  else []) ++
  [plain "transport.heartbeatInterval = 30",
    plain "transport.heartbeatTimeout = 90",
    entry "metadatas.home_tunnel_lease = " value,
    entry "log.to = " "console",
    entry "log.level = " "info"]

def kindLines (profile : Profile) (c : Connection) : List Line :=
  match c.proxyType with
  | .http =>
    [entry "type = " "http", ⟨"customDomains = [".toList,
      listed ((c.subdomain ++ "." ++ profile.tunnelDomain) :: c.customDomains)⟩]
  | .tcp | .udp | .other _ =>
    [entry "type = " c.proxyType.text, number "remotePort = " c.remotePort]

def healthLines (c : Connection) : List Line :=
  if c.proxyType ≠ .udp then
    [entry "healthCheck.type = " "tcp", plain "healthCheck.timeoutSeconds = 3",
      plain "healthCheck.intervalSeconds = 10"]
  else []

def targetLines (c : Connection) : List Line :=
  if c.proxyType = .http ∧ c.localScheme = "https" then
    [plain "[proxies.plugin]", entry "type = " "http2https",
      entry "localAddr = " (c.localHost ++ ":" ++ toString c.localPort),
      entry "hostHeaderRewrite = " c.localHost]
  else [entry "localIP = " c.localHost, number "localPort = " c.localPort]

/-- One table, with the blank line before it. -/
def connectionLines (profile : Profile) (c : Connection) : List Line :=
  [.blank, plain "[[proxies]]", entry "name = " (proxyName c)] ++ kindLines profile c ++
    [plain "transport.useEncryption = true", plain "transport.useCompression = true"] ++
    healthLines c ++ targetLines c

def configLines (profile : Profile) (deviceId value trustedCaPath : String)
    (connections : List Connection) : List Line :=
  headLines profile deviceId value trustedCaPath ++
    (connections.filter (·.enabled)).flatMap (connectionLines profile)

/-! ## The text is these lines -/

/-- The text is these lines, each with its line end. -/
def Written (text : String) (lines : List Line) : Prop := text.toList = Quoted.write lines

theorem Written.empty : Written "" [] := rfl

variable {text lead : String} {l : List Line} {profile : Profile} {c c' : Connection}

theorem Written.cast {m : List Line} (heq : l = m) (h : Written text l) : Written text m :=
  heq ▸ h

theorem Written.append {a b : String} {m : List Line} (ha : Written a l) (hb : Written b m) :
    Written (a ++ b) (l ++ m) := by
  rw [Written, String.toList_append, ha, hb]
  exact List.flatMap_append.symm

theorem Written.line (h : Written text l) {line : Line} {added : String}
    (hline : added.toList = line.write) : Written (text ++ added ++ "\n") (l ++ [line]) := by
  have hend : "\n".toList = ['\n'] := rfl
  rw [Written, String.toList_append, String.toList_append, h, hline, hend]
  simp [Quoted.write]

theorem Written.fixed (h : Written text l) {line : Line} {added bare : String}
    (hadded : added = bare ++ "\n") (hline : bare.toList = line.write) :
    Written (text ++ added) (l ++ [line]) := by
  rw [hadded, ← String.append_assoc]
  exact h.line hline

theorem plain_write (text : String) : text.toList = (plain text).write := by
  simp [plain, Line.write]

theorem entry_write (lead value : String) :
    (lead ++ toml value).toList = (entry lead value).write := by
  simp [entry, Line.write, toml_toList]

theorem Written.entry (h : Written text l) (lead value : String) :
    Written (text ++ lead ++ toml value ++ "\n") (l ++ [entry lead value]) := by
  have hassoc : text ++ lead ++ toml value = text ++ (lead ++ toml value) := String.append_assoc
  rw [hassoc]
  exact h.line (entry_write lead value)

theorem Written.number (h : Written text l) (lead : String) (n : Int) :
    Written (text ++ lead ++ toString n ++ "\n") (l ++ [number lead n]) := by
  have hassoc : text ++ lead ++ toString n = text ++ (lead ++ toString n) := String.append_assoc
  rw [hassoc]
  exact h.line (plain_write _)

theorem Written.plain (h : Written text l) (added line : String) (hadded : added = line ++ "\n") :
    Written (text ++ added) (l ++ [plain line]) :=
  h.fixed hadded (plain_write line)

theorem Written.constant (h : Written text l) (added lead value : String)
    (hadded : added = lead ++ toml value ++ "\n") :
    Written (text ++ added) (l ++ [Agent.entry lead value]) :=
  h.fixed hadded (entry_write lead value)

theorem Written.first (lead value : String) :
    Written (lead ++ toml value ++ "\n") [Agent.entry lead value] := by
  have hline := Written.empty.entry lead value
  rwa [String.empty_append] at hline

theorem renderHead_written (profile : Profile) (deviceId value trustedCaPath : String) :
    Written (renderHead profile deviceId value trustedCaPath)
      (headLines profile deviceId value trustedCaPath) := by
  have hca : Written (if trustedCaPath ≠ "" then
      "transport.tls.trustedCaFile = " ++ toml trustedCaPath ++ "\n" ++
        "transport.tls.serverName = " ++ toml profile.frpsHost ++ "\n" else "")
      (if trustedCaPath ≠ "" then
        [Agent.entry "transport.tls.trustedCaFile = " trustedCaPath,
          Agent.entry "transport.tls.serverName = " profile.frpsHost] else []) := by
    split
    · exact (Written.first "transport.tls.trustedCaFile = " trustedCaPath).entry
        "transport.tls.serverName = " profile.frpsHost
    · exact Written.empty
  refine Written.cast ?_ (Written.first "serverAddr = " profile.frpsHost
    |>.number "serverPort = " profile.frpsPort
    |>.entry "user = " deviceId
    |>.plain "loginFailExit = true\n" "loginFailExit = true" (by decide)
    |>.plain "transport.tls.enable = true\n" "transport.tls.enable = true" (by decide)
    |>.plain "transport.tls.disableCustomTLSFirstByte = true\n"
      "transport.tls.disableCustomTLSFirstByte = true" (by decide)
    |>.append hca
    |>.plain "transport.heartbeatInterval = 30\n" "transport.heartbeatInterval = 30" (by decide)
    |>.plain "transport.heartbeatTimeout = 90\n" "transport.heartbeatTimeout = 90" (by decide)
    |>.entry "metadatas.home_tunnel_lease = " value
    |>.constant "log.to = \"console\"\n" "log.to = " "console" (by decide)
    |>.constant "log.level = \"info\"\n" "log.level = " "info" (by decide))
  simp [headLines]

theorem domains_toList (domain : String) (rest : List String) :
    (", ".intercalate ((domain :: rest).map toml) ++ "]").toList =
      (listed (domain :: rest)).flatMap fun part => Quoted.quote part.1 ++ part.2 := by
  induction rest generalizing domain with
  | nil => simp [listed, toml_toList]
  | cons next rest ih =>
    have hnext := ih next
    rw [listed, List.flatMap_cons, ← hnext]
    · simp [toml_toList]
    · simp

theorem Written.firstConstant (added lead value : String)
    (hadded : added = lead ++ toml value ++ "\n") : Written added [Agent.entry lead value] := by
  rw [hadded]
  exact Written.first lead value

theorem Written.firstPlain (added line : String) (hadded : added = line ++ "\n") :
    Written added [Agent.plain line] := by
  have hline := Written.empty.plain added line hadded
  rwa [String.empty_append] at hline

theorem renderKind_written {kind : String} (h : renderKind profile c = .ok kind) :
    Written kind (kindLines profile c) := by
  have hport (hpair : kind = "type = " ++ toml c.proxyType.text ++ "\n" ++ "remotePort = " ++
      toString c.remotePort ++ "\n") : Written kind
        [entry "type = " c.proxyType.text, number "remotePort = " c.remotePort] := by
    rw [hpair]
    exact (Written.first "type = " c.proxyType.text).number "remotePort = " c.remotePort
  unfold renderKind at h
  unfold kindLines
  cases hkind : c.proxyType with
  | http =>
    rw [hkind] at h
    rw [← Except.ok.inj h]
    have htype := Written.firstConstant "type = \"http\"\n" "type = " "http" (by decide)
    have hdomains := domains_toList (c.subdomain ++ "." ++ profile.tunnelDomain) c.customDomains
    have hend : "]\n" = "]" ++ "\n" := by decide
    have hline := @Written.line _ _ htype ⟨"customDomains = [".toList,
      listed ((c.subdomain ++ "." ++ profile.tunnelDomain) :: c.customDomains)⟩
      ("customDomains = [" ++ (", ".intercalate
        (((c.subdomain ++ "." ++ profile.tunnelDomain) :: c.customDomains).map toml) ++ "]"))
      (by rw [String.toList_append, hdomains]; rfl)
    rw [hend]
    simpa only [String.append_assoc, List.cons_append, List.nil_append] using hline
  | tcp | udp =>
    rw [hkind] at h hport
    dsimp only at h
    split at h
    · cases h
    · exact hport (Except.ok.inj h).symm
  | other name =>
    rw [hkind] at h
    cases h

theorem renderTarget_written (c : Connection) : Written (renderTarget c) (targetLines c) := by
  unfold renderTarget targetLines
  split
  · exact Written.firstPlain "[proxies.plugin]\n" "[proxies.plugin]" (by decide)
      |>.constant "type = \"http2https\"\n" "type = " "http2https" (by decide)
      |>.entry "localAddr = " (c.localHost ++ ":" ++ toString c.localPort)
      |>.entry "hostHeaderRewrite = " c.localHost
  · exact (Written.first "localIP = " c.localHost).number "localPort = " c.localPort

theorem health_written (c : Connection) :
    Written (if c.proxyType ≠ .udp then
      "healthCheck.type = \"tcp\"\n" ++ "healthCheck.timeoutSeconds = 3\n" ++
        "healthCheck.intervalSeconds = 10\n" else "") (healthLines c) := by
  unfold healthLines
  split
  · exact Written.firstConstant "healthCheck.type = \"tcp\"\n" "healthCheck.type = " "tcp"
        (by decide)
      |>.plain "healthCheck.timeoutSeconds = 3\n" "healthCheck.timeoutSeconds = 3" (by decide)
      |>.plain "healthCheck.intervalSeconds = 10\n" "healthCheck.intervalSeconds = 10" (by decide)
  · exact Written.empty

theorem renderConnection_written (h : renderConnection profile c = .ok text) :
    Written text (connectionLines profile c) := by
  obtain ⟨kind, hkind, htext⟩ := bind_eq_ok.mp h
  rw [← Except.ok.inj htext]
  have htable : Written "\n[[proxies]]\n" [.blank, plain "[[proxies]]"] := by
    show "\n[[proxies]]\n".toList = _
    decide
  exact htable.entry "name = " (proxyName c)
    |>.append (renderKind_written hkind)
    |>.plain "transport.useEncryption = true\n" "transport.useEncryption = true" (by decide)
    |>.plain "transport.useCompression = true\n" "transport.useCompression = true" (by decide)
    |>.append (health_written c)
    |>.append (renderTarget_written c)
    |>.cast (by simp [connectionLines])

theorem renderConnections_written {connections : List Connection}
    (h : renderConnections profile connections = .ok text) :
    Written text ((connections.filter (·.enabled)).flatMap (connectionLines profile)) := by
  induction connections generalizing text with
  | nil =>
    rw [← Except.ok.inj h]
    exact Written.empty
  | cons c rest ih =>
    rw [renderConnections] at h
    by_cases henabled : c.enabled = true
    · rw [if_pos henabled] at h
      obtain ⟨own, hown, h⟩ := bind_eq_ok.mp h
      obtain ⟨tail, htail, h⟩ := bind_eq_ok.mp h
      rw [← Except.ok.inj h, List.filter_cons_of_pos henabled, List.flatMap_cons]
      exact (renderConnection_written hown).append (ih htail)
    · rw [if_neg henabled] at h
      rw [List.filter_cons_of_neg henabled]
      exact ih h

theorem not_mem_tomlValue_end (value : String) : '\n' ∉ (tomlValue value).toList :=
  fun h => (mem_tomlValue.mp h).2.2 rfl

theorem number_char {n : Int} {c : Char} (h : c ∈ (toString n).toList) :
    c.isDigit = true ∨ c = '-' := by
  by_cases hn : 0 ≤ n
  · obtain ⟨m, rfl⟩ := Int.eq_ofNat_of_zero_le hn
    change c ∈ m.repr.toList at h
    rw [Nat.toList_repr] at h
    exact .inl (Nat.isDigit_of_mem_toDigits (by decide) (by decide) h)
  · obtain ⟨m, rfl⟩ := Int.eq_negSucc_of_lt_zero (by omega : n < 0)
    change c ∈ ("-" ++ (m + 1).repr).toList at h
    rw [String.toList_append, List.mem_append] at h
    rcases h with h | h
    · exact .inr (by simpa using h)
    · rw [Nat.toList_repr] at h
      exact .inl (Nat.isDigit_of_mem_toDigits (by decide) (by decide) h)

theorem plain_clean (hquote : '"' ∉ text.toList) (hend : '\n' ∉ text.toList) : (plain text).Clean :=
  ⟨hquote, hend, fun _ h => absurd h List.not_mem_nil, fun _ h => absurd h List.not_mem_nil,
    fun _ h => absurd h List.not_mem_nil⟩

theorem number_clean (n : Int) (hquote : '"' ∉ lead.toList) (hend : '\n' ∉ lead.toList) :
    (number lead n).Clean := by
  have hchar : ∀ c, c.isDigit = false → c ≠ '-' → c ∉ lead.toList →
      c ∉ (lead ++ toString n).toList := by
    intro c hdigit hminus hlead hmem
    rw [String.toList_append, List.mem_append] at hmem
    rcases hmem with hmem | hmem
    · exact hlead hmem
    · rcases number_char hmem with h | h
      · cases hdigit.symm.trans h
      · exact hminus h
  exact plain_clean (hchar '"' (by decide) (by decide) hquote)
    (hchar '\n' (by decide) (by decide) hend)

theorem entry_clean (value : String) (hquote : '"' ∉ lead.toList) (hend : '\n' ∉ lead.toList) :
    (entry lead value).Clean := by
  refine ⟨hquote, hend, ?_, ?_, ?_⟩ <;> intro part hpart <;>
    rw [List.mem_singleton.mp hpart]
  · exact not_mem_tomlValue_end value
  · exact List.not_mem_nil
  · exact List.not_mem_nil

theorem listed_part {domains : List String} {part : List Char × List Char}
    (h : part ∈ listed domains) :
    (∃ domain, part.1 = (tomlValue domain).toList) ∧
      (part.2 = "]".toList ∨ part.2 = ", ".toList) := by
  induction domains with
  | nil => cases h
  | cons domain rest ih =>
    cases rest with
    | nil =>
      rw [listed, List.mem_singleton] at h
      rw [h]
      exact ⟨⟨domain, rfl⟩, .inl rfl⟩
    | cons next rest =>
      rw [listed] at h
      · rcases List.mem_cons.mp h with h | h
        · rw [h]
          exact ⟨⟨domain, rfl⟩, .inr rfl⟩
        · exact ih h
      · simp

theorem domains_clean (domains : List String) :
    (⟨"customDomains = [".toList, listed domains⟩ : Line).Clean := by
  have hquote : '"' ∉ "customDomains = [".toList := by decide
  have hend : '\n' ∉ "customDomains = [".toList := by decide
  refine ⟨hquote, hend, ?_, ?_, ?_⟩ <;> intro part hpart <;>
    obtain ⟨⟨domain, hvalue⟩, htext⟩ := listed_part hpart
  · rw [hvalue]
    exact not_mem_tomlValue_end domain
  · rcases htext with htext | htext <;> (rw [htext]; decide)
  · rcases htext with htext | htext <;> (rw [htext]; decide)

theorem blank_clean : Line.blank.Clean :=
  @plain_clean "" (by decide) (by decide)

theorem headLines_clean (profile : Profile) (deviceId value trustedCaPath : String) :
    ∀ line ∈ headLines profile deviceId value trustedCaPath, line.Clean := by
  intro line hline
  simp only [headLines, List.mem_append, List.mem_cons, List.not_mem_nil, or_false] at hline
  rcases hline with ((rfl | rfl | rfl | rfl | rfl | rfl) | hca) | rfl | rfl | rfl | rfl | rfl
  case inl.inr =>
    split at hca
    · simp only [List.mem_cons, List.not_mem_nil, or_false] at hca
      rcases hca with rfl | rfl <;> exact entry_clean _ (by decide) (by decide)
    · cases hca
  all_goals first
    | exact entry_clean _ (by decide) (by decide)
    | exact number_clean _ (by decide) (by decide)
    | exact plain_clean (by decide) (by decide)

theorem kindLines_clean (profile : Profile) (c : Connection) :
    ∀ line ∈ kindLines profile c, line.Clean := by
  intro line hline
  unfold kindLines at hline
  split at hline
  · rcases List.mem_cons.mp hline with rfl | hline
    · exact entry_clean _ (by decide) (by decide)
    · rw [List.mem_singleton.mp hline]
      exact domains_clean _
  all_goals
    rcases List.mem_cons.mp hline with rfl | hline
    · exact entry_clean _ (by decide) (by decide)
    · rw [List.mem_singleton.mp hline]
      exact number_clean _ (by decide) (by decide)

theorem healthLines_clean (c : Connection) : ∀ line ∈ healthLines c, line.Clean := by
  intro line hline
  unfold healthLines at hline
  split at hline
  · simp only [List.mem_cons, List.not_mem_nil, or_false] at hline
    rcases hline with rfl | rfl | rfl
    · exact entry_clean _ (by decide) (by decide)
    · exact plain_clean (by decide) (by decide)
    · exact plain_clean (by decide) (by decide)
  · cases hline

theorem targetLines_clean (c : Connection) : ∀ line ∈ targetLines c, line.Clean := by
  intro line hline
  unfold targetLines at hline
  split at hline
  · simp only [List.mem_cons, List.not_mem_nil, or_false] at hline
    rcases hline with rfl | rfl | rfl | rfl
    · exact plain_clean (by decide) (by decide)
    all_goals exact entry_clean _ (by decide) (by decide)
  · simp only [List.mem_cons, List.not_mem_nil, or_false] at hline
    rcases hline with rfl | rfl
    · exact entry_clean _ (by decide) (by decide)
    · exact number_clean _ (by decide) (by decide)

theorem connectionLines_clean (profile : Profile) (c : Connection) :
    ∀ line ∈ connectionLines profile c, line.Clean := by
  intro line hline
  simp only [connectionLines, List.mem_append, List.mem_cons, List.not_mem_nil, or_false] at hline
  rcases hline with ((((rfl | rfl | rfl) | hkind) | rfl | rfl) | hhealth) | htarget
  · exact blank_clean
  · exact plain_clean (by decide) (by decide)
  · exact entry_clean _ (by decide) (by decide)
  · exact kindLines_clean profile c line hkind
  · exact plain_clean (by decide) (by decide)
  · exact plain_clean (by decide) (by decide)
  · exact healthLines_clean c line hhealth
  · exact targetLines_clean c line htarget

/-- The rendered text, read line by line. -/
theorem read_renderConfig {response : SyncResponse} {trustedCaPath : String}
    (h : renderConfig profile response trustedCaPath = .ok text) :
    ∃ lease, response.lease = some lease ∧ trimSpace lease.value ≠ "" ∧
      Quoted.read text.toList = some (configLines profile response.deviceId lease.value
        trustedCaPath response.connections ++ [.blank]) := by
  obtain ⟨lease, hlease, hvalue, tail, htail, rfl⟩ := renderConfig_ok.mp h
  have hwritten := (renderHead_written profile response.deviceId lease.value trustedCaPath).append
    (renderConnections_written htail)
  refine ⟨lease, hlease, hvalue, ?_⟩
  rw [hwritten]
  refine Quoted.read_write fun line hline => ?_
  rcases List.mem_append.mp hline with hhead | hconnection
  · exact headLines_clean _ _ _ _ line hhead
  · obtain ⟨c, -, hc⟩ := List.mem_flatMap.mp hconnection
    exact connectionLines_clean profile c line hc

/-! ## Inputs that differ in contents only -/

/-- Two connections that differ at most in the contents of their names and hosts. -/
structure Similar (c c' : Connection) : Prop where
  id : c'.id = c.id
  proxyType : c'.proxyType = c.proxyType
  remotePort : c'.remotePort = c.remotePort
  localScheme : c'.localScheme = c.localScheme
  localPort : c'.localPort = c.localPort
  enabled : c'.enabled = c.enabled
  version : c'.version = c.version
  domains : c'.customDomains.length = c.customDomains.length

/-- The keys whose values come from the device id, the lease, names and hosts. -/
def openKeys : List (List Char) :=
  ["user = ", "metadatas.home_tunnel_lease = ", "name = ", "customDomains = [", "localIP = ",
    "localAddr = ", "hostHeaderRewrite = "].map String.toList

/-- The lines are the same, or differ inside the quoted strings of one of these keys. -/
def Alike (l l' : Line) : Prop :=
  l = l' ∨ l.lead ∈ openKeys ∧ l'.lead = l.lead ∧ l'.quoted.map (·.2) = l.quoted.map (·.2)

theorem alike_entry (h : lead.toList ∈ openKeys) (a b : String) :
    Alike (entry lead a) (entry lead b) :=
  .inr ⟨h, rfl, rfl⟩

theorem alike_refl (l : Line) : Alike l l := .inl rfl

theorem listed_texts {a b : List String} (h : b.length = a.length) :
    (listed b).map (·.2) = (listed a).map (·.2) := by
  induction a generalizing b with
  | nil =>
    rw [List.length_eq_zero_iff.mp h]
  | cons x a ih =>
    cases b with
    | nil => cases h
    | cons y b =>
      have hlength : b.length = a.length := by simpa using h
      cases a with
      | nil =>
        rw [List.length_eq_zero_iff.mp hlength]
        rfl
      | cons x' a =>
        cases b with
        | nil => cases hlength
        | cons y' b => simpa [listed] using ih hlength

theorem alike_kind (profile : Profile) (h : Similar c c') :
    List.Forall₂ Alike (kindLines profile c) (kindLines profile c') := by
  unfold kindLines
  rw [h.proxyType, h.remotePort]
  cases c.proxyType with
  | http =>
    have hkey : "customDomains = [".toList ∈ openKeys := by decide
    refine .cons (alike_refl _) (.cons (.inr ⟨hkey, rfl, ?_⟩) .nil)
    exact listed_texts (by simp [h.domains])
  | tcp | udp | other name => exact .cons (alike_refl _) (.cons (alike_refl _) .nil)

theorem forall₂_alike_refl (lines : List Line) : List.Forall₂ Alike lines lines :=
  List.forall₂_same.mpr fun l _ => alike_refl l

theorem alike_target (h : Similar c c') : List.Forall₂ Alike (targetLines c) (targetLines c') := by
  unfold targetLines
  rw [h.proxyType, h.localScheme, h.localPort]
  split
  · exact .cons (alike_refl _) (.cons (alike_refl _)
      (.cons (alike_entry (by decide) _ _) (.cons (alike_entry (by decide) _ _) .nil)))
  · exact .cons (alike_entry (by decide) _ _) (.cons (alike_refl _) .nil)

theorem alike_connection (profile : Profile) (h : Similar c c') :
    List.Forall₂ Alike (connectionLines profile c) (connectionLines profile c') := by
  unfold connectionLines
  have hhealth : healthLines c' = healthLines c := by
    unfold healthLines
    rw [h.proxyType]
  rw [hhealth]
  refine List.rel_append (List.rel_append (List.rel_append (List.rel_append ?_
    (alike_kind profile h)) (forall₂_alike_refl _)) (forall₂_alike_refl _)) (alike_target h)
  exact .cons (alike_refl _) (.cons (alike_refl _) (.cons (alike_entry (by decide) _ _) .nil))

theorem alike_head (profile : Profile) (deviceId value deviceId' value' trustedCaPath : String) :
    List.Forall₂ Alike (headLines profile deviceId value trustedCaPath)
      (headLines profile deviceId' value' trustedCaPath) := by
  unfold headLines
  refine List.rel_append (List.rel_append ?_ (forall₂_alike_refl _)) ?_
  · exact .cons (alike_refl _) (.cons (alike_refl _) (.cons (alike_entry (by decide) _ _)
      (forall₂_alike_refl _)))
  · exact .cons (alike_refl _) (.cons (alike_refl _) (.cons (alike_entry (by decide) _ _)
      (forall₂_alike_refl _)))

theorem alike_connections (profile : Profile) {connections connections' : List Connection}
    (h : List.Forall₂ Similar connections connections') :
    List.Forall₂ Alike ((connections.filter (·.enabled)).flatMap (connectionLines profile))
      ((connections'.filter (·.enabled)).flatMap (connectionLines profile)) := by
  induction h with
  | nil => exact .nil
  | cons hfirst hrest ih =>
    rw [List.filter_cons, List.filter_cons, hfirst.enabled]
    split
    · exact List.rel_append (alike_connection profile hfirst) ih
    · exact ih

/-- The text of `RenderConfig` has exactly the fixed lines of the head and, for each
enabled connection, of one table; every value stands in one quoted string and without its
line ends. Inputs that differ in the contents of the device id, the lease, names and
hosts give texts that differ inside these quoted strings only. -/
theorem renderConfig_injects_nothing (profile : Profile) (response : SyncResponse)
    (trustedCaPath text : String) (h : renderConfig profile response trustedCaPath = .ok text) :
    (∃ lease, response.lease = some lease ∧
      Quoted.read text.toList = some (configLines profile response.deviceId lease.value
        trustedCaPath response.connections ++ [.blank])) ∧
    ∀ (response' : SyncResponse) (text' : String),
      List.Forall₂ Similar response.connections response'.connections →
      renderConfig profile response' trustedCaPath = .ok text' →
      ∃ lines lines', Quoted.read text.toList = some lines ∧
        Quoted.read text'.toList = some lines' ∧ List.Forall₂ Alike lines lines' := by
  obtain ⟨lease, hlease, -, hread⟩ := read_renderConfig h
  refine ⟨⟨lease, hlease, hread⟩, fun response' text' hsimilar h' => ?_⟩
  obtain ⟨lease', -, -, hread'⟩ := read_renderConfig h'
  refine ⟨_, _, hread, hread', ?_⟩
  refine List.rel_append (List.rel_append ?_ ?_) (forall₂_alike_refl _)
  · exact alike_head profile _ _ _ _ trustedCaPath
  · exact alike_connections profile hsimilar

/-- A host that ends the quoted string, the line and the table. -/
def hostileConnection : Connection :=
  { managedConnection "a" [] with localHost := "x\"\n[[proxies]]\\" }

/-- The host stands in one quoted string of the `localIP` line. -/
theorem hostile_host_is_quoted : ∃ text,
    renderConfig managedProfile (managedResponse [hostileConnection]) "" = .ok text ∧
    ∃ lines, Quoted.read text.toList = some lines ∧ lines.length = 24 ∧
      ⟨"localIP = ".toList, [("x\"[[proxies]]\\".toList, [])]⟩ ∈ lines := by
  obtain ⟨text, htext⟩ : ∃ text,
      renderConfig managedProfile (managedResponse [hostileConnection]) "" = .ok text :=
    ⟨_, rfl⟩
  obtain ⟨⟨lease, hlease, hread⟩, -⟩ := renderConfig_injects_nothing _ _ _ _ htext
  cases hlease
  exact ⟨text, htext, _, hread, by decide, by decide⟩

end HomeTunnel.Agent
