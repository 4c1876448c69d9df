import HomeTunnel.Agent.Config
import HomeTunnel.Lib.Decimal
import HomeTunnel.Lib.Net
import HomeTunnel.Lib.Utf8

/-! # The managed agent's checks

The agent reads its flags, loads the configuration with the FRP library and then compares it
with the managed template: `execute("verify")`. Of FRP's configuration the model has the
fields that the template or the rendering sets; everything else is at its default on both
sides of every comparison.
-/

namespace HomeTunnel.Agent

/-! ## FRP's configuration -/

structure HealthCheck where
  type : String := ""
  timeoutSeconds : Int := 0
  intervalSeconds : Int := 0
deriving DecidableEq, Repr

structure Plugin where
  type : String
  localAddr : String
  hostHeaderRewrite : String
deriving DecidableEq, Repr

structure ProxyBase where
  name : String := ""
  useEncryption : Bool := false
  useCompression : Bool := false
  healthCheck : HealthCheck := {}
  localIP : String := ""
  localPort : Int := 0
  plugin : Option Plugin := none
deriving DecidableEq, Repr

inductive ProxyConfig
  | http (base : ProxyBase) (customDomains : List String)
  | tcp (base : ProxyBase) (remotePort : Int)
  | udp (base : ProxyBase) (remotePort : Int)
deriving DecidableEq, Repr

structure CommonConfig where
  serverAddr : String := ""
  serverPort : Int := 0
  user : String := ""
  loginFailExit : Option Bool := none
  tlsEnable : Option Bool := none
  disableCustomTlsFirstByte : Option Bool := none
  trustedCaFile : String := ""
  serverName : String := ""
  heartbeatInterval : Int := 0
  heartbeatTimeout : Int := 0
  metadatas : List (String × String) := []
  logTo : String := ""
  logLevel : String := ""
deriving DecidableEq, Repr

structure ClientConfig where
  common : CommonConfig
  proxies : List ProxyConfig
deriving DecidableEq, Repr

/-- FRP's `Complete`: a proxy without a local address gets that of the machine itself. -/
def ProxyBase.complete (base : ProxyBase) : ProxyBase :=
  { base with localIP := if base.localIP = "" then "127.0.0.1" else base.localIP }

def ProxyBase.withName (base : ProxyBase) (name : String) : ProxyBase := { base with name := name }

def ProxyConfig.complete : ProxyConfig → ProxyConfig
  | .http base customDomains => .http base.complete customDomains
  | .tcp base remotePort => .tcp base.complete remotePort
  | .udp base remotePort => .udp base.complete remotePort

/-- What the agent takes from its platform and from FRP: the Unicode tables, the digest, the
loader of configuration files and FRP's own validation, which looks at one proxy at a time. -/
structure Runtime where
  toLower : Char → Char
  equalFold : String → String → Bool
  sha256Hex : List UInt8 → String
  load : List UInt8 → Option ClientConfig
  commonValid : CommonConfig → Bool
  proxyValid : ProxyConfig → Bool

def isLabelChar (c : Char) : Bool := ('a' ≤ c && c ≤ 'z') || ('0' ≤ c && c ≤ '9')

/-- The two patterns: letters and digits at both ends, the extra characters between them. -/
def matchesPattern (extra : List Char) (limit : Nat) (text : List Char) : Bool :=
  text.head?.any isLabelChar && text.getLast?.any isLabelChar &&
    text.all (fun c => isLabelChar c || extra.contains c) && text.length ≤ limit

def subdomainPattern (text : List Char) : Bool := matchesPattern ['-'] 63 text

def domainPattern (text : List Char) : Bool := matchesPattern ['.', '-'] 253 text

def bytes (text : String) : List UInt8 := Utf8.encode text.toList

def validTunnelDomain (value : String) : Bool :=
  !((bytes value).length > 253 || !domainPattern value.toList || !value.toList.contains '.') &&
    (value.toList.splitOn '.').all subdomainPattern

/-- `strings.ContainsAny`. -/
def containsAny (chars : List Char) (text : String) : Bool := text.toList.any chars.contains

def validLocalHost (host : String) : Bool :=
  let host := trimSpace host
  host ≠ "" && (bytes host).length ≤ 253 && !containsAny ['\r', '\n', '\t', ' ', '/', '\\'] host

def isManagedDomain (toLower : Char → Char) (value tunnelDomain : String) : Bool :=
  let domain := (trimSpace value).toList.map toLower
  let suffix := '.' :: (trim (· == '.') (trimSpace tunnelDomain).toList).map toLower
  (Utf8.encode suffix).length ≥ 3 && suffix.isSuffixOf domain &&
    subdomainPattern (domain.take (domain.length - suffix.length))

inductive AgentError
  | flags | caHash
  | tooManyDomains | domain | duplicateDomain
  | tooManyPorts | port | duplicatePort
  | trustProfile
  | configPath | configFile | template | load | validation
  | otherServer | user | lease | tlsFile | missingCa | caFile | tlsServerName | commonTemplate
  | tooManyProxies
  | domainCount | repeatedDomain | domainNotAllowed | managedDomain
  | localTarget | plugin | httpsTarget | httpsHost | proxyTemplate
  | portNotAllowed | proxyPlugin
deriving DecidableEq, Repr

structure Flags where
  config : String := ""
  server : String := ""
  port : Int := 0
  domain : String := ""
  allowCustomDomains : String := ""
  allowTcpPorts : String := ""
  allowUdpPorts : String := ""
  tlsCaSha256 : String := ""
deriving DecidableEq, Repr

/-- `strconv.Atoi`. -/
def atoi (text : List Char) : Option Int :=
  let value := match text with
    | '+' :: rest => (Decimal.readNat rest).map fun n : Nat => (n : Int)
    | text => Decimal.readInt text
  match value with
  | some n => if -2 ^ 63 ≤ n ∧ n < 2 ^ 63 then some n else none
  | none => none

def Flags.set (flags : Flags) (name value : String) : Option Flags :=
  match name with
  | "config" => some { flags with config := value }
  | "server" => some { flags with server := value }
  | "port" => (atoi value.toList).map fun port => { flags with port := port }
  | "domain" => some { flags with domain := value }
  | "allow-custom-domains" => some { flags with allowCustomDomains := value }
  | "allow-tcp-ports" => some { flags with allowTcpPorts := value }
  | "allow-udp-ports" => some { flags with allowUdpPorts := value }
  | "tls-ca-sha256" => some { flags with tlsCaSha256 := value }
  | _ => none

/-- The name behind one or two dashes, with the value if it stands in the same argument. -/
def flagName (argument : String) : Option (String × Option String) :=
  let name := match argument.toList with
    | '-' :: '-' :: name => name
    | '-' :: name => name
    | _ => []
  match name with
  | [] | '-' :: _ | '=' :: _ => none
  | name =>
    match name.dropWhile (· ≠ '=') with
    | [] => some (String.ofList name, none)
    | _ :: value => some (String.ofList (name.takeWhile (· ≠ '=')), some (String.ofList value))

/-- `flags.Parse`, where anything that is left over is an error too. -/
def parseFlags (flags : Flags) : List String → Option Flags
  | [] => some flags
  | [argument] =>
    if argument = "--" then some flags
    else
      match flagName argument with
      | some (name, some value) => flags.set name value
      | _ => none
  | argument :: value :: rest =>
    match flagName argument with
    | some (name, some own) =>
      match flags.set name own with
      | some flags => parseFlags flags (value :: rest)
      | none => none
    | some (name, none) =>
      match flags.set name value with
      | some flags => parseFlags flags rest
      | none => none
    | none => none

/-- The loop of the three parsers: every part is read, and none of them twice. -/
def readAllowed {α : Type} [DecidableEq α] (read : List Char → Option α)
    (invalid duplicate : AgentError) : List (List Char) → List α → Except AgentError (List α)
  | [], allowed => .ok allowed
  | part :: parts, allowed =>
    match read part with
    | none => .error invalid
    | some value =>
      if value ∈ allowed then .error duplicate
      else readAllowed read invalid duplicate parts (allowed ++ [value])

def parseAllowed {α : Type} [DecidableEq α] (read : List Char → Option α) (limit : Nat)
    (tooMany invalid duplicate : AgentError) (value : String) : Except AgentError (List α) :=
  if trimSpace value = "" then .ok []
  else
    let parts := value.toList.splitOn ','
    if parts.length > limit then .error tooMany
    else readAllowed read invalid duplicate parts []

def readDomain (toLower : Char → Char) (part : List Char) : Option String :=
  let domain := normalDomain toLower (String.ofList part)
  if validTunnelDomain domain then some domain else none

def parseAllowedCustomDomains (toLower : Char → Char) (value : String) :
    Except AgentError (List String) :=
  parseAllowed (readDomain toLower) 100 .tooManyDomains .domain .duplicateDomain value

def readPort (part : List Char) : Option Int :=
  match atoi (trim isSpace part) with
  | some port => if port < 1 ∨ port > 65535 then none else some port
  | none => none

/-- `parseAllowedTCPPorts` and `parseAllowedUDPPorts`, which differ in the texts of their
errors. -/
def parseAllowedPorts (value : String) : Except AgentError (List Int) :=
  parseAllowed readPort 1000 .tooManyPorts .port .duplicatePort value

/-! ## The trust profile -/

structure TrustProfile where
  server : String
  port : Int
  domain : String
  allowedCustomDomains : List String
  allowedTcpPorts : List Int
  allowedUdpPorts : List Int
  tlsCaSha256 : String
deriving DecidableEq, Repr

def check (condition : Bool) (error : AgentError) : Except AgentError Unit :=
  if condition then .ok () else .error error

def validateTrustProfile (trust : TrustProfile) : Except AgentError Unit :=
  check (!(trust.server == "" || (bytes trust.server).length > 253 ||
      containsAny ['\r', '\n', '\t', ' ', '/', '\\'] trust.server ||
      trust.port < 1 || trust.port > 65535 || !validTunnelDomain trust.domain)) .trustProfile

/-- A file as `os.Stat` and `os.ReadFile` show it. -/
structure File where
  regular : Bool
  content : List UInt8

abbrev Disk := String → Option File

def maxCaFileBytes : Nat := 64 * 1024

def validateTrustedCaFile (R : Runtime) (disk : Disk) (path expected : String) : Bool :=
  match disk path with
  | none => false
  | some file =>
    file.regular && 0 < file.content.length && file.content.length ≤ maxCaFileBytes &&
      R.sha256Hex file.content == expected

/-- What the common part has to be, given the fields that may vary. -/
def expectedCommon (common : CommonConfig) (trust : TrustProfile) : CommonConfig where
  serverAddr := trust.server
  serverPort := trust.port
  user := common.user
  loginFailExit := some true
  tlsEnable := some true
  disableCustomTlsFirstByte := some true
  trustedCaFile := if trust.tlsCaSha256 = "" then "" else common.trustedCaFile
  serverName := if trust.tlsCaSha256 = "" then "" else common.serverName
  heartbeatInterval := 30
  heartbeatTimeout := 90
  metadatas := [("home_tunnel_lease", (common.metadatas.lookup "home_tunnel_lease").getD "")]
  logTo := "console"
  logLevel := "info"

def validateCommon (R : Runtime) (disk : Disk) (common : CommonConfig) (trust : TrustProfile) :
    Except AgentError Unit := do
  check (R.equalFold common.serverAddr trust.server && common.serverPort == trust.port) .otherServer
  check (!(common.user == "" || (bytes common.user).length > 128 ||
    containsAny ['\r', '\n', '\t', ' '] common.user)) .user
  check ((common.metadatas.lookup "home_tunnel_lease").getD "" != "" &&
    common.metadatas.length == 1) .lease
  if trust.tlsCaSha256 = "" then
    check (common.trustedCaFile == "" && common.serverName == "") .tlsFile
  else
    check (common.trustedCaFile != "") .missingCa
    check (validateTrustedCaFile R disk common.trustedCaFile trust.tlsCaSha256) .caFile
    check (R.equalFold common.serverName trust.server) .tlsServerName
  check (common == expectedCommon common trust) .commonTemplate

/-- The loop over the public domains, with those seen before and the number of managed ones. -/
def publicDomains (R : Runtime) (trust : TrustProfile) :
    List String → List String → Nat → Except AgentError Nat
  | [], _, managed => .ok managed
  | value :: values, seen, managed =>
    let domain := normalDomain R.toLower value
    if domain ∈ seen then .error .repeatedDomain
    else if isManagedDomain R.toLower domain trust.domain then
      publicDomains R trust values (domain :: seen) (managed + 1)
    else if domain ∈ trust.allowedCustomDomains then
      publicDomains R trust values (domain :: seen) managed
    else .error .domainNotAllowed

/-- The template of a proxy, apart from its target and its name. -/
def templateBase (health : HealthCheck) : ProxyBase :=
  { useEncryption := true, useCompression := true, healthCheck := health }

def tcpHealth : HealthCheck := { type := "tcp", timeoutSeconds := 3, intervalSeconds := 10 }

def validTarget (base : ProxyBase) : Bool :=
  !(base.localPort < 1 || base.localPort > 65535 || !validLocalHost base.localIP)

def validatePlugin (plugin : Plugin) : Except AgentError Unit := do
  check (plugin.type == "http2https") .plugin
  match Net.splitHostPort plugin.localAddr.toList with
  | none => .error .httpsTarget
  | some (host, port) =>
    check (validLocalHost (String.ofList host) && String.ofList port != "0") .httpsTarget
    check (plugin.hostHeaderRewrite == String.ofList host) .httpsHost

def validateManagedHttpProxy (R : Runtime) (base : ProxyBase) (customDomains : List String)
    (trust : TrustProfile) : Except AgentError Unit := do
  check (1 ≤ customDomains.length && customDomains.length ≤ 101) .domainCount
  let managed ← publicDomains R trust customDomains [] 0
  check (managed == 1) .managedDomain
  match base.plugin with
  | none =>
    check (validTarget base) .localTarget
    check (base == { (templateBase tcpHealth) with
      localIP := base.localIP, localPort := base.localPort }.complete.withName base.name)
      .proxyTemplate
  | some plugin =>
    validatePlugin plugin
    check (base == { (templateBase tcpHealth) with
      plugin := some plugin }.complete.withName base.name) .proxyTemplate

/-- `validateManagedTCPProxy` and `validateManagedUDPProxy`; only the first has a health check. -/
def validateManagedPortProxy (base : ProxyBase) (remotePort : Int) (allowed : List Int)
    (health : HealthCheck) : Except AgentError Unit := do
  check (remotePort ∈ allowed) .portNotAllowed
  check (validTarget base) .localTarget
  check (base.plugin == none) .proxyPlugin
  check (base == { (templateBase health) with
    localIP := base.localIP, localPort := base.localPort }.complete.withName base.name)
    .proxyTemplate

def validateManagedProxy (R : Runtime) (trust : TrustProfile) : ProxyConfig → Except AgentError Unit
  | .http base customDomains => validateManagedHttpProxy R base customDomains trust
  | .tcp base remotePort =>
    validateManagedPortProxy base remotePort trust.allowedTcpPorts tcpHealth
  | .udp base remotePort => validateManagedPortProxy base remotePort trust.allowedUdpPorts {}

/-- The loop over the proxies; the first error ends it. -/
def validateManagedProxies (R : Runtime) (trust : TrustProfile) :
    List ProxyConfig → Except AgentError Unit
  | [] => .ok ()
  | proxy :: proxies => do
      validateManagedProxy R trust proxy
      validateManagedProxies R trust proxies

def validateManagedSurface (R : Runtime) (disk : Disk) (config : ClientConfig)
    (trust : TrustProfile) : Except AgentError Unit := do
  validateCommon R disk config.common trust
  check (config.proxies.length ≤ 100) .tooManyProxies
  validateManagedProxies R trust config.proxies

def maxConfigBytes : Nat := 1024 * 1024

/-- `filepath.Ext`, the part from the last dot of the last element on. -/
def extension (path : String) : String :=
  let name := path.toList.reverse.takeWhile fun c => c ≠ '/' && c ≠ '\\'
  if name.contains '.' then String.ofList ('.' :: (name.takeWhile (· ≠ '.')).reverse) else ""

/-- The byte stands twice in a row somewhere. -/
def hasPair (b : UInt8) : List UInt8 → Bool
  | [] => false
  | [_] => false
  | x :: y :: rest => (x == b && y == b) || hasPair b (y :: rest)

/-- One of the two marks of a template expression is in the file. -/
def hasTemplate (content : List UInt8) : Bool := hasPair 0x7b content || hasPair 0x7d content

def loadManagedConfig (R : Runtime) (disk : Disk) (path : String) (trust : TrustProfile) :
    Except AgentError ClientConfig := do
  check (R.equalFold (extension path) ".toml") .configPath
  match disk path with
  | none => .error .configFile
  | some file =>
    check (file.regular && 0 < file.content.length && file.content.length ≤ maxConfigBytes)
      .configFile
    check (!hasTemplate file.content) .template
    match R.load file.content with
    | none => .error .load
    | some loaded =>
      let config := { loaded with proxies := loaded.proxies.map ProxyConfig.complete }
      check (R.commonValid config.common && config.proxies.all R.proxyValid) .validation
      validateManagedSurface R disk config trust
      return config

/-- `^[0-9a-f]{64}$`. -/
def isSha256Hex (text : String) : Bool :=
  text.toList.length == 64 && text.toList.all fun c => ('0' ≤ c && c ≤ '9') || ('a' ≤ c && c ≤ 'f')

/-- `execute` from the parsed flags on. -/
def verifyFlags (R : Runtime) (disk : Disk) (flags : Flags) : Except AgentError ClientConfig := do
  let tlsCaSha256 := String.ofList ((trimSpace flags.tlsCaSha256).toList.map R.toLower)
  check (tlsCaSha256 == "" || isSha256Hex tlsCaSha256) .caHash
  let customDomains ← parseAllowedCustomDomains R.toLower flags.allowCustomDomains
  let tcpPorts ← parseAllowedPorts flags.allowTcpPorts
  let udpPorts ← parseAllowedPorts flags.allowUdpPorts
  let trust : TrustProfile :=
    { server := trimSpace flags.server
      port := flags.port
      domain := normalDomain R.toLower flags.domain
      allowedCustomDomains := customDomains
      allowedTcpPorts := tcpPorts
      allowedUdpPorts := udpPorts
      tlsCaSha256 := tlsCaSha256 }
  validateTrustProfile trust
  loadManagedConfig R disk flags.config trust

/-- `execute` for the command `verify`. -/
def execute (R : Runtime) (disk : Disk) : List String → Except AgentError ClientConfig
  | "verify" :: arguments =>
    match parseFlags {} arguments with
    | none => .error .flags
    | some flags => verifyFlags R disk flags
  | _ => .error .flags

/-- What a quoted text stands for: line ends are dropped, everything else is kept. -/
def tomlValue (value : String) : String :=
  String.ofList (value.toList.filter fun c => c ≠ '\r' ∧ c ≠ '\n')

def commonOf (profile : Profile) (deviceId value trustedCaPath : String) : CommonConfig where
  serverAddr := tomlValue profile.frpsHost
  serverPort := profile.frpsPort
  user := tomlValue deviceId
  loginFailExit := some true
  tlsEnable := some true
  disableCustomTlsFirstByte := some true
  trustedCaFile := if trustedCaPath ≠ "" then tomlValue trustedCaPath else ""
  serverName := if trustedCaPath ≠ "" then tomlValue profile.frpsHost else ""
  heartbeatInterval := 30
  heartbeatTimeout := 90
  metadatas := [("home_tunnel_lease", tomlValue value)]
  logTo := "console"
  logLevel := "info"

def baseOf (connection : Connection) : ProxyBase :=
  let base := { (templateBase (if connection.proxyType ≠ .udp then tcpHealth else {})) with
    name := tomlValue (proxyName connection) }
  if connection.proxyType = .http ∧ connection.localScheme = "https" then
    { base with
      plugin := some
        { type := "http2https"
          localAddr := tomlValue (connection.localHost ++ ":" ++ toString connection.localPort)
          hostHeaderRewrite := tomlValue connection.localHost } }
  else
    { base with localIP := tomlValue connection.localHost, localPort := connection.localPort }

def proxyOf (profile : Profile) (connection : Connection) : Option ProxyConfig :=
  match connection.proxyType with
  | .http =>
    let domains := (connection.subdomain ++ "." ++ profile.tunnelDomain) :: connection.customDomains
    some (.http (baseOf connection) (domains.map tomlValue))
  | .tcp => some (.tcp (baseOf connection) connection.remotePort)
  | .udp => some (.udp (baseOf connection) connection.remotePort)
  | .other _ => none

/-- The values that `renderConfig` writes. -/
def configOf (profile : Profile) (response : SyncResponse) (trustedCaPath : String) : ClientConfig where
  common := commonOf profile response.deviceId ((response.lease.map Lease.value).getD "") trustedCaPath
  proxies := (response.connections.filter (·.enabled)).filterMap (proxyOf profile)

/-- The loader returns the values that were rendered. -/
def Runtime.Loads (R : Runtime) (profile : Profile) (response : SyncResponse)
    (trustedCaPath : String) : Prop :=
  ∀ text, renderConfig profile response trustedCaPath = .ok text →
    R.load (bytes text) = some (configOf profile response trustedCaPath)

/-- The disk with the configuration that the supervisor has written. -/
def Disk.write (disk : Disk) (path text : String) : Disk :=
  fun name => if name = path then some ⟨true, bytes text⟩ else disk name

/-- The configuration of this response and the arguments for it pass the agent's checks. -/
def Passes (R : Runtime) (disk : Disk) (profile : Profile) (response : SyncResponse)
    (trustedCaPath tlsCaSha256 configPath : String) : Prop :=
  ∃ text, renderConfig profile response trustedCaPath = .ok text ∧
    ∃ config, execute R (disk.write configPath text)
      (arguments profile tlsCaSha256 (collect R.toLower response.connections) "verify" configPath) =
      .ok config

theorem bind_eq_ok {ε α β : Type} {x : Except ε α} {f : α → Except ε β} {r : β} :
    (x >>= f) = .ok r ↔ ∃ a, x = .ok a ∧ f a = .ok r := by
  cases x with
  | error e | ok a => simp [bind, Except.bind]

@[simp] theorem check_eq_ok {condition : Bool} {error : AgentError} {u : Unit} :
    check condition error = .ok u ↔ condition = true := by
  cases condition <;> simp [check]

theorem check_bind_eq_ok {β : Type} {condition : Bool} {error : AgentError}
    {f : Unit → Except AgentError β} {r : β} :
    (check condition error >>= f) = .ok r ↔ condition = true ∧ f () = .ok r := by
  rw [bind_eq_ok]
  constructor
  · rintro ⟨_, hcheck, h⟩
    exact ⟨check_eq_ok.mp hcheck, h⟩
  · rintro ⟨hcondition, h⟩
    exact ⟨(), check_eq_ok.mpr hcondition, h⟩

theorem parseFlags_pair (name : String) {flags next : Flags} {argument value : String}
    {rest : List String} (hname : flagName argument = some (name, none)) (hset : flags.set name value = some next) :
    parseFlags flags (argument :: value :: rest) = parseFlags next rest := by
  rw [parseFlags, hname]
  dsimp only
  rw [hset]

theorem parseFlags_optional (name : String) {flags next : Flags} {given : Bool}
    {argument value : String} {rest : List String} (hname : flagName argument = some (name, none))
    (hset : flags.set name value = some next) (hskip : given = false → next = flags) :
    parseFlags flags (optional given argument value ++ rest) = parseFlags next rest := by
  cases given with
  | true => exact parseFlags_pair name hname hset
  | false =>
    rw [hskip rfl]
    rfl

/-- The flags that the supervisor's arguments stand for. -/
def flagsOf (profile : Profile) (tlsCaSha256 : String) (allowed : AllowLists) (configPath : String)
    (port : Int) : Flags where
  config := configPath
  server := profile.frpsHost
  port := port
  domain := profile.tunnelDomain
  allowCustomDomains := ",".intercalate allowed.customDomains
  allowTcpPorts := joinPorts allowed.tcpPorts
  allowUdpPorts := joinPorts allowed.udpPorts
  tlsCaSha256 := tlsCaSha256

/-- What the arguments from the first optional one on add. -/
theorem parseFlags_lists (flags : Flags) (tlsCaSha256 : String) (allowed : AllowLists)
    (hflags : flags.tlsCaSha256 = "" ∧ flags.allowCustomDomains = "" ∧ flags.allowTcpPorts = "" ∧
      flags.allowUdpPorts = "") :
    parseFlags flags (optional (tlsCaSha256 != "") "--tls-ca-sha256" tlsCaSha256 ++
      (optional (allowed.customDomains != []) "--allow-custom-domains"
        (",".intercalate allowed.customDomains) ++
      (optional (allowed.tcpPorts != []) "--allow-tcp-ports" (joinPorts allowed.tcpPorts) ++
      (optional (allowed.udpPorts != []) "--allow-udp-ports" (joinPorts allowed.udpPorts) ++ [])))) =
    some { flags with
      tlsCaSha256 := tlsCaSha256
      allowCustomDomains := ",".intercalate allowed.customDomains
      allowTcpPorts := joinPorts allowed.tcpPorts
      allowUdpPorts := joinPorts allowed.udpPorts } := by
  obtain ⟨config, server, port, domain, _, _, _, _⟩ := flags
  obtain ⟨rfl, rfl, rfl, rfl⟩ := hflags
  have htls : (tlsCaSha256 != "") = false → tlsCaSha256 = "" := by simp
  have hdomains : (allowed.customDomains != []) = false → ",".intercalate allowed.customDomains = "" := by
    intro h
    rw [show allowed.customDomains = [] by simpa using h]
    rfl
  have hports : ∀ ports : List Int, (ports != []) = false → joinPorts ports = "" := by
    intro ports h
    rw [show ports = [] by simpa using h]
    rfl
  rw [parseFlags_optional "tls-ca-sha256" (by decide) rfl fun h => by rw [htls h],
    parseFlags_optional "allow-custom-domains" (by decide) rfl fun h => by rw [hdomains h],
    parseFlags_optional "allow-tcp-ports" (by decide) rfl fun h => by rw [hports _ h],
    parseFlags_optional "allow-udp-ports" (by decide) rfl fun h => by rw [hports _ h]]
  rfl

theorem execute_arguments (R : Runtime) (disk : Disk) (profile : Profile) (tlsCaSha256 : String)
    (allowed : AllowLists) (configPath : String) :
    execute R disk (arguments profile tlsCaSha256 allowed "verify" configPath) =
      match atoi (Decimal.intText profile.frpsPort) with
      | none => .error .flags
      | some port => verifyFlags R disk (flagsOf profile tlsCaSha256 allowed configPath port) := by
  have hflags : parseFlags {} (arguments profile tlsCaSha256 allowed "verify" configPath).tail =
      (atoi (Decimal.intText profile.frpsPort)).map
        (flagsOf profile tlsCaSha256 allowed configPath) := by
    rw [arguments, ← List.append_nil (optional (allowed.udpPorts != []) _ _)]
    simp only [List.append_assoc, List.cons_append, List.nil_append, List.tail_cons]
    rw [parseFlags_pair "config" (by decide) rfl, parseFlags_pair "server" (by decide) rfl]
    cases hport : atoi (Decimal.intText profile.frpsPort) with
    | none =>
      rw [parseFlags, show flagName "--port" = some ("port", none) by decide]
      simp [Flags.set, hport]
    | some port =>
      rw [parseFlags_pair "port" (by decide) (by
          rw [Flags.set, String.toList_ofList, hport]
          rfl),
        parseFlags_pair "domain" (by decide) rfl, parseFlags_lists _ _ _ ⟨rfl, rfl, rfl, rfl⟩]
      rfl
  rw [show arguments profile tlsCaSha256 allowed "verify" configPath =
    "verify" :: (arguments profile tlsCaSha256 allowed "verify" configPath).tail from rfl, execute,
    hflags]
  cases atoi (Decimal.intText profile.frpsPort) <;> rfl

def trustOf (R : Runtime) (profile : Profile) (tlsCaSha256 : String) (port : Int)
    (customDomains : List String) (tcpPorts udpPorts : List Int) : TrustProfile where
  server := trimSpace profile.frpsHost
  port := port
  domain := normalDomain R.toLower profile.tunnelDomain
  allowedCustomDomains := customDomains
  allowedTcpPorts := tcpPorts
  allowedUdpPorts := udpPorts
  tlsCaSha256 := String.ofList ((trimSpace tlsCaSha256).toList.map R.toLower)

/-- What the checks ask of everything but the connections. -/
structure SharedChecks (R : Runtime) (disk : Disk) (profile : Profile) (tlsCaSha256 configPath : String)
    (common : CommonConfig) (port : Int) : Prop where
  readsPort : atoi (Decimal.intText profile.frpsPort) = some port
  hash : (trustOf R profile tlsCaSha256 port [] [] []).tlsCaSha256 = "" ∨
    isSha256Hex (trustOf R profile tlsCaSha256 port [] [] []).tlsCaSha256 = true
  trust : validateTrustProfile (trustOf R profile tlsCaSha256 port [] [] []) = .ok ()
  path : R.equalFold (extension configPath) ".toml" = true
  valid : R.commonValid common = true
  template : validateCommon R disk common (trustOf R profile tlsCaSha256 port [] [] []) = .ok ()

/-- What they ask of the text and of the connections. -/
structure ListChecks (R : Runtime) (profile : Profile) (tlsCaSha256 : String) (port : Int)
    (text : String) (allowed : AllowLists) (proxies : List ProxyConfig) (customDomains : List String)
    (tcpPorts udpPorts : List Int) : Prop where
  readsDomains : parseAllowedCustomDomains R.toLower (",".intercalate allowed.customDomains) =
    .ok customDomains
  readsTcpPorts : parseAllowedPorts (joinPorts allowed.tcpPorts) = .ok tcpPorts
  readsUdpPorts : parseAllowedPorts (joinPorts allowed.udpPorts) = .ok udpPorts
  size : 0 < (bytes text).length ∧ (bytes text).length ≤ maxConfigBytes
  plain : hasTemplate (bytes text) = false
  valid : ∀ proxy ∈ proxies, R.proxyValid proxy.complete = true
  count : proxies.length ≤ 100
  proxies : ∀ proxy ∈ proxies, validateManagedProxy R
    (trustOf R profile tlsCaSha256 port customDomains tcpPorts udpPorts) proxy.complete = .ok ()

theorem validateManagedProxies_ok {R : Runtime} {trust : TrustProfile} {proxies : List ProxyConfig}
    {u : Unit} : validateManagedProxies R trust proxies = .ok u ↔
      ∀ proxy ∈ proxies, validateManagedProxy R trust proxy = .ok () := by
  induction proxies with
  | nil => simp [validateManagedProxies]
  | cons proxy proxies ih =>
    rw [validateManagedProxies, bind_eq_ok, List.forall_mem_cons, ih]
    constructor
    · rintro ⟨_, hproxy, hrest⟩
      exact ⟨hproxy, hrest⟩
    · rintro ⟨hproxy, hrest⟩
      exact ⟨(), hproxy, hrest⟩

/-- The trusted file is not the configuration itself, so writing one leaves the other. -/
theorem validateCommon_write {R : Runtime} {disk : Disk} {path text : String} {common : CommonConfig}
    {trust : TrustProfile} (hpath : common.trustedCaFile ≠ path) :
    validateCommon R (disk.write path text) common trust = validateCommon R disk common trust := by
  have hread : (disk.write path text) common.trustedCaFile = disk common.trustedCaFile := by
    rw [Disk.write, if_neg hpath]
  have hfile : validateTrustedCaFile R (disk.write path text) common.trustedCaFile trust.tlsCaSha256 =
      validateTrustedCaFile R disk common.trustedCaFile trust.tlsCaSha256 := by
    unfold validateTrustedCaFile
    rw [hread]
  unfold validateCommon
  rw [hfile]

theorem loadManagedConfig_ok {R : Runtime} {disk : Disk} {path : String} {trust : TrustProfile}
    {content : List UInt8} {loaded : ClientConfig} (hfile : disk path = some ⟨true, content⟩)
    (hload : R.load content = some loaded) :
    (∃ config, loadManagedConfig R disk path trust = .ok config) ↔
      R.equalFold (extension path) ".toml" = true ∧
      (0 < content.length ∧ content.length ≤ maxConfigBytes) ∧ hasTemplate content = false ∧
      (R.commonValid loaded.common = true ∧
        ∀ proxy ∈ loaded.proxies, R.proxyValid proxy.complete = true) ∧
      validateCommon R disk loaded.common trust = .ok () ∧ loaded.proxies.length ≤ 100 ∧
      ∀ proxy ∈ loaded.proxies, validateManagedProxy R trust proxy.complete = .ok () := by
  simp only [loadManagedConfig, hfile, hload, check_bind_eq_ok, validateManagedSurface]
  simp only [bind_eq_ok, check_eq_ok, Bool.true_and, Bool.and_eq_true, decide_eq_true_eq,
    Bool.not_eq_true', List.all_eq_true, validateManagedProxies_ok, List.length_map,
    List.forall_mem_map]
  constructor
  · rintro ⟨config, hext, hsize, hplain, hvalid, _, ⟨_, hcommon, _, hcount, hproxies⟩, _⟩
    exact ⟨hext, hsize, hplain, hvalid, hcommon, hcount, hproxies⟩
  · rintro ⟨hext, hsize, hplain, hvalid, hcommon, hcount, hproxies⟩
    exact ⟨_, hext, hsize, hplain, hvalid, (), ⟨(), hcommon, (), hcount, hproxies⟩, rfl⟩

theorem verifyFlags_flagsOf (R : Runtime) (disk : Disk) (profile : Profile)
    (tlsCaSha256 configPath : String) (allowed : AllowLists) (port : Int) :
    verifyFlags R disk (flagsOf profile tlsCaSha256 allowed configPath port) = (do
      check ((trustOf R profile tlsCaSha256 port [] [] []).tlsCaSha256 == "" ||
        isSha256Hex (trustOf R profile tlsCaSha256 port [] [] []).tlsCaSha256) .caHash
      let customDomains ← parseAllowedCustomDomains R.toLower (",".intercalate allowed.customDomains)
      let tcpPorts ← parseAllowedPorts (joinPorts allowed.tcpPorts)
      let udpPorts ← parseAllowedPorts (joinPorts allowed.udpPorts)
      validateTrustProfile (trustOf R profile tlsCaSha256 port customDomains tcpPorts udpPorts)
      loadManagedConfig R disk configPath
        (trustOf R profile tlsCaSha256 port customDomains tcpPorts udpPorts)) := rfl

section Lists

variable {R : Runtime} {disk : Disk} {profile : Profile} {common : CommonConfig}
  {tlsCaSha256 : String} {port : Int}

/-- The checks of the profile and of the common part do not read the allow-lists. -/
theorem validateTrustProfile_lists (customDomains : List String) (tcpPorts udpPorts : List Int) :
    validateTrustProfile (trustOf R profile tlsCaSha256 port customDomains tcpPorts udpPorts) =
      validateTrustProfile (trustOf R profile tlsCaSha256 port [] [] []) := rfl

theorem validateCommon_lists (customDomains : List String) (tcpPorts udpPorts : List Int) :
    validateCommon R disk common (trustOf R profile tlsCaSha256 port customDomains tcpPorts udpPorts) =
      validateCommon R disk common (trustOf R profile tlsCaSha256 port [] [] []) := rfl

end Lists

theorem passes_iff {R : Runtime} {disk : Disk} {profile : Profile} {response : SyncResponse}
    {trustedCaPath tlsCaSha256 configPath : String} (hload : R.Loads profile response trustedCaPath)
    (hpath : (configOf profile response trustedCaPath).common.trustedCaFile ≠ configPath) :
    Passes R disk profile response trustedCaPath tlsCaSha256 configPath ↔
      ∃ text, renderConfig profile response trustedCaPath = .ok text ∧ ∃ port,
        SharedChecks R disk profile tlsCaSha256 configPath
          (configOf profile response trustedCaPath).common port ∧
        ∃ customDomains tcpPorts udpPorts, ListChecks R profile tlsCaSha256 port text
          (collect R.toLower response.connections) (configOf profile response trustedCaPath).proxies
          customDomains tcpPorts udpPorts := by
  unfold Passes
  refine exists_congr fun text => and_congr_right fun htext => ?_
  rw [execute_arguments]
  have hfile : (disk.write configPath text) configPath = some ⟨true, bytes text⟩ := by
    rw [Disk.write, if_pos rfl]
  cases hport : atoi (Decimal.intText profile.frpsPort) with
  | none =>
    constructor
    · rintro ⟨config, h⟩
      cases h
    · rintro ⟨port, hshared, _⟩
      rw [hshared.readsPort] at hport
      cases hport
  | some port =>
    dsimp only
    simp only [verifyFlags_flagsOf, bind_eq_ok, check_eq_ok, validateTrustProfile_lists]
    constructor
    · rintro ⟨config, _, hhash, domains, hdomains, tcp, htcp, udp, hudp, _, htrust, hconfig⟩
      obtain ⟨hext, hsize, hplain, ⟨hcommonValid, hvalid⟩, hcommon, hcount, hproxies⟩ :=
        (loadManagedConfig_ok hfile (hload text htext)).mp ⟨config, hconfig⟩
      rw [validateCommon_write hpath, validateCommon_lists] at hcommon
      refine ⟨port, ⟨hport, by simpa using hhash, htrust, hext, hcommonValid, hcommon⟩, domains, tcp,
        udp, hdomains, htcp, hudp, hsize, hplain, hvalid, hcount, hproxies⟩
    · rintro ⟨port', hshared, domains, tcp, udp, hlist⟩
      have hsame := hshared.readsPort
      rw [hport] at hsame
      cases hsame
      have hcommon := hshared.template
      rw [← validateCommon_lists domains tcp udp, ← validateCommon_write hpath] at hcommon
      obtain ⟨config, hconfig⟩ := (loadManagedConfig_ok hfile (hload text htext)).mpr
        ⟨hshared.path, hlist.size, hlist.plain, ⟨hshared.valid, hlist.valid⟩, hcommon, hlist.count,
          hlist.proxies⟩
      exact ⟨config, (), by simpa using hshared.hash, domains, hlist.readsDomains, tcp,
        hlist.readsTcpPorts, udp, hlist.readsUdpPorts, (), hshared.trust, hconfig⟩

end HomeTunnel.Agent
