import HomeTunnel.Lib.Decimal

/-! # The managed agent's configuration

`RenderConfig` and the three allow-lists the supervisor passes on the agent's
command line. A configuration file carries the connection list it was rendered
from, with the proof that it was.
-/

namespace HomeTunnel.Agent

/-- What the code takes from the platform: the Unicode lower-case table, the digest in
hexadecimal and the layout of a time. -/
structure Platform where
  toLower : Char → Char
  sha256Hex : String → String
  rfc3339 : Nat → String

inductive ProxyType
  | http | tcp | udp
  | other (name : String)
deriving DecidableEq, Repr

def ProxyType.text : ProxyType → String
  | .http => "http"
  | .tcp => "tcp"
  | .udp => "udp"
  | .other name => name

structure Profile where
  frpsHost : String
  frpsPort : Int
  tunnelDomain : String
  frpsTlsCertificatePem : String
deriving DecidableEq, Repr

structure Connection where
  id : String
  subdomain : String
  proxyType : ProxyType
  remotePort : Int
  customDomains : List String
  localScheme : String
  localHost : String
  localPort : Int
  enabled : Bool
  version : Int
  proxyName : String
  state : String
  appliedVersion : Int
  lastErrorCode : String
  lastErrorSummary : String
deriving DecidableEq, Repr

structure Lease where
  value : String
  expiresAt : Nat
deriving DecidableEq, Repr

structure SyncResponse where
  deviceId : String
  fullSync : Bool
  targetConfigVersion : Int
  connections : List Connection
  lease : Option Lease
deriving DecidableEq, Repr

/-- White space as `unicode.IsSpace` has it. -/
def isSpace (c : Char) : Bool :=
  (9 ≤ c.toNat && c.toNat ≤ 13) || (0x2000 ≤ c.toNat && c.toNat ≤ 0x200a) ||
    [0x20, 0x85, 0xa0, 0x1680, 0x2028, 0x2029, 0x202f, 0x205f, 0x3000].contains c.toNat

/-- `strings.TrimFunc`: the text without the characters of a kind at its two ends. -/
def trim (cut : Char → Bool) (text : List Char) : List Char :=
  (((text.dropWhile cut).reverse).dropWhile cut).reverse

def trimSpace (text : String) : String := String.ofList (trim isSpace text.toList)

/-- `strings.ReplaceAll` for a single character. -/
def replaceAll (old : Char) (new : String) (text : String) : String :=
  String.ofList (text.toList.flatMap fun c => if c = old then new.toList else [c])

def toml (value : String) : String :=
  let value := replaceAll '\\' "\\\\" value
  let value := replaceAll '"' "\\\"" value
  let value := replaceAll '\r' "" value
  let value := replaceAll '\n' "" value
  "\"" ++ value ++ "\""

inductive RenderError
  | withoutLease
  | missingRemotePort (proxyType : ProxyType) (id : String)
  | unsupportedProxyType (id : String) (proxyType : ProxyType)
deriving DecidableEq, Repr

def proxyName (connection : Connection) : String :=
  if trimSpace connection.proxyName = "" then
    "ht_" ++ replaceAll '-' "" connection.id ++ "_v" ++ toString connection.version
  else connection.proxyName

def renderKind (profile : Profile) (connection : Connection) : Except RenderError String :=
  match connection.proxyType with
  | .http =>
    let domains := (connection.subdomain ++ "." ++ profile.tunnelDomain) ::
      connection.customDomains
    .ok ("type = \"http\"\n" ++
      "customDomains = [" ++ ", ".intercalate (domains.map toml) ++ "]\n")
  | .tcp | .udp =>
    if connection.remotePort < 1 then
      .error (.missingRemotePort connection.proxyType connection.id)
    else
      .ok ("type = " ++ toml connection.proxyType.text ++ "\n" ++
        "remotePort = " ++ toString connection.remotePort ++ "\n")
  | .other _ => .error (.unsupportedProxyType connection.id connection.proxyType)

def renderTarget (connection : Connection) : String :=
  if connection.proxyType = .http ∧ connection.localScheme = "https" then
    "[proxies.plugin]\n" ++ "type = \"http2https\"\n" ++
      "localAddr = " ++
        toml (connection.localHost ++ ":" ++ toString connection.localPort) ++ "\n" ++
      "hostHeaderRewrite = " ++ toml connection.localHost ++ "\n"
  else
    "localIP = " ++ toml connection.localHost ++ "\n" ++
      "localPort = " ++ toString connection.localPort ++ "\n"

def renderConnection (profile : Profile) (connection : Connection) :
    Except RenderError String := do
  let kind ← renderKind profile connection
  let health := if connection.proxyType ≠ .udp then
      "healthCheck.type = \"tcp\"\n" ++ "healthCheck.timeoutSeconds = 3\n" ++
        "healthCheck.intervalSeconds = 10\n"
    else ""
  return "\n[[proxies]]\n" ++ "name = " ++ toml (proxyName connection) ++ "\n" ++ kind ++
    "transport.useEncryption = true\n" ++ "transport.useCompression = true\n" ++ health ++
    renderTarget connection

/-- The loop over the connections; disabled ones are passed over. -/
def renderConnections (profile : Profile) : List Connection → Except RenderError String
  | [] => .ok ""
  | connection :: rest =>
    if connection.enabled then do
      let text ← renderConnection profile connection
      let tail ← renderConnections profile rest
      return text ++ tail
    else renderConnections profile rest

def renderHead (profile : Profile) (deviceId value trustedCaPath : String) : String :=
  "serverAddr = " ++ toml profile.frpsHost ++ "\n" ++
    "serverPort = " ++ toString profile.frpsPort ++ "\n" ++
    "user = " ++ toml deviceId ++ "\n" ++
    "loginFailExit = true\n" ++
    "transport.tls.enable = true\n" ++
    "transport.tls.disableCustomTLSFirstByte = true\n" ++
    (if trustedCaPath ≠ "" then
      "transport.tls.trustedCaFile = " ++ toml trustedCaPath ++ "\n" ++
        "transport.tls.serverName = " ++ toml profile.frpsHost ++ "\n"
    else "") ++
    "transport.heartbeatInterval = 30\n" ++
    "transport.heartbeatTimeout = 90\n" ++
    "metadatas.home_tunnel_lease = " ++ toml value ++ "\n" ++
    "log.to = \"console\"\n" ++
    "log.level = \"info\"\n"

def renderConfig (profile : Profile) (response : SyncResponse) (trustedCaPath : String) :
    Except RenderError String :=
  match response.lease with
  | none => .error .withoutLease
  | some lease =>
    if trimSpace lease.value = "" then .error .withoutLease
    else do
      let connections ← renderConnections profile response.connections
      return renderHead profile response.deviceId lease.value trustedCaPath ++ connections

structure AllowLists where
  customDomains : List String
  tcpPorts : List Int
  udpPorts : List Int
deriving DecidableEq, Repr

def AllowLists.empty : AllowLists := ⟨[], [], []⟩

def normalDomain (toLower : Char → Char) (value : String) : String :=
  String.ofList ((trim (· == '.') (trimSpace value).toList).map toLower)

/-- The domains of the enabled HTTP connections, each once, in the order of `sort.Strings`. -/
def collectCustomDomains (toLower : Char → Char) (connections : List Connection) :
    List String :=
  let named := connections.filter fun connection =>
    connection.enabled && connection.proxyType == .http
  let domains := named.flatMap fun connection => connection.customDomains.map (normalDomain toLower)
  (domains.filter (· ≠ "")).dedup.mergeSort fun a b => decide (a ≤ b)

def collectRemotePorts (connections : List Connection) (proxyType : ProxyType) : List Int :=
  let ports := (connections.filter fun connection =>
    connection.enabled && connection.proxyType == proxyType && decide (0 < connection.remotePort))
  (ports.map (·.remotePort)).dedup.mergeSort fun a b => decide (a ≤ b)

def collectTcpPorts (connections : List Connection) : List Int :=
  collectRemotePorts connections .tcp

def collectUdpPorts (connections : List Connection) : List Int :=
  collectRemotePorts connections .udp

def collect (toLower : Char → Char) (connections : List Connection) : AllowLists where
  customDomains := collectCustomDomains toLower connections
  tcpPorts := collectTcpPorts connections
  udpPorts := collectUdpPorts connections

/-- The text is what rendering these connections gives, for some profile and lease. -/
def RenderedFrom (text : String) (connections : List Connection) : Prop :=
  ∃ profile response trustedCaPath, response.connections = connections ∧
    renderConfig profile response trustedCaPath = .ok text

/-- A rendered configuration, with the connections it was rendered from. -/
structure ConfigFile where
  text : String
  connections : List Connection
  rendered : RenderedFrom text connections

def ConfigFile.render (profile : Profile) (response : SyncResponse) (trustedCaPath : String) :
    Except RenderError ConfigFile :=
  match h : renderConfig profile response trustedCaPath with
  | .error error => .error error
  | .ok text => .ok ⟨text, response.connections, profile, response, trustedCaPath, rfl, h⟩

theorem ConfigFile.connections_of_render {profile : Profile} {response : SyncResponse}
    {trustedCaPath : String} {file : ConfigFile}
    (h : ConfigFile.render profile response trustedCaPath = .ok file) :
    file.connections = response.connections := by
  unfold ConfigFile.render at h
  split at h
  · cases h
  · cases h
    rfl

/-- A connection without the fields in which its status is reported. -/
def Connection.settings (connection : Connection) : Connection :=
  { connection with state := "", appliedVersion := 0, lastErrorCode := "", lastErrorSummary := "" }

theorem renderConnections_settings (profile : Profile) (connections : List Connection) :
    renderConnections profile (connections.map Connection.settings) =
      renderConnections profile connections := by
  induction connections with
  | nil => rfl
  | cons connection rest ih =>
    simp only [List.map_cons, renderConnections, ih]
    rfl

theorem renderConfig_settings (profile : Profile) (response : SyncResponse)
    (trustedCaPath : String) {connections : List Connection}
    (h : response.connections.map Connection.settings = connections.map Connection.settings) :
    renderConfig profile { response with connections := connections } trustedCaPath =
      renderConfig profile response trustedCaPath := by
  have hsame : renderConnections profile connections =
      renderConnections profile response.connections := by
    rw [← renderConnections_settings, ← h, renderConnections_settings]
  simp only [renderConfig, hsame]

theorem ConfigFile.renderedFrom (file : ConfigFile) {connections : List Connection}
    (h : file.connections.map Connection.settings = connections.map Connection.settings) :
    RenderedFrom file.text connections := by
  obtain ⟨profile, response, trustedCaPath, hconnections, htext⟩ := file.rendered
  refine ⟨profile, { response with connections := connections }, trustedCaPath, rfl, ?_⟩
  rw [renderConfig_settings profile response trustedCaPath (by rw [hconnections, h]), htext]

/-! ## What the supervisor hands over -/

def joinPorts (ports : List Int) : String :=
  ",".intercalate (ports.map fun port => String.ofList (Decimal.intText port))

/-- An argument with its value, if the value is there. -/
def optional (given : Bool) (name value : String) : List String := if given then [name, value] else []

def arguments (profile : Profile) (tlsCaSha256 : String) (allowed : AllowLists)
    (command configPath : String) : List String :=
  [command, "--config", configPath, "--server", profile.frpsHost,
      "--port", String.ofList (Decimal.intText profile.frpsPort), "--domain", profile.tunnelDomain] ++
    optional (tlsCaSha256 != "") "--tls-ca-sha256" tlsCaSha256 ++
    optional (allowed.customDomains != []) "--allow-custom-domains"
      (",".intercalate allowed.customDomains) ++
    optional (allowed.tcpPorts != []) "--allow-tcp-ports" (joinPorts allowed.tcpPorts) ++
    optional (allowed.udpPorts != []) "--allow-udp-ports" (joinPorts allowed.udpPorts)

end HomeTunnel.Agent
