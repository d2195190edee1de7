/-
Module: Remgr.Console.Persist
Purpose: `Config::save` and `Config::load`: the sections as the values serde derives for them, with the
  hand-written readers of certificate paths and of proxies, and the paths `load` fills in.
Trusted boundary: the `toml` crate is a parameter that writes and reads values; a missing member and a
  `None` member are written alike, as the crate does
Main exports: Platform, Toml, Config.toValue, Config.fromValue, parseLine, applyPlatformDefaults,
  Config.save, Config.load
-/
import Remgr.Console.Config
import Remgr.Lib.Lines

namespace Remgr.Console

open Remgr.Lib
open Remgr.Lib.Json

/-- The layout of the platform: `path_in_cert_dir`, and the path of EasyTier's database. A path with a
file name is not empty. -/
structure Platform where
  pathInCertDir : String → String
  dbPath : String
  named : ∀ name, name ≠ "" → pathInCertDir name ≠ ""

/-- The `toml` crate: `to_string_pretty` and `from_str`. -/
structure Toml where
  toStringPretty : Json → Except String (List UInt8)
  fromStr : List UInt8 → Option Json

/-! ## Members -/

def strField (name value : String) : String × Option Json := (name, some (.str value))
def boolField (name : String) (value : Bool) : String × Option Json := (name, some (.bool value))
def u16Field (name : String) (value : UInt16) : String × Option Json := (name, some (.num value.toNat))
def u32Field (name : String) (value : UInt32) : String × Option Json := (name, some (.num value.toNat))
def u64Field (name : String) (value : UInt64) : String × Option Json := (name, some (.num value.toNat))
def listField (name : String) (items : List Json) : String × Option Json := (name, some (.arr items))

/-- `None` is written as a missing member. -/
def optField (name : String) (value : Option String) : String × Option Json :=
  (name, value.map .str)

/-- `opt_path::serialize`: an empty text stands for no path. -/
def pathField (name : String) (path : Option String) : String × Option Json :=
  (name, some (.str (path.getD "")))

/-- `opt_path::deserialize`. -/
def asPath (value : Json) : Option (Option String) :=
  (asOption asString value).map fun path => path.filter (· ≠ "")

/-! ## Sections

A missing member takes the section's default. -/

def ConsoleConfig.default (p : Platform) : ConsoleConfig :=
  { tlsCert := p.pathInCertDir "console_cert.pem", tlsKey := p.pathInCertDir "console_key.pem" }

def ConsoleConfig.toValue (c : ConsoleConfig) : Json := .obj (present [
    u16Field "port" c.port,
    strField "username" c.username,
    strField "password_hash" c.passwordHash,
    boolField "tls" c.tls,
    strField "tls_cert" c.tlsCert,
    strField "tls_key" c.tlsKey,
    u64Field "session_ttl" c.sessionTtl])

def ConsoleConfig.fromValue (p : Platform) (value : Json) : Option ConsoleConfig := do
  let d := ConsoleConfig.default p
  let m ← structMembers ["port", "username", "password_hash", "tls", "tls_cert", "tls_key",
    "session_ttl"] value
  let port ← readField m ["port"] asU16 d.port
  let username ← readField m ["username"] asString d.username
  let passwordHash ← readField m ["password_hash"] asString d.passwordHash
  let tls ← readField m ["tls"] asBool d.tls
  let tlsCert ← readField m ["tls_cert"] asString d.tlsCert
  let tlsKey ← readField m ["tls_key"] asString d.tlsKey
  let sessionTtl ← readField m ["session_ttl"] asU64 d.sessionTtl
  return { port, username, passwordHash, tls, tlsCert, tlsKey, sessionTtl }

def EasyTierConfig.default (p : Platform) : EasyTierConfig := { dbPath := p.dbPath }

def EasyTierConfig.toValue (c : EasyTierConfig) : Json := .obj (present [
    boolField "enabled" c.enabled,
    u16Field "config_server_port" c.configServerPort,
    strField "api_addr" c.apiAddr,
    u16Field "api_port" c.apiPort,
    strField "db_path" c.dbPath,
    boolField "node_enabled" c.nodeEnabled,
    strField "node_name" c.nodeName,
    strField "network_name" c.networkName,
    strField "network_secret" c.networkSecret,
    strField "virtual_ipv4" c.virtualIpv4,
    listField "listeners" (c.listeners.map .str)])

def EasyTierConfig.fromValue (p : Platform) (value : Json) : Option EasyTierConfig := do
  let d := EasyTierConfig.default p
  let m ← structMembers ["enabled", "config_server_port", "api_addr", "api_port", "db_path",
    "node_enabled", "node_name", "network_name", "network_secret", "virtual_ipv4", "listeners"] value
  let enabled ← readField m ["enabled"] asBool d.enabled
  let configServerPort ← readField m ["config_server_port"] asU16 d.configServerPort
  let apiAddr ← readField m ["api_addr"] asString d.apiAddr
  let apiPort ← readField m ["api_port"] asU16 d.apiPort
  let dbPath ← readField m ["db_path"] asString d.dbPath
  let nodeEnabled ← readField m ["node_enabled"] asBool d.nodeEnabled
  let nodeName ← readField m ["node_name"] asString d.nodeName
  let networkName ← readField m ["network_name"] asString d.networkName
  let networkSecret ← readField m ["network_secret"] asString d.networkSecret
  let virtualIpv4 ← readField m ["virtual_ipv4"] asString d.virtualIpv4
  let listeners ← readField m ["listeners"] (asList asString) d.listeners
  return { enabled, configServerPort, apiAddr, apiPort, dbPath, nodeEnabled, nodeName, networkName,
           networkSecret, virtualIpv4, listeners }

def StunTurnConfig.default (p : Platform) : StunTurnConfig :=
  { certPath := p.pathInCertDir "turn_cert.pem", keyPath := p.pathInCertDir "turn_key.pem" }

def StunTurnConfig.toValue (c : StunTurnConfig) : Json := .obj (present [
    boolField "enabled" c.enabled,
    strField "bind_addr" c.bindAddr,
    u16Field "stun_port" c.stunPort,
    boolField "turn_enabled" c.turnEnabled,
    u16Field "tls_port" c.tlsPort,
    strField "domain" c.domain,
    u16Field "relay_min_port" c.relayMinPort,
    u16Field "relay_max_port" c.relayMaxPort,
    strField "external_ip" c.externalIp,
    listField "users" (c.users.map .str),
    strField "realm" c.realm,
    strField "cert_path" c.certPath,
    strField "key_path" c.keyPath])

def StunTurnConfig.fromValue (p : Platform) (value : Json) : Option StunTurnConfig := do
  let d := StunTurnConfig.default p
  let m ← structMembers ["enabled", "bind_addr", "stun_port", "turn_enabled", "tls_port", "domain",
    "relay_min_port", "relay_max_port", "external_ip", "users", "realm", "cert_path", "key_path"] value
  let enabled ← readField m ["enabled"] asBool d.enabled
  let bindAddr ← readField m ["bind_addr"] asString d.bindAddr
  let stunPort ← readField m ["stun_port"] asU16 d.stunPort
  let turnEnabled ← readField m ["turn_enabled"] asBool d.turnEnabled
  let tlsPort ← readField m ["tls_port"] asU16 d.tlsPort
  let domain ← readField m ["domain"] asString d.domain
  let relayMinPort ← readField m ["relay_min_port"] asU16 d.relayMinPort
  let relayMaxPort ← readField m ["relay_max_port"] asU16 d.relayMaxPort
  let externalIp ← readField m ["external_ip"] asString d.externalIp
  let users ← readField m ["users"] (asList asString) d.users
  let realm ← readField m ["realm"] asString d.realm
  let certPath ← readField m ["cert_path"] asString d.certPath
  let keyPath ← readField m ["key_path"] asString d.keyPath
  return { enabled, bindAddr, stunPort, turnEnabled, tlsPort, domain, relayMinPort, relayMaxPort,
           externalIp, users, realm, certPath, keyPath }

def RustDeskConfig.toValue (c : RustDeskConfig) : Json := .obj (present [
    boolField "enabled" c.enabled,
    strField "key" c.key,
    u16Field "relay_port" c.relayPort,
    u16Field "hbbs_port" c.hbbsPort])

def RustDeskConfig.fromValue (value : Json) : Option RustDeskConfig := do
  let d : RustDeskConfig := {}
  let m ← structMembers ["enabled", "key", "relay_port", "hbbs_port"] value
  let enabled ← readField m ["enabled"] asBool d.enabled
  let key ← readField m ["key"] asString d.key
  let relayPort ← readField m ["relay_port"] asU16 d.relayPort
  let hbbsPort ← readField m ["hbbs_port"] asU16 d.hbbsPort
  return { enabled, key, relayPort, hbbsPort }

def FrpsSection.toValue (c : FrpsSection) : Json := .obj (present [
    boolField "enabled" c.enabled,
    strField "bind_addr" c.bindAddr,
    u16Field "server_port" c.serverPort,
    strField "token" c.token,
    boolField "tcp_mux" c.tcpMux,
    pathField "tls_cert_path" c.tlsCertPath,
    pathField "tls_key_path" c.tlsKeyPath,
    u32Field "max_pool_count" c.maxPoolCount,
    u64Field "heartbeat_timeout" c.heartbeatTimeout,
    optField "allow_ports" c.allowPorts,
    strField "crypto_salt" c.cryptoSalt])

def FrpsSection.fromValue (value : Json) : Option FrpsSection := do
  let d : FrpsSection := {}
  let m ← structMembers ["enabled", "bind_addr", "server_port", "token", "tcp_mux", "tls_cert_path",
    "tls_key_path", "max_pool_count", "heartbeat_timeout", "allow_ports", "crypto_salt"] value
  let enabled ← readField m ["enabled"] asBool d.enabled
  let bindAddr ← readField m ["bind_addr"] asString d.bindAddr
  let serverPort ← readField m ["server_port"] asU16 d.serverPort
  let token ← readField m ["token"] asString d.token
  let tcpMux ← readField m ["tcp_mux"] asBool d.tcpMux
  let tlsCertPath ← readField m ["tls_cert_path"] asPath d.tlsCertPath
  let tlsKeyPath ← readField m ["tls_key_path"] asPath d.tlsKeyPath
  let maxPoolCount ← readField m ["max_pool_count"] asU32 d.maxPoolCount
  let heartbeatTimeout ← readField m ["heartbeat_timeout"] asU64 d.heartbeatTimeout
  let allowPorts ← readField m ["allow_ports"] (asOption asString) d.allowPorts
  let cryptoSalt ← readField m ["crypto_salt"] asString d.cryptoSalt
  return { bindAddr, serverPort, token, tcpMux, maxPoolCount, heartbeatTimeout, allowPorts, enabled,
           tlsCertPath, tlsKeyPath, cryptoSalt }

/-! ## Proxies -/

/-- What the loop of `parse_line` has seen so far. -/
structure LineState where
  proxyType : String
  localIp : String
  ports : List UInt16
  ipSeen : Bool

/-- One word of a proxy line after the name. -/
def lineToken (debug : String → String) (name : String) (seen : LineState) (token : List Char) :
    Except String LineState :=
  if Frpc.eqIgnoreAsciiCase token "tcp".toList || Frpc.eqIgnoreAsciiCase token "udp".toList then
    .ok { seen with proxyType := String.ofList (token.map Char.toLower) }
  else
    match Text.parseUnsigned 65536 token, Text.parseSigned 64 token with
    | some n, _ => .ok { seen with ports := seen.ports ++ [UInt16.ofNat n] }
    | none, some n =>
        .error ("proxy " ++ debug name ++ ": port " ++ toString n ++ " is out of range (0-65535)")
    | none, none =>
        if !seen.ipSeen then .ok { seen with localIp := String.ofList token, ipSeen := true }
        else
          .error ("proxy " ++ debug name ++ ": unexpected field " ++ debug (String.ofList token) ++
            " (name [tcp|udp] [local_ip] local_port remote_port)")

/-- `FrpcProxyConfig::parse_line`. -/
def parseLine (debug : String → String) (line : String) : Except String Frpc.FrpcProxyConfig :=
  let parts := (Text.split (fun c => Text.isWhitespace c || c == ',') line.toList).filter (· ≠ [])
  match parts with
  | [] => .error "empty proxy definition"
  | first :: rest => do
      let name := String.ofList first
      let start := { proxyType := "tcp", localIp := "127.0.0.1", ports := [], ipSeen := false }
      let seen ← rest.foldlM (lineToken debug name) start
      match seen.ports with
      | [localPort, remotePort] =>
          .ok { name, proxyType := seen.proxyType, localIp := seen.localIp, localPort, remotePort }
      | ports =>
          if 2 < ports.length then
            .error ("proxy " ++ debug name ++ " has " ++ toString ports.length ++
              " port values, expected local_port and remote_port")
          else
            .error ("proxy " ++ debug name ++ " needs local_port and remote_port (got " ++
              toString ports.length ++ " port value(s))")

def proxyToValue (c : Frpc.FrpcProxyConfig) : Json := .obj (present [
    strField "name" c.name,
    strField "type" c.proxyType,
    strField "local_ip" c.localIp,
    u16Field "local_port" c.localPort,
    u16Field "remote_port" c.remotePort])

/-- `FrpcProxyConfig::deserialize`: a line or a table. -/
def proxyFromValue (debug : String → String) : Json → Option Frpc.FrpcProxyConfig
  | .str line => (parseLine debug line).toOption
  | value => do
      let m ← structMembers ["name", "type", "local_ip", "local_port", "remote_port"] value
      let name ← readField m ["name"] asString ""
      let proxyType ← readField m ["type"] asString "tcp"
      let localIp ← readField m ["local_ip"] asString "127.0.0.1"
      let localPort ← readField m ["local_port"] asU16 0
      let remotePort ← readField m ["remote_port"] asU16 0
      return { name, proxyType, localIp, localPort, remotePort }

def frpcToValue (c : Frpc.FrpcConfig) : Json := .obj (present [
    boolField "enabled" c.enabled,
    strField "server_addr" c.serverAddr,
    u16Field "server_port" c.serverPort,
    strField "token" c.token,
    boolField "tls" c.tls,
    optField "trusted_ca_file" c.trustedCaFile,
    strField "server_name" c.serverName,
    boolField "tcp_mux" c.tcpMux,
    u64Field "connect_timeout" c.connectTimeout,
    u32Field "pool_count" c.poolCount,
    listField "proxies" (c.proxies.map proxyToValue)])

def frpcFromValue (debug : String → String) (value : Json) : Option Frpc.FrpcConfig := do
  let d : Frpc.FrpcConfig := {}
  let m ← structMembers ["enabled", "server_addr", "server_port", "token", "tls", "trusted_ca_file",
    "server_name", "tcp_mux", "connect_timeout", "pool_count", "proxies"] value
  let enabled ← readField m ["enabled"] asBool d.enabled
  let serverAddr ← readField m ["server_addr"] asString d.serverAddr
  let serverPort ← readField m ["server_port"] asU16 d.serverPort
  let token ← readField m ["token"] asString d.token
  let tls ← readField m ["tls"] asBool d.tls
  let trustedCaFile ← readField m ["trusted_ca_file"] (asOption asString) d.trustedCaFile
  let serverName ← readField m ["server_name"] asString d.serverName
  let tcpMux ← readField m ["tcp_mux"] asBool d.tcpMux
  let connectTimeout ← readField m ["connect_timeout"] asU64 d.connectTimeout
  let poolCount ← readField m ["pool_count"] asU32 d.poolCount
  let proxies ← readField m ["proxies"] (asList (proxyFromValue debug)) d.proxies
  return { enabled, serverAddr, serverPort, token, tls, trustedCaFile, serverName, tcpMux,
           connectTimeout, poolCount, proxies }

/-! ## The file -/

def Config.default (p : Platform) : Config where
  console := .default p
  easytier := .default p
  stunTurn := .default p
  rustdesk := {}
  frps := {}
  frpc := {}

/-- The value `save` writes: every section, without the path of the file. -/
def Config.toValue (cfg : Config) : Json := .obj (present [
    ("console", some cfg.console.toValue),
    ("easytier", some cfg.easytier.toValue),
    ("stun_turn", some cfg.stunTurn.toValue),
    ("rustdesk", some cfg.rustdesk.toValue),
    ("frps", some cfg.frps.toValue),
    ("frpc", some (frpcToValue cfg.frpc))])

def Config.fromValue (p : Platform) (debug : String → String) (value : Json) : Option Config := do
  let d := Config.default p
  let m ← structMembers ["console", "easytier", "stun_turn", "rustdesk", "frps", "frpc"] value
  let console ← readField m ["console"] (ConsoleConfig.fromValue p) d.console
  let easytier ← readField m ["easytier"] (EasyTierConfig.fromValue p) d.easytier
  let stunTurn ← readField m ["stun_turn"] (StunTurnConfig.fromValue p) d.stunTurn
  let rustdesk ← readField m ["rustdesk"] RustDeskConfig.fromValue d.rustdesk
  let frps ← readField m ["frps"] FrpsSection.fromValue d.frps
  let frpc ← readField m ["frpc"] (frpcFromValue debug) d.frpc
  return { console, easytier, stunTurn, rustdesk, frps, frpc }

def unixCert : String := "/etc/remgr/ssl/frps_cert.pem"
def unixKey : String := "/etc/remgr/ssl/frps_key.pem"

/-- `replace`: a path that is the unix default becomes the platform's own. -/
def replacePath (unix mine : String) (slot : Option String) : Option String :=
  if slot = some unix then some mine else slot

/-- `Config::apply_platform_defaults`. -/
def Config.applyPlatformDefaults (p : Platform) (cfg : Config) : Config :=
  { cfg with
    frps := { cfg.frps with
      tlsCertPath := replacePath unixCert (p.pathInCertDir "frps_cert.pem") cfg.frps.tlsCertPath
      tlsKeyPath := replacePath unixKey (p.pathInCertDir "frps_key.pem") cfg.frps.tlsKeyPath } }

/-- The bytes a successful `Config::save` leaves in the file. -/
def Config.save (toml : Toml) (cfg : Config) : Except String (List UInt8) :=
  (toml.toStringPretty cfg.toValue).map fun out => if out.getLast? = some 10 then out else out ++ [10]

/-- `Config::load`, of the bytes of the file if there is one. -/
def Config.load (toml : Toml) (p : Platform) (debug : String → String) (file : Option (List UInt8)) :
    Option Config :=
  let read := match file with
    | some bytes => (toml.fromStr bytes).bind (Config.fromValue p debug)
    | none => some (.default p)
  read.map (Config.applyPlatformDefaults p)

example : (parseLine id "web,udp 127.0.0.1 8080 7001").toOption =
    some ⟨"web", "udp", "127.0.0.1", 8080, 7001⟩ := by decide
example : (parseLine id "web tcp 8080").toOption = none := by decide

end Remgr.Console
