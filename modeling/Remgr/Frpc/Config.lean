/-
Module: Remgr.Frpc.Config
Purpose: The configuration of the frp client in `remgr-frps/src/client.rs` and the checks a client
  makes before it uses one.
Trusted boundary: the parser of IP addresses and the debug form of strings are parameters
Main exports: FrpcProxyConfig, FrpcConfig, World, hostPort, sameHost, FrpcConfig.validate
-/
import Remgr.Lib.IpAddr

namespace Remgr.Frpc

open Remgr.Lib

/-- What the client takes from the standard library as it is: `str::parse::<IpAddr>`, and the text
`{:?}` gives a string. -/
structure World where
  parseIp : List Char → Option IpAddr
  debug : String → String

/-- One local service to publish on the upstream. -/
structure FrpcProxyConfig where
  name : String
  proxyType : String := "tcp"
  localIp : String := "127.0.0.1"
  localPort : UInt16
  remotePort : UInt16
deriving Repr, DecidableEq, Inhabited

structure FrpcConfig where
  enabled : Bool := false
  serverAddr : String := ""
  serverPort : UInt16 := 7000
  token : String := ""
  tls : Bool := false
  trustedCaFile : Option String := none
  serverName : String := ""
  tcpMux : Bool := true
  connectTimeout : UInt64 := 10
  poolCount : UInt32 := 5
  proxies : List FrpcProxyConfig := []
deriving Repr, DecidableEq, Inhabited

/-- `MAX_POOL_COUNT`. -/
def maxPoolCount : UInt32 := 1000

/-- `host_port`: a bare IPv6 literal gets brackets. -/
def hostPort (host : String) (port : UInt16) : String :=
  let host := Text.trim host.toList
  let text := String.ofList host
  if ':' ∈ host ∧ host.head? ≠ some '[' then "[" ++ text ++ "]:" ++ toString port.toNat
  else text ++ ":" ++ toString port.toNat

/-- `str::eq_ignore_ascii_case`. -/
def eqIgnoreAsciiCase (a b : List Char) : Bool := a.map Char.toLower == b.map Char.toLower

/-- `IpAddr::is_loopback`. -/
def isLoopback : IpAddr → Bool
  | .v4 a _ _ _ => a == 127
  | .v6 segments => segments.toList == [0, 0, 0, 0, 0, 0, 0, 1]

/-- `loopback`, the local function of `same_host`. -/
def loopback (w : World) (host : List Char) : Bool :=
  let inner := ((host.dropWhile (· == '[')).reverse.dropWhile (· == ']')).reverse
  eqIgnoreAsciiCase host "localhost".toList || ((w.parseIp inner).map isLoopback).getD false

/-- `same_host`: the forms that can be compared without resolving. -/
def sameHost (w : World) (a b : String) : Bool :=
  let a := Text.trim a.toList
  let b := Text.trim b.toList
  eqIgnoreAsciiCase a b || (loopback w a && loopback w b)

namespace FrpcConfig

/-- The checks of `validate` on one proxy, number `i` of the list, after the names in `seen`. -/
def validateProxy (w : World) (cfg : FrpcConfig) (seen : List String) (i : Nat)
    (p : FrpcProxyConfig) : Except String Unit :=
  if Text.trim p.name.toList = [] then .error ("frpc: proxy #" ++ toString (i + 1) ++ " has no name")
  else if p.name ∈ seen then .error ("frpc: duplicate proxy name " ++ w.debug p.name)
  else if p.proxyType ≠ "tcp" ∧ p.proxyType ≠ "udp" then
    .error ("frpc: proxy " ++ w.debug p.name ++ " has type " ++ w.debug p.proxyType ++
      "; only tcp and udp are implemented (http/https/tcpmux/stcp/xtcp are not)")
  else if Text.trim p.localIp.toList = [] then
    .error ("frpc: proxy " ++ w.debug p.name ++ " has no local_ip")
  else if p.localPort = 0 then .error ("frpc: proxy " ++ w.debug p.name ++ " has no local_port")
  else if p.remotePort = 0 then .error ("frpc: proxy " ++ w.debug p.name ++ " has no remote_port")
  else if sameHost w p.localIp cfg.serverAddr ∧ p.localPort = cfg.serverPort then
    .error ("frpc: proxy " ++ w.debug p.name ++ " forwards to " ++
      w.debug (hostPort p.localIp p.localPort) ++
      ", the upstream's own control port — it would loop back into the tunnel")
  else if sameHost w p.localIp cfg.serverAddr ∧ p.localPort = p.remotePort then
    .error ("frpc: proxy " ++ w.debug p.name ++ " forwards to " ++
      w.debug (hostPort p.localIp p.localPort) ++
      ", its own published port on the upstream — it would loop back into the tunnel")
  else .ok ()

/-- The loop of `validate` over the proxies. -/
def validateProxies (w : World) (cfg : FrpcConfig) (seen : List String) (i : Nat) :
    List FrpcProxyConfig → Except String Unit
  | [] => .ok ()
  | p :: rest => do
      cfg.validateProxy w seen i p
      cfg.validateProxies w (seen ++ [p.name]) (i + 1) rest

/-- `FrpcConfig::validate`. -/
def validate (w : World) (cfg : FrpcConfig) : Except String Unit :=
  if Text.trim cfg.serverAddr.toList = [] then
    .error "frpc: server_addr is empty — set the upstream frp server address"
  else if cfg.serverPort = 0 then .error "frpc: server_port must not be 0"
  else if cfg.connectTimeout = 0 then .error "frpc: connect_timeout must not be 0"
  else if maxPoolCount < cfg.poolCount then
    .error ("frpc: pool_count " ++ toString cfg.poolCount.toNat ++ " is out of range (0-" ++
      toString maxPoolCount.toNat ++ ")")
  else cfg.validateProxies w [] 0 cfg.proxies

end FrpcConfig

end Remgr.Frpc
