/-
Module: Remgr.Frpc.Dial
Purpose: How the frp client reaches its upstream: the host it dials and the name it gives to TLS.
Trusted boundary: the resolver and the host names that `rustls` accepts are parameters; time-outs, the
  certificate store and the handshake itself are left out
Main exports: RemoteHost, Outside, dialed, serverName, toServerName, connectUpstream
-/
import Remgr.Frpc.Config
import Remgr.Lib.SocketTarget

namespace Remgr.Frpc

open Remgr.Lib

/-- Who is at the other end. An IPv6 scope is no part of it. -/
inductive RemoteHost where
  | address (ip : IpAddr)
  | name (text : List Char)
deriving DecidableEq

/-- What stands around the client: `DnsName::try_from` of `rustls`, and the resolver, which reads
addresses in more forms than the standard library and knows names. -/
structure Outside where
  dnsName : List Char → Bool
  resolve : List Char → Option RemoteHost

variable (o : Outside)

/-- The host that `TcpStream::connect` goes to. -/
def dialed (target : String) : Option RemoteHost :=
  match IpAddr.toSocketAddrs target.toList with
  | some (.socket endpoint) => some (.address endpoint.addr.ip)
  | some (.lookup host _) => o.resolve host
  | none => none

/-- `ServerName::try_from`. -/
def toServerName (text : String) : Option RemoteHost :=
  if o.dnsName text.toList then some (.name text.toList) else (IpAddr.parse text.toList).map .address

def serverName (cfg : FrpcConfig) : String :=
  if Text.trim cfg.serverName.toList = [] then cfg.serverAddr else cfg.serverName

/-- Why there is no connection. -/
inductive DialError where
  | connecting (target : String)
  | invalidServerName
deriving DecidableEq

/-- The other end of a connection, and the name that goes to the TLS handshake, if there is one. -/
structure Upstream where
  host : RemoteHost
  name : Option RemoteHost
deriving DecidableEq

def connectUpstream (cfg : FrpcConfig) : Except DialError Upstream :=
  let target := hostPort cfg.serverAddr cfg.serverPort
  match dialed o target with
  | none => .error (.connecting target)
  | some host =>
      if !cfg.tls then .ok ⟨host, none⟩
      else
        match toServerName o (serverName cfg) with
        | none => .error .invalidServerName
        | some name => .ok ⟨host, some name⟩

end Remgr.Frpc
