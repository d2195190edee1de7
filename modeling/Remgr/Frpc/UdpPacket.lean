/-
Module: Remgr.Frpc.UdpPacket
Purpose: The two shapes in which `serve_udp` of `remgr-frps/src/client.rs` reads and writes a UDPPacket
  frame, and how each side takes the datagram and the user's address out of one.
Trusted boundary: as in `Remgr.Frps.Msg`; addresses are printed and parsed as in `Remgr.Lib.IpParse`
Main exports: UdpPacketOut, UdpPacketIn, UdpPacketIn.ofJson, UdpPacketIn.remoteSocketAddr,
  Frps.UdpPacket.remoteSocketAddr
-/
import Remgr.Frps.Server.Tunnel
import Remgr.Lib.IpParse

namespace Remgr

open Remgr.Lib
open Remgr.Lib.Json

/-- `ip.parse()` and `SocketAddr::new`, which both sides do alike. -/
def socketAddr (ip : Option String) (port : UInt16) : Option SocketAddr := do
  let text ← ip
  let ip ← IpAddr.parse text.toList
  some ⟨ip, port⟩

namespace Frps

/-- `UdpPacket::content`. -/
def UdpPacket.content (pkt : UdpPacket) : Option (List UInt8) := Base64.decode pkt.contentB64.toList

/-- `UdpPacket::remote_socket_addr`. -/
def UdpPacket.remoteSocketAddr (pkt : UdpPacket) : Option SocketAddr := do
  let r ← pkt.remoteAddr
  socketAddr r.ip r.port

end Frps

namespace Frpc

structure UdpAddrOut where
  ip : String
  port : UInt16
  zone : String

/-- What the client writes: nothing is skipped. -/
structure UdpPacketOut where
  c : String
  r : UdpAddrOut

def UdpAddrOut.toJson (out : UdpAddrOut) : Json :=
  .obj [("IP", .str out.ip), ("Port", .num out.port.toNat), ("Zone", .str out.zone)]

def UdpPacketOut.toJson (out : UdpPacketOut) : Json :=
  .obj [("c", .str out.c), ("r", out.r.toJson)]

/-- What the writer of `serve_udp` builds around a datagram. -/
def UdpPacketOut.ofContent (content : List UInt8) (user : SocketAddr) : UdpPacketOut :=
  { c := String.ofList (Base64.encode content)
    r := { ip := Frps.ipText user, port := user.port, zone := "" } }

structure UdpAddrIn where
  ip : Option String := none
  port : UInt16 := 0

/-- What the client reads. -/
structure UdpPacketIn where
  contentB64 : String := ""
  remote : Option UdpAddrIn := none

def UdpAddrIn.ofJson (j : Json) : Option UdpAddrIn := do
  let m ← structMembers ["IP", "Port"] j
  let ip ← readField m ["IP", "ip"] (asOption asString) none
  let port ← readField m ["Port", "port"] asU16 0
  pure ⟨ip, port⟩

def UdpPacketIn.ofJson (j : Json) : Option UdpPacketIn := do
  let m ← structMembers ["c", "r"] j
  let contentB64 ← readField m ["c", "C"] asString ""
  let remote ← readField m ["r", "R"] (asOption UdpAddrIn.ofJson) none
  pure ⟨contentB64, remote⟩

/-- `UdpPacketIn::content`. -/
def UdpPacketIn.content (pkt : UdpPacketIn) : Option (List UInt8) :=
  Base64.decode pkt.contentB64.toList

/-- `UdpPacketIn::remote_socket_addr`. -/
def UdpPacketIn.remoteSocketAddr (pkt : UdpPacketIn) : Option SocketAddr := do
  let r ← pkt.remote
  socketAddr r.ip r.port

end Frpc

end Remgr
