/-
Module: Remgr.Frps.Server.Tunnel
Purpose: What the server writes to the work connections of a proxy: the StartWorkConn of
  `bridge_tcp_user` and of the udp loop, and the UdpPacket around a user's datagram.
Trusted boundary: addresses are printed as in `Remgr.Lib.IpAddr`
Main exports: UdpPacket.fromContent, Server.startTcp, Server.startUdp, Server.Builds
-/
import Remgr.Frps.Server.Step
import Remgr.Lib.IpAddr
import Remgr.Lib.Base64

namespace Remgr.Frps

open Remgr.Lib

/-- `a.ip().to_string()`. -/
def ipText (addr : SocketAddr) : String := String.ofList addr.ip.text

/-- `addr_json` of `from_content`. -/
def UdpAddrJson.ofAddr (addr : SocketAddr) : UdpAddrJson :=
  { ip := some (ipText addr), port := addr.port, zone := "" }

/-- `UdpPacket::from_content`. -/
def UdpPacket.fromContent (content : List UInt8) (here : Option SocketAddr) (remote : SocketAddr) :
    UdpPacket :=
  { contentB64 := String.ofList (Base64.encode content)
    localAddr := here.map UdpAddrJson.ofAddr
    remoteAddr := some (UdpAddrJson.ofAddr remote) }

namespace Server

/-- The StartWorkConn of `bridge_tcp_user`. The local address of the user's socket may be missing. -/
def startTcp (name : String) (peer : SocketAddr) (here : Option SocketAddr) : StartWorkConn :=
  { proxyName := name
    srcAddr := ipText peer
    srcPort := peer.port
    dstAddr := (here.map ipText).getD ""
    dstPort := (here.map SocketAddr.port).getD 0 }

/-- The StartWorkConn of the udp loop. -/
def startUdp (name : String) : StartWorkConn := { proxyName := name }

/-- The buffer `recv_from` fills: a longer datagram is cut. -/
def udpBuffer : Nat := 1500

/-- What the tasks of an accepted proxy of this name and type build for its users. -/
inductive Builds (name : String) : ProxyType → Message → Prop
  | startTcp (peer : SocketAddr) (here : Option SocketAddr) :
      Builds name .tcp (.startWorkConn (startTcp name peer here))
  | startUdp : Builds name .udp (.startWorkConn (startUdp name))
  | packet (datagram : List UInt8) (here : Option SocketAddr) (peer : SocketAddr) :
      Builds name .udp
        (.udpPacket (UdpPacket.fromContent (datagram.take udpBuffer) here peer))

end Server

end Remgr.Frps
