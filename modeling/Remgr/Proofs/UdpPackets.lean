/-
Module: Remgr.Proofs.UdpPackets
Purpose: The two shapes of a UDPPacket agree: what one side writes, the other reads back with the datagram
  and the address and port of the user. Flow label and scope of an IPv6 user are in neither shape.
Trusted boundary: as in `Remgr.Frpc.UdpPacket`
Main exports: PacketsAgree, Unscoped, packets_agree_iff, scope_lost
-/
import Remgr.Proofs.UdpRelay

namespace Remgr.Udp

open Remgr.Lib
open Remgr.Frps

/-- A read packet gives back the datagram, and the user's address as `SocketAddr::new` builds it. -/
def GivesBack (content : Option (List UInt8)) (remote : Option SocketAddr) (payload : List UInt8)
    (user : Endpoint) : Prop :=
  content = some payload ∧ remote.map SocketAddr.endpoint = some user

/-- Each side reads what the other one writes about a datagram of this user, whatever local address the
server puts beside it. -/
structure PacketsAgree (payload : List UInt8) (here : Option SocketAddr) (user : Endpoint) : Prop where
  down : ∃ pkt, Frpc.UdpPacketIn.ofJson (UdpPacket.fromContent payload here user.addr).toJson =
    some pkt ∧ GivesBack pkt.content pkt.remoteSocketAddr payload user
  up : ∃ pkt, UdpPacket.ofJson (Frpc.UdpPacketOut.ofContent payload user.addr).toJson = some pkt ∧
    GivesBack pkt.content pkt.remoteSocketAddr payload user

/-- An IPv4 address, or an IPv6 address without flow label and scope. -/
def Unscoped : Endpoint → Prop
  | .v4 .. => True
  | .v6 _ _ flowinfo scopeId => flowinfo = 0 ∧ scopeId = 0

theorem endpoint_addr_iff (user : Endpoint) : user.addr.endpoint = user ↔ Unscoped user := by
  cases user with
  | v4 a b c d port => exact iff_of_true rfl trivial
  | v6 segments port flowinfo scopeId =>
      constructor
      · intro same
        cases same
        exact ⟨rfl, rfl⟩
      · rintro ⟨rfl, rfl⟩
        rfl

/-- The shapes agree on every datagram, and on exactly the users without flow label and scope. -/
theorem packets_agree_iff (payload : List UInt8) (here : Option SocketAddr) (user : Endpoint) :
    PacketsAgree payload here user ↔ Unscoped user := by
  rw [← endpoint_addr_iff]
  constructor
  · rintro ⟨-, pkt, parsed, -, remote⟩
    obtain ⟨pkt', parsed', -, remote'⟩ := upPacket_read (user.addr, payload)
    cases parsed.symm.trans parsed'
    rw [remote', Option.map_some] at remote
    exact Option.some.inj remote
  · intro same
    constructor
    · obtain ⟨pkt, parsed, content, remote⟩ :=
        downPacket_read { fromSlice := fun _ => none, here } (user.addr, payload)
      exact ⟨pkt, parsed, content, by rw [remote, Option.map_some, same]⟩
    · obtain ⟨pkt, parsed, content, remote⟩ := upPacket_read (user.addr, payload)
      exact ⟨pkt, parsed, content, by rw [remote, Option.map_some, same]⟩

/-- A user with a link-local address on the second interface. -/
def linkLocalUser : Endpoint := .v6 #v[0xfe80, 0, 0, 0, 0, 0, 0, 1] 40000 0 2

theorem scope_lost :
    ¬ ∀ (payload : List UInt8) (here : Option SocketAddr) (user : Endpoint),
      PacketsAgree payload here user := by
  intro claim
  obtain ⟨-, pkt, parsed, -, remote⟩ := claim [1] none linkLocalUser
  obtain ⟨pkt', parsed', -, remote'⟩ := upPacket_read (linkLocalUser.addr, [1])
  cases parsed.symm.trans parsed'
  rw [remote', Option.map_some] at remote
  cases (endpoint_addr_iff linkLocalUser).mp (Option.some.inj remote) |>.2

end Remgr.Udp
