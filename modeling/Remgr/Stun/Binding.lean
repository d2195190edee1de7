/-
Module: Remgr.Stun.Binding
Purpose: The answer to one STUN datagram in `remgr/src/modules/stun_turn.rs`: `process_stun_packet`
  with `asks_for_alternate_address` and `xor_mapped_address`. Every index and every slice is checked,
  as the program checks it, and `none` is a panic.
Trusted boundary: `try_send_to` is the datagram it is given
Main exports: asksForAlternateAddress, xorMappedAddress, processStunPacket
-/
import Remgr.Lib.Bytes
import Remgr.Lib.IpAddr

namespace Remgr.Stun

open Remgr.Lib

def magicCookie : UInt32 := 0x2112A442
def bindingRequest : Nat := 0x0001
def bindingSuccess : Nat := 0x0101
def attrChangeRequest : Nat := 0x0003
def attrXorMappedAddress : Nat := 0x0020
def attrResponsePort : Nat := 0x0027
def attrSoftware : Nat := 0x8022

/-- `MAGIC_COOKIE.to_be_bytes()`. -/
def cookieBytes : List UInt8 := natToBe 4 magicCookie.toNat

/-! ## Indices -/

/-- `&packet[from..to]`. -/
def slice (packet : List UInt8) (start stop : Nat) : Option (List UInt8) :=
  if start ≤ stop ∧ stop ≤ packet.length then some ((packet.take stop).drop start) else none

/-- `u16::from_be_bytes([packet[i], packet[i + 1]])`. -/
def be16 (packet : List UInt8) (i : Nat) : Option Nat := do
  let high ← packet[i]?
  let low ← packet[i + 1]?
  some (natOfBe [high, low])

/-- `u32::from_be_bytes([packet[i], packet[i + 1], packet[i + 2], packet[i + 3]])`. -/
def be32 (packet : List UInt8) (i : Nat) : Option Nat := do
  let b₀ ← packet[i]?
  let b₁ ← packet[i + 1]?
  let b₂ ← packet[i + 2]?
  let b₃ ← packet[i + 3]?
  some (natOfBe [b₀, b₁, b₂, b₃])

/-! ## The request -/

/-- The loop of `asks_for_alternate_address`. -/
def asksLoop (packet : List UInt8) (msgEnd pos : Nat) : Option Bool :=
  if pos + 4 ≤ msgEnd then do
    let atype ← be16 packet pos
    let alen ← be16 packet (pos + 2)
    let stop := min (pos + 4 + alen) msgEnd
    let body ← slice packet (pos + 4) stop
    if (atype = attrChangeRequest ∨ atype = attrResponsePort) ∧ body.any (· != 0) = true then
      some true
    else if msgEnd < pos + 4 + alen then some false
    else asksLoop packet msgEnd (stop + (4 - alen % 4) % 4)
  else some false
termination_by msgEnd - pos

/-- `asks_for_alternate_address`. -/
def asksForAlternateAddress (packet : List UInt8) (bodyLen : Nat) : Option Bool :=
  asksLoop packet (min (20 + bodyLen) packet.length) 20

/-! ## The reply -/

/-- `IpAddr::octets`. -/
def octets : IpAddr → List UInt8
  | .v4 a b c d => [a, b, c, d]
  | .v6 segments => segments.toList.flatMap fun segment => natToBe 2 segment.toNat

/-- `xor_mapped_address`. -/
def xorMappedAddress (src : SocketAddr) (mask : List UInt8) : List UInt8 :=
  let xoredPort := src.port ^^^ (magicCookie >>> 16).toUInt16
  let family : UInt8 :=
    match src.ip with
    | .v4 .. => 0x01
    | .v6 _ => 0x02
  [0x00, family] ++ natToBe 2 xoredPort.toNat ++
    List.zipWith (fun octet m => octet ^^^ m) (octets src.ip) mask

/-- `b"ReMgr"`. -/
def software : List UInt8 := [0x52, 0x65, 0x4D, 0x67, 0x72]

def softwarePadded : Nat := (software.length + 3) / 4 * 4

/-- What `process_stun_packet` writes for a request with this transaction id. -/
def response (tid : List UInt8) (src : SocketAddr) : List UInt8 :=
  let xorVal := xorMappedAddress src (cookieBytes ++ tid)
  let attrLen : UInt16 := 4 + .ofNat xorVal.length + 4 + .ofNat softwarePadded
  natToBe 2 bindingSuccess ++ natToBe 2 attrLen.toNat ++ cookieBytes ++ tid ++
    natToBe 2 attrXorMappedAddress ++ natToBe 2 xorVal.length ++ xorVal ++
    natToBe 2 attrSoftware ++ natToBe 2 software.length ++ software ++
    List.replicate (softwarePadded - software.length) 0

/-- `process_stun_packet`: the datagram it sends, if it sends one. -/
def processStunPacket (packet : List UInt8) (src : SocketAddr) : Option (Option (List UInt8)) :=
  if packet.length < 20 then some none
  else do
    let msgType ← be16 packet 0
    let cookie ← be32 packet 4
    if cookie ≠ magicCookie.toNat then some none
    else
      let bodyLen ← be16 packet 2
      if bodyLen % 4 ≠ 0 ∨ packet.length < bodyLen + 20 then some none
      else
        let tid ← slice packet 8 20
        if msgType ≠ bindingRequest then some none
        else
          let asks ← asksForAlternateAddress packet bodyLen
          some (if asks then none else some (response tid src))

end Remgr.Stun
