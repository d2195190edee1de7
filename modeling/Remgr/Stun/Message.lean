/-
Module: Remgr.Stun.Message
Purpose: What a STUN message is to its reader: the header with its length, the attributes,
  and the address a client finds in XOR-MAPPED-ADDRESS. This is the format the datagrams of
  `Remgr.Stun.Binding` are measured by, and is not taken from the program.
Trusted boundary: the definitions follow sections 6 and 15 of RFC 5389
Main exports: declaredLength, Message, Message.read, mappedAddress
-/
import Remgr.Stun.Binding
import Remgr.Lib.Tlv

namespace Remgr.Stun

open Remgr.Lib

/-- The length field of a datagram. -/
def declaredLength (packet : List UInt8) : Nat := natOfBe ((packet.drop 2).take 2)

/-- The bytes the length field declares. -/
def declaredBody (packet : List UInt8) : List UInt8 := (packet.drop 20).take (declaredLength packet)

def transactionId (packet : List UInt8) : List UInt8 := (packet.drop 8).take 12

/-- A message: its type, its transaction id and its attributes. -/
structure Message where
  kind : Nat
  tid : List UInt8
  attrs : List Tlv.Attribute

/-- A whole datagram is a message when it has the cookie, its length field counts the bytes after
the header and is a multiple of four, and the attributes take up all of them. -/
def Message.read (packet : List UInt8) : Option Message :=
  if 20 ≤ packet.length ∧ (packet.drop 4).take 4 = cookieBytes ∧
      declaredLength packet = packet.length - 20 ∧ declaredLength packet % 4 = 0 then
    match Tlv.walk 4 (packet.drop 20) with
    | (attrs, []) => some ⟨natOfBe (packet.take 2), transactionId packet, attrs⟩
    | _ => none
  else none

/-- The address of four or of sixteen octets. -/
def ofOctets (octets : List UInt8) : Option IpAddr :=
  match octets with
  | [a, b, c, d] => some (.v4 a b c d)
  | _ =>
      if octets.length = 16 then
        some (.v6 (Vector.ofFn fun i => .ofNat (natOfBe ((octets.drop (2 * i)).take 2))))
      else none

/-- How a client reads the value of XOR-MAPPED-ADDRESS, with the cookie and the transaction id of
its request: the port and an IPv4 address are masked by the cookie, an IPv6 address by both. -/
def mappedAddress (tid value : List UInt8) : Option SocketAddr := do
  let port := UInt16.ofNat (natOfBe ((value.drop 2).take 2)) ^^^ 0x2112
  let masked := value.drop 4
  let family ← value[1]?
  if family = 0x01 ∧ masked.length = 4 then
    let ip ← ofOctets (List.zipWith (fun b m => b ^^^ m) masked cookieBytes)
    some ⟨ip, port⟩
  else if family = 0x02 ∧ masked.length = 16 then
    let ip ← ofOctets (List.zipWith (fun b m => b ^^^ m) masked (cookieBytes ++ tid))
    some ⟨ip, port⟩
  else none

end Remgr.Stun
