/-
Module: Remgr.Turn.Bind
Purpose: The configured bind address of the STUN and TURN server: as the socket address of a listener,
  and as the text that the relay generator puts before a port.
Trusted boundary: Remgr.Lib.IpParse; the text `{:?}` gives a string is a parameter
Main exports: bare, parseBind, relayBindString, relayAddr
-/
import Remgr.Lib.IpParse

namespace Remgr.Turn

open Lib

/-- An address without the brackets of a URL. -/
def bare (trimmed : List Char) : List Char :=
  match trimmed with
  | '[' :: s => if s.getLast? = some ']' then s.dropLast else trimmed
  | _ => trimmed

variable (debug : String → String)

def parseBind (bindAddr : String) (port : UInt16) : Except String SocketAddr :=
  match IpAddr.parse (bare (Text.trim bindAddr.toList)) with
  | some ip => .ok ⟨ip, port⟩
  | none => .error ("invalid bind address " ++ debug bindAddr ++ " (use an IP such as 0.0.0.0 or ::)")

def isIpv6 : IpAddr → Bool
  | .v4 .. => false
  | .v6 _ => true

def relayBindString (bindAddr : String) : String :=
  match parseBind debug bindAddr 0 with
  | .ok addr =>
      if isIpv6 addr.ip then "[" ++ String.ofList addr.ip.text ++ "]"
      else String.ofList (Text.trim bindAddr.toList)
  | .error _ => String.ofList (Text.trim bindAddr.toList)

/-- The text that `resolve_addr` of the `turn` crate parses. -/
def relayAddr (bindAddr : String) (port : UInt16) : String :=
  relayBindString debug bindAddr ++ ":" ++ toString port.toNat

end Remgr.Turn
