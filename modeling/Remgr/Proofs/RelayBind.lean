/-
Module: Remgr.Proofs.RelayBind
Purpose: TURN relay sockets bind where the listener does, for every accepted spelling of the address
  but one.
Trusted boundary: Remgr.Turn.Bind, Remgr.Lib.SocketParse
Main exports: BracketedIpv4, bare_cases, relay_binds_iff, bracketed_ipv4_refused
-/
import Remgr.Lib.SocketParse
import Remgr.Turn.Bind

namespace Remgr.Turn

open Lib

/-- The text is an IPv4 address in brackets. -/
def BracketedIpv4 (trimmed : List Char) : Prop :=
  ∃ text a b c d, trimmed = '[' :: text ++ [']'] ∧ IpAddr.parse text = some (.v4 a b c d)

/-- Brackets go only where both are there. -/
theorem bare_cases (trimmed : List Char) :
    trimmed = '[' :: bare trimmed ++ [']'] ∨ bare trimmed = trimmed := by
  unfold bare
  split
  · next s =>
      split
      · next closed =>
          obtain ⟨front, rfl⟩ := List.getLast?_eq_some_iff.mp closed
          exact .inl (by simp)
      · exact .inr rfl
  · exact .inr rfl

theorem bare_bracketed (text : List Char) : bare ('[' :: text ++ [']']) = text := by
  simp [bare]

variable {debug : String → String} {bindAddr : String} {port : UInt16} {addr : SocketAddr}

theorem parseBind_ok_iff : parseBind debug bindAddr port = .ok addr ↔
    ∃ ip, IpAddr.parse (bare (Text.trim bindAddr.toList)) = some ip ∧ addr = ⟨ip, port⟩ := by
  unfold parseBind
  split
  · next ip read => simp [read, eq_comm]
  · next read => simp [read]

theorem toList_relayAddr (bindAddr : String) (p : UInt16) :
    (relayAddr debug bindAddr p).toList =
      (relayBindString debug bindAddr).toList ++ ':' :: Nat.toDigits 10 p.toNat := by
  have number : (toString p.toNat).toList = Nat.toDigits 10 p.toNat := by
    rw [Nat.toString_eq_repr, Nat.toList_repr]
  have colon : ":".toList = [':'] := by decide
  rw [relayAddr, String.toList_append, String.toList_append, number, colon, List.append_assoc,
    List.singleton_append]

theorem relayBindString_v4 {a b c d : UInt8}
    (read : IpAddr.parse (bare (Text.trim bindAddr.toList)) = some (.v4 a b c d)) :
    (relayBindString debug bindAddr).toList = Text.trim bindAddr.toList := by
  simp [relayBindString, parseBind, read, isIpv6]

theorem relayBindString_v6 {segments : Vector UInt16 8}
    (read : IpAddr.parse (bare (Text.trim bindAddr.toList)) = some (.v6 segments)) :
    (relayBindString debug bindAddr).toList = '[' :: (IpAddr.v6 segments).text ++ [']'] := by
  have left : "[".toList = ['['] := by decide
  have right : "]".toList = [']'] := by decide
  simp [relayBindString, parseBind, read, isIpv6, left, right]

/-- Relay sockets bind where the listener does, exactly when the configured address is not an IPv4
address in brackets. -/
theorem relay_binds_iff (debug : String → String) (bindAddr : String) (port : UInt16) :
    (∀ addr, parseBind debug bindAddr port = .ok addr → ∀ p : UInt16,
      IpAddr.parseSocket (relayAddr debug bindAddr p).toList =
        some (SocketAddr.endpoint ⟨addr.ip, p⟩)) ↔
      ¬ BracketedIpv4 (Text.trim bindAddr.toList) := by
  constructor
  · rintro binds ⟨text, a, b, c, d, bracketed, read⟩
    have accepted : IpAddr.parse (bare (Text.trim bindAddr.toList)) = some (.v4 a b c d) := by
      rw [bracketed, bare_bracketed, read]
    have bound := binds ⟨.v4 a b c d, port⟩ (parseBind_ok_iff.mpr ⟨_, accepted, rfl⟩) 0
    rw [toList_relayAddr, relayBindString_v4 accepted, bracketed, List.append_assoc,
      List.singleton_append, IpAddr.parseSocket_bracketed_v4 read] at bound
    cases bound
  · intro plain addr accepted p
    obtain ⟨ip, read, rfl⟩ := parseBind_ok_iff.mp accepted
    rw [toList_relayAddr]
    cases ip with
    | v4 a b c d =>
        rw [relayBindString_v4 read]
        rcases bare_cases (Text.trim bindAddr.toList) with bracketed | same
        · exact absurd ⟨_, a, b, c, d, bracketed, read⟩ plain
        · rw [same] at read
          exact IpAddr.parseSocket_v4 read p
    | v6 segments =>
        rw [relayBindString_v6 read, List.append_assoc, List.singleton_append]
        exact IpAddr.parseSocket_v6 (IpAddr.parse_text (.v6 segments)) p

/-- `[0.0.0.0]` is accepted for the listener and refused for the relay. -/
theorem bracketed_ipv4_refused : ¬ ∀ debug bindAddr port addr,
    parseBind debug bindAddr port = .ok addr → ∀ p : UInt16,
      IpAddr.parseSocket (relayAddr debug bindAddr p).toList =
        some (SocketAddr.endpoint ⟨addr.ip, p⟩) := by
  intro binds
  have accepted : parseBind id "[0.0.0.0]" 3478 = .ok ⟨.v4 0 0 0 0, 3478⟩ := by rfl
  have refused : IpAddr.parseSocket (relayAddr id "[0.0.0.0]" 49152).toList = none := by
    decide +kernel
  cases refused.symm.trans (binds id "[0.0.0.0]" 3478 _ accepted 49152)

end Remgr.Turn
