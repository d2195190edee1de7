/-
Module: Remgr.Lib.IpAddr
Purpose: IP addresses and their text, as `std::net` prints them: dotted decimal, and colon-separated
  hexadecimal with the first longest run of zero segments left out.
Trusted boundary: `IpAddr.text` follows `Display` of `Ipv4Addr` and `Ipv6Addr`
Main exports: IpAddr, IpAddr.text, SocketAddr, Endpoint, IpAddr.text_length_le, IpAddr.mem_text
-/
import Remgr.Lib.Text
import Mathlib.Tactic.Common

namespace Remgr.Lib

/-- `std::net::IpAddr`: four octets, or eight 16-bit segments. -/
inductive IpAddr where
  | v4 (a b c d : UInt8)
  | v6 (segments : Vector UInt16 8)
deriving DecidableEq

/-- `std::net::SocketAddr`. Flow label and scope do not show in the address. -/
structure SocketAddr where
  ip : IpAddr
  port : UInt16
deriving DecidableEq

/-- `std::net::SocketAddr` with what it keeps of an IPv6 peer beside the address and the port. -/
inductive Endpoint where
  | v4 (a b c d : UInt8) (port : UInt16)
  | v6 (segments : Vector UInt16 8) (port : UInt16) (flowinfo scopeId : UInt32)
deriving DecidableEq

/-- `ip()` and `port()`. -/
def Endpoint.addr : Endpoint → SocketAddr
  | .v4 a b c d port => ⟨.v4 a b c d, port⟩
  | .v6 segments port _ _ => ⟨.v6 segments, port⟩

/-- `SocketAddr::new`. -/
def SocketAddr.endpoint (addr : SocketAddr) : Endpoint :=
  match addr.ip with
  | .v4 a b c d => .v4 a b c d addr.port
  | .v6 segments => .v6 segments addr.port 0 0

namespace IpAddr

/-! ## Text -/

def octetText (octet : UInt8) : List Char := Nat.toDigits 10 octet.toNat

def segmentText (segment : UInt16) : List Char := Nat.toDigits 16 segment.toNat

def v4Text (a b c d : UInt8) : List Char :=
  octetText a ++ '.' :: (octetText b ++ '.' :: (octetText c ++ '.' :: octetText d))

/-- A colon-separated part of an address. -/
def fmtSubslice : List UInt16 → List Char
  | [] => []
  | first :: tail => segmentText first ++ tail.flatMap fun segment => ':' :: segmentText segment

/-- A run of zero segments. -/
structure Span where
  start : Nat := 0
  len : Nat := 0

/-- The loop that looks for the longest run: `current` is the run it is in, and only a strictly
longer run replaces the longest one so far. -/
def zeroes (i : Nat) (longest current : Span) : List UInt16 → Span
  | [] => longest
  | segment :: rest =>
      if segment = 0 then
        let current : Span :=
          { start := if current.len = 0 then i else current.start, len := current.len + 1 }
        zeroes (i + 1) (if longest.len < current.len then current else longest) current rest
      else zeroes (i + 1) longest {} rest

/-- An address without its longest run of zeroes, when that run is longer than one. -/
def compressed (segments : List UInt16) : List Char :=
  let span := zeroes 0 {} {} segments
  if 1 < span.len then
    fmtSubslice (segments.take span.start) ++
      ':' :: ':' :: fmtSubslice (segments.drop (span.start + span.len))
  else fmtSubslice segments

/-- `to_ipv4_mapped`. -/
def v4Mapped : List UInt16 → Option (UInt8 × UInt8 × UInt8 × UInt8)
  | [0, 0, 0, 0, 0, 0xffff, high, low] =>
      some ((high >>> 8).toUInt8, high.toUInt8, (low >>> 8).toUInt8, low.toUInt8)
  | _ => none

/-- `to_string`. -/
def text : IpAddr → List Char
  | .v4 a b c d => v4Text a b c d
  | .v6 segments =>
      match v4Mapped segments.toList with
      | some (a, b, c, d) => "::ffff:".toList ++ v4Text a b c d
      | none => compressed segments.toList

/-! ## Length -/

theorem octetText_length_le (octet : UInt8) : (octetText octet).length ≤ 3 := by
  have small : octet.toNat < 10 ^ 3 := Nat.lt_trans octet.toNat_lt (by decide)
  exact (Nat.length_toDigits_le_iff (by decide) (by decide)).mpr small

theorem segmentText_length_le (segment : UInt16) : (segmentText segment).length ≤ 4 :=
  (Nat.length_toDigits_le_iff (by decide) (by decide)).mpr segment.toNat_lt

theorem v4Text_length_le (a b c d : UInt8) : (v4Text a b c d).length ≤ 15 := by
  have first := octetText_length_le a
  have second := octetText_length_le b
  have third := octetText_length_le c
  have fourth := octetText_length_le d
  simp only [v4Text, List.length_append, List.length_cons]
  omega

theorem fmtSubslice_length_le (segments : List UInt16) :
    (fmtSubslice segments).length ≤ 5 * segments.length - 1 := by
  have tails : ∀ tail : List UInt16,
      (tail.flatMap fun segment => ':' :: segmentText segment).length ≤ 5 * tail.length := by
    intro tail
    induction tail with
    | nil => exact Nat.le_refl 0
    | cons segment tail inductionHypothesis =>
        have head := segmentText_length_le segment
        simp only [List.flatMap_cons, List.length_append, List.length_cons]
        omega
  cases segments with
  | nil => exact Nat.le_refl 0
  | cons first tail =>
      have head := segmentText_length_le first
      have rest := tails tail
      simp only [fmtSubslice, List.length_append, List.length_cons]
      omega

/-- The run that is found lies inside the address. The loop keeps that the longest run is behind it
and that the current one, if there is any, ends where it stands. -/
theorem zeroes_le (segments : List UInt16) {i : Nat} {longest current : Span}
    (behind : longest.start + longest.len ≤ i)
    (here : current.len = 0 ∨ current.start + current.len = i) :
    (zeroes i longest current segments).start + (zeroes i longest current segments).len ≤
      i + segments.length := by
  induction segments generalizing i longest current with
  | nil => exact behind
  | cons segment rest inductionHypothesis =>
      have further : i + (segment :: rest).length = i + 1 + rest.length := by
        rw [List.length_cons]
        omega
      have start : (if current.len = 0 then i else current.start) + (current.len + 1) = i + 1 := by
        split <;> omega
      rw [further]
      unfold zeroes
      split
      · dsimp only
        apply inductionHypothesis
        · by_cases longer : longest.len < current.len + 1
          · rw [if_pos longer]
            exact Nat.le_of_eq start
          · rw [if_neg longer]
            omega
        · exact .inr start
      · exact inductionHypothesis (by omega) (.inl rfl)

theorem compressed_length_le {segments : List UInt16} (eight : segments.length = 8) :
    (compressed segments).length ≤ 39 := by
  unfold compressed
  dsimp only
  split
  · next long =>
      have inside := @zeroes_le segments 0 {} {} (Nat.le_refl 0) (.inl rfl)
      have front := fmtSubslice_length_le (segments.take (zeroes 0 {} {} segments).start)
      have back := fmtSubslice_length_le (segments.drop
        ((zeroes 0 {} {} segments).start + (zeroes 0 {} {} segments).len))
      rw [List.length_take] at front
      rw [List.length_drop] at back
      simp only [List.length_append, List.length_cons]
      omega
  · have whole := fmtSubslice_length_le segments
    omega

/-- The longest text is that of an IPv6 address with eight long segments. -/
theorem text_length_le (ip : IpAddr) : ip.text.length ≤ 39 := by
  cases ip with
  | v4 a b c d =>
      have short := v4Text_length_le a b c d
      rw [text]
      omega
  | v6 segments =>
      unfold text
      dsimp only
      split
      · next a b c d _ =>
          have short := v4Text_length_le a b c d
          have lead : "::ffff:".toList.length = 7 := by decide
          rw [List.length_append]
          omega
      · exact compressed_length_le (by simp)

/-! ## Characters -/

/-- A digit, a dot or a colon. -/
def Printed (c : Char) : Prop := (∃ d < 16, c = Nat.digitChar d) ∨ c = '.' ∨ c = ':'

theorem printed_octet {octet : UInt8} {c : Char} (inside : c ∈ octetText octet) : Printed c := by
  rcases Text.mem_toDigits (by decide) inside with ⟨d, small, rfl⟩
  exact .inl ⟨d, by omega, rfl⟩

theorem printed_segment {segment : UInt16} {c : Char} (inside : c ∈ segmentText segment) :
    Printed c :=
  .inl (Text.mem_toDigits (by decide) inside)

theorem printed_v4 {a b c d : UInt8} {x : Char} (inside : x ∈ v4Text a b c d) : Printed x := by
  have dot : Printed '.' := .inr (.inl rfl)
  simp only [v4Text, List.mem_append, List.mem_cons] at inside
  rcases inside with first | rfl | second | rfl | third | rfl | fourth
  · exact printed_octet first
  · exact dot
  · exact printed_octet second
  · exact dot
  · exact printed_octet third
  · exact dot
  · exact printed_octet fourth

theorem printed_subslice {segments : List UInt16} {c : Char} (inside : c ∈ fmtSubslice segments) :
    Printed c := by
  cases segments with
  | nil => cases inside
  | cons first tail =>
      rcases List.mem_append.mp inside with head | rest
      · exact printed_segment head
      · rcases List.mem_flatMap.mp rest with ⟨segment, _, here⟩
        rcases List.mem_cons.mp here with rfl | digit
        · exact .inr (.inr rfl)
        · exact printed_segment digit

theorem mem_text {ip : IpAddr} {c : Char} (inside : c ∈ ip.text) : Printed c := by
  have colon : Printed ':' := .inr (.inr rfl)
  cases ip with
  | v4 a b c d => exact printed_v4 inside
  | v6 segments =>
      unfold text at inside
      dsimp only at inside
      split at inside
      · rcases List.mem_append.mp inside with lead | rest
        · have digit : Printed 'f' := .inl ⟨15, by decide, rfl⟩
          rw [show "::ffff:".toList = [':', ':', 'f', 'f', 'f', 'f', ':'] by decide] at lead
          simp only [List.mem_cons, List.not_mem_nil, or_false] at lead
          rcases lead with rfl | rfl | rfl | rfl | rfl | rfl | rfl
          all_goals first
            | exact colon
            | exact digit
        · exact printed_v4 rest
      · unfold compressed at inside
        dsimp only at inside
        split at inside
        · simp only [List.mem_append, List.mem_cons] at inside
          rcases inside with front | rfl | rfl | back
          · exact printed_subslice front
          · exact colon
          · exact colon
          · exact printed_subslice back
        · exact printed_subslice inside

example : (IpAddr.v6 #v[0x2001, 0xdb8, 0, 0, 1, 0, 0, 1]).text = "2001:db8::1:0:0:1".toList := by
  decide
example : (IpAddr.v6 #v[0, 0, 0, 0, 0, 0xffff, 0xc000, 0x2ff]).text =
    "::ffff:192.0.2.255".toList := by
  decide

end IpAddr

end Remgr.Lib
