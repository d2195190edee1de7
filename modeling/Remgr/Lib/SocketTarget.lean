/-
Module: Remgr.Lib.SocketTarget
Purpose: The text that is given to a connection: a socket address, or a host for the resolver and a
  port. What such a text is when it is read as a socket address.
Trusted boundary: `toSocketAddrs` follows `std::net::ToSocketAddrs` for `str`
Main exports: toSocketAddrs, exists_front, Reads, parseSocket_reads, toSocketAddrs_port, parse_bracket,
  colon_mem_of_parse, parse_zone
-/
import Mathlib.Data.List.Infix
import Remgr.Lib.Lines
import Remgr.Lib.SocketParse

namespace Remgr.Lib

/-- `str::rsplit_once`. -/
def Text.rsplitOnce (separator : Char) (text : List Char) : Option (List Char × List Char) :=
  (Text.splitOnce separator text.reverse).map fun halves => (halves.2.reverse, halves.1.reverse)

theorem Text.rsplitOnce_append {separator : Char} (front : List Char) {back : List Char}
    (clear : separator ∉ back) :
    rsplitOnce separator (front ++ separator :: back) = some (front, back) := by
  have reversed :
      (front ++ separator :: back).reverse = back.reverse ++ separator :: front.reverse := by simp
  have first : separator ∉ back.reverse := fun inside => clear (List.mem_reverse.mp inside)
  rw [rsplitOnce, reversed, splitOnce_append first]
  simp

namespace IpAddr

/-- Where a connection goes. -/
inductive Target where
  | socket (endpoint : Endpoint)
  | lookup (host : List Char) (port : Nat)
deriving DecidableEq

/-- `ToSocketAddrs` for `str`, before the resolver is asked. -/
def toSocketAddrs (text : List Char) : Option Target :=
  match parseSocket text with
  | some endpoint => some (.socket endpoint)
  | none =>
      match Text.rsplitOnce ':' text with
      | some (host, port) => (Text.parseUnsigned 65536 port).map fun port => .lookup host port
      | none => none

example : toSocketAddrs "[::1]:80".toList = some (.socket (.v6 #v[0, 0, 0, 0, 0, 0, 0, 1] 80 0 0)) := by
  decide
example : toSocketAddrs "a:80".toList = some (.lookup ['a'] 80) := by decide

/-! ## What a reader leaves -/

/-- A reader leaves an end of the text. -/
def Consumes {α : Type} (reader : List Char → Option (α × List Char)) : Prop :=
  ∀ text got, reader text = some got → got.2 <:+ text

theorem readDigits_suffix {radix most value count v n : Nat} {text rest : List Char}
    (read : readDigits radix most value count text = some (v, n, rest)) : rest <:+ text := by
  induction text generalizing value count with
  | nil =>
      cases read
      exact List.suffix_rfl
  | cons c text inductionHypothesis =>
      rw [readDigits] at read
      split at read
      · cases read
        exact List.suffix_rfl
      · split at read
        · cases read
        · exact (inductionHypothesis read).trans (List.suffix_cons ..)

theorem consumes_readNumber (radix most : Nat) (allowZero : Bool) (bound : Nat) :
    Consumes (readNumber radix most allowZero bound) := by
  intro text got read
  unfold readNumber at read
  split at read
  · cases read
  · next value count rest here =>
      split at read
      · cases read
      · split at read
        · cases read
        · split at read
          · cases read
            exact readDigits_suffix here
          · cases read

theorem consumes_readSeparator {α : Type} (separator : Char) (index : Nat)
    {inner : List Char → Option (α × List Char)} (consumes : Consumes inner) :
    Consumes (readSeparator separator index inner) := by
  intro text got read
  unfold readSeparator at read
  split at read
  · split at read
    · cases read
    · split at read
      · exact (consumes _ _ read).trans (List.suffix_cons ..)
      · cases read
  · exact consumes _ _ read

theorem consumes_readOctet (index : Nat) : Consumes (readOctet index) := by
  intro text got read
  obtain ⟨inner, here, rfl⟩ := Option.map_eq_some_iff.mp read
  exact consumes_readSeparator '.' index (consumes_readNumber 10 3 false 256) _ _ here

theorem consumes_readIpv4 : Consumes readIpv4 := by
  intro text got read
  simp only [readIpv4, Option.bind_eq_bind, Option.bind_eq_some_iff] at read
  obtain ⟨a, first, b, second, c, third, d, fourth, whole⟩ := read
  cases whole
  have octet := fun index => consumes_readOctet index
  exact (octet 3 _ _ fourth).trans ((octet 2 _ _ third).trans
    ((octet 1 _ _ second).trans (octet 0 _ _ first)))

theorem readGroups_suffix (left index : Nat) (text : List Char) :
    (readGroups left index text).2.2 <:+ text := by
  induction left generalizing index text with
  | zero => exact List.suffix_rfl
  | succ left inductionHypothesis =>
      rw [readGroups]
      split
      · next a b c d rest embedded =>
          split at embedded
          · exact consumes_readSeparator ':' index consumes_readIpv4 _ _ embedded
          · cases embedded
      · split
        · next value rest number =>
            have here := consumes_readSeparator ':' index
              (consumes_readNumber 16 4 true 65536) _ _ number
            exact (inductionHypothesis ..).trans here
        · exact List.suffix_rfl

theorem consumes_readIpv6 : Consumes readIpv6 := by
  intro text got read
  have first := readGroups_suffix 8 0 text
  unfold readIpv6 at read
  generalize readGroups 8 0 text = groups at read first
  obtain ⟨head, headIpv4, left⟩ := groups
  dsimp only at read first
  split at read
  · cases read
    exact first
  · split at read
    · cases read
    · split at read
      · next after =>
          cases read
          have tail := readGroups_suffix (8 - (head.length + 1)) 0 after
          exact tail.trans ((List.suffix_append [':', ':'] after).trans first)
      · cases read

/-- What a reader has read, it reads on its own. -/
theorem exists_front {α : Type} {reader : List Char → Option (α × List Char)}
    (consumes : Consumes reader) {rest : List Char} (leaves : Leaves reader rest) {text : List Char}
    {value : α} (read : reader text = some (value, rest)) :
    ∃ front, text = front ++ rest ∧ reader front = some (value, []) := by
  obtain ⟨front, rfl⟩ : rest <:+ text := consumes _ _ read
  rw [leaves] at read
  obtain ⟨⟨inner, left⟩, here, same⟩ := Option.map_eq_some_iff.mp read
  obtain ⟨rfl, empty⟩ := Prod.mk.inj same
  have nothing : left = [] := List.append_left_eq_self.mp empty
  rw [nothing] at here
  exact ⟨front, rfl, here⟩

theorem parse_of_readIpv4 {text : List Char} {a b c d : UInt8}
    (read : readIpv4 text = some ((a, b, c, d), [])) : parse text = some (.v4 a b c d) := by
  rw [parse, read]

theorem parse_of_readIpv6 {text rest : List Char} {groups : List UInt16}
    (read : readIpv6 text = some (groups, rest)) :
    parse text = if rest = [] then some (.v6 (Vector.ofFn fun i => groups.getD i 0)) else none := by
  have other : readIpv4 text = none := by
    refine Option.eq_none_iff_forall_ne_some.mpr fun got octets => ?_
    obtain ⟨⟨a, b, c, d⟩, left⟩ := got
    rw [readIpv6_of_readIpv4 octets] at read
    cases read
  rw [parse, other, read]
  cases rest <;> rfl

/-! ## What is read as a socket address -/

theorem readValue_all {bound value count v n : Nat} {text : List Char}
    (read : readValue bound value count text = some (v, n, [])) :
    ∀ c ∈ text, (toDigit 10 c).isSome := by
  induction text generalizing value count with
  | nil => nofun
  | cons c text inductionHypothesis =>
      rw [readValue] at read
      split at read
      · cases read
      · next digit isDigit =>
          split at read
          · exact List.forall_mem_cons.mpr ⟨by rw [isDigit]; rfl, inductionHypothesis read⟩
          · cases read

/-- A port that ends the text. -/
theorem readPort_end {text : List Char} {port : UInt16} (read : readPort text = some (port, [])) :
    ∃ number, text = ':' :: number ∧ ∀ c ∈ number, (toDigit 10 c).isSome := by
  obtain ⟨⟨value, rest⟩, here, same⟩ := Option.map_eq_some_iff.mp read
  obtain ⟨-, rfl⟩ := Prod.mk.inj same
  cases text with
  | nil => cases here
  | cons c number =>
      rw [readMarked] at here
      split at here
      · next marked =>
          split at here
          · next v n left digits =>
              split at here
              · cases here
              · cases here
                exact ⟨number, by rw [marked], readValue_all digits⟩
          · cases here
      · cases here

theorem readValue_suffix {bound value count v n : Nat} {text rest : List Char}
    (read : readValue bound value count text = some (v, n, rest)) : rest <:+ text := by
  induction text generalizing value count with
  | nil =>
      cases read
      exact List.suffix_rfl
  | cons c text inductionHypothesis =>
      rw [readValue] at read
      split at read
      · cases read
        exact List.suffix_rfl
      · split at read
        · exact (inductionHypothesis read).trans (List.suffix_cons ..)
        · cases read

/-- The scope of an address, with its mark, or nothing. -/
def Zone (text : List Char) : Prop := text = [] ∨ ∃ after, text = '%' :: after

theorem readScopeId_zone (text : List Char) :
    ∃ zone, Zone zone ∧ text = zone ++ (readScopeId text).2 := by
  unfold readScopeId
  split
  · next value rest read =>
      cases text with
      | nil => cases read
      | cons c text =>
          rw [readMarked] at read
          split at read
          · next marked =>
              split at read
              · next v n left digits =>
                  split at read
                  · cases read
                  · cases read
                    obtain ⟨number, rfl⟩ := readValue_suffix digits
                    exact ⟨'%' :: number, .inr ⟨number, rfl⟩, by rw [marked]; rfl⟩
              · cases read
          · cases read
  · exact ⟨[], .inl rfl, rfl⟩

/-- A socket address is an address and a port, and an IPv6 address is in brackets, with its scope. -/
inductive Reads (front : List Char) (ip : IpAddr) : Prop where
  | plain (read : parse front = some ip)
  | bracketed (inner zone : List Char) (whole : front = '[' :: (inner ++ zone ++ [']']))
      (isZone : Zone zone) (read : parse inner = some ip)

theorem readSocketV4_reads {text : List Char} {endpoint : Endpoint}
    (read : readSocketV4 text = some (endpoint, [])) :
    ∃ front number, text = front ++ ':' :: number ∧ (∀ c ∈ number, (toDigit 10 c).isSome) ∧
      Reads front endpoint.addr.ip := by
  simp only [readSocketV4, Option.bind_eq_bind, Option.bind_eq_some_iff] at read
  obtain ⟨⟨⟨a, b, c, d⟩, rest⟩, octets, ⟨port, left⟩, ending, whole⟩ := read
  cases whole
  obtain ⟨number, rfl, digits⟩ := readPort_end ending
  have stops : Stops 10 (':' :: number) := by
    intro c first
    cases first
    decide
  obtain ⟨front, rfl, alone⟩ := exists_front consumes_readIpv4 (readIpv4_append stops (by simp)) octets
  exact ⟨front, number, rfl, digits, .plain (parse_of_readIpv4 alone)⟩

theorem barrier_zone {zone : List Char} (isZone : Zone zone) (rest : List Char) :
    Barrier (zone ++ ']' :: rest) := by
  rcases isZone with rfl | ⟨after, rfl⟩
  · exact barrier_bracket rest
  · refine ⟨?_, ?_, by simp, by simp⟩ <;> intro c first <;> cases first <;> decide

theorem readSocketV6_reads {text : List Char} {endpoint : Endpoint}
    (read : readSocketV6 text = some (endpoint, [])) :
    ∃ front number, text = front ++ ':' :: number ∧ (∀ c ∈ number, (toDigit 10 c).isSome) ∧
      Reads front endpoint.addr.ip := by
  unfold readSocketV6 at read
  split at read
  · next text =>
      simp only [Option.bind_eq_bind, Option.bind_eq_some_iff] at read
      obtain ⟨⟨groups, rest⟩, address, read⟩ := read
      obtain ⟨zone, isZone, parts⟩ := readScopeId_zone rest
      dsimp only at read
      split at read
      · next after closed =>
          obtain ⟨⟨port, left⟩, ending, whole⟩ := Option.bind_eq_some_iff.mp read
          cases whole
          obtain ⟨number, rfl, digits⟩ := readPort_end ending
          rw [closed] at parts
          subst parts
          obtain ⟨inner, rfl, alone⟩ :=
            exists_front consumes_readIpv6 (readIpv6_append (barrier_zone isZone _)) address
          refine ⟨'[' :: (inner ++ zone ++ [']']), number, by simp, digits,
            .bracketed inner zone rfl isZone ?_⟩
          rw [parse_of_readIpv6 alone, if_pos rfl]
          rfl
      · cases read
  · cases read

theorem parseSocket_reads {text : List Char} {endpoint : Endpoint}
    (read : parseSocket text = some endpoint) :
    ∃ front number, text = front ++ ':' :: number ∧ (∀ c ∈ number, (toDigit 10 c).isSome) ∧
      Reads front endpoint.addr.ip := by
  unfold parseSocket at read
  split at read
  · next found here =>
      cases read
      cases first : readSocketV4 text with
      | some got =>
          rw [first] at here
          cases here
          exact readSocketV4_reads first
      | none =>
          rw [first] at here
          exact readSocketV6_reads here
  · cases read

theorem colon_not_digit {number : List Char} (digits : ∀ c ∈ number, (toDigit 10 c).isSome) :
    ':' ∉ number :=
  fun inside => absurd (digits ':' inside) (by decide)

/-- A text that ends with a port goes to the address in front of the port, or to the resolver with
it. -/
theorem toSocketAddrs_port (front : List Char) (port : UInt16) :
    (∃ endpoint, toSocketAddrs (front ++ ':' :: Nat.toDigits 10 port.toNat) = some (.socket endpoint) ∧
        Reads front endpoint.addr.ip) ∨
      parseSocket (front ++ ':' :: Nat.toDigits 10 port.toNat) = none ∧
        toSocketAddrs (front ++ ':' :: Nat.toDigits 10 port.toNat) =
          some (.lookup front port.toNat) := by
  have clear : ':' ∉ Nat.toDigits 10 port.toNat := fun inside =>
    absurd (Text.mem_decimalDigits inside).2 (by decide)
  unfold toSocketAddrs
  cases read : parseSocket (front ++ ':' :: Nat.toDigits 10 port.toNat) with
  | some endpoint =>
      obtain ⟨address, number, whole, digits, reads⟩ := parseSocket_reads read
      have same := congrArg (Text.rsplitOnce ':') whole
      rw [Text.rsplitOnce_append front clear, Text.rsplitOnce_append address (colon_not_digit digits)]
        at same
      cases same
      exact .inl ⟨endpoint, rfl, reads⟩
  | none =>
      refine .inr ⟨rfl, ?_⟩
      rw [Text.rsplitOnce_append front clear]
      dsimp only
      rw [Text.parseUnsigned_toDigits port.toNat_lt]
      rfl

/-! ## What an address looks like -/

/-- No address begins with a bracket. -/
theorem parse_bracket (text : List Char) : parse ('[' :: text) = none := by
  have bracket : toDigit 10 '[' = none := rfl
  have octets : readIpv4 ('[' :: text) = none := readIpv4_none (by simp [afterDigits, bracket])
  have hexadecimal : toDigit 16 '[' = none := rfl
  have groups : readGroups 8 0 ('[' :: text) = ([], false, '[' :: text) := by
    simp [readGroups, readSeparator, octets, readNumber, readDigits, hexadecimal]
  have refused : readIpv6 ('[' :: text) = none := by
    simp [readIpv6, groups]
  rw [parse, octets, refused]

/-- The groups behind the first one are behind colons. -/
theorem readGroups_of_plain {text : List Char} (plain : ':' ∉ text) (left index : Nat) :
    readGroups left (index + 1) text = ([], false, text) := by
  have separated : ∀ {α : Type} (inner : List Char → Option (α × List Char)),
      readSeparator ':' (index + 1) inner text = none := by
    intro α inner
    cases text with
    | nil => rfl
    | cons c text =>
        have other : c ≠ ':' := fun same => plain (same ▸ List.mem_cons_self)
        simp [readSeparator, other]
  cases left with
  | zero => rfl
  | succ left => simp [readGroups, separated]

/-- An IPv6 address has a colon. -/
theorem colon_mem_of_parse {text : List Char} {segments : Vector UInt16 8}
    (read : parse text = some (.v6 segments)) : ':' ∈ text := by
  obtain ⟨groups, address, -⟩ := parse_v6 read
  by_contra plain
  have few : (readGroups 8 0 text).1.length ≤ 2 := by
    rw [readGroups]
    split
    · exact Nat.le_refl 2
    · split
      · next value rest number =>
          have suffix := consumes_readSeparator ':' 0 (consumes_readNumber 16 4 true 65536) _ _ number
          have clear : ':' ∉ rest := fun inside => plain (suffix.mem inside)
          simp [readGroups_of_plain clear]
      · exact Nat.zero_le 2
  have suffix := readGroups_suffix 8 0 text
  unfold readIpv6 at address
  generalize readGroups 8 0 text = got at address few suffix
  obtain ⟨head, headIpv4, rest⟩ := got
  dsimp only at address few suffix
  rw [if_neg (by omega)] at address
  split at address
  · cases address
  · split at address
    · exact plain (suffix.mem List.mem_cons_self)
    · cases address

/-- An address with a scope is no address of its own. -/
theorem parse_zone {inner : List Char} {ip : IpAddr} (read : parse inner = some ip)
    (after : List Char) : parse (inner ++ '%' :: after) = none := by
  have barrier : Barrier ('%' :: after) := by
    refine ⟨?_, ?_, by simp, by simp⟩ <;> intro c first <;> cases first <;> decide
  cases ip with
  | v4 a b c d =>
      have octets := readIpv4_append barrier.decimal barrier.noDot inner
      rw [parse_v4 read, Option.map_some, List.nil_append] at octets
      rw [parse, octets]
  | v6 segments =>
      obtain ⟨groups, address, -⟩ := parse_v6 read
      have longer := readIpv6_append barrier inner
      rw [address, Option.map_some, List.nil_append] at longer
      rw [parse_of_readIpv6 longer, if_neg (List.cons_ne_nil _ _)]

end IpAddr

end Remgr.Lib
