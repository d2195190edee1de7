/-
Module: Remgr.Lib.SocketParse
Purpose: The parser of socket addresses in `std::net`: an address reads the same whatever stands
  behind it, and an address with a port is read back.
Trusted boundary: `parseSocket` follows the parser of `std::net::SocketAddr`
Main exports: parseSocket, readIpv4_append, readIpv6_append, parseSocket_v4, parseSocket_v6,
  parseSocket_bracketed_v4
-/
import Remgr.Lib.IpParse

namespace Remgr.Lib.IpAddr

/-! ## The parser -/

/-- The loop of `read_number` where the number of digits is not bounded: an overflow is an error. -/
def readValue (bound : Nat) : Nat → Nat → List Char → Option (Nat × Nat × List Char)
  | value, count, [] => some (value, count, [])
  | value, count, c :: rest =>
      match toDigit 10 c with
      | none => some (value, count, c :: rest)
      | some digit =>
          if value * 10 + digit < bound then readValue bound (value * 10 + digit) (count + 1) rest
          else none

/-- A decimal number behind a mark: `read_port` and `read_scope_id`. -/
def readMarked (mark : Char) (bound : Nat) : List Char → Option (Nat × List Char)
  | [] => none
  | c :: text =>
      if c = mark then
        match readValue bound 0 0 text with
        | some (value, count, rest) => if count = 0 then none else some (value, rest)
        | none => none
      else none

def readPort (text : List Char) : Option (UInt16 × List Char) :=
  (readMarked ':' 65536 text).map fun got => (.ofNat got.1, got.2)

/-- `read_scope_id`, which may be missing. -/
def readScopeId (text : List Char) : UInt32 × List Char :=
  match readMarked '%' 4294967296 text with
  | some (value, rest) => (.ofNat value, rest)
  | none => (0, text)

def readSocketV4 (text : List Char) : Option (Endpoint × List Char) := do
  let ((a, b, c, d), text) ← readIpv4 text
  let (port, text) ← readPort text
  some (.v4 a b c d port, text)

def readSocketV6 : List Char → Option (Endpoint × List Char)
  | '[' :: text => do
      let (groups, text) ← readIpv6 text
      let (scopeId, text) := readScopeId text
      match text with
      | ']' :: text =>
          let (port, text) ← readPort text
          some (.v6 (Vector.ofFn fun i => groups.getD i 0) port 0 scopeId, text)
      | _ => none
  | _ => none

/-- `str::parse::<SocketAddr>`. -/
def parseSocket (text : List Char) : Option Endpoint :=
  match (readSocketV4 text).orElse fun _ => readSocketV6 text with
  | some (endpoint, []) => some endpoint
  | _ => none

example : parseSocket "192.0.2.1:80".toList = some (.v4 192 0 2 1 80) := by decide
example : parseSocket "[::1]:080".toList = some (.v6 #v[0, 0, 0, 0, 0, 0, 0, 1] 80 0 0) := by decide
example : parseSocket "[::1%4]:80".toList = some (.v6 #v[0, 0, 0, 0, 0, 0, 0, 1] 80 0 4) := by decide
example : parseSocket "::1:80".toList = none := by decide

/-! ## What stands behind an address -/

/-- Text behind a reader's input is left alone. -/
def Leaves {α : Type} (inner : List Char → Option (α × List Char)) (rest : List Char) : Prop :=
  ∀ text, inner (text ++ rest) = (inner text).map fun got => (got.1, got.2 ++ rest)

variable {rest : List Char}

theorem readDigits_append {radix : Nat} (stops : Stops radix rest) (most value count : Nat)
    (text : List Char) :
    readDigits radix most value count (text ++ rest) =
      (readDigits radix most value count text).map fun got => (got.1, got.2.1, got.2.2 ++ rest) := by
  induction text generalizing value count with
  | nil => rw [List.nil_append, readDigits_of_stops stops]; rfl
  | cons c text inductionHypothesis =>
      rw [List.cons_append, readDigits, readDigits]
      cases toDigit radix c with
      | none => rfl
      | some digit =>
          dsimp only
          split
          · rfl
          · exact inductionHypothesis ..

theorem leaves_readNumber {radix : Nat} (stops : Stops radix rest) (most : Nat) (allowZero : Bool)
    (bound : Nat) : Leaves (readNumber radix most allowZero bound) rest := by
  intro text
  rw [readNumber, readNumber, readDigits_append stops]
  cases text with
  | nil =>
      have empty : readDigits radix most 0 0 [] = some (0, 0, []) := rfl
      rw [empty]
      rfl
  | cons c text =>
      have head : (c :: text ++ rest).head? = (c :: text).head? := rfl
      rw [head]
      cases readDigits radix most 0 0 (c :: text) with
      | none => rfl
      | some got =>
          obtain ⟨value, count, left⟩ := got
          simp only [Option.map_some]
          by_cases empty : count = 0
          · rw [if_pos empty, if_pos empty]
            rfl
          · rw [if_neg empty, if_neg empty]
            by_cases octal : (!allowZero && (c :: text).head? == some '0' && decide (1 < count)) = true
            · rw [if_pos octal, if_pos octal]
              rfl
            · rw [if_neg octal, if_neg octal]
              by_cases fits : value < bound
              · rw [if_pos fits, if_pos fits]
                rfl
              · rw [if_neg fits, if_neg fits]
                rfl

theorem leaves_readSeparator {α : Type} {separator : Char} (index : Nat)
    {inner : List Char → Option (α × List Char)} (leaves : Leaves inner rest)
    (other : rest.head? ≠ some separator) : Leaves (readSeparator separator index inner) rest := by
  intro text
  unfold readSeparator
  split
  · cases text with
    | nil =>
        cases rest with
        | nil => rfl
        | cons c rest =>
            have different : c ≠ separator := by simpa using other
            simp [different]
    | cons c text =>
        simp only [List.cons_append]
        split
        · exact leaves text
        · rfl
  · exact leaves text

theorem leaves_readOctet (stops : Stops 10 rest) (noDot : rest.head? ≠ some '.') (index : Nat) :
    Leaves (readOctet index) rest := by
  intro text
  have inner := leaves_readSeparator index (leaves_readNumber stops 3 false 256) noDot text
  rw [readOctet, readOctet, inner]
  cases readSeparator '.' index (readNumber 10 3 false 256) text <;> rfl

/-- An IPv4 address reads the same before anything but a digit or a dot. -/
theorem readIpv4_append (stops : Stops 10 rest) (noDot : rest.head? ≠ some '.') :
    Leaves readIpv4 rest := by
  intro text
  have octet := leaves_readOctet stops noDot
  simp only [readIpv4, Option.bind_eq_bind]
  rw [octet 0]
  cases readOctet 0 text with
  | none => rfl
  | some got =>
      simp only [Option.map_some, Option.bind_some]
      rw [octet 1]
      cases readOctet 1 got.2 with
      | none => rfl
      | some got =>
          simp only [Option.map_some, Option.bind_some]
          rw [octet 2]
          cases readOctet 2 got.2 with
          | none => rfl
          | some got =>
              simp only [Option.map_some, Option.bind_some]
              rw [octet 3]
              cases readOctet 3 got.2 <;> rfl

/-- What no address goes on with. -/
structure Barrier (rest : List Char) : Prop where
  hexadecimal : Stops 16 rest
  decimal : Stops 10 rest
  noDot : rest.head? ≠ some '.'
  noColon : rest.head? ≠ some ':'

theorem readGroups_append (barrier : Barrier rest) (left index : Nat) (text : List Char) :
    readGroups left index (text ++ rest) =
      ((readGroups left index text).1, (readGroups left index text).2.1,
        (readGroups left index text).2.2 ++ rest) := by
  induction left generalizing index text with
  | zero => rfl
  | succ left inductionHypothesis =>
      have embedded := leaves_readSeparator index
        (readIpv4_append barrier.decimal barrier.noDot) barrier.noColon text
      have number := leaves_readSeparator index
        (leaves_readNumber barrier.hexadecimal 4 true 65536) barrier.noColon text
      have guarded : (if 0 < left then readSeparator ':' index readIpv4 (text ++ rest) else none) =
          (if 0 < left then readSeparator ':' index readIpv4 text else none).map
            fun got => (got.1, got.2 ++ rest) := by
        split
        · exact embedded
        · rfl
      rw [readGroups, readGroups, guarded]
      cases if 0 < left then readSeparator ':' index readIpv4 text else none with
      | some got => rfl
      | none =>
          simp only [Option.map_none]
          rw [number]
          cases readSeparator ':' index (readNumber 16 4 true 65536) text with
          | none => rfl
          | some got => simp only [Option.map_some, inductionHypothesis]

/-- An IPv6 address reads the same before anything that no address goes on with. -/
theorem readIpv6_append (barrier : Barrier rest) : Leaves readIpv6 rest := by
  intro text
  unfold readIpv6
  rw [readGroups_append barrier]
  obtain ⟨head, headIpv4, left⟩ := readGroups 8 0 text
  have closed : ∀ after, rest ≠ ':' :: after := by
    rintro after rfl
    exact barrier.noColon rfl
  dsimp only
  split
  · rfl
  · split
    · rfl
    · cases left with
      | nil =>
          rw [List.nil_append]
          split
          · next after => exact absurd rfl (closed _)
          · rfl
      | cons c left =>
          by_cases colon : c = ':'
          · subst colon
            cases left with
            | nil =>
                rw [List.singleton_append]
                split
                · next after same => exact absurd (List.cons.inj same).2 (closed _)
                · rfl
            | cons d left =>
                by_cases second : d = ':'
                · subst second
                  simp only [List.cons_append, readGroups_append barrier, Option.map_some]
                · simp [second]
          · simp [colon]

/-! ## Ports -/

theorem readValue_toDigits {bound n : Nat} (fits : n < bound) (rest : List Char) :
    readValue bound 0 0 (Nat.toDigits 10 n ++ rest) =
      readValue bound n (Nat.toDigits 10 n).length rest := by
  induction n using Nat.strongRecOn generalizing rest with
  | ind n inductionHypothesis =>
      by_cases small : n < 10
      · have one : Nat.toDigits 10 n = [n.digitChar] := by
          rw [Nat.toDigits_eq_if (by decide), if_pos small]
        rw [one, List.singleton_append, readValue, toDigit_digitChar small (by decide)]
        simp [fits]
      · have split : Nat.toDigits 10 n = Nat.toDigits 10 (n / 10) ++ [(n % 10).digitChar] := by
          conv_lhs => rw [Nat.toDigits_eq_if (by decide), if_neg small]
        have last : n % 10 < 10 := Nat.mod_lt _ (by decide)
        rw [split, List.append_assoc, inductionHypothesis _ (by omega) (by omega),
          List.singleton_append, readValue, toDigit_digitChar last (by decide)]
        have whole : n / 10 * 10 + n % 10 = n := Nat.div_add_mod' n 10
        simp [whole, fits]

theorem readPort_toDigits (port : UInt16) :
    readPort (':' :: Nat.toDigits 10 port.toNat) = some (port, []) := by
  have read := @readValue_toDigits 65536 _ port.toNat_lt []
  rw [List.append_nil] at read
  have digits : (Nat.toDigits 10 port.toNat).length ≠ 0 :=
    fun zero => Nat.toDigits_ne_nil (List.length_eq_zero_iff.mp zero)
  rw [readPort, readMarked, if_pos rfl, read]
  simp only [readValue, digits, if_false, Option.map_some, UInt16.ofNat_toNat]

theorem barrier_bracket (rest : List Char) : Barrier (']' :: rest) := by
  refine ⟨?_, ?_, by simp, by simp⟩ <;> intro c first <;> cases first <;> decide

/-! ## Addresses with a port -/

theorem parse_v4 {text : List Char} {a b c d : UInt8} (read : parse text = some (.v4 a b c d)) :
    readIpv4 text = some ((a, b, c, d), []) := by
  unfold parse at read
  split at read
  · next here =>
      cases read
      exact here
  · cases read
  · split at read <;> cases read

theorem parse_v6 {text : List Char} {segments : Vector UInt16 8}
    (read : parse text = some (.v6 segments)) :
    ∃ groups, readIpv6 text = some (groups, []) ∧
      segments = Vector.ofFn fun i => groups.getD i 0 := by
  unfold parse at read
  split at read
  · cases read
  · cases read
  · split at read
    · next groups here =>
        cases read
        exact ⟨groups, here, rfl⟩
    · cases read

/-- An IPv4 address with a port. -/
theorem parseSocket_v4 {text : List Char} {a b c d : UInt8} (read : parse text = some (.v4 a b c d))
    (port : UInt16) :
    parseSocket (text ++ ':' :: Nat.toDigits 10 port.toNat) = some (.v4 a b c d port) := by
  have stops : Stops 10 (':' :: Nat.toDigits 10 port.toNat) := by
    intro c first
    cases first
    decide
  have address := readIpv4_append stops (by simp) text
  rw [parse_v4 read, Option.map_some, List.nil_append] at address
  simp only [parseSocket, readSocketV4, address, Option.bind_eq_bind, Option.bind_some,
    readPort_toDigits, Option.orElse]

/-- A bracket begins no IPv4 address. -/
theorem readSocketV4_bracket (text : List Char) : readSocketV4 ('[' :: text) = none := by
  have none : readIpv4 ('[' :: text) = none := readIpv4_none (by
    have bracket : toDigit 10 '[' = none := rfl
    simp [afterDigits, bracket])
  rw [readSocketV4, none]
  rfl

/-- An IPv6 address in brackets with a port. -/
theorem parseSocket_v6 {text : List Char} {segments : Vector UInt16 8}
    (read : parse text = some (.v6 segments)) (port : UInt16) :
    parseSocket ('[' :: text ++ ']' :: ':' :: Nat.toDigits 10 port.toNat) =
      some (.v6 segments port 0 0) := by
  obtain ⟨groups, address, rfl⟩ := parse_v6 read
  have inside := readIpv6_append (barrier_bracket (':' :: Nat.toDigits 10 port.toNat)) text
  rw [address, Option.map_some, List.nil_append] at inside
  have noScope : readScopeId (']' :: ':' :: Nat.toDigits 10 port.toNat) =
      (0, ']' :: ':' :: Nat.toDigits 10 port.toNat) := rfl
  rw [parseSocket, List.cons_append, readSocketV4_bracket]
  simp only [Option.orElse, readSocketV6, inside, Option.bind_eq_bind, Option.bind_some, noScope,
    readPort_toDigits]

/-- No IPv6 address begins with an IPv4 address. -/
theorem readIpv6_of_readIpv4 {text rest : List Char} {a b c d : UInt8}
    (read : readIpv4 text = some ((a, b, c, d), rest)) : readIpv6 text = none := by
  have groups : readGroups 8 0 text = ([group a b, group c d], true, rest) := by
    simp [readGroups, readSeparator, read]
  simp [readIpv6, groups]

/-- An IPv4 address in brackets is no address. -/
theorem parseSocket_bracketed_v4 {text : List Char} {a b c d : UInt8}
    (read : parse text = some (.v4 a b c d)) (rest : List Char) :
    parseSocket ('[' :: text ++ ']' :: rest) = none := by
  have barrier := barrier_bracket rest
  have address := readIpv4_append barrier.decimal barrier.noDot text
  rw [parse_v4 read, Option.map_some, List.nil_append] at address
  rw [parseSocket, List.cons_append, readSocketV4_bracket]
  simp only [Option.orElse, readSocketV6, readIpv6_of_readIpv4 address]
  rfl

end Remgr.Lib.IpAddr
