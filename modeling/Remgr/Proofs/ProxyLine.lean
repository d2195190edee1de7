/-
Module: Remgr.Proofs.ProxyLine
Purpose: The lines `parse_line` accepts. It reads the documented grammar, but for a number too long for
  64 bits, which no parse recognises as one and which becomes the address.
Trusted boundary: as in `Remgr.Frpc.ProxyLine`
Main exports: numeral, Spells, parseLine_ok, TooLong, lines_accepted_iff, long_number_dialed,
  console_parseLine
-/
import Remgr.Console.Persist
import Remgr.Frpc.ProxyLine
import Remgr.Lib.AsciiCase
import Mathlib.Tactic.Set

namespace Remgr.Frpc

open Remgr.Lib

/-! ## The grammar -/

/-- The number a text spells: an optional sign and at least one digit. -/
def numeral (tok : List Char) : Option Int :=
  match tok with
  | '-' :: rest => if rest = [] then none else (Text.digits 0 rest).map fun n : Nat => -(n : Int)
  | '+' :: rest => if rest = [] then none else (Text.digits 0 rest).map fun n : Nat => (n : Int)
  | _ => if tok = [] then none else (Text.digits 0 tok).map fun n : Nat => (n : Int)

/-- The words that are neither a type nor a port. -/
def others (rest : List (List Char)) : List (List Char) :=
  rest.filter fun tok => !isType tok && (portOf tok).isNone

/-- The last type of the line decides. -/
def lastType (fallback : String) (rest : List (List Char)) : String :=
  ((rest.filter isType).getLast?.map fun tok => String.ofList (tok.map Char.toLower)).getD fallback

/-- The first of these words, or what was there before. -/
def firstAddress (fallback : String) (words : List (List Char)) : String :=
  (words.head?.map String.ofList).getD fallback

/-- The line spells this proxy, where `address` says which words can be an address: a name, and in any
order any number of types, two ports and at most one address. -/
structure Spells (address : List Char → Prop) (text : List Char) (p : FrpcProxyConfig) : Prop where
  words : ∃ name rest, lineTokens text = name :: rest ∧ p.name = String.ofList name ∧
    p.proxyType = lastType "tcp" rest ∧ rest.filterMap portOf = [p.localPort, p.remotePort] ∧
    (others rest).length ≤ 1 ∧ (∀ a ∈ others rest, address a) ∧
    p.localIp = firstAddress "127.0.0.1" (others rest)

/-! ## Words -/

theorem parseUnsigned_letter {bound : Nat} {c : Char} {rest : List Char} (letter : 57 < c.toNat) :
    Text.parseUnsigned bound (c :: rest) = none := by
  have unsigned : (c :: rest).head? ≠ some '+' := by
    intro first
    rw [Option.some.inj first] at letter
    exact absurd letter (by decide)
  have noDigit : ¬ ('0' ≤ c ∧ c ≤ '9') := fun digit => Nat.not_le.mpr letter digit.2
  rw [Text.parseUnsigned_of_head (List.cons_ne_nil c rest) unsigned, Text.digits, if_neg noDigit]
  rfl

theorem isType_cases {tok : List Char} (typed : isType tok = true) :
    tok.map Char.toLower = "tcp".toList ∨ tok.map Char.toLower = "udp".toList := by
  rcases Bool.or_eq_true_iff.mp typed with tcp | udp
  · exact .inl (beq_iff_eq.mp tcp)
  · exact .inr (beq_iff_eq.mp udp)

/-- A type is no port. -/
theorem portOf_of_isType {tok : List Char} (typed : isType tok = true) : portOf tok = none := by
  have lettered : ∃ c rest, tok = c :: rest ∧ 57 < c.toNat := by
    cases tok with
    | nil => rcases isType_cases typed with same | same <;> cases same
    | cons c rest =>
        refine ⟨c, rest, rfl, ?_⟩
        have first : c.toLower = 't' ∨ c.toLower = 'u' := by
          rcases isType_cases typed with same | same
          · exact .inl (List.cons.inj same).1
          · exact .inr (List.cons.inj same).1
        rcases Text.toLower_cases c with same | ⟨low, -, -⟩
        · rw [same] at first
          rcases first with rfl | rfl <;> decide
        · omega
  obtain ⟨c, rest, rfl, letter⟩ := lettered
  rw [portOf, parseUnsigned_letter letter, Option.map_none]

theorem others_cons (tok : List Char) (rest : List (List Char)) :
    others (tok :: rest) =
      if isType tok = false ∧ portOf tok = none then tok :: others rest else others rest := by
  unfold others
  rw [List.filter_cons]
  simp only [Bool.and_eq_true, Bool.not_eq_true', Option.isNone_iff_eq_none]

theorem lastType_cons (fallback : String) (tok : List Char) (rest : List (List Char)) :
    lastType fallback (tok :: rest) =
      if isType tok then lastType (String.ofList (tok.map Char.toLower)) rest
      else lastType fallback rest := by
  unfold lastType
  rw [List.filter_cons]
  split
  · rw [List.getLast?_cons]
    cases (rest.filter isType).getLast? <;> rfl
  · rfl

/-- What the loop of `parse_line` makes of the words, and when it gets through. -/
theorem readTokens_ok {debug : String → String} {rest : List (List Char)} {line line' : LineState} :
    readTokens debug rest line = .ok line' ↔
      (∀ a ∈ others rest, Text.parseSigned 64 a = none) ∧
      (others rest).length + line.ipSeen.toNat ≤ 1 ∧
      line' =
        { proxy :=
            { line.proxy with
              proxyType := lastType line.proxy.proxyType rest
              localIp := firstAddress line.proxy.localIp (others rest) }
          ports := line.ports ++ rest.filterMap portOf
          ipSeen := line.ipSeen || !(others rest).isEmpty } := by
  induction rest generalizing line with
  | nil =>
      have seen : line.ipSeen.toNat ≤ 1 := by cases line.ipSeen <;> decide
      simp [readTokens, others, lastType, firstAddress, seen, eq_comm]
  | cons tok rest inductionHypothesis =>
      rw [readTokens, lastType_cons]
      cases typed : isType tok with
      | true =>
          have noPort := portOf_of_isType typed
          have same : others (tok :: rest) = others rest := by
            rw [others_cons, if_neg fun both => Bool.noConfusion (typed.symm.trans both.1)]
          rw [if_pos rfl, if_pos rfl, inductionHypothesis, same, List.filterMap_cons_none noPort]
      | false =>
          rw [if_neg Bool.false_ne_true, if_neg Bool.false_ne_true]
          cases port : portOf tok with
          | some n =>
              have same : others (tok :: rest) = others rest := by
                rw [others_cons, if_neg fun both => by cases port.symm.trans both.2]
              dsimp only
              rw [inductionHypothesis, same, List.filterMap_cons_some port, List.append_assoc]
              rfl
          | none =>
              have more : others (tok :: rest) = tok :: others rest := by
                rw [others_cons, if_pos ⟨typed, port⟩]
              rw [more, List.filterMap_cons_none port]
              dsimp only
              cases number : Text.parseSigned 64 tok with
              | some n =>
                  refine iff_of_false nofun fun passed => ?_
                  cases number.symm.trans (passed.1 tok List.mem_cons_self)
              | none =>
                  by_cases seen : line.ipSeen = true
                  · dsimp only
                    rw [if_neg (by simp [seen])]
                    refine iff_of_false nofun fun passed => ?_
                    have room := passed.2.1
                    rw [seen, List.length_cons, Bool.toNat_true] at room
                    omega
                  · have unseen : line.ipSeen = false := Bool.eq_false_iff.mpr seen
                    dsimp only
                    rw [if_pos unseen, inductionHypothesis]
                    simp only [List.forall_mem_cons, number, true_and, List.length_cons, unseen,
                      Bool.toNat_true, Bool.toNat_false, Bool.false_or, Bool.true_or, Nat.add_zero]
                    refine and_congr_right fun _ => and_congr_right fun room => ?_
                    -- A second address would not have fitted.
                    have alone : others rest = [] := List.eq_nil_of_length_eq_zero (by omega)
                    rw [alone]
                    rfl

/-- The ports a line needs are there, and no third one. -/
theorem parseLine_cons {debug : String → String} {text name : List Char} {rest : List (List Char)}
    (words : lineTokens text = name :: rest) {p : FrpcProxyConfig} :
    FrpcProxyConfig.parseLine debug text = .ok p ↔
      ∃ line, readTokens debug rest
          { proxy := { name := String.ofList name, localPort := 0, remotePort := 0 } } = .ok line ∧
        line.ports = [p.localPort, p.remotePort] ∧
        p = { line.proxy with localPort := p.localPort, remotePort := p.remotePort } := by
  unfold FrpcProxyConfig.parseLine
  rw [words]
  dsimp only
  cases loop : readTokens debug rest
      { proxy := { name := String.ofList name, localPort := 0, remotePort := 0 } } with
  | error msg =>
      refine iff_of_false nofun ?_
      rintro ⟨line, passed, -⟩
      cases passed
  | ok line =>
      have named : (∃ line', Except.ok line = (Except.ok line' : Except String LineState) ∧
          line'.ports = [p.localPort, p.remotePort] ∧
          p = { line'.proxy with localPort := p.localPort, remotePort := p.remotePort }) ↔
          line.ports = [p.localPort, p.remotePort] ∧
          p = { line.proxy with localPort := p.localPort, remotePort := p.remotePort } := by
        constructor
        · rintro ⟨line', same, facts⟩
          cases same
          exact facts
        · exact fun facts => ⟨line, rfl, facts⟩
      rw [named]
      simp only [bind, Except.bind]
      split
      · next localPort remotePort ports =>
          rw [ports, Except.ok.injEq, List.cons.injEq, List.cons.injEq]
          constructor
          · rintro rfl
            exact ⟨⟨rfl, rfl, rfl⟩, rfl⟩
          · rintro ⟨⟨first, second, -⟩, same⟩
            rw [same, ← first, ← second]
      · next ports other =>
          refine iff_of_false ?_ fun facts => other _ _ facts.1
          intro accepted
          split at accepted
          · cases accepted
          · cases accepted

/-- The lines `parse_line` accepts: an address is a word that no parse for 64 bits reads as a number. -/
theorem parseLine_ok {debug : String → String} {text : List Char} {p : FrpcProxyConfig} :
    FrpcProxyConfig.parseLine debug text = .ok p ↔
      Spells (fun a => Text.parseSigned 64 a = none) text p := by
  cases words : lineTokens text with
  | nil =>
      refine iff_of_false ?_ ?_
      · rw [FrpcProxyConfig.parseLine, words]
        nofun
      · rintro ⟨name, rest, named, -⟩
        cases words.symm.trans named
  | cons name rest =>
      rw [parseLine_cons words]
      constructor
      · rintro ⟨line, loop, ports, same⟩
        obtain ⟨addresses, room, rfl⟩ := readTokens_ok.mp loop
        rw [same]
        exact ⟨name, rest, words, rfl, rfl, ports, room, addresses, rfl⟩
      · rintro ⟨name', rest', named, spelled, typed, ports, room, addresses, address⟩
        obtain ⟨rfl, rfl⟩ := List.cons.inj (words.symm.trans named)
        refine ⟨_, readTokens_ok.mpr ⟨addresses, room, rfl⟩, ports, ?_⟩
        dsimp only
        rw [← spelled, ← typed, ← address]

/-! ## Numbers -/

theorem filter_map_cast {low high : Int} {bound : Nat} (number : Option Nat) (sign : Nat → Int)
    (fits : ∀ n, n < bound ↔ low ≤ sign n ∧ sign n < high) :
    (number.filter (· < bound)).map sign =
      (number.map sign).filter fun v => decide (low ≤ v ∧ v < high) := by
  cases number with
  | none => rfl
  | some n =>
      rw [Option.filter_some, Option.map_some, Option.filter_some]
      by_cases small : n < bound
      · rw [if_pos (decide_eq_true small), if_pos (decide_eq_true ((fits n).mp small)),
          Option.map_some]
      · rw [if_neg (by simpa using small), if_neg (by simpa using mt (fits n).mpr small),
          Option.map_none]

/-- A 64 bit parse reads the numbers that fit. -/
theorem parseSigned_eq_filter (tok : List Char) :
    Text.parseSigned 64 tok =
      (numeral tok).filter fun v => decide (-2 ^ 63 ≤ v ∧ v < 2 ^ 63) := by
  have positive (n : Nat) : n < 2 ^ 63 ↔ (-2 ^ 63 : Int) ≤ n ∧ (n : Int) < 2 ^ 63 := by omega
  have negative (n : Nat) : n < 2 ^ 63 + 1 ↔ (-2 ^ 63 : Int) ≤ -(n : Int) ∧ -(n : Int) < 2 ^ 63 := by
    omega
  have closed : (fun n : Nat => decide (n ≤ 2 ^ 63)) = fun n => decide (n < 2 ^ 63 + 1) :=
    funext fun n => decide_eq_decide.mpr Nat.lt_succ_iff.symm
  cases tok with
  | nil => rfl
  | cons c rest =>
      by_cases minus : c = '-'
      · subst minus
        change (if rest = [] then none else
            ((Text.digits 0 rest).filter (· ≤ 2 ^ 63)).map fun n : Nat => -(n : Int)) =
          (if rest = [] then none else
            (Text.digits 0 rest).map fun n : Nat => -(n : Int)).filter _
        rw [closed]
        split
        · rfl
        · exact filter_map_cast _ _ negative
      · rw [Text.parseSigned_of_head (by simpa using minus)]
        by_cases plus : c = '+'
        · subst plus
          change (if rest = [] then none else (Text.digits 0 rest).filter (· < 2 ^ 63)).map _ =
            (if rest = [] then none else (Text.digits 0 rest).map fun n : Nat => (n : Int)).filter _
          split
          · rfl
          · exact filter_map_cast _ _ positive
        · have unsigned : numeral (c :: rest) =
              (Text.digits 0 (c :: rest)).map fun n : Nat => (n : Int) := by
            unfold numeral
            split
            · next same => exact absurd (List.cons.inj same).1 minus
            · next same => exact absurd (List.cons.inj same).1 plus
            · rfl
          rw [Text.parseUnsigned_of_head (List.cons_ne_nil c rest) (by simpa using plus), unsigned]
          exact filter_map_cast _ _ positive

/-- Not the number of any port, and too long for 64 bits. -/
def TooLong (tok : List Char) : Prop := ∃ v, numeral tok = some v ∧ ¬ (-2 ^ 63 ≤ v ∧ v < 2 ^ 63)

theorem parseSigned_none_iff {tok : List Char} :
    Text.parseSigned 64 tok = none ↔ numeral tok = none ∨ TooLong tok := by
  rw [parseSigned_eq_filter]
  cases number : numeral tok with
  | none => exact iff_of_true rfl (.inl rfl)
  | some v =>
      rw [Option.filter_some, TooLong, number]
      by_cases fits : -2 ^ 63 ≤ v ∧ v < 2 ^ 63
      · rw [if_pos (decide_eq_true fits)]
        refine iff_of_false nofun ?_
        rintro (none | ⟨v', same, outside⟩)
        · cases none
        · cases same
          exact outside fits
      · rw [if_neg (by simpa using fits)]
        exact iff_of_true rfl (.inr ⟨v, rfl, fits⟩)

/-- A line of two ports whose one address is a number too long for 64 bits. -/
def Oversized (text : List Char) : Prop :=
  ∃ name rest a, lineTokens text = name :: rest ∧ others rest = [a] ∧
    (rest.filterMap portOf).length = 2 ∧ TooLong a

/-- `parse_line` accepts exactly the lines of its grammar, where no number is an address, unless the
line is one whose address is a number too long for 64 bits. -/
theorem lines_accepted_iff (debug : String → String) (text : List Char) :
    (∀ p, FrpcProxyConfig.parseLine debug text = .ok p ↔
        Spells (fun a => numeral a = none) text p) ↔ ¬ Oversized text := by
  constructor
  · rintro documented ⟨name, rest, a, words, single, two, tooLong⟩
    obtain ⟨localPort, remotePort, ports⟩ := List.length_eq_two.mp two
    have accepted : FrpcProxyConfig.parseLine debug text = .ok
        { name := String.ofList name
          proxyType := lastType "tcp" rest
          localIp := firstAddress "127.0.0.1" (others rest)
          localPort
          remotePort } := by
      refine parseLine_ok.mpr ⟨name, rest, words, rfl, rfl, ports, ?_, ?_, rfl⟩
      · rw [single]
        exact Nat.le_refl 1
      · rw [single]
        intro b inside
        rw [List.mem_singleton.mp inside]
        exact parseSigned_none_iff.mpr (.inr tooLong)
    obtain ⟨name', rest', named, -, -, -, -, addresses, -⟩ := (documented _).mp accepted
    obtain ⟨rfl, rfl⟩ := List.cons.inj (words.symm.trans named)
    obtain ⟨v, number, -⟩ := tooLong
    have unread := addresses a (single ▸ List.mem_singleton_self a)
    cases unread.symm.trans number
  · intro fits p
    rw [parseLine_ok]
    constructor
    · rintro ⟨name, rest, words, spelled, typed, ports, room, addresses, address⟩
      refine ⟨name, rest, words, spelled, typed, ports, room, fun a inside => ?_, address⟩
      refine (parseSigned_none_iff.mp (addresses a inside)).resolve_right fun tooLong => ?_
      obtain ⟨b, single⟩ : ∃ b, others rest = [b] :=
        List.length_eq_one_iff.mp (Nat.le_antisymm room (List.length_pos_of_mem inside))
      have same : a = b := List.mem_singleton.mp (single ▸ inside)
      exact fits ⟨name, rest, a, words, same ▸ single, by rw [ports]; rfl, tooLong⟩
    · rintro ⟨name, rest, words, spelled, typed, ports, room, addresses, address⟩
      exact ⟨name, rest, words, spelled, typed, ports, room,
        fun a inside => parseSigned_none_iff.mpr (.inl (addresses a inside)), address⟩

/-- A number of twenty digits between name and ports is dialed as a host. -/
theorem long_number_dialed :
    ∃ p, FrpcProxyConfig.parseLine id "web 99999999999999999999 8080 7001".toList = .ok p ∧
      p.localIp = "99999999999999999999" ∧
      ¬ Spells (fun a => numeral a = none) "web 99999999999999999999 8080 7001".toList p := by
  refine ⟨⟨"web", "tcp", "99999999999999999999", 8080, 7001⟩, by rfl, rfl, ?_⟩
  rintro ⟨name, rest, words, -, -, -, -, addresses, -⟩
  have split : lineTokens "web 99999999999999999999 8080 7001".toList =
      ["web".toList, "99999999999999999999".toList, "8080".toList, "7001".toList] := by decide
  obtain ⟨-, rfl⟩ := List.cons.inj (split.symm.trans words)
  cases addresses "99999999999999999999".toList (by decide)

/-! ## The reader of the configuration file -/

/-- What the reader of the file remembers of a line. -/
def LineState.seen (line : LineState) : Console.LineState :=
  { proxyType := line.proxy.proxyType, localIp := line.proxy.localIp, ports := line.ports,
    ipSeen := line.ipSeen }

theorem lineToken_foldlM (debug : String → String) (words : List (List Char)) (line : LineState) :
    words.foldlM (Console.lineToken debug line.proxy.name) line.seen =
      (readTokens debug words line).map LineState.seen := by
  induction words generalizing line with
  | nil => rfl
  | cons word rest inductionHypothesis =>
      rw [List.foldlM_cons]
      unfold Console.lineToken readTokens isType
      split
      · exact inductionHypothesis
          { line with proxy := { line.proxy with proxyType := String.ofList (word.map Char.toLower) } }
      · cases port : Text.parseUnsigned 65536 word with
        | some n =>
            simp only [portOf, port, Option.map_some]
            exact inductionHypothesis { line with ports := line.ports ++ [UInt16.ofNat n] }
        | none =>
            simp only [portOf, port, Option.map_none]
            cases Text.parseSigned 64 word with
            | some n => rfl
            | none =>
                by_cases seen : line.ipSeen = false
                · simp only [LineState.seen, seen, Bool.not_false, if_true]
                  exact inductionHypothesis
                    { line with
                      proxy := { line.proxy with localIp := String.ofList word }
                      ipSeen := true }
                · simp only [LineState.seen, Bool.eq_true_of_not_eq_false seen]
                  rfl

/-- The configuration file and the console read a line alike. -/
theorem console_parseLine (debug : String → String) (line : String) :
    Console.parseLine debug line = FrpcProxyConfig.parseLine debug line.toList := by
  have parts : (Text.split (fun c => Text.isWhitespace c || c == ',') line.toList).filter (· ≠ []) =
      lineTokens line.toList := by
    refine List.filter_congr fun part _ => ?_
    cases part <;> rfl
  unfold Console.parseLine FrpcProxyConfig.parseLine
  dsimp only
  rw [parts]
  cases lineTokens line.toList with
  | nil => rfl
  | cons first rest =>
      let start : LineState :=
        { proxy := { name := String.ofList first, localPort := 0, remotePort := 0 } }
      have folded := lineToken_foldlM debug rest start
      change (rest.foldlM (Console.lineToken debug (String.ofList first)) start.seen >>= _) =
        (readTokens debug rest start >>= _)
      change rest.foldlM (Console.lineToken debug (String.ofList first)) start.seen = _ at folded
      rw [folded]
      cases read : readTokens debug rest start with
      | error message => rfl
      | ok seen =>
          have named : seen.proxy.name = String.ofList first := by
            obtain ⟨-, -, rfl⟩ := readTokens_ok.mp read
            rfl
          rcases seen with ⟨⟨name, proxyType, localIp, localPort, remotePort⟩, ports, ipSeen⟩
          cases named
          rfl

end Remgr.Frpc
