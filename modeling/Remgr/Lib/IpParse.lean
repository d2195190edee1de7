/-
Module: Remgr.Lib.IpParse
Purpose: The parser of IP addresses in `std::net`, and that it reads every address back from its
  text.
Trusted boundary: `IpAddr.parse` follows the parser of `std::net::IpAddr`, which takes back what a
  failed alternative has consumed
Main exports: IpAddr.parse, IpAddr.parse_text
-/
import Remgr.Lib.IpAddr

namespace Remgr.Lib.IpAddr

/-! ## The parser -/

/-- `char::to_digit`, for a radix of at most 36. -/
def toDigit (radix : Nat) (c : Char) : Option Nat :=
  (if '0' ≤ c ∧ c ≤ '9' then some (c.toNat - 48)
    else if 'a' ≤ c ∧ c ≤ 'z' then some (c.toNat - 87)
    else if 'A' ≤ c ∧ c ≤ 'Z' then some (c.toNat - 55)
    else none).filter (· < radix)

/-- The loop of `read_number`: the value so far and the number of digits. One digit more than `most`
is an error. -/
def readDigits (radix most : Nat) : Nat → Nat → List Char → Option (Nat × Nat × List Char)
  | value, count, [] => some (value, count, [])
  | value, count, c :: rest =>
      match toDigit radix c with
      | none => some (value, count, c :: rest)
      | some digit =>
          if most < count + 1 then none
          else readDigits radix most (value * radix + digit) (count + 1) rest

/-- `read_number`, for a type with `bound` values. -/
def readNumber (radix most : Nat) (allowZero : Bool) (bound : Nat) (text : List Char) :
    Option (Nat × List Char) :=
  match readDigits radix most 0 0 text with
  | none => none
  | some (value, count, rest) =>
      if count = 0 then none
      else if !allowZero && text.head? == some '0' && decide (1 < count) then none
      else if value < bound then some (value, rest)
      else none

/-- `read_separator`: the separator stands before every item but the first. -/
def readSeparator {α : Type} (separator : Char) (index : Nat)
    (inner : List Char → Option (α × List Char)) (text : List Char) : Option (α × List Char) :=
  if 0 < index then
    match text with
    | [] => none
    | c :: rest => if c = separator then inner rest else none
  else inner text

/-- The octets of an IPv4 address; a leading zero would be octal elsewhere and is refused. -/
def readOctet (index : Nat) (text : List Char) : Option (UInt8 × List Char) :=
  (readSeparator '.' index (readNumber 10 3 false 256) text).map fun got => (.ofNat got.1, got.2)

/-- `read_ipv4_addr`. -/
def readIpv4 (text : List Char) : Option ((UInt8 × UInt8 × UInt8 × UInt8) × List Char) := do
  let (a, text) ← readOctet 0 text
  let (b, text) ← readOctet 1 text
  let (c, text) ← readOctet 2 text
  let (d, text) ← readOctet 3 text
  some ((a, b, c, d), text)

/-- `u16::from_be_bytes`. -/
def group (high low : UInt8) : UInt16 := .ofNat (high.toNat * 256 + low.toNat)

/-- `read_groups` with `left` slots to fill, from the slot `index` on: the groups, whether the last
two came from an IPv4 address, and what is left of the text. -/
def readGroups : Nat → Nat → List Char → List UInt16 × Bool × List Char
  | 0, _, text => ([], false, text)
  | left + 1, index, text =>
      match if 0 < left then readSeparator ':' index readIpv4 text else none with
      | some ((a, b, c, d), rest) => ([group a b, group c d], true, rest)
      | none =>
          match readSeparator ':' index (readNumber 16 4 true 65536) text with
          | some (value, rest) =>
              let read := readGroups left (index + 1) rest
              (.ofNat value :: read.1, read.2)
          | none => ([], false, text)

/-- `read_ipv6_addr`: the groups before `::`, if there is one, and those after it. -/
def readIpv6 (text : List Char) : Option (List UInt16 × List Char) :=
  let (head, headIpv4, rest) := readGroups 8 0 text
  if head.length = 8 then some (head, rest)
  else if headIpv4 then none
  else
    match rest with
    | ':' :: ':' :: rest =>
        let (tail, _, rest) := readGroups (8 - (head.length + 1)) 0 rest
        some (head ++ List.replicate (8 - head.length - tail.length) 0 ++ tail, rest)
    | _ => none

/-- `str::parse::<IpAddr>`: the whole text is one address. -/
def parse (text : List Char) : Option IpAddr :=
  match readIpv4 text with
  | some ((a, b, c, d), []) => some (.v4 a b c d)
  | some _ => none
  | none =>
      match readIpv6 text with
      | some (groups, []) => some (.v6 (Vector.ofFn fun i => groups.getD i 0))
      | _ => none

example : parse "192.0.2.255".toList = some (.v4 192 0 2 255) := by decide
example : parse "192.0.02.255".toList = none := by decide
example : parse "2001:db8::1:0:0:1".toList =
    some (.v6 #v[0x2001, 0xdb8, 0, 0, 1, 0, 0, 1]) := by decide
example : parse "::ffff:192.0.2.255".toList =
    some (.v6 #v[0, 0, 0, 0, 0, 0xffff, 0xc000, 0x2ff]) := by decide
example : parse "1:2:3".toList = none := by decide

/-! ## Numbers -/

theorem toDigit_digitChar {radix d : Nat} (small : d < radix) (hexadecimal : radix ≤ 16) :
    toDigit radix d.digitChar = some d := by
  have all : ∀ d < 16, toDigit 36 d.digitChar = some d := by decide
  have read := all d (by omega)
  unfold toDigit at read ⊢
  rcases Option.filter_eq_some_iff.mp read with ⟨found, _⟩
  rw [found]
  exact Option.filter_eq_some_iff.mpr ⟨rfl, decide_eq_true small⟩

/-- The digits of a number are read, and the loop goes on behind them. The induction is on the
number, as its digits are printed. -/
theorem readDigits_toDigits {radix most : Nat} (two : 1 < radix) (hexadecimal : radix ≤ 16) (n : Nat)
    (value count : Nat) (rest : List Char)
    (room : count + (Nat.toDigits radix n).length ≤ most) :
    readDigits radix most value count (Nat.toDigits radix n ++ rest) =
      readDigits radix most (value * radix ^ (Nat.toDigits radix n).length + n)
        (count + (Nat.toDigits radix n).length) rest := by
  induction n using Nat.strongRecOn generalizing value count rest with
  | ind n inductionHypothesis =>
      by_cases small : n < radix
      · have one : Nat.toDigits radix n = [n.digitChar] := by
          rw [Nat.toDigits_eq_if two, if_pos small]
        rw [one] at room ⊢
        have inside : ¬ most < count + 1 := by
          simp only [List.length_singleton] at room
          omega
        rw [List.singleton_append, readDigits, toDigit_digitChar small hexadecimal]
        simp only [inside, if_false, List.length_singleton, Nat.pow_one]
      · have split : Nat.toDigits radix n =
            Nat.toDigits radix (n / radix) ++ [(n % radix).digitChar] := by
          conv_lhs => rw [Nat.toDigits_eq_if two, if_neg small]
        have last : n % radix < radix := Nat.mod_lt _ (by omega)
        rw [split] at room ⊢
        rw [List.length_append, List.length_singleton] at room ⊢
        rw [List.append_assoc, inductionHypothesis _ (Nat.div_lt_self (by omega) two) _ _ _ (by omega),
          List.singleton_append, readDigits, toDigit_digitChar last hexadecimal]
        have inside : ¬ most < count + ((Nat.toDigits radix (n / radix)).length + 1) := by omega
        have sum : (value * radix ^ (Nat.toDigits radix (n / radix)).length + n / radix) * radix +
            n % radix = value * radix ^ ((Nat.toDigits radix (n / radix)).length + 1) + n := by
          have division := Nat.div_add_mod n radix
          rw [Nat.pow_succ, Nat.add_mul, Nat.mul_assoc, Nat.mul_comm (n / radix) radix]
          omega
        simp only [sum, Nat.add_assoc, inside, if_false]

/-- The text behind a number: it does not go on with a digit. -/
def Stops (radix : Nat) (rest : List Char) : Prop := ∀ c ∈ rest.head?, toDigit radix c = none

theorem readDigits_of_stops {radix most value count : Nat} {rest : List Char}
    (stops : Stops radix rest) :
    readDigits radix most value count rest = some (value, count, rest) := by
  cases rest with
  | nil => rfl
  | cons c rest =>
      have none := stops c rfl
      simp only [readDigits, none]

theorem readNumber_toDigits {radix most bound n : Nat} {allowZero : Bool} {rest : List Char}
    (two : 1 < radix) (hexadecimal : radix ≤ 16) (room : (Nat.toDigits radix n).length ≤ most)
    (fits : n < bound) (stops : Stops radix rest)
    (plain : allowZero = true ∨
      ((Nat.toDigits radix n).head? = some '0' → (Nat.toDigits radix n).length ≤ 1)) :
    readNumber radix most allowZero bound (Nat.toDigits radix n ++ rest) = some (n, rest) := by
  have nonempty : Nat.toDigits radix n ≠ [] := Nat.toDigits_ne_nil
  have roomy : 0 + (Nat.toDigits radix n).length ≤ most := by rwa [Nat.zero_add]
  have read := readDigits_toDigits two hexadecimal n 0 0 rest roomy
  rw [readDigits_of_stops stops, Nat.zero_mul, Nat.zero_add, Nat.zero_add] at read
  have digits : (Nat.toDigits radix n).length ≠ 0 := by
    intro zero
    exact nonempty (List.length_eq_zero_iff.mp zero)
  have accepted : (!allowZero && (Nat.toDigits radix n ++ rest).head? == some '0' &&
      decide (1 < (Nat.toDigits radix n).length)) = false := by
    rcases plain with allowed | single
    · rw [allowed]
      rfl
    · rw [List.head?_append_of_ne_nil _ nonempty]
      by_cases zero : (Nat.toDigits radix n).head? = some '0'
      · have short := single zero
        simp only [Bool.and_eq_false_imp, decide_eq_false_iff_not]
        omega
      · have different : ((Nat.toDigits radix n).head? == some '0') = false := by simpa using zero
        rw [different, Bool.and_false, Bool.false_and]
  simp only [readNumber, read, digits, if_false, accepted, Bool.false_eq_true, fits, if_true]

/-! ## IPv4 addresses -/

theorem readNumber_octetText (octet : UInt8) {rest : List Char} (stops : Stops 10 rest) :
    readNumber 10 3 false 256 (octetText octet ++ rest) = some (octet.toNat, rest) := by
  have plain : ∀ n < 256, (Nat.toDigits 10 n).head? = some '0' → (Nat.toDigits 10 n).length ≤ 1 := by
    decide +kernel
  exact readNumber_toDigits (by decide) (by decide) (octetText_length_le octet) octet.toNat_lt stops
    (.inr (plain _ octet.toNat_lt))

theorem stops_dot (rest : List Char) : Stops 10 ('.' :: rest) := by
  intro c first
  cases first
  decide

theorem readIpv4_v4Text (a b c d : UInt8) {rest : List Char} (stops : Stops 10 rest) :
    readIpv4 (v4Text a b c d ++ rest) = some ((a, b, c, d), rest) := by
  have octet : ∀ (octet : UInt8) {rest : List Char}, Stops 10 rest →
      readNumber 10 3 false 256 (octetText octet ++ rest) = some (octet.toNat, rest) :=
    readNumber_octetText
  simp [readIpv4, readOctet, readSeparator, v4Text, octet _ (stops_dot _), octet _ stops]

/-- Where the decimal digits at the front of a text end. -/
def afterDigits (text : List Char) : List Char := text.dropWhile fun c => (toDigit 10 c).isSome

theorem readDigits_after {most value count v n : Nat} {text rest : List Char}
    (read : readDigits 10 most value count text = some (v, n, rest)) : rest = afterDigits text := by
  induction text generalizing value count with
  | nil =>
      cases read
      rfl
  | cons c text inductionHypothesis =>
      unfold readDigits at read
      cases digit : toDigit 10 c with
      | none =>
          rw [digit] at read
          cases read
          simp [afterDigits, digit]
      | some d =>
          rw [digit] at read
          rcases Option.ite_none_left_eq_some.mp read with ⟨_, onward⟩
          rw [inductionHypothesis onward]
          simp [afterDigits, digit]

theorem readNumber_after {most bound v : Nat} {allowZero : Bool} {text rest : List Char}
    (read : readNumber 10 most allowZero bound text = some (v, rest)) : rest = afterDigits text := by
  unfold readNumber at read
  split at read
  · cases read
  · next value count left digits =>
      have after := readDigits_after digits
      rcases Option.ite_none_left_eq_some.mp read with ⟨_, read⟩
      rcases Option.ite_none_left_eq_some.mp read with ⟨_, read⟩
      rcases Option.ite_none_right_eq_some.mp read with ⟨_, read⟩
      cases read
      exact after

/-- A text whose first number is not followed by a dot is no IPv4 address. -/
theorem readIpv4_none {text : List Char} (noDot : (afterDigits text).head? ≠ some '.') :
    readIpv4 text = none := by
  cases number : readNumber 10 3 false 256 text with
  | none => simp [readIpv4, readOctet, readSeparator, number]
  | some got =>
      rcases got with ⟨v, rest⟩
      have after := readNumber_after number
      rw [← after] at noDot
      cases rest with
      | nil => simp [readIpv4, readOctet, readSeparator, number]
      | cons c rest =>
          have other : c ≠ '.' := by
            rintro rfl
            exact noDot rfl
          simp [readIpv4, readOctet, readSeparator, number, other]

/-! ## IPv6 addresses -/

/-- The text behind some groups: the end, or a colon. -/
def Ends (rest : List Char) : Prop := rest = [] ∨ ∃ after, rest = ':' :: after

theorem Ends.stops {rest : List Char} (ends : Ends rest) {radix : Nat} : Stops radix rest := by
  rcases ends with rfl | ⟨after, rfl⟩
  · nofun
  · intro c first
    cases first
    rfl

theorem Ends.noDot {rest : List Char} (ends : Ends rest) : (afterDigits rest).head? ≠ some '.' := by
  rcases ends with rfl | ⟨after, rfl⟩
  · nofun
  · have colon : toDigit 10 ':' = none := rfl
    simp [afterDigits, colon]

theorem dot_not_mem_segmentText (segment : UInt16) : '.' ∉ segmentText segment := by
  intro inside
  rcases Text.mem_toDigits (by decide) inside with ⟨d, small, dot⟩
  have all : ∀ d < 16, '.' ≠ Nat.digitChar d := by decide
  exact all d small dot

/-- A group is not taken for the start of an IPv4 address. -/
theorem readIpv4_segment (segment : UInt16) {rest : List Char} (ends : Ends rest) :
    readIpv4 (segmentText segment ++ rest) = none := by
  refine readIpv4_none ?_
  have inText := dot_not_mem_segmentText segment
  unfold afterDigits
  rw [List.dropWhile_append]
  split
  · exact ends.noDot
  · next left =>
      intro first
      have nonempty : List.dropWhile (fun c => (toDigit 10 c).isSome) (segmentText segment) ≠ [] := by
        simpa using left
      rw [List.head?_append_of_ne_nil _ nonempty] at first
      exact inText ((List.dropWhile_suffix _).subset (List.mem_of_mem_head? first))

theorem readNumber_segment (segment : UInt16) {rest : List Char} (ends : Ends rest) :
    readNumber 16 4 true 65536 (segmentText segment ++ rest) = some (segment.toNat, rest) :=
  readNumber_toDigits (by decide) (by decide) (segmentText_length_le segment) segment.toNat_lt
    ends.stops (.inl rfl)

/-- The groups after the first one. -/
def tailText (segments : List UInt16) : List Char :=
  segments.flatMap fun segment => ':' :: segmentText segment

theorem fmtSubslice_cons (first : UInt16) (tail : List UInt16) :
    fmtSubslice (first :: tail) = segmentText first ++ tailText tail :=
  rfl

/-- Where the groups of a text end: at its own end, or at `::`. -/
def Closes (rest : List Char) : Prop := rest = [] ∨ ∃ after, rest = ':' :: ':' :: after

theorem Closes.ends {rest : List Char} (closes : Closes rest) : Ends rest := by
  rcases closes with rfl | ⟨after, rfl⟩
  · exact .inl rfl
  · exact .inr ⟨_, rfl⟩

theorem ends_tailText (segments : List UInt16) {rest : List Char} (closes : Closes rest) :
    Ends (tailText segments ++ rest) := by
  cases segments with
  | nil => exact closes.ends
  | cons segment segments => exact .inr ⟨_, rfl⟩

/-- Nothing more is read where the groups end. -/
theorem readGroups_closed (left index : Nat) {rest : List Char} (closes : Closes rest) :
    readGroups left index rest = ([], false, rest) := by
  cases left with
  | zero => rfl
  | succ left =>
      have colon : ∀ after, readIpv4 (':' :: after) = none :=
        fun after => readIpv4_none (Ends.noDot (.inr ⟨after, rfl⟩))
      have noNumber : ∀ after, readNumber 16 4 true 65536 (':' :: after) = none := fun _ => rfl
      have empty : readIpv4 [] = none := rfl
      have noEmpty : readNumber 16 4 true 65536 [] = none := rfl
      rcases closes with rfl | ⟨after, rfl⟩
      · by_cases first : 0 < index <;> simp [readGroups, readSeparator, first, empty, noEmpty]
      · by_cases first : 0 < index <;> simp [readGroups, readSeparator, first, colon, noNumber]

/-- One group is read, and the groups behind it. -/
theorem readGroups_segment (segment : UInt16) {left index : Nat} {text rest : List Char}
    (ends : Ends rest)
    (separated : ∀ {α : Type} (inner : List Char → Option (α × List Char)),
      readSeparator ':' index inner text = inner (segmentText segment ++ rest)) :
    readGroups (left + 1) index text =
      (segment :: (readGroups left (index + 1) rest).1, (readGroups left (index + 1) rest).2) := by
  rw [readGroups]
  simp only [separated, readIpv4_segment segment ends, readNumber_segment segment ends, ite_self,
    UInt16.ofNat_toNat]

theorem readGroups_tailText (segments : List UInt16) {left index : Nat} {rest : List Char}
    (later : 0 < index) (room : segments.length ≤ left) (closes : Closes rest) :
    readGroups left index (tailText segments ++ rest) = (segments, false, rest) := by
  induction segments generalizing left index with
  | nil => exact readGroups_closed left index closes
  | cons segment segments inductionHypothesis =>
      cases left with
      | zero => cases room
      | succ left =>
          have onward := inductionHypothesis (Nat.succ_pos index) (Nat.le_of_succ_le_succ room)
          rw [readGroups_segment segment (ends_tailText segments closes), onward]
          intro α inner
          simp [readSeparator, later, tailText]

/-- The groups of a part of an address are read back. -/
theorem readGroups_fmtSubslice (segments : List UInt16) {left : Nat} {rest : List Char}
    (room : segments.length ≤ left) (closes : Closes rest) :
    readGroups left 0 (fmtSubslice segments ++ rest) = (segments, false, rest) := by
  cases segments with
  | nil => exact readGroups_closed left 0 closes
  | cons first tail =>
      cases left with
      | zero => cases room
      | succ left =>
          have onward := readGroups_tailText tail (Nat.succ_pos 0) (Nat.le_of_succ_le_succ room) closes
          rw [readGroups_segment first (ends_tailText tail closes), onward]
          intro α inner
          simp [readSeparator, fmtSubslice_cons]

/-- A part of an address is not taken for an IPv4 address. -/
theorem readIpv4_fmtSubslice (segments : List UInt16) {rest : List Char} (closes : Closes rest) :
    readIpv4 (fmtSubslice segments ++ rest) = none := by
  cases segments with
  | nil => exact readIpv4_none closes.ends.noDot
  | cons first tail =>
      rw [fmtSubslice_cons, List.append_assoc]
      exact readIpv4_segment first (ends_tailText tail closes)

/-! ## The run of zeroes -/

/-- All segments in the run are zero. -/
def Span.Zero (span : Span) (segments : List UInt16) : Prop :=
  ∀ j, span.start ≤ j → j < span.start + span.len → segments[j]? = some 0

/-- The loop looks at what is behind `front`; the longest run and the current one hold zeroes only,
and the current one ends where the loop stands. -/
theorem zeroes_zero (segments front : List UInt16) {longest current : Span}
    (behind : longest.Zero (front ++ segments)) (here : current.Zero (front ++ segments))
    (ends : current.len = 0 ∨ current.start + current.len = front.length) :
    (zeroes front.length longest current segments).Zero (front ++ segments) := by
  induction segments generalizing front longest current with
  | nil => exact behind
  | cons segment rest inductionHypothesis =>
      have shift : front ++ segment :: rest = (front ++ [segment]) ++ rest := by simp
      have further : front.length + 1 = (front ++ [segment]).length := by simp
      unfold zeroes
      split
      · next zero =>
          generalize grown : ({ start := if current.len = 0 then front.length else current.start
                                len := current.len + 1 } : Span) = next
          have ending : next.start + next.len = (front ++ [segment]).length := by
            subst grown
            rw [← further]
            dsimp only
            split <;> omega
          have zeroNext : next.Zero (front ++ segment :: rest) := by
            subst grown
            intro j start stop
            dsimp only at start stop
            by_cases own : j = front.length
            · rw [own, List.getElem?_append_right (Nat.le_refl _), Nat.sub_self, zero]
              rfl
            · have before : current.len ≠ 0 := by
                intro empty
                rw [if_pos empty] at start stop
                omega
              rw [if_neg before] at start stop
              exact here j start (by omega)
          dsimp only
          rw [shift] at behind zeroNext ⊢
          rw [further]
          refine inductionHypothesis _ ?_ zeroNext (.inr ending)
          split
          · exact zeroNext
          · exact behind
      · rw [shift] at behind ⊢
        rw [further]
        exact inductionHypothesis _ behind (fun j _ stop => absurd stop (Nat.not_lt_zero j)) (.inl rfl)

/-- The run that is left out can be put back. -/
theorem zeroes_restored (segments : List UInt16) :
    segments.take (zeroes 0 {} {} segments).start ++
        List.replicate (zeroes 0 {} {} segments).len 0 ++
        segments.drop ((zeroes 0 {} {} segments).start + (zeroes 0 {} {} segments).len) =
      segments := by
  have nothing : ({} : Span).Zero segments := fun j _ stop => absurd stop (Nat.not_lt_zero j)
  have zero := zeroes_zero segments [] nothing nothing (.inl rfl)
  have inside := @zeroes_le segments 0 {} {} (Nat.le_refl 0) (.inl rfl)
  rw [List.nil_append, List.length_nil] at zero
  generalize zeroes 0 {} {} segments = span at zero inside
  have middle : List.replicate span.len 0 = (segments.drop span.start).take span.len := by
    refine List.ext_getElem? ?_
    intro j
    by_cases short : j < span.len
    · rw [List.getElem?_replicate_of_lt short, List.getElem?_take_of_lt short, List.getElem?_drop]
      exact (zero _ (Nat.le_add_right ..) (Nat.add_lt_add_left short _)).symm
    · rw [List.getElem?_eq_none (by simpa using short),
        List.getElem?_eq_none (by rw [List.length_take]; omega)]
  rw [middle, List.append_assoc, ← List.drop_drop, List.take_append_drop, List.take_append_drop]

/-! ## The round trip -/

theorem ofFn_getD (segments : Vector UInt16 8) :
    Vector.ofFn (fun i => segments.toList.getD i 0) = segments := by
  ext i small
  simp

theorem readIpv6_compressed {segments : List UInt16} (eight : segments.length = 8) :
    readIpv6 (compressed segments) = some (segments, []) := by
  have inside := @zeroes_le segments 0 {} {} (Nat.le_refl 0) (.inl rfl)
  have restored := zeroes_restored segments
  unfold compressed
  dsimp only
  generalize zeroes 0 {} {} segments = span at inside restored
  split
  · next long =>
      have front : (segments.take span.start).length = span.start := by
        rw [List.length_take]
        omega
      have back : (segments.drop (span.start + span.len)).length = 8 - span.start - span.len := by
        rw [List.length_drop]
        omega
      have head : readGroups 8 0 (fmtSubslice (segments.take span.start) ++
          ':' :: ':' :: fmtSubslice (segments.drop (span.start + span.len))) = _ :=
        readGroups_fmtSubslice _ (by omega) (.inr ⟨_, rfl⟩)
      have tail : readGroups (8 - (span.start + 1)) 0
          (fmtSubslice (segments.drop (span.start + span.len)) ++ []) = _ :=
        readGroups_fmtSubslice _ (by omega) (.inl rfl)
      rw [List.append_nil] at tail
      have notAll : span.start ≠ 8 := by omega
      have run : 8 - span.start - (8 - span.start - span.len) = span.len := by omega
      simp only [readIpv6, head, front, notAll, if_false, Bool.false_eq_true, tail, back, run, restored]
  · have all : readGroups 8 0 (fmtSubslice segments ++ []) = _ :=
      readGroups_fmtSubslice segments (by omega) (.inl rfl)
    rw [List.append_nil] at all
    simp only [readIpv6, all, eight, if_true]

theorem readIpv4_compressed (segments : List UInt16) : readIpv4 (compressed segments) = none := by
  unfold compressed
  dsimp only
  split
  · exact readIpv4_fmtSubslice _ (.inr ⟨_, rfl⟩)
  · have none : readIpv4 (fmtSubslice segments ++ []) = none :=
      readIpv4_fmtSubslice segments (.inl rfl)
    rwa [List.append_nil] at none

theorem group_halves (segment : UInt16) :
    group (segment >>> 8).toUInt8 segment.toUInt8 = segment := by
  have bound := segment.toNat_lt
  have high : (segment >>> 8).toUInt8.toNat = segment.toNat / 256 := by
    simp [Nat.shiftRight_eq_div_pow]
    omega
  have low : segment.toUInt8.toNat = segment.toNat % 256 := by simp
  unfold group
  rw [high, low, Nat.div_add_mod', UInt16.ofNat_toNat]

theorem v4Mapped_spec {segments : List UInt16} {a b c d : UInt8}
    (mapped : v4Mapped segments = some (a, b, c, d)) :
    segments = [0, 0, 0, 0, 0, 0xffff, group a b, group c d] := by
  unfold v4Mapped at mapped
  split at mapped
  · cases mapped
    rw [group_halves, group_halves]
  · cases mapped

/-- The text of a mapped address: `::`, one group, and an IPv4 address in place of the last two. -/
theorem readIpv6_mapped (a b c d : UInt8) :
    readIpv6 ("::ffff:".toList ++ v4Text a b c d) =
      some ([0, 0, 0, 0, 0, 0xffff, group a b, group c d], []) := by
  have stops : Stops 10 [] := nofun
  have ipv4 := readIpv4_v4Text a b c d stops
  rw [List.append_nil] at ipv4
  have last : readGroups 6 1 (':' :: v4Text a b c d) = ([group a b, group c d], true, []) := by
    rw [readGroups]
    simp [readSeparator, ipv4]
  have tail : readGroups 7 0 (segmentText 0xffff ++ ':' :: v4Text a b c d) =
      ([0xffff, group a b, group c d], true, []) := by
    rw [readGroups_segment 0xffff (.inr ⟨_, rfl⟩), last]
    intro α inner
    simp [readSeparator]
  have head : readGroups 8 0 (':' :: ':' :: (segmentText 0xffff ++ ':' :: v4Text a b c d)) = _ :=
    readGroups_closed 8 0 (.inr ⟨_, rfl⟩)
  have text : "::ffff:".toList ++ v4Text a b c d =
      ':' :: ':' :: (segmentText 0xffff ++ ':' :: v4Text a b c d) := rfl
  rw [text]
  simp only [readIpv6, head, List.length_nil, tail]
  rfl

/-- Every address is read back from its text. -/
theorem parse_text (ip : IpAddr) : parse ip.text = some ip := by
  have stops : Stops 10 [] := nofun
  cases ip with
  | v4 a b c d =>
      have read := readIpv4_v4Text a b c d stops
      rw [List.append_nil] at read
      simp only [parse, text, read]
  | v6 segments =>
      have restored := ofFn_getD segments
      cases mapped : v4Mapped segments.toList with
      | some octets =>
          rcases octets with ⟨a, b, c, d⟩
          have noIpv4 : readIpv4 ("::ffff:".toList ++ v4Text a b c d) = none :=
            readIpv4_none (Ends.noDot (.inr ⟨_, rfl⟩))
          rw [v4Mapped_spec mapped] at restored
          simp only [parse, text, mapped, noIpv4, readIpv6_mapped, restored]
      | none =>
          have eight : segments.toList.length = 8 := by simp
          simp only [parse, text, mapped, readIpv4_compressed, readIpv6_compressed eight, restored]

end Remgr.Lib.IpAddr
