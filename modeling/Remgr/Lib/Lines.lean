/-
Module: Remgr.Lib.Lines
Purpose: Lines of a text and signed numbers in it, as Rust's standard library reads them, with the
  lemmas by which a text is read line by line and a printed number is read back.
Trusted boundary: these definitions follow the documented behaviour of `str::lines`,
  `str::strip_prefix`, `str::contains`, `str::trim_end` and `str::parse` for signed integers
Main exports: stripPrefix, trimEnd, lines, parseSigned, decimal, lines_append, split_intercalate,
  parseSigned_decimal, parseUnsigned_toDigits, decimal_of_prefix
-/
import Mathlib.Algebra.Group.Int.Defs
import Mathlib.Data.List.TakeWhile
import Remgr.Lib.Text

namespace Remgr.Lib.Text

/-- `str::strip_prefix`. -/
def stripPrefix (front : List Char) (text : List Char) : Option (List Char) :=
  if front.isPrefixOf text then some (text.drop front.length) else none

/-- `str::contains` for a text. -/
def contains (needle text : List Char) : Bool := text.tails.any needle.isPrefixOf

/-- `str::trim_end`. -/
def trimEnd (text : List Char) : List Char := (text.reverse.dropWhile isWhitespace).reverse

/-- What `str::lines` takes off a line that a newline ended: one carriage return before it. -/
def stripReturn (line : List Char) : List Char :=
  if line.getLast? = some '\r' then line.dropLast else line

/-- `str::lines`: the last line needs no newline, and an empty last line is no line. -/
def lines (text : List Char) : List (List Char) :=
  let parts := split (· == '\n') text
  parts.dropLast.map stripReturn ++ parts.getLast?.toList.filter (· ≠ [])

/-- `str::parse` for a signed integer type of `width` bits: one sign may lead, at least one digit
follows, and a value that does not fit is an error. -/
def parseSigned (width : Nat) (text : List Char) : Option Int :=
  match text with
  | '-' :: rest =>
      if rest = [] then none
      else ((digits 0 rest).filter (· ≤ 2 ^ (width - 1))).map fun n : Nat => -(n : Int)
  | _ => (parseUnsigned (2 ^ (width - 1)) text).map fun n : Nat => (n : Int)

/-- A number as it is printed in base ten. -/
def decimal (v : Int) : List Char :=
  if v < 0 then '-' :: Nat.toDigits 10 v.natAbs else Nat.toDigits 10 v.natAbs

/-! ### Reading a printed number -/

theorem digits_append (value : Nat) (front back : List Char) :
    digits value (front ++ back) = (digits value front).bind (digits · back) := by
  induction front generalizing value with
  | nil => rfl
  | cons c front inductionHypothesis =>
      simp only [List.cons_append, digits]
      split
      · exact inductionHypothesis _
      · rfl

theorem digits_digitChar {value d : Nat} (small : d < 10) :
    digits value [d.digitChar] = some (10 * value + d) := by
  have table : ∀ d < 10, '0' ≤ d.digitChar ∧ d.digitChar ≤ '9' ∧ d.digitChar.toNat - 48 = d := by
    decide
  obtain ⟨low, high, isDigit⟩ := table d small
  simp only [digits, low, high, and_self, if_true, isDigit]

theorem digits_toDigits (n : Nat) : digits 0 (Nat.toDigits 10 n) = some n := by
  induction n using Nat.strongRecOn with
  | ind n inductionHypothesis =>
      rw [Nat.toDigits_eq_if (by decide)]
      split
      · next small =>
          rw [digits_digitChar small, Nat.mul_zero, Nat.zero_add]
      · next large =>
          rw [digits_append, inductionHypothesis (n / 10) (by omega), Option.bind_some,
            digits_digitChar (Nat.mod_lt n (by decide)), Nat.div_add_mod]

/-- Further digits only make a number larger. -/
theorem le_of_digits {value n : Nat} {text : List Char} (read : digits value text = some n) :
    value * 10 ^ text.length ≤ n := by
  induction text generalizing value with
  | nil =>
      simp only [digits, Option.some.injEq] at read
      simp [read]
  | cons c text inductionHypothesis =>
      rw [digits] at read
      split at read
      · calc value * 10 ^ (text.length + 1) = 10 * value * 10 ^ text.length := by
              rw [Nat.pow_succ]; ac_rfl
          _ ≤ (10 * value + (c.toNat - 48)) * 10 ^ text.length :=
              Nat.mul_le_mul_right _ (Nat.le_add_right _ _)
          _ ≤ n := inductionHypothesis read
      · cases read

theorem toDigits_ne_nil (n : Nat) : Nat.toDigits 10 n ≠ [] := by
  rw [Nat.toDigits_eq_if (by decide)]
  split <;> simp

theorem mem_decimalDigits {n : Nat} {c : Char} (inside : c ∈ Nat.toDigits 10 n) :
    48 ≤ c.toNat ∧ c.toNat ≤ 57 := by
  obtain ⟨d, small, rfl⟩ := mem_toDigits (by decide) inside
  have table : ∀ d < 10, 48 ≤ d.digitChar.toNat ∧ d.digitChar.toNat ≤ 57 := by decide
  exact table d small

theorem mem_decimal {v : Int} {c : Char} (inside : c ∈ decimal v) :
    c = '-' ∨ 48 ≤ c.toNat ∧ c.toNat ≤ 57 := by
  unfold decimal at inside
  split at inside
  · rcases List.mem_cons.mp inside with sign | digit
    · exact .inl sign
    · exact .inr (mem_decimalDigits digit)
  · exact .inr (mem_decimalDigits inside)

theorem parseUnsigned_of_head {bound : Nat} {text : List Char} (filled : text ≠ [])
    (unsigned : text.head? ≠ some '+') :
    parseUnsigned bound text = (digits 0 text).filter (· < bound) := by
  simp only [parseUnsigned]
  split
  · next rest => exact absurd rfl unsigned
  · rw [if_neg filled]

theorem head_toDigits {n : Nat} {sign : Char} (mark : sign.toNat < 48) :
    (Nat.toDigits 10 n).head? ≠ some sign := by
  intro first
  have digit := mem_decimalDigits (List.mem_of_head? first)
  omega

theorem parseUnsigned_toDigits {bound n : Nat} (fits : n < bound) :
    parseUnsigned bound (Nat.toDigits 10 n) = some n := by
  rw [parseUnsigned_of_head (toDigits_ne_nil n) (head_toDigits (by decide)), digits_toDigits]
  exact Option.filter_some_pos (by simpa using fits)

theorem parseSigned_of_head {width : Nat} {text : List Char} (unsigned : text.head? ≠ some '-') :
    parseSigned width text = (parseUnsigned (2 ^ (width - 1)) text).map fun n : Nat => (n : Int) := by
  unfold parseSigned
  split
  · exact absurd rfl unsigned
  · rfl

theorem parseSigned_decimal {width : Nat} {v : Int} (low : -2 ^ (width - 1) ≤ v)
    (high : v < 2 ^ (width - 1)) : parseSigned width (decimal v) = some v := by
  have power : ((2 ^ (width - 1) : Nat) : Int) = 2 ^ (width - 1) := Int.natCast_pow 2 (width - 1)
  unfold decimal
  split
  · next negative =>
      have fits : v.natAbs ≤ 2 ^ (width - 1) := by omega
      simp only [parseSigned, toDigits_ne_nil, if_false, digits_toDigits, Option.filter, fits,
        decide_true, if_true, Option.map_some, Option.some.injEq]
      omega
  · next positive =>
      have fits : v.natAbs < 2 ^ (width - 1) := by omega
      rw [parseSigned_of_head (head_toDigits (by decide)), parseUnsigned_toDigits fits,
        Option.map_some, Option.some.injEq]
      omega

/-- A number cut short is another number. -/
theorem eq_nil_of_digits {n : Nat} {front back : List Char}
    (printed : front ++ back = Nat.toDigits 10 n) (filled : front ≠ [])
    (read : digits 0 front = some n) : back = [] := by
  have whole : digits n back = some n := by
    have all := digits_toDigits n
    rwa [← printed, digits_append, read] at all
  rcases Nat.eq_zero_or_pos n with rfl | positive
  · have single : front ++ back = ['0'] := printed
    rcases List.append_eq_singleton_iff.mp single with ⟨empty, -⟩ | ⟨-, empty⟩
    · exact absurd empty filled
    · exact empty
  · have bound := le_of_digits whole
    by_contra more
    have longer : 10 ^ 1 ≤ 10 ^ back.length :=
      Nat.pow_le_pow_right (by decide) (List.length_pos_iff.mpr more)
    have := Nat.mul_le_mul_left n longer
    omega

theorem decimal_of_prefix {width : Nat} {v : Int} {front back : List Char}
    (printed : front ++ back = decimal v) (read : parseSigned width front = some v) : back = [] := by
  cases front with
  | nil => cases read
  | cons c front =>
      unfold decimal at printed
      split at printed
      · next negative =>
          obtain ⟨rfl, tail⟩ := List.cons.inj printed
          simp only [parseSigned] at read
          split at read
          · cases read
          · next filled =>
              obtain ⟨n, number, value⟩ := Option.map_eq_some_iff.mp read
              have same : n = v.natAbs := by omega
              obtain ⟨number, -⟩ := Option.filter_eq_some_iff.mp number
              exact eq_nil_of_digits tail filled (same ▸ number)
      · next positive =>
          have first : (Nat.toDigits 10 v.natAbs).head? = some c := by rw [← printed]; rfl
          have unsigned : c ≠ '-' ∧ c ≠ '+' := by
            constructor <;> rintro rfl <;> exact head_toDigits (by decide) first
          rw [parseSigned_of_head (by simpa using unsigned.1)] at read
          obtain ⟨n, number, value⟩ := Option.map_eq_some_iff.mp read
          have same : n = v.natAbs := by omega
          rw [parseUnsigned_of_head (List.cons_ne_nil c front) (by simpa using unsigned.2)] at number
          obtain ⟨number, -⟩ := Option.filter_eq_some_iff.mp number
          exact eq_nil_of_digits printed (List.cons_ne_nil c front) (same ▸ number)

theorem lt_of_parseUnsigned {bound n : Nat} {text : List Char}
    (read : parseUnsigned bound text = some n) : n < bound := by
  unfold parseUnsigned at read
  obtain ⟨-, number⟩ := Option.ite_none_left_eq_some.mp read
  simpa using (Option.filter_eq_some_iff.mp number).2

theorem parseUnsigned_mono {bound larger n : Nat} {text : List Char} (wider : bound ≤ larger)
    (read : parseUnsigned bound text = some n) : parseUnsigned larger text = some n := by
  unfold parseUnsigned at read ⊢
  obtain ⟨filled, number⟩ := Option.ite_none_left_eq_some.mp read
  obtain ⟨digits, fits⟩ := Option.filter_eq_some_iff.mp number
  have room : n < larger := Nat.lt_of_lt_of_le (by simpa using fits) wider
  rw [if_neg filled]
  exact Option.filter_eq_some_iff.mpr ⟨digits, decide_eq_true room⟩

theorem parseSigned_range {width : Nat} {text : List Char} {v : Int}
    (read : parseSigned width text = some v) : -2 ^ (width - 1) ≤ v ∧ v < 2 ^ (width - 1) := by
  have positive : (0 : Int) < 2 ^ (width - 1) := Int.pow_pos (by decide)
  unfold parseSigned at read
  split at read
  · split at read
    · cases read
    · obtain ⟨n, number, rfl⟩ := Option.map_eq_some_iff.mp read
      have fits : n ≤ 2 ^ (width - 1) := by simpa using (Option.filter_eq_some_iff.mp number).2
      have : (n : Int) ≤ 2 ^ (width - 1) := by exact_mod_cast fits
      omega
  · obtain ⟨n, number, rfl⟩ := Option.map_eq_some_iff.mp read
    have fits := lt_of_parseUnsigned number
    have : (n : Int) < 2 ^ (width - 1) := by exact_mod_cast fits
    omega

/-! ### Parts of a text -/

theorem stripPrefix_eq_some_iff {front text rest : List Char} :
    stripPrefix front text = some rest ↔ text = front ++ rest := by
  unfold stripPrefix
  constructor
  · intro stripped
    obtain ⟨isPrefix, same⟩ := Option.ite_none_right_eq_some.mp stripped
    obtain ⟨tail, rfl⟩ := List.isPrefixOf_iff_prefix.mp isPrefix
    rw [List.drop_left, Option.some.injEq] at same
    rw [same]
  · rintro rfl
    rw [if_pos (List.isPrefixOf_iff_prefix.mpr (List.prefix_append front rest)), List.drop_left]

theorem splitOnce_eq_some_iff {separator : Char} {text front back : List Char} :
    splitOnce separator text = some (front, back) ↔
      text = front ++ separator :: back ∧ separator ∉ front := by
  induction text generalizing front with
  | nil => simp [splitOnce]
  | cons c text inductionHypothesis =>
      rw [splitOnce]
      split
      · next here =>
          subst here
          cases front with
          | nil => simp
          | cons d front =>
              simp only [Option.some.injEq, Prod.mk.injEq, reduceCtorEq, false_and, List.cons_append,
                List.cons.injEq, List.mem_cons, false_iff, not_and, not_or, Classical.not_not]
              rintro ⟨rfl, -⟩ different
              exact absurd rfl different
      · next further =>
          cases front with
          | nil =>
              simp only [Option.map_eq_some_iff, Prod.mk.injEq, reduceCtorEq, false_and, and_false,
                exists_false, List.nil_append, List.cons.injEq, further, List.not_mem_nil,
                not_false_eq_true, and_true]
          | cons d front =>
              simp only [Option.map_eq_some_iff, Prod.mk.injEq, List.cons.injEq, Prod.exists,
                List.cons_append, List.mem_cons, not_or]
              constructor
              · rintro ⟨a, b, halves, ⟨rfl, rfl⟩, rfl⟩
                obtain ⟨rfl, clear⟩ := inductionHypothesis.mp halves
                exact ⟨⟨rfl, rfl⟩, fun same => further same.symm, clear⟩
              · rintro ⟨⟨rfl, rfl⟩, -, clear⟩
                exact ⟨front, back, inductionHypothesis.mpr ⟨rfl, clear⟩, ⟨rfl, rfl⟩, rfl⟩

@[simp] theorem stripPrefix_append (front rest : List Char) :
    stripPrefix front (front ++ rest) = some rest :=
  stripPrefix_eq_some_iff.mpr rfl

theorem splitOnce_append {separator : Char} {front : List Char} (clear : separator ∉ front)
    (back : List Char) : splitOnce separator (front ++ separator :: back) = some (front, back) :=
  splitOnce_eq_some_iff.mpr ⟨rfl, clear⟩

/-- Text before the first separator can be read off a text in one way only. -/
theorem append_separator_inj {separator : Char} {a b x y : List Char} (clearA : separator ∉ a)
    (clearB : separator ∉ b) (same : a ++ separator :: x = b ++ separator :: y) : a = b ∧ x = y := by
  have first := splitOnce_eq_some_iff.mpr ⟨same.symm, clearA⟩
  have halves := Option.some.inj (first.symm.trans (splitOnce_append clearB y))
  exact ⟨congrArg Prod.fst halves, congrArg Prod.snd halves⟩

theorem trimEnd_of_plain {text : List Char} (plain : ∀ c ∈ text, isWhitespace c = false) :
    trimEnd text = text := by
  have kept : text.reverse.dropWhile isWhitespace = text.reverse := by
    rw [List.dropWhile_eq_self_iff]
    intro filled
    rw [plain _ (List.mem_reverse.mp (List.getElem_mem filled))]
    exact Bool.false_ne_true
  rw [trimEnd, kept, List.reverse_reverse]

/-! ### Lines -/

theorem split_ne_nil (separator : Char → Bool) (text : List Char) : split separator text ≠ [] := by
  cases text with
  | nil => exact List.cons_ne_nil _ _
  | cons c rest =>
      rw [split]
      split
      · exact List.cons_ne_nil _ _
      · split <;> exact List.cons_ne_nil _ _

theorem split_append (separator : Char → Bool) {mark : Char} (marks : separator mark = true)
    (front back : List Char) :
    split separator (front ++ mark :: back) = split separator front ++ split separator back := by
  induction front with
  | nil => simp only [List.nil_append, split, marks, if_true, List.singleton_append]
  | cons c front inductionHypothesis =>
      simp only [List.cons_append, split, inductionHypothesis]
      split
      · rfl
      · cases parts : split separator front with
        | nil => exact absurd parts (split_ne_nil separator front)
        | cons part parts => rfl

theorem split_of_plain (separator : Char → Bool) {text : List Char}
    (plain : ∀ c ∈ text, separator c = false) : split separator text = [text] := by
  induction text with
  | nil => rfl
  | cons c text inductionHypothesis =>
      have rest := inductionHypothesis fun d inside => plain d (List.mem_cons_of_mem c inside)
      simp [split, plain c List.mem_cons_self, rest]

/-- Texts joined by a separator that none of them holds are the parts. -/
theorem split_intercalate (separator : Char → Bool) {mark : Char} (marks : separator mark = true)
    {texts : List (List Char)} (filled : texts ≠ [])
    (plain : ∀ text ∈ texts, ∀ c ∈ text, separator c = false) :
    split separator ([mark].intercalate texts) = texts := by
  induction texts with
  | nil => exact absurd rfl filled
  | cons text rest inductionHypothesis =>
      have first := plain text List.mem_cons_self
      cases rest with
      | nil => rw [List.intercalate_singleton, split_of_plain separator first]
      | cons next rest =>
          have others := inductionHypothesis (List.cons_ne_nil next rest)
            fun part inside => plain part (List.mem_cons_of_mem text inside)
          rw [List.intercalate_cons_cons, List.append_assoc, List.singleton_append,
            split_append separator marks, split_of_plain separator first, others,
            List.singleton_append]

/-- No part holds a separator. -/
theorem plain_of_mem_split {separator : Char → Bool} {text part : List Char}
    (inside : part ∈ split separator text) : ∀ c ∈ part, separator c = false := by
  induction text generalizing part with
  | nil =>
      rw [split, List.mem_singleton] at inside
      subst inside
      nofun
  | cons c text inductionHypothesis =>
      rw [split] at inside
      split at inside
      · rcases List.mem_cons.mp inside with rfl | later
        · nofun
        · exact inductionHypothesis later
      · next unmarked =>
          cases parts : split separator text with
          | nil => exact absurd parts (split_ne_nil separator text)
          | cons first others =>
              rw [parts] at inside inductionHypothesis
              rcases List.mem_cons.mp inside with rfl | later
              · rw [List.forall_mem_cons]
                exact ⟨Bool.eq_false_iff.mpr unmarked, inductionHypothesis List.mem_cons_self⟩
              · exact inductionHypothesis (List.mem_cons_of_mem first later)

theorem lines_append (front back : List Char) :
    lines (front ++ '\n' :: back) = (split (· == '\n') front).map stripReturn ++ lines back := by
  unfold lines
  rw [split_append _ rfl]
  simp only [List.dropLast_append_of_ne_nil (split_ne_nil _ back), List.map_append,
    List.getLast?_append_of_ne_nil _ (split_ne_nil _ back), List.append_assoc]

theorem lines_of_plain {text : List Char} (plain : ∀ c ∈ text, c ≠ '\n') (filled : text ≠ []) :
    lines text = [text] := by
  unfold lines
  rw [split_of_plain _ fun c inside => beq_false_of_ne (plain c inside)]
  simp [filled]

@[simp] theorem lines_nil : lines [] = [] := rfl

theorem mem_of_mem_split {separator : Char → Bool} {text part : List Char} {c : Char}
    (inside : part ∈ split separator text) (here : c ∈ part) : c ∈ text := by
  induction text generalizing part with
  | nil =>
      rw [split, List.mem_singleton] at inside
      exact inside ▸ here
  | cons d text inductionHypothesis =>
      rw [split] at inside
      split at inside
      · rcases List.mem_cons.mp inside with rfl | later
        · cases here
        · exact List.mem_cons_of_mem d (inductionHypothesis later here)
      · cases parts : split separator text with
        | nil => exact absurd parts (split_ne_nil separator text)
        | cons first others =>
            rw [parts] at inside inductionHypothesis
            rcases List.mem_cons.mp inside with rfl | later
            · rcases List.mem_cons.mp here with rfl | further
              · exact List.mem_cons_self
              · exact List.mem_cons_of_mem d (inductionHypothesis List.mem_cons_self further)
            · exact List.mem_cons_of_mem d
                (inductionHypothesis (List.mem_cons_of_mem first later) here)

theorem mem_of_mem_stripReturn {line : List Char} {c : Char} (here : c ∈ stripReturn line) :
    c ∈ line := by
  unfold stripReturn at here
  split at here
  · exact List.dropLast_subset line here
  · exact here

/-- Every character of a line is one of the text's. -/
theorem mem_of_mem_lines {text line : List Char} {c : Char} (inside : line ∈ lines text)
    (here : c ∈ line) : c ∈ text := by
  rcases List.mem_append.mp inside with closed | last
  · obtain ⟨part, isPart, rfl⟩ := List.mem_map.mp closed
    exact mem_of_mem_split (List.dropLast_subset _ isPart) (mem_of_mem_stripReturn here)
  · have isPart : line ∈ (split (· == '\n') text).getLast? := by
      simpa using (List.mem_filter.mp last).1
    exact mem_of_mem_split (List.mem_of_getLast? isPart) here

example : lines "signal 1\nsignal 15\r\n".toList = ["signal 1".toList, "signal 15".toList] := by
  decide
example : parseSigned 32 "-2147483648".toList = some (-2147483648) := by decide
example : parseSigned 32 "2147483648".toList = none := by decide

end Remgr.Lib.Text
