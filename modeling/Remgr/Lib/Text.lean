/-
Module: Remgr.Lib.Text
Purpose: The few text functions of Rust's standard library that configuration and version strings
  go through, over lists of characters.
Trusted boundary: these definitions follow the documented behaviour of `str::trim`, `str::split`,
  `str::split_once` and `str::parse` for unsigned integers
Main exports: trim, split, splitOnce, parseUnsigned, mem_toDigits
-/
import Mathlib.Algebra.GroupWithZero.Nat
import Mathlib.Data.List.Basic

namespace Remgr.Lib.Text

/-- `char::is_whitespace`: the Unicode property `White_Space`. -/
def isWhitespace (c : Char) : Bool :=
  let n := c.toNat
  (9 ≤ n && n ≤ 13) || n == 0x20 || n == 0x85 || n == 0xA0 || n == 0x1680 ||
    (0x2000 ≤ n && n ≤ 0x200A) || n == 0x2028 || n == 0x2029 || n == 0x202F || n == 0x205F ||
    n == 0x3000

/-- `str::trim`. -/
def trim (text : List Char) : List Char :=
  ((text.dropWhile isWhitespace).reverse.dropWhile isWhitespace).reverse

/-- `str::split`: always at least one part, and an empty one between adjacent separators. -/
def split (separator : Char → Bool) : List Char → List (List Char)
  | [] => [[]]
  | c :: rest =>
      if separator c then [] :: split separator rest
      else
        match split separator rest with
        | [] => [[c]]
        | part :: parts => (c :: part) :: parts

/-- `str::split_once`: the text before and after the first separator. -/
def splitOnce (separator : Char) : List Char → Option (List Char × List Char)
  | [] => none
  | c :: rest =>
      if c = separator then some ([], rest)
      else (splitOnce separator rest).map fun halves => (c :: halves.1, halves.2)

/-- The value of a run of decimal digits. -/
def digits : Nat → List Char → Option Nat
  | value, [] => some value
  | value, c :: rest =>
      if '0' ≤ c ∧ c ≤ '9' then digits (10 * value + (c.toNat - 48)) rest else none

/-- `str::parse` for an unsigned integer type with `bound` values: a `+` may lead, at least one
digit follows, and a value that does not fit is an error. -/
def parseUnsigned (bound : Nat) (text : List Char) : Option Nat :=
  let number := match text with
    | '+' :: rest => rest
    | _ => text
  if number = [] then none
  else (digits 0 number).filter (· < bound)

/-- Every character of a printed number is the digit of some value below the base. -/
theorem mem_toDigits {base n : Nat} (two : 1 < base) {c : Char} (inside : c ∈ Nat.toDigits base n) :
    ∃ d < base, c = d.digitChar := by
  induction n using Nat.strongRecOn with
  | ind n inductionHypothesis =>
      rw [Nat.toDigits_eq_if two] at inside
      split at inside
      · next small =>
          exact ⟨n, small, List.mem_singleton.mp inside⟩
      · next large =>
          rcases List.mem_append.mp inside with front | last
          · exact inductionHypothesis (n / base) (Nat.div_lt_self (by omega) two) front
          · exact ⟨n % base, Nat.mod_lt n (by omega), List.mem_singleton.mp last⟩

example : parseUnsigned 65536 "6000".toList = some 6000 := by decide
example : parseUnsigned 65536 "65536".toList = none := by decide
example : split (· == ',') "6000-6100,7000".toList = ["6000-6100".toList, "7000".toList] := by
  decide

end Remgr.Lib.Text
