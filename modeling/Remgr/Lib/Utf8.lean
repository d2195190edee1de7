/-
Module: Remgr.Lib.Utf8
Purpose: Bytes read as text where not every byte sequence is text: each maximal invalid part becomes
  one replacement character.
Trusted boundary: `fromUtf8Lossy` follows the documented behaviour of `String::from_utf8_lossy`
Main exports: fromUtf8Lossy, asciiChar, asciiByte, fromUtf8Lossy_of_ascii, map_asciiChar
-/
import Mathlib.Data.List.Basic

namespace Remgr.Lib

/-- A byte `10xxxxxx`. -/
def continuation (b : UInt8) : Bool := 0x80 ≤ b && b ≤ 0xBF

/-- The second bytes that may follow the first byte of a sequence of three or four. The narrower
ranges keep out overlong forms, surrogates and values past the last code point. -/
def secondByte (first second : UInt8) : Bool :=
  if first = 0xE0 then 0xA0 ≤ second && second ≤ 0xBF
  else if first = 0xED then 0x80 ≤ second && second ≤ 0x9F
  else if first = 0xF0 then 0x90 ≤ second && second ≤ 0xBF
  else if first = 0xF4 then 0x80 ≤ second && second ≤ 0x8F
  else continuation second

/-- The six bits a continuation byte carries. -/
def payload (b : UInt8) : Nat := b.toNat % 64

/-- `String::from_utf8_lossy`. -/
def fromUtf8Lossy : List UInt8 → List Char
  | [] => []
  | a :: rest =>
      if a < 0x80 then Char.ofNat a.toNat :: fromUtf8Lossy rest
      else if 0xC2 ≤ a ∧ a ≤ 0xDF then
        match rest with
        | b :: tail =>
            if continuation b then
              Char.ofNat (a.toNat % 32 * 64 + payload b) :: fromUtf8Lossy tail
            else '\uFFFD' :: fromUtf8Lossy (b :: tail)
        | [] => ['\uFFFD']
      else if 0xE0 ≤ a ∧ a ≤ 0xEF then
        match rest with
        | b :: c :: tail =>
            if !secondByte a b then '\uFFFD' :: fromUtf8Lossy (b :: c :: tail)
            else if continuation c then
              Char.ofNat (a.toNat % 16 * 4096 + payload b * 64 + payload c) :: fromUtf8Lossy tail
            else '\uFFFD' :: fromUtf8Lossy (c :: tail)
        | [b] => if secondByte a b then ['\uFFFD'] else '\uFFFD' :: fromUtf8Lossy [b]
        | [] => ['\uFFFD']
      else if 0xF0 ≤ a ∧ a ≤ 0xF4 then
        match rest with
        | b :: c :: d :: tail =>
            if !secondByte a b then '\uFFFD' :: fromUtf8Lossy (b :: c :: d :: tail)
            else if !continuation c then '\uFFFD' :: fromUtf8Lossy (c :: d :: tail)
            else if continuation d then
              Char.ofNat (a.toNat % 8 * 262144 + payload b * 4096 + payload c * 64 + payload d) ::
                fromUtf8Lossy tail
            else '\uFFFD' :: fromUtf8Lossy (d :: tail)
        | [b, c] =>
            if !secondByte a b then '\uFFFD' :: fromUtf8Lossy [b, c]
            else if continuation c then ['\uFFFD']
            else '\uFFFD' :: fromUtf8Lossy [c]
        | [b] => if secondByte a b then ['\uFFFD'] else '\uFFFD' :: fromUtf8Lossy [b]
        | [] => ['\uFFFD']
      else '\uFFFD' :: fromUtf8Lossy rest

/-- The byte of an ASCII character. -/
def asciiByte (c : Char) : UInt8 := .ofNat c.toNat

/-- The character of an ASCII byte. -/
def asciiChar (b : UInt8) : Char := .ofNat b.toNat

theorem fromUtf8Lossy_of_ascii {bytes : List UInt8} (ascii : ∀ b ∈ bytes, b < 0x80) :
    fromUtf8Lossy bytes = bytes.map asciiChar := by
  induction bytes with
  | nil => rfl
  | cons b bytes inductionHypothesis =>
      rw [fromUtf8Lossy.eq_def]
      simp only [ascii b List.mem_cons_self, if_true, List.map_cons, asciiChar, List.cons.injEq,
        true_and]
      exact inductionHypothesis fun d inside => ascii d (List.mem_cons_of_mem b inside)

theorem asciiChar_asciiByte {c : Char} (ascii : c.toNat < 128) : asciiChar (asciiByte c) = c := by
  have small : c.toNat % 256 = c.toNat := Nat.mod_eq_of_lt (by omega)
  simp only [asciiChar, asciiByte, UInt8.toNat_ofNat', Nat.reducePow, small, Char.ofNat_toNat]

theorem map_asciiChar {text : List Char} (ascii : ∀ c ∈ text, c.toNat < 128) :
    (text.map asciiByte).map asciiChar = text := by
  rw [List.map_map]
  calc text.map (asciiChar ∘ asciiByte) = text.map id :=
        List.map_congr_left fun c inside => asciiChar_asciiByte (ascii c inside)
    _ = text := List.map_id text

example : fromUtf8Lossy [0x41, 0xC3, 0xA9, 0xE2, 0x82, 0x42] = ['A', 'é', '\uFFFD', 'B'] := by decide

end Remgr.Lib
