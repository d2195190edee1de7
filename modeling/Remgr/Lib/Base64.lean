/-
Module: Remgr.Lib.Base64
Purpose: Base64 in the standard alphabet with padding, and its strict decoder.
Trusted boundary: `encode` and `decode` follow the documented standard encoding: the padding is
  required, and the bits it stands for are zero
Main exports: Base64.encode, Base64.encode_length, Base64.mem_encode, Base64.decode,
  Base64.decode_encode
-/
import Mathlib.Data.List.GetD

namespace Remgr.Lib.Base64

def alphabet : List Char :=
  "ABCDEFGHIJKLMNOPQRSTUVWXYZabcdefghijklmnopqrstuvwxyz0123456789+/".toList

/-- The character of a six-bit value. -/
def sextet (value : Nat) : Char := alphabet.getD value '='

/-- Three bytes at a time; what is left at the end is padded. -/
def encode : List UInt8 → List Char
  | [] => []
  | [a] => [sextet (a.toNat / 4), sextet (a.toNat % 4 * 16), '=', '=']
  | [a, b] =>
      [sextet (a.toNat / 4), sextet (a.toNat % 4 * 16 + b.toNat / 16),
        sextet (b.toNat % 16 * 4), '=']
  | a :: b :: c :: rest =>
      sextet (a.toNat / 4) :: sextet (a.toNat % 4 * 16 + b.toNat / 16) ::
        sextet (b.toNat % 16 * 4 + c.toNat / 64) :: sextet (c.toNat % 64) :: encode rest

theorem encode_length (bytes : List UInt8) :
    (encode bytes).length = 4 * ((bytes.length + 2) / 3) := by
  induction bytes using encode.induct with
  | case1 => rfl
  | case2 a => simp [encode]
  | case3 a b => simp [encode]
  | case4 a b c rest inductionHypothesis =>
      simp only [encode, List.length_cons, inductionHypothesis]
      omega

theorem mem_sextet (value : Nat) : sextet value ∈ '=' :: alphabet := by
  unfold sextet
  by_cases small : value < alphabet.length
  · rw [List.getD_eq_getElem _ _ small]
    exact List.mem_cons_of_mem _ (List.getElem_mem small)
  · rw [List.getD_eq_default _ _ (Nat.le_of_not_lt small)]
    exact List.mem_cons_self ..

theorem mem_encode {bytes : List UInt8} {c : Char} (inside : c ∈ encode bytes) :
    c ∈ '=' :: alphabet := by
  have padding : '=' ∈ '=' :: alphabet := List.mem_cons_self ..
  induction bytes using encode.induct with
  | case1 => cases inside
  | case2 a =>
      simp only [encode, List.mem_cons, List.not_mem_nil, or_false] at inside
      rcases inside with rfl | rfl | rfl | rfl
      · exact mem_sextet _
      · exact mem_sextet _
      · exact padding
      · exact padding
  | case3 a b =>
      simp only [encode, List.mem_cons, List.not_mem_nil, or_false] at inside
      rcases inside with rfl | rfl | rfl | rfl
      · exact mem_sextet _
      · exact mem_sextet _
      · exact mem_sextet _
      · exact padding
  | case4 a b c rest inductionHypothesis =>
      rw [encode, List.mem_cons, List.mem_cons, List.mem_cons, List.mem_cons] at inside
      rcases inside with rfl | rfl | rfl | rfl | later
      · exact mem_sextet _
      · exact mem_sextet _
      · exact mem_sextet _
      · exact mem_sextet _
      · exact inductionHypothesis later

example : encode [77, 97, 110, 77] = "TWFuTQ==".toList := by decide

/-! ## Decoding -/

/-- The six-bit value of a character. -/
def value (c : Char) : Option Nat :=
  if c ∈ alphabet then some (alphabet.idxOf c) else none

/-- The last group, when it is padded: one byte or two. -/
def decodePadded (w x y : Char) : Option (List UInt8) := do
  let first ← value w
  let second ← value x
  if y = '=' then
    if second % 16 = 0 then some [.ofNat (first * 4 + second / 16)] else none
  else do
    let third ← value y
    if third % 4 = 0 then
      some [.ofNat (first * 4 + second / 16), .ofNat (second % 16 * 16 + third / 4)]
    else none

/-- Four characters at a time; only the last group may be padded. -/
def decode : List Char → Option (List UInt8)
  | [] => some []
  | w :: x :: y :: z :: rest =>
      if z = '=' then
        if rest = [] then decodePadded w x y else none
      else do
        let first ← value w
        let second ← value x
        let third ← value y
        let fourth ← value z
        let bytes ← decode rest
        some (.ofNat (first * 4 + second / 16) :: .ofNat (second % 16 * 16 + third / 4) ::
          .ofNat (third % 4 * 64 + fourth) :: bytes)
  | _ => none

theorem value_sextet {n : Nat} (small : n < 64) : value (sextet n) = some n := by
  have all : ∀ n < 64, value (sextet n) = some n := by decide +kernel
  exact all n small

theorem sextet_ne_padding {n : Nat} (small : n < 64) : sextet n ≠ '=' := by
  have all : ∀ n < 64, sextet n ≠ '=' := by decide +kernel
  exact all n small

/-! The bytes of a group, put together again; `x` and `y` are what the next byte adds to a sextet. -/

theorem first_byte (a : UInt8) {x : Nat} (small : x < 16) :
    UInt8.ofNat (a.toNat / 4 * 4 + (a.toNat % 4 * 16 + x) / 16) = a := by
  have same : a.toNat / 4 * 4 + (a.toNat % 4 * 16 + x) / 16 = a.toNat := by omega
  rw [same, UInt8.ofNat_toNat]

theorem second_byte (a b : UInt8) {y : Nat} (small : y < 4) :
    UInt8.ofNat ((a.toNat % 4 * 16 + b.toNat / 16) % 16 * 16 + (b.toNat % 16 * 4 + y) / 4) = b := by
  have bound := b.toNat_lt
  have same : (a.toNat % 4 * 16 + b.toNat / 16) % 16 * 16 + (b.toNat % 16 * 4 + y) / 4 =
      b.toNat := by omega
  rw [same, UInt8.ofNat_toNat]

theorem third_byte (b c : UInt8) :
    UInt8.ofNat ((b.toNat % 16 * 4 + c.toNat / 64) % 4 * 64 + c.toNat % 64) = c := by
  have bound := c.toNat_lt
  have same : (b.toNat % 16 * 4 + c.toNat / 64) % 4 * 64 + c.toNat % 64 = c.toNat := by omega
  rw [same, UInt8.ofNat_toNat]

/-- What was encoded is decoded. -/
theorem decode_encode (bytes : List UInt8) : decode (encode bytes) = some bytes := by
  induction bytes using encode.induct with
  | case1 => rfl
  | case2 a =>
      have bound := a.toNat_lt
      have first : value (sextet (a.toNat / 4)) = _ := value_sextet (by omega)
      have second : value (sextet (a.toNat % 4 * 16)) = _ := value_sextet (by omega)
      have zero : a.toNat % 4 * 16 % 16 = 0 := by omega
      have byte := first_byte a (x := 0) (by decide)
      rw [Nat.add_zero] at byte
      simp only [encode, decode, decodePadded, if_true, first, second, zero, Option.bind_eq_bind,
        Option.bind_some, byte]
  | case3 a b =>
      have boundA := a.toNat_lt
      have boundB := b.toNat_lt
      have first : value (sextet (a.toNat / 4)) = _ := value_sextet (by omega)
      have second : value (sextet (a.toNat % 4 * 16 + b.toNat / 16)) = _ := value_sextet (by omega)
      have third : value (sextet (b.toNat % 16 * 4)) = _ := value_sextet (by omega)
      have solid : sextet (b.toNat % 16 * 4) ≠ '=' := sextet_ne_padding (by omega)
      have zero : b.toNat % 16 * 4 % 4 = 0 := by omega
      have byteB := second_byte a b (y := 0) (by decide)
      rw [Nat.add_zero] at byteB
      simp only [encode, decode, decodePadded, if_true, solid, if_false, first, second, third, zero,
        Option.bind_eq_bind, Option.bind_some, first_byte a (x := b.toNat / 16) (by omega), byteB]
  | case4 a b c rest inductionHypothesis =>
      have boundA := a.toNat_lt
      have boundB := b.toNat_lt
      have boundC := c.toNat_lt
      have first : value (sextet (a.toNat / 4)) = _ := value_sextet (by omega)
      have second : value (sextet (a.toNat % 4 * 16 + b.toNat / 16)) = _ := value_sextet (by omega)
      have third : value (sextet (b.toNat % 16 * 4 + c.toNat / 64)) = _ := value_sextet (by omega)
      have fourth : value (sextet (c.toNat % 64)) = _ := value_sextet (by omega)
      have solid : sextet (c.toNat % 64) ≠ '=' := sextet_ne_padding (by omega)
      simp only [encode, decode, solid, if_false, first, second, third, fourth, inductionHypothesis,
        Option.bind_eq_bind, Option.bind_some, first_byte a (x := b.toNat / 16) (by omega),
        second_byte a b (y := c.toNat / 64) (by omega), third_byte]

example : decode "TWFuTQ==".toList = some [77, 97, 110, 77] := by decide
example : decode "TWFuTR==".toList = none := by decide

end Remgr.Lib.Base64
