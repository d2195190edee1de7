/-
Module: Remgr.Lib.Cfb
Purpose: Full-block cipher feedback mode as a textbook defines it, over an arbitrary function on
  blocks: each ciphertext block is the plaintext block xored with the image of the block before
  it, the initialisation vector standing before the first, and the last block may be cut short.
  `cfbFrom` continues in the middle of a block, which is what a byte-granular implementation does.
Trusted boundary: none
Main exports: Block, cfbEncrypt, cfbFrom, cfbFrom_zero, cfbFrom_full, cfbFrom_cons
-/
import Mathlib.Algebra.GroupWithZero.Nat
import Mathlib.Data.List.Basic
import Mathlib.Tactic.Common

namespace Remgr.Lib

/-- A block of `size` bytes. -/
abbrev Block (size : Nat) := Vector UInt8 size

/-- The block that starts with the given bytes; a shorter list is padded with zeros. -/
def Block.ofList (size : Nat) (bytes : List UInt8) : Block size :=
  Vector.ofFn fun i => bytes.getD i 0

/-- A list of the right length is the contents of its block. -/
theorem Block.toList_ofList {size : Nat} {bytes : List UInt8} (width : bytes.length = size) :
    (Block.ofList size bytes).toList = bytes := by
  apply List.ext_getElem
  · simp [width]
  · intro i left right
    simp [Block.ofList, right]

theorem Block.ofList_toList {size : Nat} (block : Block size) :
    Block.ofList size block.toList = block := by
  ext i inside
  simp [Block.ofList]

/-- Xor of a piece of data with a keystream; the shorter one decides the length. -/
def xorBytes (data stream : List UInt8) : List UInt8 :=
  data.zipWith (· ^^^ ·) stream

/-- Textbook cipher feedback: `C i = P i xor E (C (i - 1))`, with `C 0` the given block and a
truncated last block. -/
def cfbEncrypt {size : Nat} [NeZero size] (E : Block size → Block size) (prev : Block size)
    (data : List UInt8) : List UInt8 :=
  if data = [] then
    []
  else
    let c := xorBytes (data.take size) (E prev).toList
    c ++ cfbEncrypt E (Block.ofList size c) (data.drop size)
termination_by data.length
decreasing_by
  have positive : 0 < size := Nat.pos_of_ne_zero (NeZero.ne size)
  have nonempty : 0 < data.length := by
    apply List.length_pos_of_ne_nil
    assumption
  rw [List.length_drop]
  omega

variable {size : Nat} [NeZero size] (E : Block size → Block size)

/-- Cipher feedback inside a block: `done` are the ciphertext bytes the current block has so far,
`prev` the ciphertext block before it. -/
def cfbFrom (prev : Block size) (done data : List UInt8) : List UInt8 :=
  let c := xorBytes (data.take (size - done.length)) ((E prev).toList.drop done.length)
  c ++ cfbEncrypt E (Block.ofList size (done ++ c)) (data.drop (size - done.length))

@[simp] theorem cfbEncrypt_nil (prev : Block size) : cfbEncrypt E prev [] = [] := by
  rw [cfbEncrypt]
  simp

/-- Starting a fresh block is the textbook recursion. -/
theorem cfbFrom_zero (prev : Block size) (data : List UInt8) :
    cfbFrom E prev [] data = cfbEncrypt E prev data := by
  by_cases empty : data = []
  · subst empty
    simp [cfbFrom, xorBytes]
  · conv_rhs => rw [cfbEncrypt]
    simp [cfbFrom, empty]

/-- A finished block becomes the feedback of the next one. -/
theorem cfbFrom_full {prev : Block size} {done data : List UInt8} (full : done.length = size) :
    cfbFrom E prev done data = cfbEncrypt E (Block.ofList size done) data := by
  simp [cfbFrom, full, xorBytes]

@[simp] theorem cfbFrom_nil (prev : Block size) (done : List UInt8) :
    cfbFrom E prev done [] = [] := by
  simp [cfbFrom, xorBytes]

/-- One byte inside a block. -/
theorem cfbFrom_cons {prev : Block size} {done data : List UInt8} (b : UInt8)
    (room : done.length < size) :
    cfbFrom E prev done (b :: data) =
      (b ^^^ (E prev)[done.length]) ::
        cfbFrom E prev (done ++ [b ^^^ (E prev)[done.length]]) data := by
  have inside : done.length < (E prev).toList.length := by simpa using room
  have stream : (E prev).toList.drop done.length =
      (E prev)[done.length] :: (E prev).toList.drop (done.length + 1) := by
    rw [List.drop_eq_getElem_cons inside]
    simp
  have takeEq : (b :: data).take (size - done.length) =
      b :: data.take (size - (done.length + 1)) := by
    rw [show size - done.length = size - (done.length + 1) + 1 by omega, List.take_succ_cons]
  have dropEq : (b :: data).drop (size - done.length) =
      data.drop (size - (done.length + 1)) := by
    rw [show size - done.length = size - (done.length + 1) + 1 by omega, List.drop_succ_cons]
  simp only [cfbFrom, xorBytes, takeEq, dropEq, stream, List.zipWith_cons_cons,
    List.length_append, List.length_singleton, List.append_assoc, List.cons_append,
    List.nil_append]

end Remgr.Lib
