/-
Module: Remgr.Lib.FixedRecords
Purpose: Files of records of one fixed size. Little-endian fields, slices at offsets, and a file as its
  whole records with what there is of the last one.
Trusted boundary: none
Main exports: natToLe, natOfLe, slice, RecordFormat, RecordFormat.chunks, RecordFormat.exists_records
-/
import Remgr.Lib.Bytes

namespace Remgr.Lib

/-! ## Fields -/

def natToLe (width n : Nat) : List UInt8 := (natToBe width n).reverse

def natOfLe (bytes : List UInt8) : Nat := natOfBe bytes.reverse

@[simp] theorem natToLe_length (width n : Nat) : (natToLe width n).length = width := by
  rw [natToLe, List.length_reverse, natToBe_length]

theorem natOfLe_natToLe {width n : Nat} (fits : n < 256 ^ width) : natOfLe (natToLe width n) = n := by
  rw [natOfLe, natToLe, List.reverse_reverse, natOfBe_natToBe, Nat.mod_eq_of_lt fits]

theorem natToLe_natOfLe {width : Nat} {bytes : List UInt8} (size : bytes.length = width) :
    natToLe width (natOfLe bytes) = bytes := by
  have same := natToBe_natOfBe bytes.reverse
  rw [List.length_reverse, size] at same
  rw [natToLe, natOfLe, same, List.reverse_reverse]

theorem natOfLe_lt {width : Nat} {bytes : List UInt8} (size : bytes.length = width) :
    natOfLe bytes < 256 ^ width := by
  have less := natOfBe_lt bytes.reverse
  rwa [List.length_reverse, size] at less

/-- The bytes at an offset. -/
def slice (bytes : List UInt8) (offset size : Nat) : List UInt8 := (bytes.drop offset).take size

theorem slice_length {bytes : List UInt8} {offset size : Nat} (inside : offset + size ≤ bytes.length) :
    (slice bytes offset size).length = size := by
  rw [slice, List.length_take, List.length_drop, Nat.min_eq_left (Nat.le_sub_of_add_le' inside)]

/-- The first of several fields. -/
theorem slice_here {field behind : List UInt8} {size : Nat} (whole : field.length = size) :
    slice (field ++ behind) 0 size = field := by
  rw [slice, List.drop_zero, ← whole, List.take_left]

/-- A field behind the first one. -/
theorem slice_behind {field behind : List UInt8} {offset size : Nat} (past : field.length ≤ offset) :
    slice (field ++ behind) offset size = slice behind (offset - field.length) size := by
  rw [slice, slice, List.drop_append, List.drop_eq_nil_of_le past, List.nil_append]

/-- Two slices side by side. -/
theorem slice_append (bytes : List UInt8) (offset size more : Nat) :
    slice bytes offset size ++ slice bytes (offset + size) more = slice bytes offset (size + more) := by
  rw [slice, slice, slice, ← List.drop_drop, List.take_add]

/-! ## Files -/

/-- Records that fill a block of bytes each, and every block of that size is one. -/
structure RecordFormat (α : Type) where
  width : Nat
  positive : 0 < width
  encode : α → List UInt8
  decode : List UInt8 → α
  encode_length : ∀ a, (encode a).length = width
  decode_encode : ∀ a, decode (encode a) = a
  encode_decode : ∀ {block : List UInt8}, block.length = width → encode (decode block) = block

/-- The first blocks of a file. -/
def blocks (width : Nat) : Nat → List UInt8 → List (List UInt8)
  | 0, _ => []
  | count + 1, bytes => bytes.take width :: blocks width count (bytes.drop width)

namespace RecordFormat

variable {α : Type} (format : RecordFormat α)

/-- A file of records. -/
def encodeAll (records : List α) : List UInt8 := records.flatMap format.encode

variable {format}

theorem encodeAll_length (records : List α) :
    (format.encodeAll records).length = records.length * format.width := by
  induction records with
  | nil => exact (Nat.zero_mul _).symm
  | cons record records inductionHypothesis =>
      rw [encodeAll, List.flatMap_cons, List.length_append, format.encode_length, List.length_cons,
        Nat.succ_mul, Nat.add_comm]
      exact congrArg (· + format.width) inductionHypothesis

theorem encodeAll_append (front back : List α) :
    format.encodeAll (front ++ back) = format.encodeAll front ++ format.encodeAll back :=
  List.flatMap_append

/-- Reading as many blocks as were written gives the records. -/
theorem map_decode_blocks (records : List α) (behind : List UInt8) :
    (blocks format.width records.length (format.encodeAll records ++ behind)).map format.decode =
      records := by
  induction records with
  | nil => rfl
  | cons record records inductionHypothesis =>
      have shape : format.encodeAll (record :: records) ++ behind =
          format.encode record ++ (format.encodeAll records ++ behind) := by
        rw [encodeAll, List.flatMap_cons, List.append_assoc]
        rfl
      have here : (format.encode record ++ (format.encodeAll records ++ behind)).take
          (format.encode record).length = format.encode record := List.take_left
      have rest : (format.encode record ++ (format.encodeAll records ++ behind)).drop
          (format.encode record).length = format.encodeAll records ++ behind := List.drop_left
      rw [format.encode_length] at here rest
      rw [shape, List.length_cons, blocks, List.map_cons, here, rest, format.decode_encode,
        inductionHypothesis]

/-- Every file is whole records, and what there is of the one behind them. -/
theorem exists_records (bytes : List UInt8) : ∃ records part,
    bytes = format.encodeAll records ++ part ∧ part.length < format.width := by
  induction size : bytes.length using Nat.strongRecOn generalizing bytes with
  | ind n inductionHypothesis =>
      by_cases short : bytes.length < format.width
      · exact ⟨[], bytes, rfl, short⟩
      · have enough := Nat.le_of_not_lt short
        have less : (bytes.drop format.width).length < n := by
          rw [List.length_drop, ← size]
          exact Nat.sub_lt (Nat.lt_of_lt_of_le format.positive enough) format.positive
        obtain ⟨records, part, whole, rest⟩ := inductionHypothesis _ less _ rfl
        have first : (bytes.take format.width).length = format.width := by
          rw [List.length_take, Nat.min_eq_left enough]
        refine ⟨format.decode (bytes.take format.width) :: records, part, ?_, rest⟩
        rw [encodeAll, List.flatMap_cons, format.encode_decode first, List.append_assoc]
        change bytes = bytes.take format.width ++ (format.encodeAll records ++ part)
        rw [← whole, List.take_append_drop]

end RecordFormat

end Remgr.Lib
