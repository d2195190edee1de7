/-
Module: Remgr.Proofs.AcctTail
Purpose: The tail of the accounting file, for every file and every moment at which it is read: the last
  whole records, oldest first, and never a part of one or an error.
Trusted boundary: as in `Remgr.Signals.Acct`
Main exports: acctFormat, recent_tail
-/
import Remgr.Signals.Acct

namespace Remgr.Signals

open Lib

namespace AcctRecord

theorem bytes_length (r : AcctRecord) : r.bytes.length = acctRecordSize := by
  simp only [bytes, List.length_append, natToLe_length, r.comm_length]
  rfl

/-- Each field is where the layout has it. -/
theorem ofBytes_bytes (r : AcctRecord) : ofBytes r.bytes = r := by
  have u16 : ∀ n : UInt16, UInt16.ofNat (natOfLe (natToLe 2 n.toNat)) = n := fun n => by
    rw [natOfLe_natToLe n.toNat_lt, UInt16.ofNat_toNat]
  have u32 : ∀ n : UInt32, UInt32.ofNat (natOfLe (natToLe 4 n.toNat)) = n := fun n => by
    rw [natOfLe_natToLe n.toNat_lt, UInt32.ofNat_toNat]
  have u64 : ∀ n : UInt64, UInt64.ofNat (natOfLe (natToLe 8 n.toNat)) = n := fun n => by
    rw [natOfLe_natToLe n.toNat_lt, UInt64.ofNat_toNat]
  obtain ⟨comm, utime, stime, etime, io, btime, uid, gid, mem, tty, pid, flag, whole⟩ := r
  have name : ∀ behind : List UInt8, slice (comm ++ behind) 0 24 = comm := fun _ => slice_here whole
  have last : slice (natToLe 4 flag.toNat) 0 4 = natToLe 4 flag.toNat := by
    have alone : slice (natToLe 4 flag.toNat ++ []) 0 4 = natToLe 4 flag.toNat :=
      slice_here (natToLe_length 4 flag.toNat)
    rwa [List.append_nil] at alone
  simp (disch := simp [whole]) only [ofBytes, bytes, slice_behind, slice_here, natToLe_length, whole,
    Nat.reduceSub, List.append_assoc, name, last, u16, u32, u64]
  rfl

/-- A number read from the block is written as the bytes it was read from. -/
theorem natToLe_slice {block : List UInt8} (size : block.length = 64) {offset width : Nat}
    (inside : offset + width ≤ 64) :
    natToLe width (natOfLe (slice block offset width) % 256 ^ width) = slice block offset width := by
  have whole : (slice block offset width).length = width := slice_length (by rwa [size])
  rw [Nat.mod_eq_of_lt (natOfLe_lt whole), natToLe_natOfLe whole]

theorem bytes_ofBytes {block : List UInt8} (size : block.length = acctRecordSize) :
    (ofBytes block).bytes = block := by
  have size : block.length = 64 := size
  have u16 : ∀ offset, offset + 2 ≤ 64 →
      natToLe 2 (UInt16.ofNat (natOfLe (slice block offset 2))).toNat = slice block offset 2 :=
    fun _ inside => natToLe_slice size inside
  have u32 : ∀ offset, offset + 4 ≤ 64 →
      natToLe 4 (UInt32.ofNat (natOfLe (slice block offset 4))).toNat = slice block offset 4 :=
    fun _ inside => natToLe_slice size inside
  have u64 : natToLe 8 (UInt64.ofNat (natOfLe (slice block 32 8))).toNat = slice block 32 8 :=
    natToLe_slice size (by decide)
  have comm : slice (block ++ List.replicate 24 0) 0 24 = slice block 0 24 := by
    rw [slice, slice, List.drop_zero, List.drop_zero, List.take_append_of_le_length]
    rw [size]
    decide
  have i64 : natToLe 8 ((UInt64.ofNat (natOfLe (slice block 32 8))).toInt64).toUInt64.toNat =
      slice block 32 8 := u64
  have i32 : natToLe 4 ((UInt32.ofNat (natOfLe (slice block 56 4))).toInt32).toUInt32.toNat =
      slice block 56 4 := u32 56 (by decide)
  have all : slice block 0 64 = block := by
    rw [slice, List.drop_zero, ← size, List.take_length]
  simp only [bytes, ofBytes]
  rw [comm, u16 24 (by decide), u16 26 (by decide), u16 28 (by decide), u16 30 (by decide), i64,
    u32 40 (by decide), u32 44 (by decide), u32 48 (by decide), u32 52 (by decide), i32,
    u32 60 (by decide)]
  -- the fields lie side by side
  rw [slice_append block 56 4 4, slice_append block 52 4 8, slice_append block 48 4 12,
    slice_append block 44 4 16, slice_append block 40 4 20, slice_append block 32 8 24,
    slice_append block 30 2 32, slice_append block 28 2 34, slice_append block 26 2 36,
    slice_append block 24 2 38, slice_append block 0 24 40]
  exact all

end AcctRecord

/-- The accounting file is a file of these records. -/
def acctFormat : RecordFormat AcctRecord where
  width := acctRecordSize
  positive := by decide
  encode := AcctRecord.bytes
  decode := AcctRecord.ofBytes
  encode_length := AcctRecord.bytes_length
  decode_encode := AcctRecord.ofBytes_bytes
  encode_decode := AcctRecord.bytes_ofBytes

/-- The bytes of some records inside a file are what a read at their place gives. -/
theorem slice_encodeAll (front records : List AcctRecord) (behind : List UInt8) :
    slice (acctFormat.encodeAll (front ++ records) ++ behind) (front.length * acctRecordSize)
      (records.length * acctRecordSize) = acctFormat.encodeAll records := by
  have past : (acctFormat.encodeAll front).length = front.length * acctRecordSize :=
    RecordFormat.encodeAll_length front
  have size : (acctFormat.encodeAll records).length = records.length * acctRecordSize :=
    RecordFormat.encodeAll_length records
  rw [RecordFormat.encodeAll_append, List.append_assoc, slice_behind (Nat.le_of_eq past), past,
    Nat.sub_self, slice_here size]

/-- However the file ends and whatever the kernel has appended since its size was asked for: the last
`limit` of the records that were whole then, all of them if they are fewer, and no error. -/
theorem recent_tail (before more : List UInt8) (limit : Nat) : ∃ records part,
    before = acctFormat.encodeAll records ++ part ∧ part.length < acctRecordSize ∧
      recent before.length (before ++ more) limit =
        .ok ((records.drop (records.length - limit)).map AcctRecord.entry) := by
  obtain ⟨records, part, whole, short⟩ := acctFormat.exists_records before
  refine ⟨records, part, whole, short, ?_⟩
  have complete : before.length / acctRecordSize = records.length := by
    have size : (acctFormat.encodeAll records).length = records.length * acctRecordSize :=
      RecordFormat.encodeAll_length records
    rw [whole, List.length_append, size, Nat.add_comm, Nat.add_mul_div_right _ _ (by decide),
      Nat.div_eq_of_lt (show part.length < acctRecordSize from short), Nat.zero_add]
  have start : records.length - min limit records.length = records.length - limit := by omega
  -- what is skipped, and what is read
  let front := records.take (records.length - limit)
  let last := records.drop (records.length - limit)
  have parts : front ++ last = records := List.take_append_drop _ _
  have front_length : front.length = records.length - limit := by
    rw [List.length_take]
    omega
  have last_length : last.length = min limit records.length := by
    rw [List.length_drop]
    omega
  have buf : slice (before ++ more) ((records.length - limit) * acctRecordSize)
      (min limit records.length * acctRecordSize) = acctFormat.encodeAll last := by
    have shape : before ++ more = acctFormat.encodeAll (front ++ last) ++ (part ++ more) := by
      rw [parts, whole, List.append_assoc]
    rw [shape, ← front_length, ← last_length]
    exact slice_encodeAll front last (part ++ more)
  have buf_length : (acctFormat.encodeAll last).length = min limit records.length * acctRecordSize := by
    rw [← last_length]
    exact RecordFormat.encodeAll_length last
  rw [recent, complete]
  dsimp only
  rw [start, buf, buf_length]
  by_cases nothing : min limit records.length = 0
  · have empty : last = [] := List.length_eq_zero_iff.mp (last_length.trans nothing)
    rw [if_pos nothing]
    change _ = Except.ok (last.map AcctRecord.entry)
    rw [empty]
    rfl
  · have decoded : (blocks acctRecordSize last.length (acctFormat.encodeAll last ++ [])).map
        AcctRecord.ofBytes = last := acctFormat.map_decode_blocks last []
    rw [if_neg nothing, if_neg (Nat.lt_irrefl _), ← last_length]
    rw [List.append_nil] at decoded
    change _ = Except.ok (last.map AcctRecord.entry)
    refine congrArg Except.ok ?_
    calc (blocks acctRecordSize last.length (acctFormat.encodeAll last)).map
          (fun chunk => (AcctRecord.ofBytes chunk).entry)
        = ((blocks acctRecordSize last.length (acctFormat.encodeAll last)).map
            AcctRecord.ofBytes).map AcctRecord.entry := by
            rw [List.map_map]
            rfl
      _ = last.map AcctRecord.entry := by rw [decoded]

end Remgr.Signals
