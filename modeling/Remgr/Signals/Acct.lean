/-
Module: Remgr.Signals.Acct
Purpose: `remgr/src/acct.rs`: the records of the kernel's process accounting, and the last of them
  in the file.
Trusted boundary: the machine is little-endian; the kernel appends to the file, so that it may have
  grown between the calls of `recent`
Main exports: AcctRecord, AcctRecord.bytes, AcctRecord.ofBytes, Entry, recent
-/
import Remgr.Lib.FixedRecords
import Remgr.Lib.Text

namespace Remgr.Signals

open Lib

/-- `ACCT_RECORD_SIZE`. -/
def acctRecordSize : Nat := 64

/-- `struct acct`. -/
structure AcctRecord where
  comm : List UInt8
  utime : UInt16
  stime : UInt16
  etime : UInt16
  io : UInt16
  btime : Int64
  uid : UInt32
  gid : UInt32
  mem : UInt32
  tty : UInt32
  pid : Int32
  flag : UInt32
  comm_length : comm.length = 24
deriving DecidableEq

namespace AcctRecord

/-- The record as the kernel writes it: `#[repr(C)]` puts its fields one behind the other. -/
def bytes (r : AcctRecord) : List UInt8 :=
  r.comm ++ (natToLe 2 r.utime.toNat ++ (natToLe 2 r.stime.toNat ++ (natToLe 2 r.etime.toNat ++
    (natToLe 2 r.io.toNat ++ (natToLe 8 r.btime.toUInt64.toNat ++ (natToLe 4 r.uid.toNat ++
      (natToLe 4 r.gid.toNat ++ (natToLe 4 r.mem.toNat ++ (natToLe 4 r.tty.toNat ++
        (natToLe 4 r.pid.toUInt32.toNat ++ natToLe 4 r.flag.toNat))))))))))

/-- `read_unaligned` of a block, whose first bytes are filled up if there are too few. -/
def ofBytes (block : List UInt8) : AcctRecord :=
  let word (offset size : Nat) : Nat := natOfLe (slice block offset size)
  { comm := slice (block ++ List.replicate 24 0) 0 24
    utime := .ofNat (word 24 2)
    stime := .ofNat (word 26 2)
    etime := .ofNat (word 28 2)
    io := .ofNat (word 30 2)
    btime := (UInt64.ofNat (word 32 8)).toInt64
    uid := .ofNat (word 40 4)
    gid := .ofNat (word 44 4)
    mem := .ofNat (word 48 4)
    tty := .ofNat (word 52 4)
    pid := (UInt32.ofNat (word 56 4)).toInt32
    flag := .ofNat (word 60 4)
    comm_length := slice_length (by rw [List.length_append, List.length_replicate]; omega) }

end AcctRecord

/-- One recorded process. -/
structure Entry where
  comm : String
  pid : Int32
  uid : UInt32
  tty : String
  btime : Int64
  flag : UInt32
deriving DecidableEq, Repr

/-- `{:08x}`. -/
def hex8 (n : UInt32) : List Char :=
  let digits := Nat.toDigits 16 n.toNat
  List.replicate (8 - digits.length) '0' ++ digits

/-- What `recent` makes of a record. -/
def AcctRecord.entry (r : AcctRecord) : Entry where
  comm := .ofList (Text.trim ((r.comm.takeWhile (· ≠ 0)).map fun b => .ofNat b.toNat))
  pid := r.pid
  uid := r.uid
  tty := if r.tty = 0xFFFFFFFF then "none" else .ofList ("dev=0x".toList ++ hex8 r.tty)
  btime := r.btime
  flag := r.flag

/-- What `read_exact` can fail with here. -/
inductive ReadError where
  | unexpectedEof
deriving DecidableEq, Repr

/-- The last `limit` records, oldest first. `size` is what `metadata` gave, and `file` what the
reads find. -/
def recent (size : Nat) (file : List UInt8) (limit : Nat) : Except ReadError (List Entry) :=
  let complete := size / acctRecordSize
  let take := min limit complete
  if take = 0 then .ok []
  else
    let buf := slice file ((complete - take) * acctRecordSize) (take * acctRecordSize)
    if buf.length < take * acctRecordSize then .error .unexpectedEof
    else .ok ((blocks acctRecordSize take buf).map fun chunk => (AcctRecord.ofBytes chunk).entry)

end Remgr.Signals
