/-
Module: Remgr.Signals.Record
Purpose: What the signal handler writes to its pipe and what the reader thread makes of each read.
Trusted boundary: a handler's write is one atomic write of a whole record (it is shorter than
  PIPE_BUF), and a read hands over between 1 and 128 of the bytes that are pending; the receiver of the
  channel lives in a static, so no send fails
Main exports: Termination, recordBytes, parse, parseAll, Reads, sent
-/
import Remgr.Lib.Lines
import Remgr.Lib.Utf8

namespace Remgr.Signals

open Lib Lib.Text

/-- One signal, with where it came from. -/
structure Termination where
  signal : Int32
  senderPid : Int32
  senderUid : UInt32
  code : Int32
deriving DecidableEq, Repr

/-- Append to a fixed buffer: what does not fit is dropped. -/
def put (buf : List UInt8) (n : Nat) : List UInt8 → List UInt8 × Nat
  | [] => (buf, n)
  | b :: bytes => if buf.length ≤ n then (buf, n) else put (buf.set n b) (n + 1) bytes

/-- The digits of `rest`, the lowest first. The loop stores them in an array of `places` bytes and
ends when nothing is left of the number. -/
def lowDigits : Nat → Nat → List UInt8
  | 0, _ => []
  | places + 1, rest =>
      .ofNat (48 + rest % 10) :: if rest / 10 = 0 then [] else lowDigits places (rest / 10)

def putInt (buf : List UInt8) (start : Nat) (v : Int) : List UInt8 × Nat :=
  let signed := if v < 0 then put buf start ("-".toList.map asciiByte) else (buf, start)
  (lowDigits 20 v.natAbs).reverse.foldl (fun written digit => put written.1 written.2 [digit]) signed

def recSignal : List Char := "signal ".toList
def recPid : List Char := " from pid=".toList
def recUid : List Char := " uid=".toList
def recCode : List Char := " code=".toList

/-- One record in a buffer of 80 bytes, and its length. -/
def recordBytes (sig pid : Int32) (uid : UInt32) (code : Int32) : List UInt8 × Nat :=
  let text (written : List UInt8 × Nat) (chars : List Char) :=
    put written.1 written.2 (chars.map asciiByte)
  let int (written : List UInt8 × Nat) (v : Int) := putInt written.1 written.2 v
  let start := text (List.replicate 80 0, 0) recSignal
  let start := text (int start sig.toInt) recPid
  let start := text (int start pid.toInt) recUid
  let start := text (int start uid.toNat) recCode
  let (buf, n) := text (int start code.toInt) ['\n']
  (buf, min n buf.length)

/-- What the handler writes to the pipe for one signal. -/
def Termination.record (t : Termination) : List UInt8 :=
  let (buf, n) := recordBytes t.signal t.senderPid t.senderUid t.code
  buf.take n

def parseI32 (text : List Char) : Option Int32 := (parseSigned 32 text).map Int32.ofInt

def parseU32 (text : List Char) : Option UInt32 := (parseUnsigned (2 ^ 32) text).map UInt32.ofNat

def parse (line : List Char) : Option Termination := do
  let rest ← stripPrefix recSignal line
  let (signal, rest) ← splitOnce ' ' rest
  let signal ← parseI32 signal
  let rest ← stripPrefix (recPid.dropWhile isWhitespace) rest
  let (pid, rest) ← splitOnce ' ' rest
  let pid ← parseI32 pid
  let rest ← stripPrefix (recUid.dropWhile isWhitespace) rest
  let (uid, rest) ← splitOnce ' ' rest
  let uid ← parseU32 uid
  let rest ← stripPrefix (recCode.dropWhile isWhitespace) rest
  let code ← parseI32 (trimEnd rest)
  return { signal := signal, senderPid := pid, senderUid := uid, code := code }

def parseAll (text : List Char) : List Termination := (lines text).filterMap parse

/-- The size of the reader thread's buffer. -/
def readSize : Nat := 128

/-- The reads of the reader thread that empty a pipe with these contents. -/
structure Reads (contents : List UInt8) (reads : List (List UInt8)) : Prop where
  whole : reads.flatten = contents
  filled : ∀ read ∈ reads, read ≠ []
  fits : ∀ read ∈ reads, read.length ≤ readSize

/-- What the reader thread sends: every read is parsed by itself. -/
def sent (reads : List (List UInt8)) : List Termination :=
  reads.flatMap fun read => parseAll (fromUtf8Lossy read)

end Remgr.Signals
