/-
Module: Remgr.Logging.File
Purpose: The log on disk: `FileSink`, which appends lines and moves a full file aside, and
  `read_log_file`, which the console reads the last lines with.
Trusted boundary: files hold text and change only here; a directory that is missing is created, and
  reading a file that is there succeeds; what is said to stderr of a failure is left out
Main exports: LogLine, Disk, FileSink, Io, openFile, rotate, writeLine, readLogFile, History, logging
-/
import Remgr.Lib.Lines
import Remgr.Lib.Transition

namespace Remgr.Logging

open Lib

/-- `LOG_MAX_BYTES`. -/
def logMaxBytes : Nat := 8 * 1024 * 1024

/-- `len` of a text in UTF-8. -/
def size (text : List Char) : Nat := (text.map Char.utf8Size).sum

/-- `log_file` and `log_file_previous`. -/
structure Disk where
  current : Option (List Char)
  previous : Option (List Char)
deriving DecidableEq, Repr

/-- Whether `file` is there; it is always the current file. -/
structure FileSink where
  file : Bool := false
  written : Nat := 0
  complained : Bool := false
deriving DecidableEq, Repr

structure Logs where
  disk : Disk
  sink : FileSink
deriving DecidableEq, Repr

/-- What the operating system makes of one `write_line`: its two `open`s, the renaming, and how much
of the line a failing write lets through. -/
structure Io where
  opens : Bool := true
  renames : Bool := true
  reopens : Bool := true
  stops : Option Nat := none
deriving DecidableEq, Repr

/-- `FileSink::open`. -/
def openFile (opens : Bool) (l : Logs) : Logs :=
  if opens then
    { disk := { l.disk with current := some (l.disk.current.getD []) }
      sink := { l.sink with file := true, written := size (l.disk.current.getD []) } }
  else { l with sink := { l.sink with complained := true } }

def rotate (io : Io) (l : Logs) : Logs :=
  let disk := if io.renames ∧ l.disk.current.isSome then ⟨none, l.disk.current⟩ else l.disk
  openFile io.reopens { disk := disk, sink := { l.sink with file := false, written := 0 } }

def writeLine (io : Io) (line : List Char) (l : Logs) : Logs :=
  let l := if l.sink.file then l else openFile io.opens l
  let l := if logMaxBytes ≤ l.sink.written then rotate io l else l
  if l.sink.file then
    match io.stops with
    | none =>
        { disk := { l.disk with current := l.disk.current.map (· ++ (line ++ ['\n'])) }
          sink := { l.sink with written := l.sink.written + size line + 1, complained := false } }
    | some arrived =>
        { disk := { l.disk with current := l.disk.current.map (· ++ (line ++ ['\n']).take arrived) }
          sink := { l.sink with file := false, complained := true } }
  else l

/-- The last `n` of some lines. -/
def tail {α : Type} (n : Nat) (lines : List α) : List α := lines.drop (lines.length - n)

/-- The loop of `read_log_file`. -/
def readFirst (n : Nat) : List (Option (List Char)) → Except String (List (List Char))
  | [] => .error "no log file written yet"
  | some text :: _ => .ok (tail n (Text.lines text))
  | none :: rest => readFirst n rest

def readLogFile (n : Nat) (disk : Disk) : Except String (List (List Char)) :=
  readFirst n [disk.current, disk.previous]

/-! ## Runs -/

/-- A line of the log. -/
structure LogLine where
  text : List Char
  oneLine : ∀ c ∈ text, c ≠ '\n'
  trimmed : text.getLast? ≠ some '\r'

/-- The text of whole lines in a file. -/
def joined (lines : List LogLine) : List Char := lines.flatMap fun line => line.text ++ ['\n']

/-- The log with the lines that went into it so far, those of earlier processes first. -/
structure History where
  logs : Logs
  lines : List LogLine

inductive LogStep where
  | write (io : Io) (line : LogLine)
  /-- The process ends, and another one begins. -/
  | restart

def logStep (h : History) : LogStep → History
  | .write io line => ⟨writeLine io line.text h.logs, h.lines ++ [line]⟩
  | .restart => { h with logs.sink := {} }

/-- A process starts with the files that earlier ones have left. -/
def logging : System History LogStep where
  init h := h.logs.sink = {} ∧ ∃ previous current : Option (List LogLine),
    h.logs.disk = ⟨current.map joined, previous.map joined⟩ ∧
      h.lines = previous.getD [] ++ current.getD []
  step h move h' := h' = logStep h move

end Remgr.Logging
