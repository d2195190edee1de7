/-
Module: Remgr.Logging.Shared
Purpose: The log hub of `remgr/src/logging.rs` as its writers share it: any number of threads write,
  each through `ingest` and `push_line` with their three locks and the channel.
Trusted boundary: a section under the lock of the ring or of the file, and a `send` on the channel,
  is one step; what a line does to the file is in Remgr.Logging.File, and what the receivers of the
  channel get is left to the channel
Main exports: Stage, WriterPc, SharedHub, SharedHub.step, sharedHub
-/
import Mathlib.Logic.Function.Basic
import Remgr.Lib.Transition
import Remgr.Logging.Hub

namespace Remgr.Logging

open Lib

/-- A thread that logs. -/
abbrev WriterId := Nat

/-- Where `push_line` stands, by what comes next. -/
inductive Stage where
  | ring
  | file
  | send
deriving DecidableEq, Repr

/-- Where a write stands: before the lock of `partial`, in the loop of `ingest`, and in `push_line`,
which the loop calls with that lock and the cut of a long line without it. -/
inductive WriterPc where
  | idle
  | locking (buf : List UInt8)
  | draining
  | pushing (line : List Char) (stage : Stage) (locked : Bool)
deriving DecidableEq, Repr

/-- Where a write goes on when a line is out. -/
def WriterPc.resumed (locked : Bool) : WriterPc := if locked then .draining else .idle

/-- `LogHub`. `ringed`, `filed` and `sent` are all lines that ever went to the ring, to the file and
to the channel; `pieces` are the writes, in the order in which they got the lock. -/
structure SharedHub where
  entries : List (List Char) := []
  fragment : List Char := []
  ringed : List (List Char) := []
  filed : List (List Char) := []
  sent : List (List Char) := []
  lock : Option WriterId := none
  writers : WriterId → WriterPc := fun _ => .idle
  pieces : List (List UInt8) := []

namespace SharedHub

def goto (s : SharedHub) (w : WriterId) (pc : WriterPc) : SharedHub :=
  { s with writers := Function.update s.writers w pc }

/-- A line is pushed, unless it is blank. -/
def begin (s : SharedHub) (w : WriterId) (line : List Char) (locked : Bool) : SharedHub :=
  if Text.trimEnd line = [] then s.goto w (WriterPc.resumed locked)
  else s.goto w (.pushing (Text.trimEnd line) .ring locked)

/-- One step of a write. -/
def writerStep (s : SharedHub) (w : WriterId) : WriterPc → Option SharedHub
  | .idle => none
  | .locking buf =>
      if s.lock = none then
        some ({ s with
          lock := some w
          fragment := s.fragment ++ fromUtf8Lossy buf
          pieces := s.pieces ++ [buf] }.goto w .draining)
      else none
  | .draining =>
      match Text.splitOnce '\n' s.fragment with
      | some (line, rest) => some ({ s with fragment := rest }.begin w (line ++ ['\n']) true)
      | none =>
          if maxPartial < size s.fragment then
            some ({ s with fragment := [], lock := none }.begin w s.fragment false)
          else some ({ s with lock := none }.goto w .idle)
  | .pushing line .ring locked =>
      let entries := if s.entries.length = ringSize then s.entries.tail else s.entries
      some ({ s with entries := entries ++ [line], ringed := s.ringed ++ [line] }.goto w
        (.pushing line .file locked))
  | .pushing line .file locked =>
      some ({ s with filed := s.filed ++ [line] }.goto w (.pushing line .send locked))
  | .pushing line .send locked =>
      some ({ s with sent := s.sent ++ [line] }.goto w (WriterPc.resumed locked))

inductive Action where
  | write (w : WriterId) (buf : List UInt8)
  | go (w : WriterId)
deriving DecidableEq, Repr

def step : Action → SharedHub → Option SharedHub
  | .write w buf, s => if s.writers w = .idle then some (s.goto w (.locking buf)) else none
  | .go w, s => s.writerStep w (s.writers w)

end SharedHub

def sharedHub : System SharedHub SharedHub.Action where
  init s := s = {}
  step s a s' := SharedHub.step a s = some s'

end Remgr.Logging
