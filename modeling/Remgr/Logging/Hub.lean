/-
Module: Remgr.Logging.Hub
Purpose: The log hub in memory: the ring that the console reads, the live tail, and the writer that
  puts lines together from what it is handed.
Trusted boundary: Remgr.Lib.Utf8; every write holds its locks from the beginning to the end; each line
  also goes to Remgr.Logging.File
Main exports: LogHub, LogHub.pushLine, LogHub.snapshot, LogHub.ingest, LogHub.write, written
-/
import Remgr.Lib.Utf8
import Remgr.Logging.File

namespace Remgr.Logging

open Lib

/-- `RING_SIZE`. -/
def ringSize : Nat := 1000

/-- `MAX_PARTIAL`. -/
def maxPartial : Nat := 64 * 1024

structure LogHub where
  entries : List (List Char) := []
  /-- `partial`: a line whose end has not been written yet. -/
  fragment : List Char := []
  /-- What was sent to the live tails. -/
  sent : List (List Char) := []
deriving DecidableEq, Repr

namespace LogHub

def pushLine (hub : LogHub) (line : List Char) : LogHub :=
  let entries := if hub.entries.length = ringSize then hub.entries.tail else hub.entries
  { hub with entries := entries ++ [line], sent := hub.sent ++ [line] }

def snapshot (hub : LogHub) (n : Nat) : List (List Char) := tail n hub.entries

/-- A line goes to the ring without its trailing white space, unless nothing is left. -/
def pushTrimmed (hub : LogHub) (line : List Char) : LogHub :=
  if Text.trimEnd line = [] then hub else hub.pushLine (Text.trimEnd line)

/-- The loop of `ingest`. Every turn takes a newline away, so `fuel` bounds it. -/
def drainLines : Nat → LogHub → LogHub
  | 0, hub => hub
  | fuel + 1, hub =>
      match Text.splitOnce '\n' hub.fragment with
      | some (line, rest) =>
          drainLines fuel ({ hub with fragment := rest }.pushTrimmed (line ++ ['\n']))
      | none => hub

def ingest (hub : LogHub) (buf : List Char) : LogHub :=
  let hub := { hub with fragment := hub.fragment ++ buf }
  let hub := drainLines hub.fragment.length hub
  if maxPartial < size hub.fragment then { hub with fragment := [] }.pushTrimmed hub.fragment
  else hub

/-- `HubWriter::write`. -/
def write (hub : LogHub) (buf : List UInt8) : LogHub := hub.ingest (fromUtf8Lossy buf)

end LogHub

/-- A fresh hub after some writes. -/
def written (pieces : List (List UInt8)) : LogHub := pieces.foldl LogHub.write {}

example : (written [[0x61, 0x20, 10, 10, 0x62], [0x63, 10, 0x64]]).entries = [['a'], ['b', 'c']] := by
  decide

end Remgr.Logging
