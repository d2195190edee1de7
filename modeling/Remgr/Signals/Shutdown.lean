/-
Module: Remgr.Signals.Shutdown
Purpose: `remgr/src/signals.rs` and the signal task of `remgr/src/main.rs`: the handlers, the reader
  thread and the task that stops the modules and ends the process, in any interleaving.
Trusted boundary: as in `Remgr.Signals.Record`; the handler is the one `install` put there, the log file
  is open, handlers on several threads take turns at their writes and at `STOPPING`, and the console serves
  until the process ends
Main exports: Siginfo, Termination.ofSiginfo, Termination.stops, Stage, Shutdown, Action, step, shutdown
-/
import Remgr.Signals.Record
import Remgr.Lib.Transition

namespace Remgr.Signals

open Lib Lib.Text

def SIGHUP : Int32 := 1
def SIGINT : Int32 := 2
def SIGTERM : Int32 := 15

/-- `HANDLED`. -/
def handledSignals : List Int32 := [SIGTERM, SIGINT, SIGHUP]

/-- What the handler reads of a `siginfo_t`. -/
structure Siginfo where
  siCode : Int32
  siPid : Int32
  siUid : UInt32
deriving DecidableEq, Repr

/-- The signal `record` writes down; the kernel may hand it no `siginfo_t`. -/
def Termination.ofSiginfo (sig : Int32) : Option Siginfo → Termination
  | none => { signal := sig, senderPid := 0, senderUid := 0, code := 0 }
  | some raw => { signal := sig, senderPid := raw.siPid, senderUid := raw.siUid, code := raw.siCode }

def Termination.stops (t : Termination) : Bool := t.signal = SIGTERM || t.signal = SIGINT

/-- The modules in the order in which the task stops them. -/
def stopOrder : List String := ["frpc", "frps", "rustdesk", "stun_turn", "easytier"]

/-- Where the signal task of `run` stands. -/
inductive Stage where
  | starting
  | listening
  | tracing
  | stopping (left : List String)
  | tracingAgain
deriving DecidableEq, Repr

/-- The process, as far as its end goes. A handler stands before its write to the pipe, before its write
to the log or before `STOPPING`; two with the same record are alike. The last five fields only tell
what has happened. -/
structure Shutdown where
  toPipe : List Termination := []
  toLog : List Termination := []
  deciding : List Termination := []
  stopping : Bool := false
  pipe : List UInt8 := []
  /-- What the reader thread has parsed and not yet sent. -/
  unsent : List Termination := []
  channel : List Termination := []
  stage : Stage := .starting
  exit : Option Int := none
  arrived : List Termination := []
  piped : List Termination := []
  logged : List Termination := []
  parsed : List Termination := []
  stopped : List String := []
deriving DecidableEq

inductive Action where
  | arrive (sig : Int32) (info : Option Siginfo)
  | writePipe (t : Termination)
  | writeLog (t : Termination)
  | decide (t : Termination)
  | read (n : Nat)
  | send
  /-- The task is spawned once the modules are up. -/
  | spawn
  | receive
  | trace
  | stopModule
  | wake
  | traceAgain

/-- The parts of the handler `record`. -/
def handle (s : Shutdown) : Action → Option Shutdown
  | .arrive sig info =>
      if sig ∈ handledSignals then
        let t := Termination.ofSiginfo sig info
        some { s with toPipe := t :: s.toPipe, arrived := s.arrived ++ [t] }
      else none
  | .writePipe t =>
      if t ∈ s.toPipe then
        some { s with toPipe := s.toPipe.erase t, toLog := t :: s.toLog, pipe := s.pipe ++ t.record,
                      piped := s.piped ++ [t] }
      else none
  | .writeLog t =>
      if t ∈ s.toLog then
        some { s with toLog := s.toLog.erase t, deciding := t :: s.deciding,
                      logged := s.logged ++ [t] }
      else none
  | .decide t =>
      if t ∈ s.deciding then
        if t.signal ≠ SIGHUP && s.stopping then some { s with exit := some (128 + t.signal.toInt) }
        else some { s with deciding := s.deciding.erase t,
                           stopping := s.stopping || t.signal ≠ SIGHUP }
      else none
  | _ => none

/-- The reader thread. It reads again when it has sent what it read. -/
def readerStep (s : Shutdown) : Action → Option Shutdown
  | .read n =>
      if s.unsent = [] ∧ 0 < n ∧ n ≤ readSize ∧ n ≤ s.pipe.length then
        let records := parseAll (fromUtf8Lossy (s.pipe.take n))
        some { s with pipe := s.pipe.drop n, unsent := records, parsed := s.parsed ++ records }
      else none
  | .send =>
      match s.unsent with
      | t :: rest => some { s with unsent := rest, channel := s.channel ++ [t] }
      | [] => none
  | _ => none

/-- The task that `run` spawns. -/
def taskStep (s : Shutdown) (a : Action) : Option Shutdown :=
  match s.stage, a with
  | .starting, .spawn => some { s with stage := .listening }
  | .listening, .receive =>
      match s.channel with
      | t :: rest =>
          some { s with channel := rest, stage := if t.stops then .tracing else .listening }
      | [] => none
  | .tracing, .trace => some { s with stage := .stopping stopOrder }
  | .stopping (name :: rest), .stopModule =>
      -- what `stop` returns is ignored
      some { s with stage := .stopping rest, stopped := s.stopped ++ [name] }
  | .stopping [], .wake => some { s with stage := .tracingAgain }
  | .tracingAgain, .traceAgain => some { s with exit := some 0 }
  | _, _ => none

def Shutdown.step (s : Shutdown) (a : Action) : Option Shutdown :=
  if s.exit.isSome then none
  else
    match a with
    | .arrive .. | .writePipe _ | .writeLog _ | .decide _ => handle s a
    | .read _ | .send => readerStep s a
    | _ => taskStep s a

/-- The process from the first `install` on. -/
def shutdown : System Shutdown Action where
  init s := s = {}
  step s a s' := s.step a = some s'

end Remgr.Signals
