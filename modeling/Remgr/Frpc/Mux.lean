/-
Module: Remgr.Frpc.Mux
Purpose: `MuxSession` of `remgr-frps/src/client.rs`: any number of tasks call `open`, and `mux_driver`,
  which owns the yamux connection, opens the streams for them.
Trusted boundary: the yamux connection is what it answers; a `tokio::sync::oneshot` is a slot that is
  filled once, or dropped with its sender; the `mpsc` channel is a queue with its capacity
Main exports: CallPc, Answer, DriverPc, State, step, mux
-/
import Remgr.Lib.Transition
import Mathlib.Logic.Function.Basic

namespace Remgr.Frpc.Mux

open Remgr.Lib

/-- One call of `open`, with its oneshot channel. -/
abbrev CallId := Nat

/-- A stream that the connection has opened. -/
abbrev StreamId := Nat

/-- The capacity of the channel of `MuxSession::start`. -/
def OPEN_CAPACITY : Nat := 16

/-- What comes over the oneshot channel: what the driver sends, or that the sender was dropped. -/
inductive Answer where
  | sent (result : Except String StreamId)
  | dropped

/-- What `open` makes of it. -/
def Answer.result : Answer → Except String StreamId
  | .sent result => result
  | .dropped => .error "the yamux session closed before opening the stream"

/-- The stream in it. -/
def Answer.stream : Answer → Option StreamId
  | .sent (.ok n) => some n
  | _ => none

/-- Where a call of `open` stands. The task around it may drop it, as the time limits of `open_io` and
of the control stream do. -/
inductive CallPc where
  | unborn
  | sending
  | waiting
  | returned (result : Except String StreamId)
  | abandoned

/-- Where `mux_driver` stands: in the loop that serves what is pending, at the `select!`, behind both,
or returned. -/
inductive DriverPc where
  | serving
  | selecting
  | draining
  | finished
deriving Repr, DecidableEq

/-- `pending` is the `Vec` of the driver, the last one first to be served. `lost` are the streams that
nobody took, which are reset. -/
structure State where
  calls : CallId → CallPc := fun _ => .unborn
  slots : CallId → Option Answer := fun _ => none
  nextCall : CallId := 0
  queue : List CallId := []
  pending : List CallId := []
  driver : DriverPc := .selecting
  nextStream : StreamId := 0
  lost : List StreamId := []

/-- What happens to the driver next. -/
inductive DriverInput where
  /-- `poll_new_outbound` gives a stream, fails, or is not ready. -/
  | opened
  | refused (e : String)
  | stalled
  /-- The arms of the `select!`; `ends` stands for a cancelled token, the end of the session, and an
  error of it. -/
  | recv
  | hungUp
  | retry
  | inbound
  | ends
  /-- The requests that are left are answered, and the driver returns. -/
  | drain
deriving Repr, DecidableEq

inductive Action where
  | open
  | send (c : CallId)
  | await (c : CallId)
  | abandon (c : CallId)
  | driver (input : DriverInput)
deriving Repr, DecidableEq

namespace State

def setCall (s : State) (c : CallId) (pc : CallPc) : State :=
  { s with calls := Function.update s.calls c pc }

/-- The driver's loop goes on to the `select!` when nothing is pending. -/
def atLoop (pending : List CallId) : DriverPc := if pending = [] then .selecting else .serving

/-- Whether the receiver is still there. -/
def listens (s : State) (c : CallId) : Bool :=
  match s.calls c with
  | .waiting => true
  | _ => false

/-- `req.send` for each of these: those that still listen get the answer. -/
def answer (s : State) (asked : List CallId) (a : Answer) : CallId → Option Answer :=
  fun c => if c ∈ asked ∧ s.listens c then some a else s.slots c

/-- `poll_open_now` has given a stream for the request popped from `pending`. -/
def serve (s : State) (c : CallId) (rest : List CallId) : State :=
  { s with
    slots := s.answer [c] (.sent (.ok s.nextStream))
    pending := rest
    driver := atLoop rest
    nextStream := s.nextStream + 1
    lost := if s.listens c then s.lost else s.nextStream :: s.lost }

/-- `mux_driver`. -/
def driverStep (s : State) : DriverInput → Option State
  | .opened =>
      match s.driver, s.pending.reverse with
      | .serving, c :: rest => some (s.serve c rest.reverse)
      | _, _ => none
  | .refused e =>
      if s.driver = .serving ∧ s.pending ≠ [] then
        some { s with
          slots := s.answer s.pending (.sent (.error s!"yamux open failed: {e}"))
          pending := []
          driver := .selecting }
      else none
  | .stalled =>
      if s.driver = .serving ∧ s.pending ≠ [] then some { s with driver := .selecting } else none
  | .recv =>
      match s.driver, s.queue with
      | .selecting, c :: rest =>
          some { s with queue := rest, pending := s.pending ++ [c], driver := .serving }
      | _, _ => none
  | .hungUp =>
      if s.driver = .selecting ∧ s.queue = [] then some { s with driver := .draining } else none
  | .retry =>
      if s.driver = .selecting ∧ s.pending ≠ [] then some { s with driver := .serving } else none
  | .inbound =>
      if s.driver = .selecting then some { s with driver := atLoop s.pending } else none
  | .ends =>
      if s.driver = .selecting then some { s with driver := .draining } else none
  | .drain =>
      if s.driver = .draining then
        some { s with
          slots := fun c =>
            if c ∈ s.queue then s.answer s.queue .dropped c
            else s.answer s.pending (.sent (.error "the yamux session is closed")) c
          pending := []
          queue := []
          driver := .finished }
      else none

/-- A call whose receiver is dropped takes a stream that is already in it along. -/
def drop (s : State) (c : CallId) : State :=
  { s.setCall c .abandoned with
    slots := Function.update s.slots c none
    lost := ((s.slots c).bind Answer.stream).toList ++ s.lost }

end State

def step : Action → State → Option State
  | .open, s => some { s.setCall s.nextCall .sending with nextCall := s.nextCall + 1 }
  | .send c, s =>
      match s.calls c with
      | .sending =>
          if s.driver = .finished then
            some (s.setCall c (.returned (.error "the yamux session is closed")))
          else if s.queue.length < OPEN_CAPACITY then
            some { s.setCall c .waiting with queue := s.queue ++ [c] }
          else none
      | _ => none
  | .await c, s =>
      match s.calls c, s.slots c with
      | .waiting, some a => some (s.setCall c (.returned a.result))
      | _, _ => none
  | .abandon c, s =>
      match s.calls c with
      | .sending | .waiting => some (s.drop c)
      | _ => none
  | .driver input, s => s.driverStep input

/-- The session as `MuxSession::start` makes it. -/
def mux : System State Action where
  init s := s = {}
  step s a s' := Mux.step a s = some s'

end Remgr.Frpc.Mux
