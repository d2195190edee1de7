/-
Module: Remgr.Console.Serve
Purpose: The loop that serves the console and the request that makes it rebind: preparing a
  listener, the fallbacks, the hand-over, and the port and scheme the rest of the program is told.
Trusted boundary: the kernel gives a port to one listener at a time, binding port 0 picks a free
  port, and whether a certificate pair can be loaded depends on its two paths only; all of it may
  change between any two steps. `config_blocking` (`Remgr.Console.Step`) returns the section in
  memory or, when a writer keeps the lock, any one that was in memory before
Main exports: Env, Prepared, prepareConsole, State, consoleApply, step, serve
-/
import Remgr.Console.Config
import Remgr.Lib.Transition

namespace Remgr.Console.Serve

open Lib

/-- What the operating system decides. -/
structure Env where
  /-- Ports on which another process listens. -/
  held : List UInt16
  /-- Ports that cannot be bound for another reason, such as missing rights. -/
  refused : List UInt16
  /-- The port a listener gets that asks for any. -/
  ephemeral : UInt16
  /-- The pairs of certificate and key file that load. -/
  readable : List (String × String)
  free : ephemeral ≠ 0 ∧ ephemeral ∉ held
  numbered : 0 ∉ held

/-- How a listener came to the loop. -/
inductive Route where
  | handedOver
  | prepared
  | plain
  | lastResort
deriving DecidableEq, Repr

/-- `PreparedConsole`: a bound listener, with its keys loaded when it serves TLS. The settings it
was prepared from and its route are recorded for the statements. -/
structure Prepared where
  port : UInt16
  tls : Bool
  asked : ConsoleConfig
  route : Route
deriving DecidableEq, Repr

inductive PrepareError where
  | addrInUse
  | bind
  | certificate
deriving DecidableEq, Repr

/-- `prepare_console`: bind, then load the pair when TLS is on. `own` are the ports on which this
process listens. -/
def prepareConsole (env : Env) (own : List UInt16) (route : Route) (cfg : ConsoleConfig) :
    Except PrepareError Prepared :=
  if cfg.port ∈ env.held ∨ cfg.port ∈ own then .error .addrInUse
  else if cfg.port ∈ env.refused then .error .bind
  else if cfg.tls ∧ (cfg.tlsCert, cfg.tlsKey) ∉ env.readable then .error .certificate
  else .ok { port := if cfg.port = 0 then env.ephemeral else cfg.port, tls := cfg.tls, asked := cfg,
             route := route }

/-- Where the loop is. -/
inductive Pc where
  | top
  | take (cfg : ConsoleConfig)
  | prepare (cfg : ConsoleConfig)
  | plain (cfg : ConsoleConfig)
  | lastResort (cfg : ConsoleConfig)
  | sleeping
  | opening (p : Prepared)
  | listening (p : Prepared)
  | announcing (p : Prepared)
  | serving (p : Prepared)
  | returned
deriving DecidableEq, Repr

/-- The listener the loop has, if any. -/
def Pc.listener : Pc → Option Prepared
  | .opening p | .listening p | .announcing p | .serving p => some p
  | _ => none

structure State where
  env : Env
  /-- The console section of the configuration in memory. -/
  config : ConsoleConfig
  /-- What it was before, the latest first. -/
  earlier : List ConsoleConfig
  pc : Pc
  lastGood : Option ConsoleConfig
  /-- `console_pending`. -/
  pending : Option Prepared
  /-- `console_stop` holds a sender. -/
  stop : Bool
  /-- The server that runs now was told to stop. -/
  signalled : Bool
  servingPort : Option UInt16
  servingTls : Bool
  /-- What `config_blocking` returned to `console_apply` calls that have prepared nothing yet. -/
  calls : List ConsoleConfig
  /-- Listeners of `console_apply` calls that have not handed them over yet. -/
  handing : List Prepared
  /-- The number of `console_apply` calls about to take the stop sender. -/
  stopping : Nat

/-- What `config_blocking` returns: the section in memory, or one from before. -/
def State.configBlocking (s : State) (found : Nat) : Option ConsoleConfig :=
  (s.config :: s.earlier)[found]?

/-- The console listeners of this process. -/
def State.listeners (s : State) : List Prepared :=
  s.pc.listener.toList ++ s.pending.toList ++ s.handing

/-- The ports on which this process listens. -/
def State.own (s : State) : List UInt16 := s.listeners.map Prepared.port

inductive Response where
  | rebinding
  | samePort
  | error (reason : PrepareError)
deriving DecidableEq, Repr

/-- `console_apply` from what `config_blocking` has returned up to its answer: what follows is to
store the listener and to stop the server. -/
def consoleApply (cfg : ConsoleConfig) (s : State) : Response × State :=
  match prepareConsole s.env s.own .handedOver cfg with
  | .ok p => (.rebinding, { s with handing := s.handing ++ [p] })
  | .error e =>
      if e = .addrInUse ∧ s.servingPort = some cfg.port then
        (.samePort, { s with stopping := s.stopping + 1 })
      else (.error e, s)

inductive Input where
  /-- The environment changes. -/
  | environment (env : Env)
  /-- The console section is edited. -/
  | edit (cfg : ConsoleConfig)
  /-- A request to apply reads the settings. -/
  | call (found : Nat)
  /-- The `i`th request that has read them goes on. -/
  | apply (i : Nat)
  /-- The `i`th listener prepared by an apply becomes the pending one. -/
  | publish (i : Nat)
  /-- An apply takes the stop sender, if there is one, and uses it. -/
  | stop
  /-- The loop reads the settings. -/
  | read (found : Nat)
  /-- The loop goes on. -/
  | loop
  /-- The server or the listener fails. -/
  | fail

/-- One step of the loop after it has read the settings. -/
def loopStep (s : State) : Option State :=
  match s.pc with
  | .top => none
  | .take cfg =>
      match s.pending with
      | some p => some { s with pending := none, pc := .opening p }
      | none => some { s with pc := .prepare cfg }
  | .prepare cfg =>
      match prepareConsole s.env s.own .prepared cfg with
      | .ok p => some { s with pc := .opening p, lastGood := some cfg }
      | .error _ => some { s with pc := .plain cfg }
  | .plain cfg =>
      match prepareConsole s.env s.own .plain { cfg with tls := false } with
      | .ok p => some { s with pc := .opening p }
      | .error _ => some { s with pc := .lastResort cfg }
  | .lastResort _ =>
      match s.lastGood with
      | none => some { s with pc := .sleeping }
      | some good =>
          match prepareConsole s.env s.own .lastResort good with
          | .ok p => some { s with pc := .opening p }
          | .error _ => some { s with pc := .sleeping }
  | .sleeping => some { s with pc := .top }
  | .opening p => some { s with pc := .listening p, stop := true, signalled := false }
  | .listening p => some { s with pc := .announcing p, servingPort := some p.port }
  | .announcing p => some { s with pc := .serving p, servingTls := p.tls }
  | .serving _ => if s.signalled then some { s with pc := .top } else none
  | .returned => none

def step (s : State) : Input → Option State
  | .environment env =>
      if s.own.all (· ∉ env.held) then some { s with env := env } else none
  | .edit cfg => some { s with config := cfg, earlier := s.config :: s.earlier }
  | .call found => (s.configBlocking found).map fun cfg => { s with calls := s.calls ++ [cfg] }
  | .apply i =>
      s.calls[i]?.map fun cfg => (consoleApply cfg { s with calls := s.calls.eraseIdx i }).2
  | .publish i =>
      s.handing[i]?.map fun p =>
        { s with handing := s.handing.eraseIdx i, pending := some p, stopping := s.stopping + 1 }
  | .stop =>
      if 0 < s.stopping then
        some { s with
          stopping := s.stopping - 1, stop := false, signalled := s.signalled || s.stop }
      else none
  | .read found =>
      match s.pc with
      | .top => (s.configBlocking found).map fun cfg => { s with pc := .take cfg }
      | _ => none
  | .loop => loopStep s
  | .fail =>
      match s.pc with
      | .serving _ => some { s with pc := .sleeping }
      -- a plain listener that tokio does not take ends the task
      | .listening p => if p.tls then none else some { s with pc := .returned }
      | _ => none

structure Starts (s : State) : Prop where
  pc : s.pc = .top
  lastGood : s.lastGood = none
  pending : s.pending = none
  stop : s.stop = false
  signalled : s.signalled = false
  servingPort : s.servingPort = none
  servingTls : s.servingTls = false
  calls : s.calls = []
  handing : s.handing = []
  stopping : s.stopping = 0

def serve : System State Input where
  init := Starts
  step s input s' := step s input = some s'

end Remgr.Console.Serve
