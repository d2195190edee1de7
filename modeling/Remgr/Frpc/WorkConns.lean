/-
Module: Remgr.Frpc.WorkConns
Purpose: The frp client with its work connections, and the figures they keep: `serve_work_conn`, `serve_tcp`,
  `pump` and `ByteCounter` in `remgr-frps/src/client.rs`. Beside the figures the state keeps, without
  bound, all that was ever counted on each runtime.
Trusted boundary: as in `Remgr.Frpc.Client.State`; whether there is a permit for a work connection, and
  what its two ends read, is in the label
Main exports: Figure, WorkConnPc, State, Action, step, workConns
-/
import Remgr.Frpc.Client.Step

namespace Remgr.Frpc.WorkConns

open Remgr.Lib
open Remgr.Frpc.Client (RuntimeId SupervisorId Map)

/-- One task of `serve_work_conn`. -/
abbrev WorkConnId := Nat

/-- `conns_total`, `bytes_in` and `bytes_out` of a `ProxyRuntime`. -/
inductive Figure where
  | connsTotal
  | bytesIn
  | bytesOut
deriving DecidableEq

/-- Which of the two `ByteCounter`s of a work connection: what goes to the local service, or what comes
from it. -/
inductive Way where
  | toLocal
  | toUpstream
deriving DecidableEq

def Way.figure : Way → Figure
  | .toLocal => .bytesIn
  | .toUpstream => .bytesOut

/-- Where a work connection stands: it waits for `StartWorkConn` with the registry of the session it
was opened in, or it serves a proxy, until the last of its tasks is over. -/
inductive WorkConnPc where
  | unborn
  | waiting (proxies : Map String RuntimeId)
  | serving (rt : RuntimeId)
  | ended

/-- The client, the figures of its runtimes, and `bytes_in` and `bytes_out` of `Shared`. -/
structure State where
  client : Client.State
  figures : RuntimeId → Figure → UInt64 := fun _ _ => 0
  bytes : Way → UInt64 := fun _ => 0
  conns : WorkConnId → WorkConnPc := fun _ => .unborn
  nextConn : WorkConnId := 0
  /-- All that was counted on a runtime since it was made. -/
  counted : RuntimeId → Figure → Nat := fun _ _ => 0

namespace State

def setConn (s : State) (c : WorkConnId) (pc : WorkConnPc) : State :=
  { s with conns := Function.update s.conns c pc }

/-- `fetch_add` on a figure of a runtime. -/
def count (s : State) (r : RuntimeId) (f : Figure) (n : UInt64) : State :=
  { s with
    figures := Function.update s.figures r (Function.update (s.figures r) f (s.figures r f + n))
    counted :=
      Function.update s.counted r (Function.update (s.counted r) f (s.counted r f + n.toNat)) }

/-- `ByteCounter::add`. -/
def addBytes (s : State) (r : RuntimeId) (way : Way) (n : UInt64) : State :=
  { s.count r way.figure n with bytes := Function.update s.bytes way (s.bytes way + n) }

/-- The client moves on. `ProxyRuntime::new` gives the runtimes it makes their figures. -/
def advance (s : State) (client : Client.State) : State :=
  let made (r : RuntimeId) : Bool := s.client.nextRuntime ≤ r && decide (r < client.nextRuntime)
  { s with
    client
    figures := fun r => if made r then fun _ => 0 else s.figures r
    counted := fun r => if made r then fun _ => 0 else s.counted r }

/-- `FrpcClient::new`. -/
def new (cfg : FrpcConfig) : State := { client := .new cfg }

/-- What `FrpcClient::status` reports of the figures of a proxy. -/
def reported (s : State) (name : String) : Option (Figure → UInt64) :=
  (s.client.registry.lookup name).map s.figures

end State

/-- Which task moves. A request for a work connection is a step of the client when there is no permit
for it. -/
inductive Action where
  | client (a : Client.Action)
  | reqWorkConn (v : SupervisorId)
  | startWorkConn (c : WorkConnId) (proxyName : String)
  | read (c : WorkConnId) (way : Way) (n : UInt64)
  | ends (c : WorkConnId)

def step (w : World) (a : Action) (s : State) : Option State :=
  match a with
  | .client a => (Client.step w a s.client).map s.advance
  | .reqWorkConn v =>
      match (s.client.supervisors v).stage with
      | .session .loop session => do
          let client ← Client.step w (.supervisor v .reqWorkConn) s.client
          some { (s.advance client).setConn s.nextConn (.waiting session.proxies) with
            nextConn := s.nextConn + 1 }
      | _ => none
  | .startWorkConn c proxyName =>
      match s.conns c with
      | .waiting proxies =>
          match proxies.lookup proxyName with
          | none => some (s.setConn c .ended)
          | some rt => some ((s.count rt .connsTotal 1).setConn c (.serving rt))
      | _ => none
  | .read c way n =>
      match s.conns c with
      | .serving rt => some (s.addBytes rt way n)
      | _ => none
  | .ends c =>
      match s.conns c with
      | .waiting _ | .serving _ => some (s.setConn c .ended)
      | _ => none

/-- A client with its work connections, created with any configuration. -/
def workConns (w : World) : System State Action where
  init s := ∃ cfg, s = .new cfg
  step s a s' := step w a s = some s'

end Remgr.Frpc.WorkConns
