/-
Module: Remgr.Tcp.Tunnel
Purpose: One user connection of a tcp proxy from end to end. On the client `serve_work_conn` and
  `serve_tcp` of `remgr-frps/src/client.rs`, on the server `handle_work_io_with_frame` and
  `bridge_tcp_user` of `remgr-frps/src/server.rs`: both ends exchange one frame over the work
  connection and then copy bytes in both directions.
Trusted boundary: the connections are in-order byte streams that may fail at any time; the work
  connection has no layers of its own; what the server makes of the NewWorkConn, and the user that it
  picks, are parameters
Main exports: Ends, Lane, Tunnel, Tunnel.step, tunnel
-/
import Remgr.Lib.Transition
import Remgr.Frps.Wire
import Remgr.Frps.Msg
import Remgr.Tcp.Pump

namespace Remgr.Tcp

open Remgr.Lib
open Remgr.Frps
open Remgr.Lib.Json (toVec)

/-- What is fixed for a work connection: the parser and the tcp proxies of the client, the
NewWorkConn it sends, and what the server answers. -/
structure Ends where
  fromSlice : List UInt8 → Option Json
  published : List String
  hello : NewWorkConn
  verdict : Except String StartWorkConn

namespace Ends

def greeting (e : Ends) : RawMsg := (TYPE_NEW_WORK_CONN, toVec e.hello.toJson)

/-- The StartWorkConn of `bridge_tcp_user`, or the one that names the reason of a rejection. -/
def startWorkConn (e : Ends) : StartWorkConn :=
  match e.verdict with
  | .ok start => start
  | .error reason => { error := reason }

def reply (e : Ends) : RawMsg := (TYPE_START_WORK_CONN, toVec e.startWorkConn.toJson)

/-- Whether `serve_work_conn` goes on to dial the local service. -/
def takes (e : Ends) (frame : RawMsg) : Bool :=
  frame.1 == TYPE_START_WORK_CONN &&
    match (e.fromSlice frame.2).bind StartWorkConn.ofJson with
    | some start => start.error == "" && e.published.contains start.proxyName
    | none => false

end Ends

/-! ## One direction -/

/-- One direction of the user's bytes: from `inp` over the work connection `mid` to `out`, with the
`pump` of the near end and that of the far end. `head` and `skip` are what was written to and read
from the work connection ahead of them. -/
structure Lane where
  inp : Pipe UInt8
  near : Pump
  mid : Pipe UInt8
  far : Pump
  out : Pipe UInt8
  head : List UInt8
  skip : List UInt8

namespace Lane

def start : Lane :=
  { inp := .fresh, near := .start, mid := .fresh, far := .start, out := .fresh, head := [], skip := [] }

def nearStep (lane : Lane) (input : PumpInput) : Option Lane :=
  (lane.near.step lane.inp lane.mid input).map fun next =>
    { lane with inp := next.1, near := next.2.1, mid := next.2.2 }

def farStep (lane : Lane) (input : PumpInput) : Option Lane :=
  (lane.far.step lane.mid lane.out input).map fun next =>
    { lane with mid := next.1, far := next.2.1, out := next.2.2 }

/-- The near end writes these bytes of its frame. -/
def say (lane : Lane) (bytes : List UInt8) : Lane :=
  { lane with mid := lane.mid.push bytes, head := lane.head ++ bytes }

/-- The far end reads `count` bytes, those of a frame. -/
def hear (lane : Lane) (count : Nat) : Lane :=
  { lane with mid := lane.mid.pull count, skip := lane.skip ++ lane.mid.bytes.take count }

end Lane

/-- The direction of the bytes of the user, and that of the bytes of the local service. -/
inductive Way where
  | down
  | up
deriving Repr, DecidableEq

/-- The three connections of a direction. -/
inductive Leg where
  | inp
  | mid
  | out
deriving Repr, DecidableEq

/-! ## Both ends -/

inductive ClientPc where
  | opening
  | greeting (left : List UInt8)
  | waiting
  | dialing
  | serving
  | over
deriving Repr, DecidableEq

inductive ServerPc where
  | first
  | pooled
  | starting (left : List UInt8)
  | bridging
  | over
deriving Repr, DecidableEq

structure Tunnel where
  client : ClientPc
  server : ServerPc
  down : Lane
  up : Lane

inductive ClientInput where
  | greet
  | wrote (count : Nat)
  | frame
  | dialed (ok : Bool)
  | gone
deriving Repr, DecidableEq

inductive ServerInput where
  | frame
  | assign
  | wrote (count : Nat)
  | gone
deriving Repr, DecidableEq

/-- Steps of the two ends, of their four pumps, of the user and the local service (they write,
shut down, or read), and of the connections, which may fail. -/
inductive Action where
  | client (input : ClientInput)
  | server (input : ServerInput)
  | near (way : Way) (input : PumpInput)
  | far (way : Way) (input : PumpInput)
  | send (way : Way) (data : List UInt8)
  | shut (way : Way)
  | recv (way : Way) (count : Nat)
  | fail (way : Way) (leg : Leg) (count : Nat)
deriving Repr, DecidableEq

namespace Tunnel

def start : Tunnel := { client := .opening, server := .first, down := .start, up := .start }

def lane (t : Tunnel) : Way → Lane
  | .down => t.down
  | .up => t.up

def setLane (t : Tunnel) : Way → Lane → Tunnel
  | .down, lane => { t with down := lane }
  | .up, lane => { t with up := lane }

/-- `serve_work_conn` up to the pumps of `serve_tcp`. -/
def clientStep (e : Ends) (t : Tunnel) : ClientInput → Option Tunnel
  | .greet =>
      match t.client with
      | .opening =>
          match writeFrame e.greeting.1 e.greeting.2 [] with
          | (.ok (), buf) => some { t with client := .greeting buf }
          | (.error _, _) => some { t with client := .over }
      | _ => none
  | .wrote count =>
      match t.client with
      | .greeting left =>
          if 0 < count ∧ count ≤ left.length ∧ t.up.mid.ended = false then
            some { t with
              client := if left.drop count = [] then .waiting else .greeting (left.drop count)
              up := t.up.say (left.take count) }
          else none
      | _ => none
  | .frame =>
      match t.client with
      | .waiting =>
          match readFrame ⟨[t.down.mid.bytes], .eof⟩ with
          | .ok (frame, _) =>
              some { t with
                client := if e.takes frame then .dialing else .over
                down := t.down.hear (Wire.frameBytes frame).length }
          | .error (.io _) => if t.down.mid.ended then some { t with client := .over } else none
          | .error _ => some { t with client := .over }
      | _ => none
  | .dialed ok =>
      match t.client with
      | .dialing => some { t with client := if ok then .serving else .over }
      | _ => none
  | .gone =>
      match t.client with
      | .serving => none
      | .over => none
      | _ => some { t with client := .over }

/-- `handle_work_io_with_frame` and `bridge_tcp_user` up to its pumps. -/
def serverStep (e : Ends) (t : Tunnel) : ServerInput → Option Tunnel
  | .frame =>
      match t.server with
      | .first =>
          match readFrame ⟨[t.up.mid.bytes], .eof⟩ with
          | .ok (frame, _) =>
              some { t with server := .pooled, up := t.up.hear (Wire.frameBytes frame).length }
          | .error (.io _) => if t.up.mid.ended then some { t with server := .over } else none
          | .error _ => some { t with server := .over }
      | _ => none
  | .assign =>
      match t.server with
      | .pooled =>
          match writeFrame e.reply.1 e.reply.2 [] with
          | (.ok (), buf) => some { t with server := .starting buf }
          | (.error _, _) => some { t with server := .over }
      | _ => none
  | .wrote count =>
      match t.server with
      | .starting left =>
          if 0 < count ∧ count ≤ left.length ∧ t.down.mid.ended = false then
            some { t with
              server :=
                if left.drop count ≠ [] then .starting (left.drop count)
                else if e.verdict.toOption.isSome then .bridging else .over
              down := t.down.say (left.take count) }
          else none
      | _ => none
  | .gone =>
      match t.server with
      | .bridging => none
      | .over => none
      | _ => some { t with server := .over }

/-- Whether the `pump` at the near end of a direction runs. -/
def nearUp (t : Tunnel) : Way → Bool
  | .down => t.server == .bridging
  | .up => t.client == .serving

def farUp (t : Tunnel) : Way → Bool
  | .down => t.client == .serving
  | .up => t.server == .bridging

/-- Only the client drops its pumps, with its session. -/
def drops (atClient : Bool) : PumpInput → Bool
  | .dropped => atClient
  | _ => true

def step (e : Ends) : Action → Tunnel → Option Tunnel
  | .client input, t => t.clientStep e input
  | .server input, t => t.serverStep e input
  | .near way input, t =>
      if t.nearUp way ∧ drops (way == .up) input then
        ((t.lane way).nearStep input).map (t.setLane way)
      else none
  | .far way input, t =>
      if t.farUp way ∧ drops (way == .down) input then
        ((t.lane way).farStep input).map (t.setLane way)
      else none
  | .send way data, t =>
      let lane := t.lane way
      some (t.setLane way { lane with inp := lane.inp.push data })
  | .shut way, t =>
      let lane := t.lane way
      some (t.setLane way { lane with inp := lane.inp.finish })
  | .recv way count, t =>
      let lane := t.lane way
      some (t.setLane way { lane with out := lane.out.pull count })
  | .fail way .inp count, t =>
      let lane := t.lane way
      some (t.setLane way { lane with inp := lane.inp.cut count })
  | .fail way .mid count, t =>
      let lane := t.lane way
      some (t.setLane way { lane with mid := lane.mid.cut count })
  | .fail way .out count, t =>
      let lane := t.lane way
      some (t.setLane way { lane with out := lane.out.cut count })

end Tunnel

def tunnel (e : Ends) : System Tunnel Action where
  init t := t = .start
  step t a t' := Tunnel.step e a t = some t'

end Remgr.Tcp
