/-
Module: Remgr.Udp.Relay
Purpose: The relay of a udp proxy over one work connection: the two loops of `start_udp_proxy` in
  `remgr-frps/src/server.rs`, and `serve_udp` of `remgr-frps/src/client.rs` with its reader, its writer
  and the task of each user's socket. The state remembers what the users and the local service have
  sent, and what has arrived at the other end.
Trusted boundary: a socket call is one step, with its result in the label; `recv` fills at most its
  buffer and drops the rest of a longer datagram; the JSON parser is a parameter
Main exports: State, Action, step, relay
-/
import Remgr.Frpc.UdpPacket
import Remgr.Frps.Wire
import Remgr.Lib.Transition

namespace Remgr.Udp

open Remgr.Lib
open Remgr.Frps

/-- What the two programs find: `serde_json::from_slice`, and the local address of the server's
socket, if it is known. -/
structure World where
  fromSlice : List UInt8 → Option Json
  here : Option SocketAddr

/-- One per-user socket of the client, with its task. -/
abbrev SocketId := Nat

/-- The longest payload a UDP datagram can have. -/
def maxDatagram : Nat := 65507

/-- The buffer of a user's socket in the client. -/
def userBuffer : Nat := 64 * 1024

/-- The capacity of the channel to the writer. -/
def channelCapacity : Nat := 128

/-- `MAX_UDP_USER_SESSIONS`. -/
def maxUserSessions : Nat := 512

/-- `MAX_UDP_USER_SOCKETS`. -/
def maxUserSockets : Nat := 1024

/-- `UdpUser`, the user it belongs to, and whether its task is still in its loop. -/
structure UdpUser where
  user : SocketAddr
  alive : Bool := true
  cancelled : Bool := false
  running : Bool := true
deriving DecidableEq

/-- Where the reader of `serve_udp` stands: before the next frame, before it sends a datagram to the
local service, or at its end. -/
inductive ReaderPc where
  | frame
  | deliver (i : SocketId) (content : List UInt8)
  | done
deriving DecidableEq

structure State where
  /-- The work connection, from the server to the client and back. -/
  down : Wire := {}
  up : Wire := {}
  /-- The two loops of the server, and the token they share. -/
  serverReads : Bool := true
  serverSends : Bool := true
  serverCancelled : Bool := false
  /-- `serve_udp`: its reader and its writer, and the token `tunnel`. -/
  reader : ReaderPc := .frame
  writes : Bool := true
  tunnelCancelled : Bool := false
  users : List (SocketAddr × SocketId) := []
  sockets : SocketId → UdpUser := fun _ =>
    { user := ⟨.v4 0 0 0 0, 0⟩, alive := false, running := false }
  nextSocket : SocketId := 0
  /-- The channel to the writer, and the tasks that wait for room in it with what they send. -/
  channel : List (List UInt8 × SocketAddr) := []
  waiting : List (SocketId × List UInt8) := []
  /-- What was received from the users and sent to the local service, and the other way round. -/
  fromUsers : List (Endpoint × List UInt8) := []
  toService : List (SocketAddr × List UInt8) := []
  fromService : List (SocketAddr × List UInt8) := []
  toUsers : List (SocketAddr × List UInt8) := []

/-! ## The server -/

inductive ServerInput where
  | recvFrom (src : Endpoint) (datagram : List UInt8) (failure : Option Nat)
  | recvFails
  | frame (arrives : Bool)
  | sendCancelled
  | readCancelled
  | cancel

namespace State

/-- The read half of the server ends, and with it the send half. -/
def endServerRead (s : State) : State := { s with serverReads := false, serverCancelled := true }

/-- The send half ends, and with it the read half. -/
def endServerSend (s : State) : State := { s with serverSends := false, serverCancelled := true }

/-- A frame from the client. The datagram may be lost after `send_to`, or `send_to` may fail. -/
def serverFrame (w : World) (s : State) (frame : RawMsg) (arrives : Bool) : State :=
  if frame.1 = TYPE_PING then s
  else if frame.1 ≠ TYPE_UDP_PACKET then s.endServerRead
  else
    match (w.fromSlice frame.2).bind UdpPacket.ofJson with
    | none => s.endServerRead
    | some pkt =>
        match pkt.content with
        | none => s.endServerRead
        | some content =>
            match pkt.remoteSocketAddr with
            | none => s
            | some remote =>
                if arrives then { s with toUsers := s.toUsers ++ [(remote, content)] } else s

end State

/-- One step of the server. -/
def serverStep (w : World) (s : State) : ServerInput → Option State
  | .recvFrom src datagram failure =>
      if s.serverSends ∧ datagram.length ≤ maxDatagram then
        let pkt := UdpPacket.fromContent (datagram.take Server.udpBuffer) w.here src.addr
        let written := s.down.writeFrame TYPE_UDP_PACKET (Json.toVec pkt.toJson) failure
        let s := { s with down := written.2, fromUsers := s.fromUsers ++ [(src, datagram)] }
        some (if written.1 then s else s.endServerSend)
      else none
  | .recvFails => if s.serverSends then some s.endServerSend else none
  | .frame arrives =>
      if s.serverReads then
        match s.up.readFrame with
        | none => none
        | some (.error _) => some s.endServerRead
        | some (.ok (frame, rest)) => some ({ s with up := rest }.serverFrame w frame arrives)
      else none
  | .sendCancelled => if s.serverSends ∧ s.serverCancelled then some s.endServerSend else none
  | .readCancelled => if s.serverReads ∧ s.serverCancelled then some s.endServerRead else none
  | .cancel => some { s with serverCancelled := true }

/-! ## The client -/

inductive ClientInput where
  | frame (live : Nat) (opens : Bool)
  | deliver (sent arrives : Bool)
  | recv (i : SocketId) (datagram : List UInt8)
  | enqueue (i : SocketId)
  | socketEnds (i : SocketId)
  | tick (failure : Option Nat)
  | write (failure : Option Nat)
  | writerStops
  | readerCancelled
  | cancel

namespace State

/-- The reader leaves its loop, and the tunnel is cancelled. -/
def endReader (s : State) : State := { s with reader := .done, tunnelCancelled := true }

/-- The writer leaves its loop and shuts its half of the connection down. -/
def endWriter (s : State) : State :=
  { s with writes := false, up := { s.up with closed := true } }

def setSocket (s : State) (i : SocketId) (socket : UdpUser) : State :=
  { s with sockets := Function.update s.sockets i socket }

/-- What is done about a new user when there are too many: the dead ones are forgotten, and when that
is not enough all of them are, with their tokens cancelled. -/
def makeRoom (s : State) (user : SocketAddr) : State :=
  if maxUserSessions ≤ s.users.length ∧ s.users.lookup user = none then
    let alive := s.users.filter fun entry => (s.sockets entry.2).alive
    if maxUserSessions ≤ alive.length then
      { s with
        users := []
        sockets := fun i =>
          if i ∈ alive.map Prod.snd then { s.sockets i with cancelled := true } else s.sockets i }
    else { s with users := alive }
  else s

/-- The socket of the user, or a new one. `live` is the number of sockets of the whole client; the
call that opens one may fail, which ends the reader. -/
def chooseSocket (s : State) (user : SocketAddr) (content : List UInt8) (live : Nat) (opens : Bool) :
    State :=
  match (s.users.lookup user).filter fun i => (s.sockets i).alive with
  | some i => { s with reader := .deliver i content }
  | none =>
      if maxUserSockets ≤ live then s
      else if opens then
        { s.setSocket s.nextSocket { user } with
          users := (user, s.nextSocket) :: s.users.filter fun entry => entry.1 ≠ user
          nextSocket := s.nextSocket + 1
          reader := .deliver s.nextSocket content }
      else s.endReader

/-- A frame from the server. -/
def clientFrame (w : World) (s : State) (frame : RawMsg) (live : Nat) (opens : Bool) : State :=
  if frame.1 = TYPE_PING ∨ frame.1 = TYPE_PONG then s
  else if frame.1 ≠ TYPE_UDP_PACKET then s.endReader
  else
    match (w.fromSlice frame.2).bind Frpc.UdpPacketIn.ofJson with
    | none => s
    | some pkt =>
        match pkt.content with
        | none => s
        | some content =>
            match pkt.remoteSocketAddr with
            | none => s
            | some user => (s.makeRoom user).chooseSocket user content live opens

end State

/-- One step of the client. -/
def clientStep (w : World) (s : State) : ClientInput → Option State
  | .frame live opens =>
      if s.reader = .frame then
        match s.down.readFrame with
        | none => none
        | some (.error _) => some s.endReader
        | some (.ok (frame, rest)) => some ({ s with down := rest }.clientFrame w frame live opens)
      else none
  | .deliver sent arrives =>
      match s.reader with
      | .deliver i content =>
          let s := { s with reader := .frame }
          if sent then
            some (if arrives then
              { s with toService := s.toService ++ [((s.sockets i).user, content)] } else s)
          else
            some { s.setSocket i { s.sockets i with alive := false, cancelled := true } with
              users := s.users.filter fun entry => entry.1 ≠ (s.sockets i).user }
      | _ => none
  | .recv i datagram =>
      if i < s.nextSocket ∧ (s.sockets i).running ∧ s.waiting.lookup i = none ∧
          datagram.length ≤ maxDatagram then
        some { s with
          waiting := s.waiting ++ [(i, datagram.take userBuffer)]
          fromService := s.fromService ++ [((s.sockets i).user, datagram)] }
      else none
  | .enqueue i =>
      match s.waiting.lookup i with
      | none => none
      | some content =>
          let rest := s.waiting.erase (i, content)
          if s.writes then
            if s.channel.length < channelCapacity then
              some { s with waiting := rest, channel := s.channel ++ [(content, (s.sockets i).user)] }
            else none
          else
            -- the receiver is gone, and the task ends
            some { s.setSocket i { s.sockets i with alive := false, running := false } with
              waiting := rest }
  | .socketEnds i =>
      if (s.sockets i).running ∧ s.waiting.lookup i = none then
        some (s.setSocket i { s.sockets i with alive := false, running := false })
      else none
  | .tick failure =>
      if s.writes then
        let written := s.up.writeFrame TYPE_PING (Json.toVec ({} : Ping).toJson) failure
        let s := { s with up := written.2 }
        some (if written.1 then s else s.endWriter)
      else none
  | .write failure =>
      match s.channel with
      | [] => none
      | (content, user) :: rest =>
          if s.writes then
            let body := Json.toVec (Frpc.UdpPacketOut.ofContent content user).toJson
            let s := { s with channel := rest }
            -- a datagram that does not fit into a frame is dropped
            if MAX_MSG_LEN < (body.length : Int) then some s
            else
              let written := s.up.writeFrame TYPE_UDP_PACKET body failure
              let s := { s with up := written.2 }
              some (if written.1 then s else s.endWriter)
          else none
  | .writerStops => if s.writes ∧ s.tunnelCancelled then some s.endWriter else none
  | .readerCancelled =>
      if s.reader = .frame ∧ s.tunnelCancelled then some s.endReader else none
  | .cancel => some { s with tunnelCancelled := true }

/-! ## The system -/

/-- Which side moves, or the connection fails with this many bytes left to read. -/
inductive Action where
  | server (input : ServerInput)
  | client (input : ClientInput)
  | downBreaks (count : Nat)
  | upBreaks (count : Nat)

def step (w : World) (a : Action) (s : State) : Option State :=
  match a with
  | .server input => serverStep w s input
  | .client input => clientStep w s input
  | .downBreaks count => some { s with down := s.down.breaks count }
  | .upBreaks count => some { s with up := s.up.breaks count }

/-- The relay over a work connection that has just been set up. -/
def relay (w : World) : System State Action where
  init s := s = {}
  step s a s' := step w a s = some s'

end Remgr.Udp
