/-
Module: Remgr.Udp.Tunnels
Purpose: All the udp work connections of one client: any number of calls of `serve_udp` in
  `remgr-frps/src/client.rs`, which share the count of user sockets. The state remembers for whom each
  socket was created, and what went out on either side.
Trusted boundary: as in `Remgr.Udp.Relay`; a stretch of a task between two awaits is one step, but for the
  end of a socket's task, where its last two stores are steps of their own
Main exports: UdpUser, Tunnel, State, Action, step, tunnels
-/
import Remgr.Udp.Relay

namespace Remgr.Udp.Tunnels

open Remgr.Lib
open Remgr.Frps

/-- One call of `serve_udp`. -/
abbrev TunnelId := Nat

/-- Where the task of a user's socket stands: in its loop, with a datagram on its way into the channel,
out of the loop, about to lower the count, or over. -/
inductive TaskPc where
  | unborn
  | loop
  | send (content : List UInt8)
  | left
  | lower
  | ended
deriving DecidableEq

/-- `UdpUser` and its task. `createdFor` remembers whose datagram made the reader open the socket;
`userKey` is what the task captured. -/
structure UdpUser where
  tunnel : TunnelId := 0
  createdFor : SocketAddr := ⟨.v4 0 0 0 0, 0⟩
  userKey : SocketAddr := ⟨.v4 0 0 0 0, 0⟩
  alive : Bool := false
  cancelled : Bool := false
  pc : TaskPc := .unborn

/-- A datagram for a user, with the body it came in. -/
structure Datagram where
  body : List UInt8
  user : SocketAddr
  content : List UInt8
deriving DecidableEq

/-- Where the reader of `serve_udp` stands: before the next frame, before the load of the count, before
each of the calls that open a socket, before the count is raised, or before `send`. -/
inductive ReaderPc where
  | unborn
  | frame
  | check (d : Datagram)
  | bind (d : Datagram)
  | connect (d : Datagram)
  | raise (d : Datagram)
  | deliver (d : Datagram) (i : SocketId)
  | done

/-- An item of the channel, and the socket it was received on. -/
structure Reply where
  socket : SocketId
  content : List UInt8
  user : SocketAddr

/-- `writes` says that the writer task, which has the receiving end of the channel, is in its loop. -/
structure Tunnel where
  reader : ReaderPc := .unborn
  writes : Bool := false
  cancelled : Bool := false
  users : List (SocketAddr × SocketId) := []
  channel : List Reply := []

structure State where
  udpUserSockets : UInt64 := 0
  tunnels : TunnelId → Tunnel := fun _ => {}
  sockets : SocketId → UdpUser := fun _ => {}
  nextSocket : SocketId := 0
  /-- What the reader sent to the local service, and on which socket. -/
  forwarded : List (Datagram × SocketId) := []
  /-- What the sockets received from it. -/
  received : List (SocketId × List UInt8) := []
  /-- The packets written upstream, and the socket each datagram was received on. -/
  written : List (SocketId × Frpc.UdpPacketOut) := []

namespace State

def setTunnel (s : State) (t : TunnelId) (tunnel : Tunnel) : State :=
  { s with tunnels := Function.update s.tunnels t tunnel }

def setSocket (s : State) (i : SocketId) (socket : UdpUser) : State :=
  { s with sockets := Function.update s.sockets i socket }

def goto (s : State) (t : TunnelId) (pc : ReaderPc) : State :=
  s.setTunnel t { s.tunnels t with reader := pc }

/-! ## The reader -/

/-- The reader leaves its loop, and cancels the tunnel. -/
def endReader (s : State) (t : TunnelId) : State :=
  s.setTunnel t { s.tunnels t with reader := .done, cancelled := true }

/-- What is done about a new user when there are too many: the dead ones are forgotten, and when that
is not enough all of them are, with their tokens cancelled. -/
def makeRoom (s : State) (t : TunnelId) (user : SocketAddr) : State :=
  let users := (s.tunnels t).users
  if maxUserSessions ≤ users.length ∧ users.lookup user = none then
    let alive := users.filter fun entry => (s.sockets entry.2).alive
    if maxUserSessions ≤ alive.length then
      { s.setTunnel t { s.tunnels t with users := [] } with
        sockets := fun i =>
          if i ∈ alive.map Prod.snd then { s.sockets i with cancelled := true } else s.sockets i }
    else s.setTunnel t { s.tunnels t with users := alive }
  else s

/-- The socket of the user, if its task is alive. -/
def chooseSocket (s : State) (t : TunnelId) (d : Datagram) : State :=
  match ((s.tunnels t).users.lookup d.user).filter fun i => (s.sockets i).alive with
  | some i => s.goto t (.deliver d i)
  | none => s.goto t (.check d)

/-- A new socket with its task, in the place of what the table has for the user. -/
def openSocket (s : State) (t : TunnelId) (d : Datagram) : State :=
  { (s.setTunnel t
      { s.tunnels t with
        users := (d.user, s.nextSocket) :: (s.tunnels t).users.filter fun entry => entry.1 ≠ d.user
        reader := .deliver d s.nextSocket }).setSocket s.nextSocket
      { tunnel := t, createdFor := d.user, userKey := d.user, alive := true, pc := .loop } with
    udpUserSockets := s.udpUserSockets + 1
    nextSocket := s.nextSocket + 1 }

end State

/-- The datagram and the user of a packet. A body that cannot be read as one is passed over. -/
def readPacket (w : World) (body : List UInt8) : Option Datagram := do
  let pkt ← (w.fromSlice body).bind Frpc.UdpPacketIn.ofJson
  let content ← pkt.content
  let user ← pkt.remoteSocketAddr
  some { body, user, content }

/-- A frame from the server. -/
def takeFrame (w : World) (s : State) (t : TunnelId) (frame : RawMsg) : State :=
  if frame.1 = TYPE_PING ∨ frame.1 = TYPE_PONG then s
  else if frame.1 ≠ TYPE_UDP_PACKET then s.endReader t
  else
    match readPacket w frame.2 with
    | none => s
    | some d => (s.makeRoom t d.user).chooseSocket t d

inductive ReaderInput where
  | start
  | frame (result : Option RawMsg)
  | cancelled
  | go
  | called (ok : Bool)

/-- One step of the reader of a tunnel. -/
def readerStep (w : World) (t : TunnelId) (s : State) : ReaderPc → ReaderInput → Option State
  | .unborn, .start => some (s.setTunnel t { s.tunnels t with reader := .frame, writes := true })
  | .frame, .frame none => some (s.endReader t)
  | .frame, .frame (some frame) => some (takeFrame w s t frame)
  | .frame, .cancelled => if (s.tunnels t).cancelled then some (s.endReader t) else none
  | .check d, .go =>
      if maxUserSockets ≤ s.udpUserSockets.toNat then some (s.goto t .frame)
      else some (s.goto t (.bind d))
  | .bind d, .called ok => some (if ok then s.goto t (.connect d) else s.endReader t)
  | .connect d, .called ok => some (if ok then s.goto t (.raise d) else s.endReader t)
  | .raise d, .go => some (s.openSocket t d)
  | .deliver d i, .called true =>
      some ({ s with forwarded := s.forwarded ++ [(d, i)] }.goto t .frame)
  | .deliver d i, .called false =>
      some ((s.setSocket i { s.sockets i with alive := false, cancelled := true }).setTunnel t
        { s.tunnels t with
          users := (s.tunnels t).users.filter fun entry => entry.1 ≠ d.user
          reader := .frame })
  | _, _ => none

/-! ## The tasks of the sockets -/

inductive TaskInput where
  | cancelled
  | recv (datagram : List UInt8)
  | fails
  | go

/-- One step of the task of a socket. It leaves its loop cancelled, after the idle time or a failed
`recv`, or when the writer is gone. -/
def taskStep (i : SocketId) (s : State) : TaskPc → TaskInput → Option State
  | .loop, .cancelled =>
      if (s.sockets i).cancelled ∨ (s.tunnels (s.sockets i).tunnel).cancelled = true then
        some (s.setSocket i { s.sockets i with pc := .left })
      else none
  | .loop, .recv datagram =>
      if datagram.length ≤ maxDatagram then
        let content := datagram.take userBuffer
        some { s.setSocket i { s.sockets i with pc := .send content } with
          received := s.received ++ [(i, content)] }
      else none
  | .loop, .fails => some (s.setSocket i { s.sockets i with pc := .left })
  | .send content, .go =>
      let t := (s.sockets i).tunnel
      let channel := (s.tunnels t).channel
      if (s.tunnels t).writes = false then some (s.setSocket i { s.sockets i with pc := .left })
      else if channel.length < channelCapacity then
        some ((s.setSocket i { s.sockets i with pc := .loop }).setTunnel t
          { s.tunnels t with channel := channel ++ [⟨i, content, (s.sockets i).userKey⟩] })
      else none
  | .left, .go => some (s.setSocket i { s.sockets i with alive := false, pc := .lower })
  | .lower, .go =>
      some { s.setSocket i { s.sockets i with pc := .ended } with
        udpUserSockets := s.udpUserSockets - 1 }
  | _, _ => none

/-! ## The writers -/

inductive WriterInput where
  | tick (ok : Bool)
  | write (ok : Bool)
  | stops

/-- The writer leaves its loop, and the channel is closed. -/
def State.endWriter (s : State) (t : TunnelId) : State :=
  s.setTunnel t { s.tunnels t with writes := false, channel := [] }

/-- One step of the writer of a tunnel: a keepalive, or the next reply. A reply that does not fit into a
frame is dropped. -/
def writerStep (t : TunnelId) (s : State) : WriterInput → Option State
  | .tick ok =>
      if (s.tunnels t).writes then some (if ok then s else s.endWriter t) else none
  | .write ok =>
      match (s.tunnels t).channel with
      | [] => none
      | reply :: rest =>
          if (s.tunnels t).writes then
            let out := Frpc.UdpPacketOut.ofContent reply.content reply.user
            if MAX_MSG_LEN < ((Json.toVec out.toJson).length : Int) then
              some (s.setTunnel t { s.tunnels t with channel := rest })
            else if ok then
              some { s.setTunnel t { s.tunnels t with channel := rest } with
                written := s.written ++ [(reply.socket, out)] }
            else some (s.endWriter t)
          else none
  | .stops =>
      if (s.tunnels t).writes ∧ (s.tunnels t).cancelled = true then some (s.endWriter t) else none

/-! ## The system -/

/-- Which task moves, or the session cancels a tunnel. -/
inductive Action where
  | reader (t : TunnelId) (input : ReaderInput)
  | writer (t : TunnelId) (input : WriterInput)
  | task (i : SocketId) (input : TaskInput)
  | cancel (t : TunnelId)

def step (w : World) (a : Action) (s : State) : Option State :=
  match a with
  | .reader t input => readerStep w t s (s.tunnels t).reader input
  | .writer t input => writerStep t s input
  | .task i input => taskStep i s (s.sockets i).pc input
  | .cancel t => some (s.setTunnel t { s.tunnels t with cancelled := true })

/-- The client before any tunnel has begun. -/
def tunnels (w : World) : System State Action where
  init s := s = {}
  step s a s' := step w a s = some s'

end Remgr.Udp.Tunnels
