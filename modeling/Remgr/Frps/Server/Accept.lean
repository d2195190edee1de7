/-
Module: Remgr.Frps.Server.Accept
Purpose: How `handle_accepted` of `remgr-frps/src/server.rs` sniffs the first byte of a connection,
  the `Prefixed` stream that replays it, and the steps of a connection: the client's, the sniffing's
  and the reads of the layer above.
Trusted boundary: `tokio::net::TcpStream`, which keeps the client's bytes in order. When a poll is
  ready, how much it hands out, when it fails, when a time limit passes and what a reset connection
  loses are choices of the run
Main exports: TcpStream, Prefixed, Prefixed.pollRead, Sniffed, accept, Conn, step, connections
-/
import Remgr.Frps.Crypto
import Remgr.Lib.ByteSource
import Remgr.Lib.Transition

namespace Remgr.Frps.Accept

open Lib

/-! ## The streams -/

/-- What the operating system answers to a poll for bytes: up to `extra + 1` of them, nothing yet,
or a failure. -/
inductive Readiness where
  | ready (extra : Nat)
  | pending
  | error
deriving Repr, DecidableEq

/-- `tokio::net::TcpStream`, as the server reads it: what the client has sent and nobody has read,
and whether that is all. -/
structure TcpStream where
  unread : List UInt8 := []
  closed : Bool := false
deriving Repr, DecidableEq

/-- `TcpStream::poll_read`. A poll with room is ready only once there are bytes, or the end. -/
def TcpStream.pollRead (answer : Readiness) (tcp : TcpStream) (buf : ReadBuf) : Polled TcpStream :=
  match answer with
  | .pending => ⟨.pending, tcp, buf⟩
  | .error => ⟨.error, tcp, buf⟩
  | .ready extra =>
      let n := min (extra + 1) buf.remaining
      if tcp.unread = [] ∧ tcp.closed = false ∧ 0 < buf.remaining then ⟨.pending, tcp, buf⟩
      else
        ⟨.ready, { tcp with unread := tcp.unread.drop n },
          buf.putSlice (tcp.unread.take n)
            (Nat.le_trans (List.length_take_le ..) (Nat.min_le_right ..))⟩

instance : AsyncRead TcpStream Readiness := ⟨TcpStream.pollRead⟩

/-- `struct Prefixed`; `prefixByte` is its `prefix`. -/
structure Prefixed (ι : Type) where
  prefixByte : Option UInt8
  inner : ι
deriving Repr, DecidableEq

/-- `Prefixed::poll_read`. -/
def Prefixed.pollRead {ι α : Type} [AsyncRead ι α] (answer : α) (this : Prefixed ι)
    (buf : ReadBuf) : Polled (Prefixed ι) :=
  let pollInner := (AsyncRead.pollRead answer this.inner buf).map fun inner => { this with inner }
  if room : 0 < buf.remaining then
    match this.prefixByte with
    | some b => ⟨.ready, { this with prefixByte := none }, buf.putSlice [b] room⟩
    | none => pollInner
  else pollInner

instance {ι α : Type} [AsyncRead ι α] : AsyncRead (Prefixed ι) α := ⟨Prefixed.pollRead⟩

/-- What stands on the sniffed stream: `tls.accept`, or the stream goes to yamux or the v1 protocol
as it is. -/
inductive Above where
  | tls
  | plain
deriving Repr, DecidableEq

/-- The stream the layer above is given: `stream`, or `replay`. -/
inductive Sniffed where
  | stream (tcp : TcpStream)
  | replay (prefixed : Prefixed TcpStream)
deriving Repr, DecidableEq

namespace Sniffed

def pollRead (answer : Readiness) (io : Sniffed) (buf : ReadBuf) : Polled Sniffed :=
  match io with
  | stream tcp => (tcp.pollRead answer buf).map stream
  | replay prefixed => (prefixed.pollRead answer buf).map replay

instance : AsyncRead Sniffed Readiness := ⟨pollRead⟩

/-- The connection below. -/
def tcp : Sniffed → TcpStream
  | stream tcp => tcp
  | replay prefixed => prefixed.inner

def setTcp (io : Sniffed) (tcp : TcpStream) : Sniffed :=
  match io with
  | stream _ => stream tcp
  | replay prefixed => replay { prefixed with inner := tcp }

/-- What the layer above has yet to read. -/
def unread : Sniffed → List UInt8
  | stream tcp => tcp.unread
  | replay prefixed => prefixed.prefixByte.toList ++ prefixed.inner.unread

end Sniffed

/-! ## Sniffing -/

/-- One poll of `stream.read_exact(&mut first)`. A stream that ends there is an `UnexpectedEof`. -/
def readFirst (answer : Readiness) (tcp : TcpStream) : Poll UInt8 × TcpStream :=
  let polled := tcp.pollRead answer (.new 1)
  match polled.reply, polled.buf.filled with
  | .ready, first :: _ => (.ready first, polled.reader)
  | .ready, [] => (.error, polled.reader)
  | .pending, _ => (.pending, polled.reader)
  | .error, _ => (.error, polled.reader)

/-- The middle of `handle_accepted`: what the first byte makes of the stream. -/
def accept (first : UInt8) (tcp : TcpStream) : Above × Sniffed :=
  -- the custom marker is consumed
  if first = 0x17 then (.tls, .stream tcp)
  else
    let replay := { prefixByte := some first, inner := tcp }
    if first = 0x16 then (.tls, .replay replay) else (.plain, .replay replay)

/-! ## Connections -/

/-- How far `handle_accepted` is. Once it has returned, the stream is dropped. -/
inductive Phase where
  | sniffing (tcp : TcpStream)
  | accepted (above : Above) (io : Sniffed)
  | dropped
deriving Repr, DecidableEq

/-- An accepted connection, with what has happened on it. -/
structure Conn where
  phase : Phase := .sniffing {}
  /-- All that the client has sent. -/
  sent : List UInt8 := []
  /-- What of it a reset has lost. -/
  lost : List UInt8 := []
  broken : Bool := false
  /-- What the layer above has been given, poll after poll. -/
  seen : List UInt8 := []
  /-- The layer above has been told of the end of the stream. -/
  ended : Bool := false
deriving Repr, DecidableEq

inductive ClientStep where
  | send (bytes : List UInt8)
  | close
  /-- The connection breaks; the server can still read so many of the bytes not read yet. -/
  | reset (kept : Nat)
deriving Repr, DecidableEq

inductive Step where
  | client (act : ClientStep)
  | sniff (answer : Readiness)
  /-- The 20 s for the first byte have passed. -/
  | timeout
  /-- The layer above polls for bytes, with any buffer. -/
  | read (answer : Readiness) (buf : ReadBuf)
  /-- The layer above is done: its TLS handshake has failed or timed out, or its session is over. -/
  | finish

namespace Phase

def tcp : Phase → Option TcpStream
  | sniffing tcp => some tcp
  | accepted _ io => some io.tcp
  | dropped => none

def setTcp (phase : Phase) (tcp : TcpStream) : Phase :=
  match phase with
  | sniffing _ => sniffing tcp
  | accepted above io => accepted above (io.setTcp tcp)
  | dropped => dropped

end Phase

/-- What the client does on a connection that the server still has. -/
def clientStep (s : Conn) (tcp : TcpStream) : ClientStep → Option Conn
  | .send bytes =>
      if tcp.closed then none
      else
        some { s with
          sent := s.sent ++ bytes
          phase := s.phase.setTcp { tcp with unread := tcp.unread ++ bytes } }
  | .close => some { s with phase := s.phase.setTcp { tcp with closed := true } }
  | .reset kept =>
      if s.broken then none
      else
        some { s with
          broken := true
          lost := tcp.unread.drop kept
          phase := s.phase.setTcp { unread := tcp.unread.take kept, closed := true } }

/-- A turn of the sniffing. -/
def sniffStep (s : Conn) (answer : Readiness) (tcp : TcpStream) : Conn :=
  match readFirst answer tcp with
  | (.ready first, tcp) =>
      let accepted := accept first tcp
      { s with phase := .accepted accepted.1 accepted.2 }
  | (.pending, tcp) => { s with phase := .sniffing tcp }
  | (.error, _) => { s with phase := .dropped }

/-- A read of the layer above. -/
def readStep (s : Conn) (above : Above) (io : Sniffed) (answer : Readiness) (buf : ReadBuf) :
    Conn :=
  let polled := io.pollRead answer buf
  { s with
    phase := .accepted above polled.reader
    seen := s.seen ++ polled.added buf
    ended := s.ended || polled.atEnd buf }

def step (act : Step) (s : Conn) : Option Conn :=
  match act, s.phase with
  | .client act, phase => phase.tcp.bind fun tcp => clientStep s tcp act
  | .sniff answer, .sniffing tcp => some (sniffStep s answer tcp)
  | .timeout, .sniffing _ => some { s with phase := .dropped }
  | .read answer buf, .accepted above io => some (readStep s above io answer buf)
  | .finish, .accepted _ _ => some { s with phase := .dropped }
  | _, _ => none

/-- Every run of a connection, from when it is accepted on. -/
def connections : System Conn Step where
  init := (· = {})
  step s act s' := step act s = some s'

end Remgr.Frps.Accept
