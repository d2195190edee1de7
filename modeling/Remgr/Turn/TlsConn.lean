/-
Module: Remgr.Turn.TlsConn
Purpose: TURN over TLS: the connection that cuts a stream into the messages of the TURN server and
  writes its messages back, with any number of senders under the write lock.
Trusted boundary: the stream is a sequence of bytes that a read may deliver in any segments and a
  write may accept in any portions; the addresses a receive returns are the connection's own and left
  out
Main exports: frameLen, TlsTurnConn, recvFrom, padding, Sending, Sends, sends
-/
import Remgr.Lib.Bytes
import Remgr.Lib.Transition

namespace Remgr.Turn

open Lib

/-- The two bytes after the message type or the channel number. -/
def lengthField (head : List UInt8) : Nat := natOfBe ((head.drop 2).take 2)

/-- The first two bits, which select the framing. -/
def framing (head : List UInt8) : UInt8 := head.headD 0 &&& 0xC0

/-- How many bytes the frame with this head takes on the stream, and whether it is ChannelData. -/
def frameLen (head : List UInt8) : Option (Nat × Bool) :=
  let len := lengthField head
  if framing head = 0x00 then some (20 + len, false)
  else if framing head = 0x40 then some (4 + len + (4 - len % 4) % 4, true)
  else none

inductive RecvError where
  | io (ending : Ending)
  | reserved
  | bufferShort
  | closed
deriving DecidableEq, Repr

/-- The read side of a connection: what is still to arrive, and whether the serving task was told
that the connection is closed. -/
structure TlsTurnConn where
  read : Source UInt8
  closed : Bool
deriving DecidableEq, Repr

/-- The reads of one frame into `buf[filled..total]`. Every read that does not end the loop fills at
least one byte, so `fuel` bounds it. -/
def fill : Nat → TlsTurnConn → List UInt8 → Nat → Nat → Except RecvError (List UInt8) × TlsTurnConn
  | 0, conn, buf, _, _ => (.ok buf, conn)
  | fuel + 1, conn, buf, filled, total =>
      if filled < total then
        match conn.read.read (total - filled) with
        | .error ending => (.error (.io ending), conn)
        | .ok ([], rest) => (.error .closed, { conn with read := rest, closed := true })
        | .ok (got, rest) =>
            fill fuel { conn with read := rest }
              (buf.take filled ++ got ++ buf.drop (filled + got.length)) (filled + got.length) total
      else (.ok buf, conn)

/-- One message into `buf`: the buffer afterwards and the length of the message in it. -/
def recvFrom (conn : TlsTurnConn) (buf : List UInt8) :
    Except RecvError (List UInt8 × Nat) × TlsTurnConn :=
  match conn.read.readExact 4 with
  | .error ending => (.error (.io ending), { conn with closed := true })
  | .ok (head, rest) =>
      match frameLen head with
      | none => (.error .reserved, { conn with read := rest, closed := true })
      | some (total, isChannel) =>
          if buf.length < total then
            (.error .bufferShort, { conn with read := rest, closed := true })
          else
            match fill (total - 4) { conn with read := rest } (head ++ buf.drop 4) 4 total with
            | (.error failure, conn) => (.error failure, conn)
            | (.ok buf, conn) => (.ok (buf, if isChannel then 4 + lengthField head else total), conn)

/-- The bytes `send_to` adds behind a message. -/
def padding (buf : List UInt8) : List UInt8 :=
  if 4 ≤ buf.length ∧ framing buf = 0x40 then List.replicate ((4 - buf.length % 4) % 4) 0 else []

/-- Where a `send_to` that holds the write lock is: what it still has to write of the message, then
of the padding, and the flush. -/
inductive Sending where
  | message (rest padding : List UInt8)
  | padding (rest : List UInt8)
  | flush
deriving DecidableEq, Repr

/-- The write side: who writes, the bytes on the stream, and the messages in the order in which their
senders took the lock. -/
structure Sends where
  writer : Option Sending
  stream : List UInt8
  order : List (List UInt8)
deriving DecidableEq, Repr

inductive SendStep where
  | lock (buf : List UInt8)
  | write (count : Nat)
  | wrote
  | unlock
deriving DecidableEq, Repr

/-- One step of the senders. The stream accepts at least one byte of what a write has left. -/
def sendStep (s : Sends) : SendStep → Option Sends
  | .lock buf =>
      if s.writer = none then
        some { s with writer := some (.message buf (padding buf)), order := s.order ++ [buf] }
      else none
  | .write count =>
      match s.writer with
      | some (.message rest padding) =>
          if 0 < count ∧ count ≤ rest.length then
            some { s with
              writer := some (.message (rest.drop count) padding)
              stream := s.stream ++ rest.take count }
          else none
      | some (.padding rest) =>
          if 0 < count ∧ count ≤ rest.length then
            some { s with
              writer := some (.padding (rest.drop count)), stream := s.stream ++ rest.take count }
          else none
      | _ => none
  | .wrote =>
      match s.writer with
      | some (.message [] padding) => some { s with writer := some (.padding padding) }
      | some (.padding []) => some { s with writer := some .flush }
      | _ => none
  | .unlock => if s.writer = some .flush then some { s with writer := none } else none

def sends : System Sends SendStep where
  init s := s = { writer := none, stream := [], order := [] }
  step s move s' := sendStep s move = some s'

end Remgr.Turn
