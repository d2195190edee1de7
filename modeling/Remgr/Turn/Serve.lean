/-
Module: Remgr.Turn.Serve
Purpose: The TLS listener of the TURN server: the tasks that serve its connections, the map of their
  servers, and the reads that tell a task that its connection is over.
Trusted boundary: the `turn` crate reads messages from a connection until a read fails or the server is
  closed, and may call `close` of the connection; a notification is kept until the task takes it; a
  section under the lock of the map is one step; connections are numbered without overflow
Main exports: Phase, Served, TlsTurn, ServeStep, serveStep, tlsTurn
-/
import Mathlib.Logic.Function.Basic
import Remgr.Turn.TlsConn

namespace Remgr.Turn

open Lib

/-- What `serve_tls_turn_conn` waits for next: the handshake, `Server::new`, the map, a reason to end,
`Server::close`, and the map again. -/
inductive Phase where
  | accepting
  | starting
  | inserting
  | waiting
  | closing
  | removing
  | done
deriving DecidableEq, Repr

/-- One accepted connection. `conn.closed` is the notification that the task has not taken. -/
structure Served where
  phase : Phase
  conn : TlsTurnConn
  /-- The TURN server reads from it. -/
  reading : Bool
  failed : Option RecvError
deriving DecidableEq, Repr

structure TlsTurn where
  cancelled : Bool
  listening : Bool
  nextId : Nat
  map : List Nat
  conns : Nat → Option Served

namespace TlsTurn

/-- The connection, when its task is there. -/
def during (s : TlsTurn) (id : Nat) (phase : Phase) : Option Served :=
  (s.conns id).filter fun c => c.phase = phase

def put (s : TlsTurn) (id : Nat) (c : Served) : TlsTurn :=
  { s with conns := Function.update s.conns id (some c) }

end TlsTurn

inductive ServeStep where
  | cancel
  | accept (read : Source UInt8)
  /-- The accept loop ends, and closes what is in the map. -/
  | drain
  | handshake (id : Nat) (ok : Bool)
  | start (id : Nat) (ok : Bool)
  | insert (id : Nat)
  | notified (id : Nat)
  | cancelled (id : Nat)
  | closeServer (id : Nat)
  | remove (id : Nat)
  | recv (id : Nat) (buf : List UInt8)
  /-- `TlsTurnConn::close`. -/
  | close (id : Nat)

def serveStep (s : TlsTurn) : ServeStep → Option TlsTurn
  | .cancel => some { s with cancelled := true }
  | .accept read =>
      if s.listening then
        some { s.put s.nextId ⟨.accepting, ⟨read, false⟩, false, none⟩ with nextId := s.nextId + 1 }
      else none
  | .drain =>
      if s.cancelled && s.listening then
        some { s with
          listening := false
          map := []
          conns := fun id => (s.conns id).map fun c =>
            if id ∈ s.map then { c with reading := false } else c }
      else none
  | .handshake id ok => do
      let c ← s.during id .accepting
      some (s.put id { c with phase := if ok then .starting else .done })
  | .start id ok => do
      let c ← s.during id .starting
      some (s.put id { c with phase := if ok then .inserting else .done, reading := ok })
  | .insert id => do
      let c ← s.during id .inserting
      some { s.put id { c with phase := .waiting } with map := id :: s.map }
  | .notified id => do
      let c ← s.during id .waiting
      if c.conn.closed then
        some (s.put id { c with phase := .closing, conn := { c.conn with closed := false } })
      else none
  | .cancelled id => do
      let c ← s.during id .waiting
      if s.cancelled then some (s.put id { c with phase := .closing }) else none
  | .closeServer id => do
      let c ← s.during id .closing
      some (s.put id { c with phase := .removing, reading := false })
  | .remove id => do
      let c ← s.during id .removing
      some { s.put id { c with phase := .done } with map := s.map.filter (· ≠ id) }
  | .recv id buf => do
      let c ← s.conns id
      if c.reading then
        match recvFrom c.conn buf with
        | (.ok _, conn) => some (s.put id { c with conn := conn })
        | (.error e, conn) => some (s.put id { c with conn := conn, reading := false, failed := some e })
      else none
  | .close id => do
      let c ← s.conns id
      if c.phase = .accepting then none
      else some (s.put id { c with conn := { c.conn with closed := true } })

def tlsTurn : System TlsTurn ServeStep where
  init s := s = ⟨false, true, 0, [], fun _ => none⟩
  step s move s' := serveStep s move = some s'

end Remgr.Turn
