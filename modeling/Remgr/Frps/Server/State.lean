/-
Module: Remgr.Frps.Server.State
Purpose: The state of the frps server of `remgr-frps/src/server.rs`: the maps its tasks share, the
  control states, and where each task stands. The operations on the shared maps are written here as
  the source writes them; `Remgr.Frps.Server.Step` lets the tasks take turns.
Trusted boundary: a mutex-protected section is one step; the digest, the JSON parser and the socket
  address parser are parameters
Main exports: World, State, State.tokenCancelled, State.ptkCancelled, State.registerProxyPort,
  State.releaseProxyPort, State.closeProxy, State.dropReservation
-/
import Remgr.Frps.Config
import Remgr.Frps.Msg
import Mathlib.Data.Finmap

namespace Remgr.Frps.Server

open Remgr.Lib

/-- What the server takes from outside: md5, `serde_json::from_slice`, and the parser of socket
addresses, which gives back the address as `to_string` prints it. -/
structure World where
  md5 : List UInt8 → List UInt8
  fromSlice : List UInt8 → Option Json
  parseAddr : String → Option String

/-! ## Names -/

/-- A client stream: a TCP connection, or one stream of a multiplexed one. A control state is named
by the stream whose login created it. -/
abbrev StreamId := Nat

/-- One call of `handle_new_proxy`; it also names the token `ptk` made there. -/
abbrev RegId := Nat

/-- A task that serves a user: `bridge_tcp_user`, or one round of the udp loop. -/
abbrev BridgeId := Nat

/-- One `start` of the server, with its own `ServerShared`. -/
abbrev Epoch := Nat

/-- A hash map of the source, as a value. -/
abbrev Map (κ ν : Type) := Finmap fun _ : κ => ν

/-! ## Proxies -/

/-- The proxy types that can be registered. -/
inductive ProxyType where
  | tcp
  | udp
deriving Repr, DecidableEq, Inhabited

def ProxyType.text : ProxyType → String
  | .tcp => "tcp"
  | .udp => "udp"

/-- The match on `np.proxy_type`. -/
def ProxyType.ofText (text : String) : Option ProxyType :=
  if text = "tcp" then some .tcp else if text = "udp" then some .udp else none

structure ProxyInfo where
  proxyName : String
  proxyType : ProxyType
  remotePort : UInt16
  user : String
  connsTotal : UInt64 := 0
deriving Repr, DecidableEq

/-- The listener task of a registration, with what it serves or served. -/
inductive Listener where
  | unborn
  | running (kind : ProxyType) (port : UInt16)
  | exited (kind : ProxyType) (port : UInt16)
deriving Repr, DecidableEq, Inhabited

/-- A call of `handle_new_proxy`. `cancelled` is `ptk` cancelled by itself, not through its parents;
`cfg` remembers the configuration the call read. -/
structure Registration where
  control : StreamId := 0
  np : NewProxy := {}
  cancelled : Bool := false
  cfg : Option FrpsConfig := none
  listener : Listener := .unborn
  worker : Option BridgeId := none
deriving Inhabited

/-! ## Shared maps -/

/-- `ServerShared`: one of them for each run of the server. -/
structure Shared where
  runCancelled : Bool := false
  controls : Map String StreamId := ∅
  tcpPorts : Map UInt16 String := ∅
  udpPorts : Map UInt16 String := ∅

namespace Shared

def ports (shared : Shared) : ProxyType → Map UInt16 String
  | .tcp => shared.tcpPorts
  | .udp => shared.udpPorts

def setPorts (shared : Shared) (kind : ProxyType) (ports : Map UInt16 String) : Shared :=
  match kind with
  | .tcp => { shared with tcpPorts := ports }
  | .udp => { shared with udpPorts := ports }

/-- `register_proxy_port`. A port already held under the same name is accepted as it is. -/
def registerProxyPort (shared : Shared) (kind : ProxyType) (port : UInt16) (name : String) :
    Except String Shared :=
  match (shared.ports kind).lookup port with
  | some existing =>
      if existing ≠ name then
        .error ("remote port " ++ toString port.toNat ++ " already used by proxy " ++ existing)
      else .ok shared
  | none => .ok (shared.setPorts kind ((shared.ports kind).insert port name))

/-- `release_proxy_port`: only while the port is still held under that name. -/
def releaseProxyPort (shared : Shared) (kind : ProxyType) (port : UInt16) (name : String) :
    Shared :=
  if (shared.ports kind).lookup port = some name then
    shared.setPorts kind ((shared.ports kind).erase port)
  else shared

end Shared

/-! ## Controls -/

/-- `ControlState`, without the channels and the `proxies` map, which have tables of their own. -/
structure Control where
  created : Bool := false
  epoch : Epoch := 0
  runId : String := ""
  user : String := ""
  enforceIdle : Bool := false
  cancelled : Bool := false
  online : Bool := false
deriving Inhabited

/-- A message for the writer task, with the latch of the registration that waits for it. -/
abbrev Outgoing := Message × Option RegId

/-- The writer task. It ends cancelled, or after a write that failed. -/
inductive Writer where
  | waiting
  | writing (item : Outgoing)
  | ended (failed : Bool)

/-- The outgoing side of a control: the channel and its writer. `written` remembers the
latched responses that went out completely, with the registration each was for. -/
structure Outbox where
  queue : List Outgoing := []
  writer : Writer := .waiting
  written : List (RegId × Message) := []

instance : Inhabited Outbox := ⟨{}⟩

namespace Outbox

/-- The capacity of the `send_tx` channel. -/
def capacity : Nat := 256

def ended (out : Outbox) : Bool :=
  match out.writer with
  | .ended _ => true
  | _ => false

/-- The latch has neither fired nor been dropped: its sender is in the channel or with the writer.
-/
def latchPending (out : Outbox) (r : RegId) : Bool :=
  out.queue.any (fun item => item.2 == some r) ||
    match out.writer with
    | .writing item => item.2 == some r
    | _ => false

end Outbox

/-- Who calls `teardown`: a stream (for the control it replaces, and for its own at the end), the
heartbeat monitor, or `stop`. -/
inductive Caller where
  | stream (k : StreamId)
  | monitor (e : Epoch)
  | stop (e : Epoch)
deriving Repr, DecidableEq

/-- Who is inside `close_proxy` of a control: its own reader, or a teardown of it. -/
inductive Closer where
  | reader
  | teardown (x : Caller)
deriving Repr, DecidableEq

/-- What `close_proxy` has yet to do after it has taken the name out of `proxies` and cancelled its
token: take the info out, give back the port the info names, drop the guard of `proxies`. -/
inductive ClosePc where
  | info
  | port (kind : ProxyType) (port : UInt16)
  | unlock
deriving Repr, DecidableEq

/-- A call of `close_proxy` that has found its name. `tk` is the token it took out. -/
structure Closing where
  closer : Closer
  name : String
  tk : RegId
  pc : ClosePc := .info
deriving Repr, DecidableEq

/-- Who has locked `work_rx`: a user inside `get_work_conn`, or a teardown that drains the pool. -/
inductive PoolHolder where
  | bridge (b : BridgeId)
  | teardown (x : Caller)
deriving Repr, DecidableEq

/-- The pool of work connections, and who has locked its receiving end. -/
structure Pool where
  conns : List StreamId := []
  holder : Option PoolHolder := none
deriving Inhabited

/-- The capacity of the `work_tx` channel. -/
def Pool.capacity : Nat := 64

/-! ## Tasks -/

/-- Where a call of `handle_new_proxy` stands, from the reservation of the name on. Each stage is
named by what comes next. `reply` and `flush` are the two halves of `send_and_flush`; they keep what
is to be served when the response reports success. -/
inductive RegPc where
  | reserve
  | config (kind : ProxyType)
  | port (kind : ProxyType) (port : UInt16) (bindAddr : String)
  | bind (kind : ProxyType) (port : UInt16) (addr : String) (attempt : Nat)
  | release (kind : ProxyType) (port : UInt16) (error : String)
  | drop (error : String)
  | reply (resp : NewProxyResp) (serve : Option (ProxyType × UInt16))
  | flush (serve : Option (ProxyType × UInt16))
  | late (kind : ProxyType) (port : UInt16)
  | undoRelease (kind : ProxyType) (port : UInt16)
  | undoClose
  | publish (kind : ProxyType) (port : UInt16)
deriving DecidableEq

/-- How the stream reached the server: its own connection, the first stream of a multiplexed
connection, or a later stream of one. -/
inductive Role where
  | direct
  | muxControl
  | muxWork (parent : StreamId)
deriving Repr, DecidableEq, Inhabited

/-- Where the task of a stream stands: the login, then the reader loop of the control and what it
does for one message, then the end; or the delivery of a work connection. -/
inductive StreamPc where
  | unopened
  | first
  | auth (login : Login)
  | denied
  | count (login : Login)
  | lookup (login : Login)
  | replace (login : Login) (runId : String)
  | reply (login : Login) (runId : String) (poolCap : Nat)
  | online (login : Login) (runId : String) (poolCap : Nat)
  | insert (login : Login) (runId : String) (poolCap : Nat)
  | pool (left : Nat)
  | reading
  | entering (np : NewProxy)
  | registering (r : RegId) (pc : RegPc)
  | closing (name : String)
  | pinging (ping : Ping)
  | pong (error : String)
  | ending
  | joining
  | workFrame (frame : RawMsg)
  | workAuth (nwc : NewWorkConn) (control : StreamId)
  | workReject
  | workEnqueue (control : StreamId)
  | done

/-- A stream and its task. `firstFrame` and `authToken` remember the first frame, and the server
token its credential was found to match. -/
structure Stream where
  role : Role := .direct
  epoch : Epoch := 0
  firstFrame : Option RawMsg := none
  authToken : Option String := none
  pc : StreamPc := .unopened

instance : Inhabited Stream := ⟨{}⟩

/-- Where a call of `teardown` stands. At `drain` it is about to try the lock of the pool, at
`draining` it has it. -/
inductive TeardownPc where
  | cancel
  | drain
  | draining
  | collect
  | close (names : List String)
  | remove
  | offline
  | uncount
deriving Repr, DecidableEq

/-- The controls a caller still has to tear down, and the call it is in. -/
structure Sweep where
  todo : List StreamId := []
  current : Option (StreamId × TeardownPc) := none
deriving Inhabited, DecidableEq

def Sweep.idle (sweep : Sweep) : Bool := sweep.todo.isEmpty && sweep.current.isNone

/-- The heartbeat monitor between two ticks, after it read the timeout, or going through the
controls. -/
inductive Monitor where
  | resting
  | ticked (timeout : UInt64)
  | sweeping (timeout : UInt64)
  | over
deriving Repr, DecidableEq, Inhabited

/-- The two tasks `start` spawns. -/
structure Loops where
  accepting : Bool := false
  monitor : Monitor := .over
deriving Inhabited

/-- `FrpsServer`: not running, running, or inside `stop` (before and after it has collected the
controls). `stop` keeps the `run` lock to its end, so no `start` comes in between. -/
inductive ServerPc where
  | idle
  | running (e : Epoch)
  | stopping (e : Epoch) (collected : Bool)
deriving Repr, DecidableEq, Inhabited

/-- Serving one user, through `get_work_conn` and the write of StartWorkConn. At `picking` and at
`wait` it has locked the pool. -/
inductive BridgePc where
  | unborn
  | pick
  | picking
  | replenish (work : StreamId)
  | request
  | lock
  | wait
  | start (work : StreamId)
  | started (work : StreamId)
  | over
deriving Repr, DecidableEq, Inhabited

structure Bridge where
  reg : RegId := 0
  pc : BridgePc := .unborn
deriving Inhabited

/-! ## The whole server -/

structure State where
  cfg : FrpsConfig
  server : ServerPc := .idle
  nextEpoch : Epoch := 0
  shared : Epoch → Shared := fun _ => {}
  loops : Epoch → Loops := fun _ => {}
  totalLogins : UInt64 := 0
  clientsOnline : UInt64 := 0
  totalUserConns : UInt64 := 0
  proxyInfos : Map String ProxyInfo := ∅
  streams : StreamId → Stream := fun _ => {}
  ctl : StreamId → Control := fun _ => {}
  proxies : StreamId → Map String RegId := fun _ => ∅
  closing : StreamId → Option Closing := fun _ => none
  out : StreamId → Outbox := fun _ => {}
  pool : StreamId → Pool := fun _ => {}
  regs : RegId → Registration := fun _ => {}
  nextReg : RegId := 0
  sweeps : Caller → Sweep := fun _ => {}
  bridges : BridgeId → Bridge := fun _ => {}
  nextBridge : BridgeId := 0

/-- `FrpsServer::new`. -/
def State.new (cfg : FrpsConfig) : State := { cfg }

namespace State

/-! ## Tokens

A control's token is a child of the run token of its server, and `ptk` is a child of the control's
token, so cancelling a parent cancels them too. -/

def tokenCancelled (s : State) (c : StreamId) : Bool :=
  (s.ctl c).cancelled || (s.shared (s.ctl c).epoch).runCancelled

def ptkCancelled (s : State) (r : RegId) : Bool :=
  (s.regs r).cancelled || s.tokenCancelled (s.regs r).control

/-! ## Updates -/

def setStream (s : State) (k : StreamId) (stream : Stream) : State :=
  { s with streams := Function.update s.streams k stream }

def goto (s : State) (k : StreamId) (pc : StreamPc) : State :=
  s.setStream k { s.streams k with pc := pc }

def setControl (s : State) (c : StreamId) (control : Control) : State :=
  { s with ctl := Function.update s.ctl c control }

def setLoops (s : State) (e : Epoch) (loops : Loops) : State :=
  { s with loops := Function.update s.loops e loops }

def setShared (s : State) (e : Epoch) (shared : Shared) : State :=
  { s with shared := Function.update s.shared e shared }

def setReg (s : State) (r : RegId) (reg : Registration) : State :=
  { s with regs := Function.update s.regs r reg }

def setProxies (s : State) (c : StreamId) (proxies : Map String RegId) : State :=
  { s with proxies := Function.update s.proxies c proxies }

def setClosing (s : State) (c : StreamId) (closing : Option Closing) : State :=
  { s with closing := Function.update s.closing c closing }

def setSweep (s : State) (x : Caller) (sweep : Sweep) : State :=
  { s with sweeps := Function.update s.sweeps x sweep }

def setOut (s : State) (c : StreamId) (out : Outbox) : State :=
  { s with out := Function.update s.out c out }

def setPool (s : State) (c : StreamId) (pool : Pool) : State :=
  { s with pool := Function.update s.pool c pool }

def setBridge (s : State) (b : BridgeId) (bridge : Bridge) : State :=
  { s with bridges := Function.update s.bridges b bridge }

/-! ## Operations on the shared maps -/

/-- `release_proxy_port` on the server of an epoch. -/
def releaseProxyPort (s : State) (e : Epoch) (kind : ProxyType) (port : UInt16) (name : String) :
    State :=
  s.setShared e ((s.shared e).releaseProxyPort kind port name)

/-- `Stats::set_proxy`. -/
def setProxy (s : State) (info : ProxyInfo) : State :=
  { s with proxyInfos := s.proxyInfos.insert info.proxyName info }

/-- The `proxies` map of a control is not locked. Only `close_proxy` keeps its guard from one step
to another: it lives until the end of the `if let`. -/
def proxiesFree (s : State) (c : StreamId) : Bool := (s.closing c).isNone

/-- `ControlState::close_proxy` up to its next lock, and whether it has returned. The name is taken
out and its token cancelled under the lock of `proxies`, which stays locked; `proxy_infos` and the
ports have locks of their own, which others may take in between. -/
def closeProxy (s : State) (x : Closer) (c : StreamId) (name : String) : Option (State × Bool) :=
  match s.closing c with
  | none =>
      match (s.proxies c).lookup name with
      | none => some (s, true)
      | some tk =>
          some (((s.setProxies c ((s.proxies c).erase name)).setReg tk
            { s.regs tk with cancelled := true }).setClosing c
              (some { closer := x, name := name, tk := tk }), false)
  | some call =>
      if call.closer = x ∧ call.name = name then
        match call.pc with
        | .info =>
            match s.proxyInfos.lookup name with
            | none => some (s.setClosing c (some { call with pc := .unlock }), false)
            | some info =>
                some ({ s with proxyInfos := s.proxyInfos.erase name }.setClosing c
                  (some { call with pc := .port info.proxyType info.remotePort }), false)
        | .port kind port =>
            some ((s.releaseProxyPort (s.ctl c).epoch kind port name).setClosing c
              (some { call with pc := .unlock }), false)
        | .unlock => some (s.setClosing c none, true)
      else none

/-- `ControlState::drop_reservation`. -/
def dropReservation (s : State) (c : StreamId) (name : String) : State :=
  s.setProxies c ((s.proxies c).erase name)

end State

/-- How `send` gets its message off: the control's token is cancelled, the channel takes it, or the
channel is closed because the writer has ended. -/
inductive SendVia where
  | cancelled
  | queued
  | closed
deriving Repr, DecidableEq

/-- One way through the `select!` of `send` and `send_and_flush`. -/
def State.trySend (s : State) (c : StreamId) (item : Outgoing) : SendVia → Option State
  | .cancelled => if s.tokenCancelled c then some s else none
  | .queued =>
      if (s.out c).ended = false ∧ (s.out c).queue.length < Outbox.capacity then
        some (s.setOut c { s.out c with queue := (s.out c).queue ++ [item] })
      else none
  | .closed => if (s.out c).ended then some s else none

end Remgr.Frps.Server
