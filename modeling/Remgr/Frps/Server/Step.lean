/-
Module: Remgr.Frps.Server.Step
Purpose: One step of any task of the server, and the transition system of all of them. A step goes
  from one lock acquisition or await to the next; which task moves, and what the network, the clock
  and the scheduler answer, is in the label.
Trusted boundary: as in `Remgr.Frps.Server.State`; time enters only as the idle seconds a label
  reports
Main exports: Action, step, server
-/
import Remgr.Frps.Server.Registration
import Remgr.Lib.Transition

namespace Remgr.Frps.Server

open Remgr.Lib

/-! ## Credentials -/

/-- `ServerShared::auth_ok`: equal lengths, and no byte pair that differs. -/
def authOk (w : World) (token : String) (timestamp : Int64) (key : String) : Bool :=
  let expect := utf8 (authKey w.md5 token timestamp)
  let given := utf8 key
  if expect.length ≠ given.length then false
  else ((expect.zip given).foldl (fun diff pair => diff ||| (pair.1 ^^^ pair.2)) 0) == 0

/-- `client_sends_heartbeats`: only frp before 0.52. -/
def clientSendsHeartbeats (version : String) : Bool :=
  let parts := Text.split (fun c => c == '.' || c == '-' || c == '+') (Text.trim version.toList)
  match parts with
  | major :: minor :: _ =>
      match Text.parseUnsigned (2 ^ 32) major, Text.parseUnsigned (2 ^ 32) minor with
      | some major, some minor => major == 0 && decide (minor < 52)
      | _, _ => false
  | _ => false

/-- The body the writer task serializes a message to. -/
def writerBody : Message → List UInt8
  | .loginResp v => Json.toVec v.toJson
  | .newProxyResp v => Json.toVec v.toJson
  | .reqWorkConn v => Json.toVec v.toJson
  | .pong v => Json.toVec v.toJson
  | .startWorkConn v => Json.toVec v.toJson
  | .udpPacket v => Json.toVec v.toJson
  | _ => []

/-- `write_frame` does not refuse the message as too large. -/
def fits (m : Message) : Bool := decide ((writerBody m).length ≤ MAX_MSG_LEN)

/-! ## Logins -/

/-- The first frame of a stream. A multiplexed connection takes its first stream for a control and
the others for work connections; on a connection of its own the type byte decides. -/
def firstStep (w : World) (k : StreamId) (s : State) : Option RawMsg → State
  | none => s.goto k .done
  | some frame =>
      let s := s.setStream k { s.streams k with firstFrame := some frame }
      let login : StreamPc :=
        match (w.fromSlice frame.2).bind Login.ofJson with
        | some login => .auth login
        | none => .done
      match (s.streams k).role with
      | .direct =>
          if frame.1 = TYPE_LOGIN then s.goto k login
          else if frame.1 = TYPE_NEW_WORK_CONN then s.goto k (.workFrame frame)
          else s.goto k .done
      | .muxControl => if frame.1 = TYPE_LOGIN then s.goto k login else s.goto k .done
      | .muxWork _ => s.goto k (.workFrame frame)

/-- The credential check of `run_control_with_login`. -/
def authStep (w : World) (k : StreamId) (login : Login) (s : State) : State :=
  if authOk w s.cfg.token login.timestamp login.privilegeKey then
    s.setStream k { s.streams k with authToken := some s.cfg.token, pc := .count login }
  else s.goto k .denied

/-- Choose the run id and look for the control it replaces. -/
def lookupStep (k : StreamId) (login : Login) (uuid : String) (s : State) : State :=
  let runId := if login.runId = "" then uuid else login.runId
  let old := (s.shared (s.streams k).epoch).controls.lookup runId
  (s.setSweep (.stream k) { s.sweeps (.stream k) with todo := old.toList }).goto k
    (.replace login runId)

/-- The LoginResp of an accepted login. -/
def loginReply (runId : String) : Message :=
  .loginResp { version := "0.51.3", runId := runId, error := "" }

/-- Create the control state and enter it in `controls`. -/
def insertStep (k : StreamId) (login : Login) (runId : String) (poolCap : Nat) (s : State) :
    State :=
  let e := (s.streams k).epoch
  let control : Control :=
    { created := true, epoch := e, runId := runId, user := login.user,
      enforceIdle := clientSendsHeartbeats login.version, cancelled := false, online := true }
  let s := (s.setControl k control).setShared e
    { s.shared e with controls := (s.shared e).controls.insert runId k }
  s.goto k (.pool (min login.poolCount.toInt.toNat poolCap))

/-! ## The reader loop -/

/-- The reader loop returns, and `run_control_with_login` tears its own control down. -/
def endReader (k : StreamId) (s : State) : State :=
  (s.setSweep (.stream k) { s.sweeps (.stream k) with todo := [k] }).goto k .ending

/-- One frame of the reader loop. -/
def frameStep (w : World) (k : StreamId) (s : State) : Option RawMsg → State
  | none => endReader k s
  | some frame =>
      if frame.1 = TYPE_NEW_PROXY then
        match (w.fromSlice frame.2).bind NewProxy.ofJson with
        | some np => s.goto k (.entering np)
        | none => endReader k s
      else if frame.1 = TYPE_CLOSE_PROXY then
        match (w.fromSlice frame.2).bind CloseProxy.ofJson with
        | some cp => s.goto k (.closing cp.proxyName)
        | none => endReader k s
      else if frame.1 = TYPE_PING then
        match (w.fromSlice frame.2).bind Ping.ofJson with
        | some ping => s.goto k (.pinging ping)
        | none => endReader k s
      else if frame.1 = TYPE_NEW_WORK_CONN then s
      else if frame.1 = TYPE_UDP_PACKET then s
      else if isKnownType frame.1 then s
      else endReader k s

/-- The entry of `handle_new_proxy`: nothing is registered on a cancelled control, and otherwise
the call gets its own token. -/
def enterStep (k : StreamId) (np : NewProxy) (s : State) : State :=
  if s.tokenCancelled k then s.goto k .reading
  else
    { s.setReg s.nextReg { control := k, np := np } with nextReg := s.nextReg + 1 }.goto k
      (.registering s.nextReg .reserve)

/-- The answer to a Ping: an unsigned one is fine. -/
def pongError (w : World) (token : String) (ping : Ping) : String :=
  if ping.privilegeKey = "" || authOk w token ping.timestamp ping.privilegeKey then ""
  else "authentication failed"

/-! ## Work connections -/

/-- The control a work connection asks for, before its credential is looked at. -/
def workLookup (w : World) (k : StreamId) (frame : RawMsg) (s : State) : State :=
  if frame.1 ≠ TYPE_NEW_WORK_CONN then s.goto k .workReject
  else
    match (w.fromSlice frame.2).bind NewWorkConn.ofJson with
    | none => s.goto k .workReject
    | some nwc =>
        match (s.shared (s.streams k).epoch).controls.lookup nwc.runId with
        | none => s.goto k .workReject
        | some c => s.goto k (.workAuth nwc c)

/-- A credential that is given has to be right; a missing one is accepted. -/
def workAuth (w : World) (k : StreamId) (nwc : NewWorkConn) (c : StreamId) (s : State) : State :=
  if nwc.privilegeKey ≠ "" ∧ authOk w s.cfg.token nwc.timestamp nwc.privilegeKey = false then
    s.goto k .workReject
  else s.goto k (.workEnqueue c)

/-! ## The task of a stream -/

def streamStep (w : World) (k : StreamId) (s : State) : StreamPc → Input → Option State
  | .first, .frame msg => some (firstStep w k s msg)
  | .auth login, .go => some (authStep w k login s)
  | .denied, .wrote _ => some (s.goto k .done)
  | .count login, .go =>
      some ({ s with totalLogins := s.totalLogins + 1 }.goto k (.lookup login))
  | .lookup login, .uuid id => some (lookupStep k login id s)
  | .replace login runId, .go =>
      if (s.sweeps (.stream k)).idle then
        some (s.goto k (.reply login runId s.cfg.maxPoolCount.toNat))
      else none
  | .reply login runId poolCap, .wrote ok =>
      if ok then
        if fits (loginReply runId) then some (s.goto k (.online login runId poolCap)) else none
      else some (s.goto k .done)
  | .online login runId poolCap, .go =>
      some ({ s with clientsOnline := s.clientsOnline + 1 }.goto k (.insert login runId poolCap))
  | .insert login runId poolCap, .go => some (insertStep k login runId poolCap s)
  | .pool 0, .go => some (s.goto k .reading)
  | .pool (left + 1), .via way =>
      (s.trySend k (.reqWorkConn {}, none) way).map fun s => s.goto k (.pool left)
  | .reading, .frame msg => some (frameStep w k s msg)
  | .reading, .cancelled => if s.tokenCancelled k then some (endReader k s) else none
  | .reading, .sessionOver =>
      if (s.streams k).role = .muxControl then some (endReader k s) else none
  | .entering np, .go => some (enterStep k np s)
  | .registering r pc, input => regStep w k r s pc input
  | .closing name, .go =>
      (s.closeProxy .reader k name).map fun after =>
        after.1.goto k (if after.2 then .reading else .closing name)
  | .pinging ping, .go => some (s.goto k (.pong (pongError w s.cfg.token ping)))
  | .pong error, .via way =>
      (s.trySend k (.pong { error := error }, none) way).map fun s => s.goto k .reading
  | .ending, .go => if (s.sweeps (.stream k)).idle then some (s.goto k .joining) else none
  | .joining, .go => if (s.out k).ended then some (s.goto k .done) else none
  | .workFrame frame, .go => some (workLookup w k frame s)
  | .workAuth nwc c, .go => some (workAuth w k nwc c s)
  | .workReject, .wrote _ => some (s.goto k .done)
  | .workEnqueue c, .go =>
      if (s.pool c).conns.length < Pool.capacity then
        some ((s.setPool c { s.pool c with conns := (s.pool c).conns ++ [k] }).goto k .done)
      else none
  | _, _ => none

/-! ## Teardown -/

/-- What a caller of `teardown` is given when it is resumed: the idle seconds of the control the
monitor looks at, or the order in which the names come out of the map. -/
inductive SweepInput where
  | go
  | idle (secs : Nat)
  | names (list : List String)

/-- Whether the caller tears this control down; only the monitor asks. -/
def wanted (s : State) (x : Caller) (c : StreamId) (secs : Nat) : Bool :=
  match x with
  | .monitor e =>
      match (s.loops e).monitor with
      | .sweeping timeout => (s.ctl c).enforceIdle && decide (timeout.toNat < secs)
      | _ => false
  | _ => true

/-- One step of `ControlState::teardown` of control `c`, called by `x`. -/
def teardownStep (x : Caller) (c : StreamId) (s : State) : TeardownPc → SweepInput → Option State
  | .cancel, .go =>
      some ((s.setControl c { s.ctl c with cancelled := true }).setSweep x
        { s.sweeps x with current := some (c, .drain) })
  | .drain, .go =>
      match (s.pool c).holder with
      | none =>
          some ((s.setPool c { s.pool c with holder := some (.teardown x) }).setSweep x
            { s.sweeps x with current := some (c, .draining) })
      | some _ => some (s.setSweep x { s.sweeps x with current := some (c, .collect) })
  | .draining, .go =>
      some ((s.setPool c {}).setSweep x { s.sweeps x with current := some (c, .collect) })
  | .collect, .names list =>
      if s.proxiesFree c ∧ list.Nodup ∧ list.toFinset = (s.proxies c).keys then
        some (s.setSweep x { s.sweeps x with current := some (c, .close list) })
      else none
  | .close (name :: rest), .go =>
      (s.closeProxy (.teardown x) c name).map fun after =>
        after.1.setSweep x
          { s.sweeps x with current := some (c, .close (if after.2 then rest else name :: rest)) }
  | .close [], .go =>
      let stillMine := decide ((s.shared (s.ctl c).epoch).controls.lookup (s.ctl c).runId = some c)
      some (s.setSweep x
        { s.sweeps x with current := some (c, if stillMine then .remove else .offline) })
  | .remove, .go =>
      let e := (s.ctl c).epoch
      some ((s.setShared e
        { s.shared e with controls := (s.shared e).controls.erase (s.ctl c).runId }).setSweep x
          { s.sweeps x with current := some (c, .offline) })
  | .offline, .go =>
      if (s.ctl c).online then
        some ((s.setControl c { s.ctl c with online := false }).setSweep x
          { s.sweeps x with current := some (c, .uncount) })
      else some (s.setSweep x { s.sweeps x with current := none })
  | .uncount, .go =>
      some ({ s with clientsOnline := s.clientsOnline - 1 }.setSweep x
        { s.sweeps x with current := none })
  | _, _ => none

/-- A caller of `teardown` goes on: with the call it is in, or to the next control. -/
def sweepStep (x : Caller) (input : SweepInput) (s : State) : Option State :=
  match (s.sweeps x).current with
  | some (c, pc) => teardownStep x c s pc input
  | none =>
      match (s.sweeps x).todo, input with
      | c :: rest, .idle secs =>
          if wanted s x c secs then
            some (s.setSweep x { todo := rest, current := some (c, .cancel) })
          else some (s.setSweep x { todo := rest, current := none })
      | _, _ => none

/-! ## The writer task -/

inductive WriterInput where
  | take
  | cancelled
  | wrote (ok : Bool)

/-- The writer task ends and its channel with it: what was queued is dropped, latches included. -/
def endWriter (c : StreamId) (failed : Bool) (s : State) : State :=
  s.setOut c { s.out c with queue := [], writer := .ended failed }

/-- A latched response that went out completely. -/
def noteWritten (item : Outgoing) (written : List (RegId × Message)) : List (RegId × Message) :=
  match item.2 with
  | some r => (r, item.1) :: written
  | none => written

def writerStep (c : StreamId) (s : State) : Writer → WriterInput → Option State
  | .waiting, .take =>
      if (s.ctl c).created then
        match (s.out c).queue with
        | [] => none
        | item :: rest => some (s.setOut c { s.out c with queue := rest, writer := .writing item })
      else none
  | .waiting, .cancelled =>
      if (s.ctl c).created ∧ s.tokenCancelled c = true then some (endWriter c false s) else none
  | .writing _, .cancelled => if s.tokenCancelled c then some (endWriter c false s) else none
  | .writing item, .wrote true =>
      if fits item.1 then
        some (s.setOut c
          { s.out c with writer := .waiting, written := noteWritten item (s.out c).written })
      else none
  | .writing _, .wrote false => some (endWriter c true s)
  | _, _ => none

/-! ## Listeners and the users they serve -/

inductive ListenerInput where
  | accept
  | next
  | exit

/-- The udp loop is between two work connections. -/
def State.workerIdle (s : State) (r : RegId) : Bool :=
  match (s.regs r).worker with
  | none => true
  | some b => decide ((s.bridges b).pc = .over)

/-- The listener task of a registration. A tcp listener accepts users and serves each in a task of
its own; a udp listener serves all of them through one work connection after another. -/
def listenerStep (r : RegId) (s : State) : Listener → ListenerInput → Option State
  | .running .tcp _, .accept =>
      some ({ s with
        totalUserConns := s.totalUserConns + 1
        nextBridge := s.nextBridge + 1 }.setBridge s.nextBridge { reg := r, pc := .pick })
  | .running .udp _, .next =>
      if s.workerIdle r ∧ s.ptkCancelled r = false then
        some ({ s.setReg r { s.regs r with worker := some s.nextBridge } with
          nextBridge := s.nextBridge + 1 }.setBridge s.nextBridge { reg := r, pc := .pick })
      else none
  | .running .tcp port, .exit =>
      if s.ptkCancelled r then some (s.setReg r { s.regs r with listener := .exited .tcp port })
      else none
  | .running .udp port, .exit =>
      if s.workerIdle r ∧ s.ptkCancelled r = true then
        some (s.setReg r { s.regs r with listener := .exited .udp port })
      else none
  | _, _ => none

inductive BridgeInput where
  | go
  | via (way : SendVia)
  | wrote (ok : Bool)
  | timeout
  | cancelled

/-- `get_work_conn` and the StartWorkConn after it, for bridge `b` of a proxy of control `c`. -/
def bridgeStep (b : BridgeId) (c : StreamId) (s : State) : BridgePc → BridgeInput → Option State
  | .pick, .go =>
      match (s.pool c).holder with
      | some _ => none
      | none =>
          some ((s.setPool c { s.pool c with holder := some (.bridge b) }).setBridge b
            { s.bridges b with pc := .picking })
  | .picking, .go =>
      match (s.pool c).conns with
      | [] =>
          some ((s.setPool c { s.pool c with holder := none }).setBridge b
            { s.bridges b with pc := .request })
      | work :: rest =>
          some ((s.setPool c { conns := rest, holder := none }).setBridge b
            { s.bridges b with pc := .replenish work })
  | .replenish work, .via way =>
      (s.trySend c (.reqWorkConn {}, none) way).map fun s =>
        s.setBridge b { s.bridges b with pc := .start work }
  | .request, .via way =>
      (s.trySend c (.reqWorkConn {}, none) way).map fun s =>
        s.setBridge b { s.bridges b with pc := .lock }
  | .lock, .go =>
      match (s.pool c).holder with
      | some _ => none
      | none =>
          some ((s.setPool c { s.pool c with holder := some (.bridge b) }).setBridge b
            { s.bridges b with pc := .wait })
  | .wait, .go =>
      match (s.pool c).conns with
      | [] => none
      | work :: rest =>
          some ((s.setPool c { conns := rest, holder := none }).setBridge b
            { s.bridges b with pc := .start work })
  | .wait, .timeout =>
      some ((s.setPool c { s.pool c with holder := none }).setBridge b
        { s.bridges b with pc := .over })
  | .wait, .cancelled =>
      if s.tokenCancelled c then
        some ((s.setPool c { s.pool c with holder := none }).setBridge b
          { s.bridges b with pc := .over })
      else none
  | .start work, .wrote ok =>
      some (s.setBridge b { s.bridges b with pc := if ok then .started work else .over })
  | .started _, .go => some (s.setBridge b { s.bridges b with pc := .over })
  | _, _ => none

/-! ## The server object -/

inductive ServerInput where
  | updateConfig (cfg : FrpsConfig)
  | start
  | stopCancel
  | stopCollect (entries : List StreamId)
  | stopFinish
  | acceptExit (e : Epoch)
  | monitorTick (e : Epoch)
  | monitorCollect (e : Epoch) (entries : List StreamId)
  | monitorExit (e : Epoch)
  | accept (k : StreamId) (e : Epoch)
  | openStream (k : StreamId) (parent : StreamId)

/-- `controls.values().cloned().collect()`, in the order the map gives. -/
def listsControls (shared : Shared) (entries : List StreamId) : Bool :=
  decide ((entries : Multiset StreamId) = shared.controls.entries.map Sigma.snd)

/-- The monitor is between two rounds. -/
def monitorFree (s : State) (e : Epoch) : Bool :=
  match (s.loops e).monitor with
  | .resting => true
  | .sweeping _ => (s.sweeps (.monitor e)).idle
  | _ => false

def serverStep (s : State) : ServerInput → Option State
  | .updateConfig cfg => some { s with cfg := cfg }
  | .start =>
      if s.server = .idle ∧ s.cfg.serverPort ≠ 0 then
        -- the maps of the new `ServerShared` are the entry of an epoch no task has used yet
        some ({ s with server := .running s.nextEpoch, nextEpoch := s.nextEpoch + 1 }.setLoops
          s.nextEpoch { accepting := true, monitor := .resting })
      else none
  | .stopCancel =>
      match s.server with
      | .running e =>
          some ({ s with server := .stopping e false }.setShared e
            { s.shared e with runCancelled := true })
      | _ => none
  | .stopCollect entries =>
      match s.server with
      | .stopping e false =>
          if listsControls (s.shared e) entries then
            some ({ s with server := .stopping e true }.setSweep (.stop e)
              { s.sweeps (.stop e) with todo := entries })
          else none
      | _ => none
  | .stopFinish =>
      match s.server with
      | .stopping e true =>
          if (s.sweeps (.stop e)).idle ∧ (s.loops e).accepting = false ∧
              (s.loops e).monitor = .over then
            some { s with server := .idle }
          else none
      | _ => none
  | .acceptExit e =>
      if (s.shared e).runCancelled then
        some (s.setLoops e { s.loops e with accepting := false })
      else none
  | .monitorTick e =>
      if monitorFree s e ∧ s.cfg.heartbeatTimeout ≠ 0 then
        some (s.setLoops e { s.loops e with monitor := .ticked s.cfg.heartbeatTimeout })
      else none
  | .monitorCollect e entries =>
      match (s.loops e).monitor with
      | .ticked timeout =>
          if listsControls (s.shared e) entries then
            some ((s.setLoops e { s.loops e with monitor := .sweeping timeout }).setSweep
              (.monitor e) { s.sweeps (.monitor e) with todo := entries })
          else none
      | _ => none
  | .monitorExit e =>
      if (s.shared e).runCancelled ∧ monitorFree s e = true then
        some (s.setLoops e { s.loops e with monitor := .over })
      else none
  | .accept k e =>
      match (s.streams k).pc with
      | .unopened =>
          if (s.loops e).accepting then
            some (s.setStream k
              { role := if s.cfg.tcpMux then .muxControl else .direct, epoch := e, pc := .first })
          else none
      | _ => none
  | .openStream k parent =>
      match (s.streams k).pc, (s.streams parent).pc with
      | _, .unopened => none
      | _, .done => none
      | .unopened, _ =>
          if (s.streams parent).role = .muxControl then
            some (s.setStream k
              { role := .muxWork parent, epoch := (s.streams parent).epoch, pc := .first })
          else none
      | _, _ => none

/-! ## The system -/

/-- Which task moves, and what it is given. -/
inductive Action where
  | server (input : ServerInput)
  | stream (k : StreamId) (input : Input)
  | sweep (x : Caller) (input : SweepInput)
  | writer (c : StreamId) (input : WriterInput)
  | listener (r : RegId) (input : ListenerInput)
  | bridge (b : BridgeId) (input : BridgeInput)

/-- What `read_frame` can hand over: a body no longer than the limit. -/
def deliverable : Input → Bool
  | .frame (some frame) => decide (frame.2.length ≤ MAX_MSG_LEN)
  | _ => true

def step (w : World) (a : Action) (s : State) : Option State :=
  match a with
  | .server input => serverStep s input
  | .stream k input => if deliverable input then streamStep w k s (s.streams k).pc input else none
  | .sweep x input => sweepStep x input s
  | .writer c input => writerStep c s (s.out c).writer input
  | .listener r input => listenerStep r s (s.regs r).listener input
  | .bridge b input => bridgeStep b (s.regs (s.bridges b).reg).control s (s.bridges b).pc input

/-- The server as a transition system, started with any configuration. -/
def server (w : World) : System State Action where
  init s := ∃ cfg, s = State.new cfg
  step s a s' := step w a s = some s'

end Remgr.Frps.Server
