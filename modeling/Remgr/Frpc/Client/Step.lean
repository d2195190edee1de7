/-
Module: Remgr.Frpc.Client.Step
Purpose: One step of any task of the frp client, and the transition system of all of them: the
  supervisor with its session, `start` and `stop` under the `run` lock, and `update_config`. What the
  network, the clock and the scheduler answer is in the label.
Trusted boundary: as in `Remgr.Frpc.Client.State`; connecting and logging in is one step with its
  result in the label
Main exports: Action, step, client
-/
import Remgr.Frpc.Client.State
import Remgr.Lib.Transition

namespace Remgr.Frpc.Client

open Remgr.Lib

/-- What a supervisor may be given when it is resumed. `cancelled` is the outer `select!`, which
drops the session it is in; `stopped` is the one of the control loop. -/
inductive SupervisorInput where
  | go
  | order (ids : List RuntimeId)
  | loginFailed (msg : String)
  | loggedIn (runId : String)
  | sent (failure : Option String)
  | newProxyResp (resp : Frps.NewProxyResp)
  | reqWorkConn
  | pong (error : String)
  | closed
  | pingFailed (msg : String)
  | noPong
  | deadline (names : List String)
  | changed
  | stopped
  | cancelled
  | elapsed

/-! ## Sessions -/

/-- One step of `run_session_inner`, in the supervisor `v`. -/
def sessionStep (v : SupervisorId) (ses : Session) (s : State) :
    SessionPc → SupervisorInput → Option State
  | .connecting, .loginFailed msg => some (s.goto v (.ended (.error msg)))
  | .connecting, .loggedIn runId =>
      some ({ s with totalLogins := s.totalLogins + 1 }.goto v (.session (.report runId) ses))
  | .report runId, .go => some ((s.setConnected true runId).goto v (.session .snapshot ses))
  | .snapshot, .go =>
      some (s.goto v (.session (.register ses.cfg.proxies) { ses with proxies := s.registry }))
  | .register (p :: left), .go =>
      some ((s.setNamed ses.proxies p.name .waiting none "").goto v (.session (.sending p left) ses))
  | .register [], .go => some (s.goto v (.session .loop ses))
  | .sending p left, .sent none =>
      some (s.goto v (.session (.register left) { ses with pending := insert p.name ses.pending }))
  | .sending p _, .sent (some failure) =>
      -- `bail!` leaves without the teardown below
      some (s.goto v (.ended (.error ("sending NewProxy for " ++ p.name ++ " failed: " ++ failure))))
  | .loop, .stopped =>
      if (s.supervisors v).cancelled then some (s.goto v (.session (.closing (.ok ())) ses)) else none
  | .loop, .changed =>
      if ses.seen < s.version then
        some (s.goto v (.session (.closing (.ok ())) { ses with seen := s.version }))
      else none
  | .loop, .closed =>
      some (s.goto v
        (.session (.closing (.error "the upstream closed the control connection")) ses))
  | .loop, .newProxyResp resp =>
      let ses := { ses with pending := ses.pending.erase resp.proxyName }
      let s :=
        if resp.error = "" then
          s.setNamed ses.proxies resp.proxyName .running (some resp.remoteAddr) ""
        else s.setNamed ses.proxies resp.proxyName .error none resp.error
      some (s.goto v (.session .loop ses))
  | .loop, .reqWorkConn => some { s with totalWorkConns := s.totalWorkConns + 1 }
  | .loop, .pong error =>
      if error = "" then some s
      else
        some (s.goto v
          (.session (.closing (.error ("upstream rejected our heartbeat: " ++ error))) ses))
  | .loop, .pingFailed msg =>
      if ses.cfg.tcpMux then none
      else some (s.goto v (.session (.closing (.error ("sending Ping failed: " ++ msg))) ses))
  | .loop, .noPong =>
      if ses.cfg.tcpMux then none
      else some (s.goto v (.session (.closing (.error "no Pong for 90s")) ses))
  | .loop, .deadline names =>
      if names.Nodup ∧ names.toFinset = ses.pending ∧ names ≠ [] then
        some (s.goto v (.session (.expire names) ses))
      else none
  | .expire (name :: left), .go =>
      some ((s.setNamed ses.proxies name .error none "no response from the upstream").goto v
        (.session (.expire left) ses))
  | .expire [], .go => some (s.goto v (.session .loop { ses with pending := ∅ }))
  | .closing outcome, .go =>
      some (s.goto v (.session (.shut outcome (s.supervisors v).cancelled) ses))
  | .shut outcome stoppedFromOutside, .go =>
      let s := if stoppedFromOutside then s else s.setConnected false ""
      some (s.goto v (.ended outcome))
  | _, _ => none

/-- The stages of a session at which it awaits something, so that the outer `select!` can drop it.
The teardown awaits the end of the multiplexed connection, if there is one. -/
def SessionPc.awaits (ses : Session) : SessionPc → Bool
  | .connecting | .sending _ _ | .loop => true
  | .shut _ _ => ses.cfg.tcpMux
  | _ => false

/-! ## The supervisor -/

/-- One step of `supervise`. -/
def superviseStep (w : World) (v : SupervisorId) (s : State) :
    Stage → SupervisorInput → Option State
  | .subscribe, .go =>
      some (s.setSupervisor v { s.supervisors v with seen := s.version, stage := .top })
  | .top, .go => some (s.goto v (if (s.supervisors v).cancelled then .leaving else .read))
  | .read, .go =>
      let stage : Stage :=
        match s.cfg.validate w with
        | .error msg => .refuse msg
        | .ok () => .idle s.cfg
      some (s.setSupervisor v
        { s.supervisors v with reads := (s.supervisors v).reads + 1, stage := stage })
  | .refuse msg, .go => some ((s.setError msg).goto v .refused)
  | .refused, .go =>
      some ({ s with status := { s.status with running := false } }.goto v .leaving)
  | .idle cfg, .order ids =>
      if s.listsRegistry ids then some (s.goto v (.idling cfg ids)) else none
  | .idling cfg (r :: left), .go => some ((s.setProxy r .idle none "").goto v (.idling cfg left))
  | .idling cfg [], .go => some (s.goto v (.disconnect cfg))
  | .disconnect cfg, .go => some ((s.setConnected false "").goto v (.markSeen cfg))
  | .markSeen cfg, .go =>
      some (s.setSupervisor v { s.supervisors v with seen := s.version, stage := .clone cfg })
  | .clone cfg, .go =>
      some (s.goto v (.session .connecting { cfg := cfg, seen := (s.supervisors v).seen }))
  | .session pc ses, input =>
      match input with
      | .cancelled =>
          if pc.awaits ses ∧ (s.supervisors v).cancelled = true then some (s.goto v .leaving) else none
      | _ => sessionStep v ses s pc input
  | .ended outcome, .go =>
      let stage : Stage :=
        match outcome with
        | .ok () => .settled
        | .error msg => .failing msg
      some ((s.setConnected false "").goto v stage)
  | .settled, .go => some (s.goto v (if (s.supervisors v).cancelled then .leaving else .top))
  | .failing msg, .go => some ((s.setError msg).goto v .backoff)
  | .backoff, .cancelled =>
      if (s.supervisors v).cancelled then some (s.goto v .leaving) else none
  | .backoff, .elapsed => some (s.goto v .top)
  | .backoff, .changed =>
      if (s.supervisors v).seen < s.version then
        some (s.setSupervisor v { s.supervisors v with seen := s.version, stage := .top })
      else none
  | .leaving, .go =>
      some (s.goto v (if (s.supervisors v).cancelled then .returning else .lastDisconnect))
  | .lastDisconnect, .go => some ((s.setConnected false "").goto v .lastIdle)
  | .lastIdle, .order ids => if s.listsRegistry ids then some (s.goto v (.lastIdling ids)) else none
  | .lastIdling (r :: left), .go => some ((s.setProxy r .idle none "").goto v (.lastIdling left))
  | .lastIdling [], .go => some (s.goto v .returning)
  | .returning, .go => some (s.goto v .finished)
  | _, _ => none

/-! ## Start and stop -/

inductive LockInput where
  | start
  | stop
  | go
  | order (ids : List RuntimeId)
  | timeout

/-- One step of the call that holds the `run` lock. A call that waits for the lock has not begun. -/
def lockStep (w : World) (s : State) : LockPc → LockInput → Option State
  | .free, .start => some { s with lock := .startCheck }
  | .free, .stop => some { s with lock := .stopTake }
  | .startCheck, .go =>
      match s.run with
      | none => some { s with lock := .startRead }
      | some v =>
          if (s.supervisors v).stage.isFinished then some { s with run := none, lock := .startRead }
          else some { s with lock := .free }
  | .startRead, .go =>
      match s.cfg.validate w with
      | .error _ => some { s with lock := .free }
      | .ok () => some { s with lock := .startReset }
  | .startReset, .go =>
      some { s with status := { running := true, connected := false, lastError := "" }
                    lock := .startIdle }
  | .startIdle, .order ids =>
      if s.listsRegistry ids then some { s with lock := .startIdling ids } else none
  | .startIdling (r :: left), .go =>
      some { s.setProxy r .idle none "" with lock := .startIdling left }
  | .startIdling [], .go => some { s with lock := .startSpawn }
  | .startSpawn, .go =>
      some { s.setSupervisor s.nextSupervisor {} with
        nextSupervisor := s.nextSupervisor + 1
        run := some s.nextSupervisor
        lock := .free }
  | .stopTake, .go =>
      match s.run with
      | none => some { s with lock := .stopDisconnect }
      | some v =>
          some { s.setSupervisor v { s.supervisors v with cancelled := true } with
            run := none
            lock := .stopWait v }
  | .stopWait v, .go =>
      if (s.supervisors v).stage.isFinished then some { s with lock := .stopDisconnect } else none
  | .stopWait _, .timeout => some { s with lock := .stopDisconnect }
  | .stopDisconnect, .go => some { s.setConnected false "" with lock := .stopIdle }
  | .stopIdle, .order ids =>
      if s.listsRegistry ids then some { s with lock := .stopIdling ids } else none
  | .stopIdling (r :: left), .go => some { s.setProxy r .idle none "" with lock := .stopIdling left }
  | .stopIdling [], .go => some { s with lock := .stopFlags }
  | .stopFlags, .go =>
      some { s with status := { s.status with running := false, connected := false }, lock := .free }
  | _, _ => none

/-! ## Updates -/

inductive UpdateInput where
  | begin (cfg : FrpcConfig)
  | go

/-- One step of `update_config`. -/
def updateStep (u : UpdateId) (s : State) : UpdatePc → UpdateInput → Option State
  | .none, .begin cfg => some (s.setUpdate u (.compare cfg))
  | .compare cfg, .go =>
      some (s.setUpdate u (if s.cfg = cfg then .none else .snapshot cfg))
  | .snapshot cfg, .go => some (s.setUpdate u (.rebuild cfg s.registry))
  | .rebuild cfg previous, .go => some ((s.rebuildProxies previous cfg).setUpdate u (.write cfg))
  | .write cfg, .go => some ({ s with cfg := cfg }.setUpdate u .bump)
  | .bump, .go => some ({ s with cfgGen := s.cfgGen + 1 }.setUpdate u .send)
  | .send, .go => some ({ s with version := s.version + 1 }.setUpdate u .none)
  | _, _ => none

/-! ## The system -/

/-- Which task moves, and what it is given. -/
inductive Action where
  | supervisor (v : SupervisorId) (input : SupervisorInput)
  | lock (input : LockInput)
  | update (u : UpdateId) (input : UpdateInput)

def step (w : World) (a : Action) (s : State) : Option State :=
  match a with
  | .supervisor v input => superviseStep w v s (s.supervisors v).stage input
  | .lock input => lockStep w s s.lock input
  | .update u input => updateStep u s (s.updates u) input

/-- The client as a transition system, created with any configuration. -/
def client (w : World) : System State Action where
  init s := ∃ cfg, s = State.new cfg
  step s a s' := step w a s = some s'

end Remgr.Frpc.Client
