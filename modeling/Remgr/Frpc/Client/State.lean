/-
Module: Remgr.Frpc.Client.State
Purpose: The state of the frp client of `remgr-frps/src/client.rs`: what its tasks share, and where
  the supervisors, the configuration updates and the holder of the `run` lock stand.
Trusted boundary: a section under a lock, or an atomic, is one step; `tokio::sync::watch` is its
  version, which `send` raises and each receiver compares with the last one it has seen (a `send`
  nobody receives leaves the channel as it is, which no later receiver can tell)
Main exports: State, State.new, State.setConnected, State.rebuildProxies
-/
import Remgr.Frpc.Config
import Remgr.Frps.Msg
import Mathlib.Data.Finmap

namespace Remgr.Frpc.Client

open Remgr.Lib

/-! ## Names -/

/-- A `ProxyRuntime`: the registry and the sessions share it through an `Arc`. -/
abbrev RuntimeId := Nat

/-- One `supervise` task, with its token and its receiver of the watch channel. -/
abbrev SupervisorId := Nat

/-- One task that calls `update_config`. -/
abbrev UpdateId := Nat

/-- A hash map of the source, as a value. -/
abbrev Map (κ ν : Type) := Finmap fun _ : κ => ν

/-! ## Proxies -/

inductive ProxyState where
  | idle
  | waiting
  | running
  | error
deriving Repr, DecidableEq, Inhabited

/-- `ProxyRuntime`, with its `ProxyMeta`. -/
structure ProxyRuntime where
  cfg : FrpcProxyConfig
  state : ProxyState := .idle
  remoteAddr : String := ""
  error : String := ""
deriving Inhabited

/-- `ProxyRuntime::set`. -/
def ProxyRuntime.set (rt : ProxyRuntime) (state : ProxyState) (remoteAddr : Option String)
    (error : String) : ProxyRuntime :=
  { rt with state := state, error := error, remoteAddr := remoteAddr.getD rt.remoteAddr }

/-- `StatusRaw`. -/
structure StatusRaw where
  running : Bool := false
  connected : Bool := false
  lastError : String := ""
deriving Repr, DecidableEq, Inhabited

/-! ## Sessions -/

/-- What a session has: its configuration, its own receiver, the registry as it found it, and the
proxies that are not answered yet. -/
structure Session where
  cfg : FrpcConfig
  seen : Nat
  proxies : Map String RuntimeId := ∅
  pending : Finset String := ∅

/-- How `run_session` ends: on purpose, or with a text to report. -/
abbrev Outcome := Except String Unit

/-- Where `run_session_inner` stands: connecting and logging in, registering the proxies, the
control loop, and the teardown. Each stage is named by what comes next. -/
inductive SessionPc where
  | connecting
  | report (runId : String)
  | snapshot
  | register (left : List FrpcProxyConfig)
  | sending (p : FrpcProxyConfig) (left : List FrpcProxyConfig)
  | loop
  | expire (left : List String)
  | closing (outcome : Outcome)
  | shut (outcome : Outcome) (stoppedFromOutside : Bool)

/-- Where `supervise` stands. -/
inductive Stage where
  | subscribe
  | top
  | read
  | refuse (msg : String)
  | refused
  | idle (cfg : FrpcConfig)
  | idling (cfg : FrpcConfig) (left : List RuntimeId)
  | disconnect (cfg : FrpcConfig)
  | markSeen (cfg : FrpcConfig)
  | clone (cfg : FrpcConfig)
  | session (pc : SessionPc) (session : Session)
  | ended (outcome : Outcome)
  | settled
  | failing (msg : String)
  | backoff
  | leaving
  | lastDisconnect
  | lastIdle
  | lastIdling (left : List RuntimeId)
  | returning
  | finished

instance : Inhabited Stage := ⟨.finished⟩

/-- `JoinHandle::is_finished`. -/
def Stage.isFinished : Stage → Bool
  | .finished => true
  | _ => false

/-- A `supervise` task: its token, the version its receiver has seen, and where it stands. `reads`
remembers how often it has read the stored configuration. -/
structure Supervisor where
  cancelled : Bool := false
  seen : Nat := 0
  reads : Nat := 0
  stage : Stage := .subscribe
deriving Inhabited

/-! ## Callers -/

/-- Where the holder of the `run` lock stands, in `start` or in `stop`. -/
inductive LockPc where
  | free
  | startCheck
  | startRead
  | startReset
  | startIdle
  | startIdling (left : List RuntimeId)
  | startSpawn
  | stopTake
  | stopWait (v : SupervisorId)
  | stopDisconnect
  | stopIdle
  | stopIdling (left : List RuntimeId)
  | stopFlags
deriving Repr, DecidableEq, Inhabited

/-- Where a call of `update_config` stands; between two calls it is `none`. -/
inductive UpdatePc where
  | none
  | compare (cfg : FrpcConfig)
  | snapshot (cfg : FrpcConfig)
  | rebuild (cfg : FrpcConfig) (previous : Map String RuntimeId)
  | write (cfg : FrpcConfig)
  | bump
  | send

instance : Inhabited UpdatePc := ⟨.none⟩

/-! ## The whole client -/

/-- `Shared` and `FrpcClient`. `version` is that of the watch channel. -/
structure State where
  cfg : FrpcConfig
  status : StatusRaw := {}
  lastRunId : String := ""
  totalLogins : UInt64 := 0
  totalWorkConns : UInt64 := 0
  cfgGen : UInt64 := 0
  version : Nat := 0
  registry : Map String RuntimeId := ∅
  runtimes : RuntimeId → ProxyRuntime := fun _ => default
  nextRuntime : RuntimeId := 0
  supervisors : SupervisorId → Supervisor := fun _ => { stage := .finished }
  nextSupervisor : SupervisorId := 0
  run : Option SupervisorId := none
  lock : LockPc := .free
  updates : UpdateId → UpdatePc := fun _ => .none

namespace State

def setSupervisor (s : State) (v : SupervisorId) (supervisor : Supervisor) : State :=
  { s with supervisors := Function.update s.supervisors v supervisor }

def goto (s : State) (v : SupervisorId) (stage : Stage) : State :=
  s.setSupervisor v { s.supervisors v with stage := stage }

def setUpdate (s : State) (u : UpdateId) (pc : UpdatePc) : State :=
  { s with updates := Function.update s.updates u pc }

/-- `rt.set` on one of the runtimes. -/
def setProxy (s : State) (r : RuntimeId) (state : ProxyState) (remoteAddr : Option String)
    (error : String) : State :=
  { s with runtimes := Function.update s.runtimes r ((s.runtimes r).set state remoteAddr error) }

/-- `rt.set` on the runtime a session knows under the name, if there is one. -/
def setNamed (s : State) (proxies : Map String RuntimeId) (name : String) (state : ProxyState)
    (remoteAddr : Option String) (error : String) : State :=
  match proxies.lookup name with
  | some r => s.setProxy r state remoteAddr error
  | none => s

/-- `Shared::set_error`. -/
def setError (s : State) (msg : String) : State :=
  { s with status := { s.status with lastError := msg } }

/-- `Shared::set_connected`. -/
def setConnected (s : State) (connected : Bool) (runId : String) : State :=
  { s with
    status := { s.status with connected := connected }
    lastRunId := if connected && runId ≠ "" then runId else s.lastRunId }

/-- `proxies().values()`, in the order the map gives. -/
def listsRegistry (s : State) (order : List RuntimeId) : Bool :=
  decide ((order : Multiset RuntimeId) = s.registry.entries.map Sigma.snd)

/-- The runtime keeps its counters when the definition has not changed. -/
def sameDefinition (old new : FrpcProxyConfig) : Bool :=
  old.proxyType == new.proxyType && old.localIp == new.localIp && old.localPort == new.localPort &&
    old.remotePort == new.remotePort

/-- The loop of `rebuild_proxies`. -/
def rebuildLoop (previous : Map String RuntimeId) :
    List FrpcProxyConfig → State → Map String RuntimeId → State × Map String RuntimeId
  | [], s, map => (s, map)
  | p :: rest, s, map =>
      match (previous.lookup p.name).filter fun r => sameDefinition (s.runtimes r).cfg p with
      | some r => rebuildLoop previous rest s (map.insert p.name r)
      | none =>
          let fresh : State :=
            { s with
              runtimes := Function.update s.runtimes s.nextRuntime { cfg := p }
              nextRuntime := s.nextRuntime + 1 }
          rebuildLoop previous rest fresh (map.insert p.name s.nextRuntime)

/-- `Shared::rebuild_proxies`, after it has read the previous registry. -/
def rebuildProxies (s : State) (previous : Map String RuntimeId) (cfg : FrpcConfig) : State :=
  let built := rebuildLoop previous cfg.proxies s ∅
  { built.1 with registry := built.2 }

/-- `FrpcClient::new`. -/
def new (cfg : FrpcConfig) : State := ({ cfg } : State).rebuildProxies ∅ cfg

end State

end Remgr.Frpc.Client
