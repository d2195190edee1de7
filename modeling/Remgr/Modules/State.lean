/-
Module: Remgr.Modules.State
Purpose: The five service modules of `remgr/src/modules` as one state: what each of them runs, the
  mutexes of the modules, the shared configuration with its lock and its snapshot, and where each call
  into a module stands.
Trusted boundary: what a module runs is a handle that is there or not, and whose tasks live or have
  ended; the end of a supervisor and its report in the status are one step
Main exports: Service, Call, Entry, Pc, Pc.service, State
-/
import Remgr.Console.Config
import Remgr.Lib.RwLock
import Mathlib.Logic.Function.Basic

namespace Remgr.Modules

open Remgr.Lib
open Remgr.Console

abbrev TaskId := Nat

inductive Service where
  | easytier
  | stunTurn
  | rustdesk
  | frps
  | frpc
deriving Repr, DecidableEq

namespace Service

def name : Service → String
  | easytier => "easytier"
  | stunTurn => "stun_turn"
  | rustdesk => "rustdesk"
  | frps => "frps"
  | frpc => "frpc"

/-- The switch of the module's section. -/
def enabled (cfg : Config) : Service → Bool
  | easytier => cfg.easytier.enabled
  | stunTurn => cfg.stunTurn.enabled
  | rustdesk => cfg.rustdesk.enabled
  | frps => cfg.frps.enabled
  | frpc => cfg.frpc.enabled

/-- `running` of `status`, from the handle and whether its tasks live: easytier and frps ask for a
handle only. -/
def running : Service → Option Bool → Bool
  | easytier, handle | frps, handle => handle.isSome
  | stunTurn, handle | rustdesk, handle | frpc, handle => handle = some true

end Service

/-! ## Calls -/

/-- What the console's `service_action` is asked for. -/
inductive ServiceAction where
  | start
  | stop
  | restart
deriving Repr, DecidableEq

/-- Who calls a module: `main` at its start, `service_action`, `put_config` after its edit, or
`point_service_at_cert` after its edit. -/
inductive Caller where
  | boot
  | action (action : ServiceAction)
  | put
  | cert
deriving Repr, DecidableEq

structure Call where
  service : Service
  caller : Caller
deriving Repr, DecidableEq

/-- The methods of `ServiceModule` that change what runs. -/
inductive Entry where
  | start
  | stop
  | apply
deriving Repr, DecidableEq

/-- What `self.cfg()` is called for: `status`, the first lines of frpc's `apply_config`, or `start`. -/
inductive Use where
  | status
  | adopt
  | start
deriving Repr, DecidableEq

/-- `service_action` writes the flag before a start, and after a start or a stop. -/
inductive Phase where
  | before
  | after
deriving Repr, DecidableEq

/-- Where a call stands, by what comes next. -/
inductive Pc where
  | idle
  /-- `edit_config`, before the write lock, and with it while the file is saved. -/
  | edit (call : Call) (edit : Edit)
  | saving (call : Call) (staged : Config)
  /-- `set_enabled`, before the write lock, before the read lock of `save_config`, and with it. -/
  | enable (call : Call) (phase : Phase)
  | enableSave (call : Call) (phase : Phase)
  | enableSaving (call : Call) (phase : Phase)
  /-- A method of frpc, before the lock `ops`. -/
  | ops (call : Call) (entry : Entry)
  /-- `config_blocking`: after so many attempts, before the snapshot is stored, and when all attempts
  have failed. -/
  | reading (call : Call) (use : Use) (tries : Nat)
  | storing (call : Call) (use : Use) (cfg : Config)
  | fallback (call : Call) (use : Use)
  /-- frpc's `apply_config`, before its first `update_config`. -/
  | adopt (call : Call) (cfg : Config)
  /-- `apply_config`, before it asks whether the module runs. -/
  | look (call : Call)
  /-- Before the handle is taken. -/
  | stopping (call : Call)
  /-- `start` of a module with a `run` lock of its own, before that lock. -/
  | starting (call : Call)
  /-- `start` with its configuration, before it looks at the flag. -/
  | check (call : Call) (cfg : Config)
  /-- `pin_token`, before the write lock, and with it while the file is saved. -/
  | pin (call : Call) (cfg : Config) (token : String)
  | pinning (call : Call) (cfg : Config)
  /-- Before `update_config` of the embedded server or client. -/
  | update (call : Call) (cfg : Config)
  /-- Before sockets are bound and the handle is put in place. -/
  | launch (call : Call) (cfg : Config)
  | returned (result : Except String Unit)

namespace Pc

/-- The module the call is for. -/
def service : Pc → Option Service
  | idle | returned _ => none
  | edit call _ | saving call _ | enable call _ | enableSave call _ | enableSaving call _ | ops call _
  | reading call _ _ | storing call _ _ | fallback call _ | adopt call _ | look call | stopping call
  | starting call | check call _ | pin call _ _ | pinning call _ | update call _ | launch call _ =>
      some call.service

/-- Waits for the write lock of the configuration. -/
def awaitsWrite : Pc → Bool
  | edit _ _ | enable _ _ | pin _ _ _ => true
  | _ => false

end Pc

/-! ## The state -/

/-- The modules and what they share. `runs` are the holders of the `run` locks of easytier, stun_turn
and rustdesk while they start; the other two hold theirs for one step only. -/
structure State where
  mem : Config
  lock : RwLock TaskId := .free
  snapshot : Config
  handles : Service → Option Bool
  runs : Service → Option TaskId := fun _ => none
  ops : Option TaskId := none
  /-- What the embedded frps server and frpc client were last given. -/
  server : FrpsSection := {}
  client : Frpc.FrpcConfig := {}
  pcs : TaskId → Pc := fun _ => .idle

namespace State

def goto (s : State) (t : TaskId) (pc : Pc) : State :=
  { s with pcs := Function.update s.pcs t pc }

def setHandle (s : State) (m : Service) (handle : Option Bool) : State :=
  { s with handles := Function.update s.handles m handle }

/-- The end of a method: frpc gives `ops` back. -/
def leave (s : State) (call : Call) : State :=
  if call.service = .frpc then { s with ops := none } else s

end State

end Remgr.Modules
