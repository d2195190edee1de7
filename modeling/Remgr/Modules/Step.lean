/-
Module: Remgr.Modules.Step
Purpose: The steps of calls into the modules: `service_action`, `put_config` and
  `point_service_at_cert` with the `edit_config` and `set_enabled` they make, `config_blocking`, and
  `start`, `stop` and `apply_config` of each module, with `pin_token` of frps and `ops` of frpc.
Trusted boundary: what a save does to the file is left out, it succeeds or fails; binding sockets,
  loading certificates and spawning tasks succeed or fail as the input says; a section under a mutex
  that reads nothing shared is one step
Main exports: hexToken, Entry.pc, enter, taskStep, step, modules
-/
import Remgr.Modules.State
import Remgr.Lib.Transition

namespace Remgr.Modules

open Remgr.Lib
open Remgr.Console

/-- What a step finds. -/
inductive Input where
  | go
  /-- The call fails with this text. -/
  | fails (error : String)
  /-- `try_read` fails because of this task. -/
  | blockedBy (u : TaskId)
  /-- `fill_bytes`. -/
  | random (bytes : List UInt8)

/-- The bytes in hexadecimal, two digits each. -/
def hexToken (bytes : List UInt8) : String :=
  String.ofList (bytes.flatMap fun b =>
    [Nat.digitChar (b.toNat / 16), Nat.digitChar (b.toNat % 16)])

/-! ## Where calls go -/

/-- The first lines of a method, after `ops` where there is such a lock. -/
def Entry.pc (call : Call) : Entry → Pc
  | stop => .stopping call
  | start =>
      match call.service with
      | .frps | .frpc => .reading call .start 0
      | .easytier | .stunTurn | .rustdesk => .starting call
  | apply =>
      match call.service with
      | .frpc => .reading call .adopt 0
      | .easytier | .stunTurn | .rustdesk | .frps => .reading call .status 0

/-- A call of a method. -/
def enter (call : Call) (entry : Entry) : Pc :=
  if call.service = .frpc then .ops call entry else entry.pc call

/-- What a call of `config_blocking` goes on with. frpc adopts the configuration before it looks at
the flag. -/
def Use.resume (call : Call) (cfg : Config) : Use → Pc
  | status => .look call
  | adopt => .adopt call cfg
  | start => if call.service = .frpc then .update call cfg else .check call cfg

/-- What the caller does after `start`: `service_action` writes the flag when it has succeeded, and
`point_service_at_cert` only logs a failure. -/
def Call.afterStart (call : Call) (result : Except String Unit) : Pc :=
  match call.caller, result with
  | .action .start, .ok _ => .enable call .after
  | .cert, _ => .returned (.ok ())
  | _, result => .returned result

/-- What the caller does after `stop`. Inside `apply_config` the module is started next. -/
def Call.afterStop (call : Call) : Pc :=
  match call.caller with
  | .put | .cert => Entry.pc call .start
  | .action .restart => enter call .start
  | .action .stop | .action .start => .enable call .after
  | .boot => .returned (.ok ())

namespace State

/-- The end of `start`: the `run` lock and `ops` are given back. -/
def endStart (s : State) (t : TaskId) (call : Call) (result : Except String Unit) : State :=
  let runs := if s.runs call.service = some t then Function.update s.runs call.service none else s.runs
  ({ s with runs }.leave call).goto t (call.afterStart result)

/-- The end of `stop`: `ops` is given back, but not inside `apply_config`. -/
def endStop (s : State) (t : TaskId) (call : Call) : State :=
  (if call.caller = .put ∨ call.caller = .cert then s else s.leave call).goto t call.afterStop

end State

/-! ## The shared configuration -/

/-- The answer when `edit_config` fails: `put_config` gives the error, `point_service_at_cert` an empty
list. -/
def Call.editFails (call : Call) (error : String) : Except String Unit :=
  if call.caller = .cert then .ok () else .error error

/-- `edit_config` gets the write lock. A change that is refused gives it back. -/
def editStep (w : World) (s : State) (t : TaskId) (call : Call) (edit : Edit) : Input → Option State
  | .go =>
      match s.lock.write t with
      | none => none
      | some lock =>
          match edit.apply w s.mem with
          | .ok staged => some ({ s with lock }.goto t (.saving call staged))
          | .error error =>
              some (s.goto t (.returned (call.editFails error)))
  | _ => none

/-- The end of the save of `edit_config`. What was staged is committed, and the module is told. -/
def savingStep (s : State) (t : TaskId) (call : Call) (staged : Config) : Input → Option State
  | .go =>
      some ({ s with mem := staged, lock := s.lock.unlock t }.goto t (enter call .apply))
  | .fails error =>
      some ({ s with lock := s.lock.unlock t }.goto t (.returned (call.editFails error)))
  | _ => none

/-- The value `set_enabled` writes. -/
def Phase.flag (call : Call) : Phase → Bool
  | before => true
  | after => call.caller = .action .start

/-- `set_enabled` gets the write lock, for the flag only. -/
def enableStep (s : State) (t : TaskId) (call : Call) (phase : Phase) : Input → Option State
  | .go =>
      match s.lock.write t with
      | none => none
      | some _ =>
          let mem := (s.mem.setEnabledFlag (phase.flag call) call.service.name).getD s.mem
          some ({ s with mem }.goto t (.enableSave call phase))
  | _ => none

/-- What follows `set_enabled`. -/
def Phase.next (call : Call) : Phase → Pc
  | before => enter call (if call.caller = .action .restart then .stop else .start)
  | after => .returned (.ok ())

/-- The attempts of `config_blocking`. -/
def readAttempts : Nat := 20

/-- One step of `config_blocking`. -/
def readStep (s : State) (t : TaskId) (call : Call) (use : Use) (tries : Nat) :
    Input → Option State
  | .go => if s.lock.writer = none then some (s.goto t (.storing call use s.mem)) else none
  | .blockedBy u =>
      if s.lock.writer = some u ∨ (s.pcs u).awaitsWrite then
        some (s.goto t (if tries + 1 < readAttempts then .reading call use (tries + 1)
          else .fallback call use))
      else none
  | _ => none

/-! ## The modules -/

/-- `apply_config` asks whether the module runs, and stops it if so. -/
def lookStep (s : State) (t : TaskId) (call : Call) : Option State :=
  if s.runs call.service = none then
    if call.service.running (s.handles call.service) then some (s.goto t (.stopping call))
    else some ((s.leave call).goto t (.returned (.ok ())))
  else none

/-- `stop` takes the handle. -/
def stopStep (s : State) (t : TaskId) (call : Call) : Option State :=
  if s.runs call.service = none then some ((s.setHandle call.service none).endStop t call) else none

/-- `start` of easytier, stun_turn and rustdesk gets the `run` lock. A handle whose tasks have ended
is dropped. -/
def startStep (s : State) (t : TaskId) (call : Call) : Option State :=
  if s.runs call.service = none then
    if call.service.running (s.handles call.service) then some (s.endStart t call (.ok ()))
    else
      let runs := Function.update s.runs call.service (some t)
      some (({ s with runs }.setHandle call.service none).goto t (.reading call .start 0))
  else none

/-- `start` looks at the flag; frps makes a token when there is none. -/
def checkStep (s : State) (t : TaskId) (call : Call) (cfg : Config) : Input → Option State
  | .go =>
      if !call.service.enabled cfg then
        some (s.endStart t call (.error (call.service.name ++ " module is disabled")))
      else if call.service = .frps then
        if cfg.frps.token = "" then none else some (s.goto t (.update call cfg))
      else some (s.goto t (.launch call cfg))
  | .random bytes =>
      if call.service.enabled cfg ∧ call.service = .frps ∧ cfg.frps.token = "" ∧ bytes.length = 16 then
        some (s.goto t (.pin call cfg (hexToken bytes)))
      else none
  | _ => none

/-- `pin_token` gets the write lock and changes memory at once. -/
def pinStep (s : State) (t : TaskId) (call : Call) (cfg : Config) (token : String) :
    Input → Option State
  | .go =>
      (s.lock.write t).map fun lock =>
        { s with mem := s.mem.pinToken token, lock }.goto t (.pinning call (cfg.pinToken token))
  | _ => none

/-- The save of `pin_token` ends; a failure is only logged. -/
def pinningStep (s : State) (t : TaskId) (call : Call) (cfg : Config) : Input → Option State
  | .go | .fails _ => some ({ s with lock := s.lock.unlock t }.goto t (.update call cfg))
  | _ => none

/-- `update_config` of the server or of the client. -/
def updateStep (s : State) (t : TaskId) (call : Call) (cfg : Config) : State :=
  if call.service = .frps then { s with server := cfg.frps }.goto t (.launch call cfg)
  else { s with client := cfg.frpc }.goto t (.check call cfg)

/-- The end of `start`: nothing to do for what runs already, and otherwise what it runs is put in
place, or it fails. -/
def launchStep (s : State) (t : TaskId) (call : Call) : Input → Option State
  | .go =>
      if call.service.running (s.handles call.service) then some (s.endStart t call (.ok ()))
      else some ((s.setHandle call.service (some true)).endStart t call (.ok ()))
  | .fails error =>
      if call.service.running (s.handles call.service) then none
      else some (s.endStart t call (.error error))
  | _ => none

/-! ## The system -/

/-- One step of a task, by where it stands. -/
def taskStep (w : World) (s : State) (t : TaskId) (input : Input) : Pc → Option State
  | .idle | .returned _ => none
  | .edit call edit => editStep w s t call edit input
  | .saving call staged => savingStep s t call staged input
  | .enable call phase => enableStep s t call phase input
  | .enableSave call phase =>
      match input with
      | .go => (s.lock.read t).map fun lock => { s with lock }.goto t (.enableSaving call phase)
      | _ => none
  | .enableSaving call phase =>
      match input with
      | .go | .fails _ => some ({ s with lock := s.lock.unlock t }.goto t (phase.next call))
      | _ => none
  | .ops call entry =>
      match input, s.ops with
      | .go, none => some ({ s with ops := some t }.goto t (entry.pc call))
      | _, _ => none
  | .reading call use tries => readStep s t call use tries input
  | .storing call use cfg =>
      match input with
      | .go => some ({ s with snapshot := cfg }.goto t (use.resume call cfg))
      | _ => none
  | .fallback call use =>
      match input with
      | .go => some (s.goto t (use.resume call s.snapshot))
      | _ => none
  | .adopt call cfg =>
      match input with
      | .go => some ({ s with client := cfg.frpc }.goto t (.look call))
      | _ => none
  | .look call =>
      match input with
      | .go => lookStep s t call
      | _ => none
  | .stopping call =>
      match input with
      | .go => stopStep s t call
      | _ => none
  | .starting call =>
      match input with
      | .go => startStep s t call
      | _ => none
  | .check call cfg => checkStep s t call cfg input
  | .pin call cfg token => pinStep s t call cfg token input
  | .pinning call cfg => pinningStep s t call cfg input
  | .update call cfg =>
      match input with
      | .go => some (updateStep s t call cfg)
      | _ => none
  | .launch call _ => launchStep s t call input

inductive Request where
  | boot (m : Service)
  | action (m : Service) (action : ServiceAction)
  | put (m : Service) (value : Json)
  | cert (m : Service) (certPath keyPath : String)

def Request.service : Request → Service
  | boot m | action m _ | put m _ | cert m _ _ => m

/-- The first lines of each handler. -/
def begin (w : World) : Request → Pc
  | .boot m => enter ⟨m, .boot⟩ .start
  | .action m .stop => enter ⟨m, .action .stop⟩ .stop
  | .action m action => .enable ⟨m, .action action⟩ .before
  | .put m value =>
      match putConfig w m.name value with
      | .error e => .returned (.error e.error)
      | .ok edit => .edit ⟨m, .put⟩ edit
  | .cert m certPath keyPath =>
      if certFields m.name = [] then .returned (.ok ())
      else .edit ⟨m, .cert⟩ (.cert m.name certPath keyPath)

inductive Action where
  | request (t : TaskId) (request : Request)
  | step (t : TaskId) (input : Input)
  /-- A task of the module ends by itself. -/
  | died (m : Service)

def step (w : World) (s : State) : Action → Option State
  | .request t request =>
      match s.pcs t with
      | .idle => some (s.goto t (begin w request))
      | _ => none
  | .step t input => taskStep w s t input (s.pcs t)
  | .died m => if s.handles m = some true then some (s.setHandle m (some false)) else none

/-- The modules as `AppState::new` makes them: nothing runs, and nobody has called. -/
structure Starts (s : State) : Prop where
  unlocked : s.lock.holders = []
  snapshot : s.snapshot = s.mem
  stopped : ∀ m, s.handles m = none
  runs : ∀ m, s.runs m = none
  ops : s.ops = none
  server : s.server = {}
  idle : ∀ t, s.pcs t = .idle

def modules (w : World) : System State Action where
  init := Starts
  step s a s' := step w s a = some s'

end Remgr.Modules
