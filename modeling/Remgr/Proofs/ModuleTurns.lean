/-
Module: Remgr.Proofs.ModuleTurns
Purpose: The steps of calls into the modules as a table of what they change and where they lead, and
  who holds the locks of the modules. What is proved about the modules goes through the table.
Trusted boundary: none
Main exports: Turn, step_turn, Turn.service, Locked, Locked.step
-/
import Remgr.Modules.Step

namespace Remgr.Modules

open Remgr.Lib
open Remgr.Console

/-! ## The table -/

/-- The run locks after a task has given back its own. -/
def State.freed (s : State) (t : TaskId) (m : Service) : Service → Option TaskId :=
  if s.runs m = some t then Function.update s.runs m none else s.runs

/-- A task at one place makes a step: what the state is but for the task's place, and where the task
is then. -/
inductive Turn (w : World) (s : State) (t : TaskId) : Pc → State → Pc → Prop
  | edited {call : Call} {edit : Edit} {lock : RwLock TaskId} {staged : Config}
      (taken : s.lock.write t = some lock) (applied : edit.apply w s.mem = .ok staged) :
      Turn w s t (.edit call edit) { s with lock := lock } (.saving call staged)
  | refused {call : Call} {edit : Edit} (result : Except String Unit) :
      Turn w s t (.edit call edit) s (.returned result)
  | committed {call : Call} {staged : Config} :
      Turn w s t (.saving call staged) { s with mem := staged, lock := s.lock.unlock t }
        (enter call .apply)
  | unsaved {call : Call} {staged : Config} (result : Except String Unit) :
      Turn w s t (.saving call staged) { s with lock := s.lock.unlock t } (.returned result)
  | flagged {call : Call} {phase : Phase} {lock : RwLock TaskId} {mem : Config}
      (free : s.lock.write t = some lock) (token : mem.frps.token = s.mem.frps.token) :
      Turn w s t (.enable call phase) { s with mem := mem } (.enableSave call phase)
  | saves {call : Call} {phase : Phase} {lock : RwLock TaskId} (taken : s.lock.read t = some lock) :
      Turn w s t (.enableSave call phase) { s with lock := lock } (.enableSaving call phase)
  | saved {call : Call} {phase : Phase} :
      Turn w s t (.enableSaving call phase) { s with lock := s.lock.unlock t } (phase.next call)
  | entered {call : Call} {entry : Entry} (free : s.ops = none) :
      Turn w s t (.ops call entry) { s with ops := some t } (entry.pc call)
  | read {call : Call} {use : Use} {tries : Nat} (free : s.lock.writer = none) :
      Turn w s t (.reading call use tries) s (.storing call use s.mem)
  | blocked {call : Call} {use : Use} {tries : Nat} :
      Turn w s t (.reading call use tries) s (.reading call use (tries + 1))
  | gaveUp {call : Call} {use : Use} {tries : Nat} :
      Turn w s t (.reading call use tries) s (.fallback call use)
  | stored {call : Call} {use : Use} {cfg : Config} :
      Turn w s t (.storing call use cfg) { s with snapshot := cfg } (use.resume call cfg)
  | fellBack {call : Call} {use : Use} :
      Turn w s t (.fallback call use) s (use.resume call s.snapshot)
  | adopted {call : Call} {cfg : Config} :
      Turn w s t (.adopt call cfg) { s with client := cfg.frpc } (.look call)
  | runs {call : Call} (running : call.service.running (s.handles call.service) = true) :
      Turn w s t (.look call) s (.stopping call)
  | rests {call : Call} (still : call.service.running (s.handles call.service) = false) :
      Turn w s t (.look call) (s.leave call) (.returned (.ok ()))
  | restarts {call : Call} (free : s.runs call.service = none)
      (applies : call.caller = .put ∨ call.caller = .cert) :
      Turn w s t (.stopping call) (s.setHandle call.service none) (Entry.pc call .start)
  | stopped {call : Call} (free : s.runs call.service = none)
      (alone : ¬(call.caller = .put ∨ call.caller = .cert)) :
      Turn w s t (.stopping call) ((s.setHandle call.service none).leave call) call.afterStop
  | already {call : Call} (free : s.runs call.service = none) :
      Turn w s t (.starting call) ({ s with runs := s.freed t call.service }.leave call)
        (call.afterStart (.ok ()))
  | begun {call : Call} (free : s.runs call.service = none) :
      Turn w s t (.starting call)
        ({ s with runs := Function.update s.runs call.service (some t) }.setHandle call.service none)
        (.reading call .start 0)
  | disabled {call : Call} {cfg : Config} (error : String)
      (off : call.service.enabled cfg = false) :
      Turn w s t (.check call cfg) ({ s with runs := s.freed t call.service }.leave call)
        (call.afterStart (.error error))
  | secured {call : Call} {cfg : Config} (on : call.service.enabled cfg = true)
      (frps : call.service = .frps) (token : cfg.frps.token ≠ "") :
      Turn w s t (.check call cfg) s (.update call cfg)
  | passed {call : Call} {cfg : Config} (on : call.service.enabled cfg = true)
      (other : call.service ≠ .frps) : Turn w s t (.check call cfg) s (.launch call cfg)
  | generated {call : Call} {cfg : Config} (token : String) (on : call.service.enabled cfg = true)
      (frps : call.service = .frps) (empty : cfg.frps.token = "") :
      Turn w s t (.check call cfg) s (.pin call cfg token)
  | pinned {call : Call} {cfg : Config} {token : String} {lock : RwLock TaskId}
      (taken : s.lock.write t = some lock) :
      Turn w s t (.pin call cfg token) { s with mem := s.mem.pinToken token, lock := lock }
        (.pinning call (cfg.pinToken token))
  | kept {call : Call} {cfg : Config} :
      Turn w s t (.pinning call cfg) { s with lock := s.lock.unlock t } (.update call cfg)
  | served {call : Call} {cfg : Config} (frps : call.service = .frps) :
      Turn w s t (.update call cfg) { s with server := cfg.frps } (.launch call cfg)
  | handed {call : Call} {cfg : Config} (other : call.service ≠ .frps) :
      Turn w s t (.update call cfg) { s with client := cfg.frpc } (.check call cfg)
  | noop {call : Call} {cfg : Config}
      (running : call.service.running (s.handles call.service) = true) :
      Turn w s t (.launch call cfg) ({ s with runs := s.freed t call.service }.leave call)
        (call.afterStart (.ok ()))
  | launched {call : Call} {cfg : Config} :
      Turn w s t (.launch call cfg)
        ({ s with
          handles := Function.update s.handles call.service (some true)
          runs := s.freed t call.service }.leave call)
        (call.afterStart (.ok ()))
  | failed {call : Call} {cfg : Config} (error : String) :
      Turn w s t (.launch call cfg) ({ s with runs := s.freed t call.service }.leave call)
        (call.afterStart (.error error))

variable {w : World} {s s' base : State} {t u : TaskId} {input : Input} {pc pc' : Pc} {m : Service}

theorem setEnabledFlag_token {cfg : Config} {flag : Bool} {name : String} :
    ((cfg.setEnabledFlag flag name).getD cfg).frps.token = cfg.frps.token := by
  unfold Config.setEnabledFlag
  split <;> rfl

/-- Every step of a task is in the table. -/
theorem taskStep_turn (moves : taskStep w s t input pc = some s') :
    ∃ base pc', Turn w s t pc base pc' ∧ s' = base.goto t pc' := by
  cases pc with
  | idle | returned => cases moves
  | edit call edit =>
      cases input with
      | go =>
          unfold taskStep editStep at moves
          dsimp only at moves
          split at moves
          · cases moves
          · next lock taken =>
              split at moves <;> cases moves
              · next applied => exact ⟨_, _, .edited taken applied, rfl⟩
              · exact ⟨_, _, .refused _, rfl⟩
      | _ => cases moves
  | saving call staged =>
      cases input <;> cases moves
      · exact ⟨_, _, .committed, rfl⟩
      · exact ⟨_, _, .unsaved _, rfl⟩
  | enable call phase =>
      cases input with
      | go =>
          unfold taskStep enableStep at moves
          dsimp only at moves
          split at moves
          · cases moves
          · next lock free =>
              cases moves
              exact ⟨_, _, .flagged free setEnabledFlag_token, rfl⟩
      | _ => cases moves
  | enableSave call phase =>
      cases input with
      | go =>
          obtain ⟨lock, taken, rfl⟩ := Option.map_eq_some_iff.mp moves
          exact ⟨_, _, .saves taken, rfl⟩
      | _ => cases moves
  | enableSaving call phase =>
      cases input <;> cases moves <;> exact ⟨_, _, .saved, rfl⟩
  | ops call entry =>
      unfold taskStep at moves
      dsimp only at moves
      split at moves
      · next free =>
          cases moves
          exact ⟨_, _, .entered free, rfl⟩
      · cases moves
  | reading call use tries =>
      cases input with
      | go =>
          obtain ⟨free, same⟩ := Option.ite_none_right_eq_some.mp moves
          cases same
          exact ⟨_, _, .read free, rfl⟩
      | blockedBy u =>
          obtain ⟨_, same⟩ := Option.ite_none_right_eq_some.mp moves
          cases same
          split
          · exact ⟨_, _, .blocked, rfl⟩
          · exact ⟨_, _, .gaveUp, rfl⟩
      | _ => cases moves
  | storing call use cfg =>
      cases input <;> cases moves
      exact ⟨_, _, .stored, rfl⟩
  | fallback call use =>
      cases input <;> cases moves
      exact ⟨_, _, .fellBack, rfl⟩
  | adopt call cfg =>
      cases input <;> cases moves
      exact ⟨_, _, .adopted, rfl⟩
  | look call =>
      cases input with
      | go =>
          obtain ⟨_, same⟩ := Option.ite_none_right_eq_some.mp moves
          split at same <;> cases same
          · next running => exact ⟨_, _, .runs running, rfl⟩
          · next still => exact ⟨_, _, .rests (Bool.eq_false_iff.mpr still), rfl⟩
      | _ => cases moves
  | stopping call =>
      cases input with
      | go =>
          obtain ⟨free, same⟩ := Option.ite_none_right_eq_some.mp moves
          cases same
          unfold State.endStop
          split
          · next applies =>
              refine ⟨_, _, .restarts free applies, ?_⟩
              rcases applies with put | cert
              · rw [Call.afterStop, put]
              · rw [Call.afterStop, cert]
          · next alone => exact ⟨_, _, .stopped free alone, rfl⟩
      | _ => cases moves
  | starting call =>
      cases input with
      | go =>
          obtain ⟨free, same⟩ := Option.ite_none_right_eq_some.mp moves
          split at same <;> cases same
          · exact ⟨_, _, .already free, rfl⟩
          · exact ⟨_, _, .begun free, rfl⟩
      | _ => cases moves
  | check call cfg =>
      cases input with
      | go =>
          unfold taskStep checkStep at moves
          dsimp only at moves
          split at moves
          · next off =>
              cases moves
              exact ⟨_, _, .disabled _ (by simpa using off), rfl⟩
          · next on =>
              have on : call.service.enabled cfg = true := by simpa using on
              split at moves
              · next frps =>
                  obtain ⟨token, same⟩ := Option.ite_none_left_eq_some.mp moves
                  cases same
                  exact ⟨_, _, .secured on frps token, rfl⟩
              · next other =>
                  cases moves
                  exact ⟨_, _, .passed on other, rfl⟩
      | random bytes =>
          obtain ⟨⟨on, frps, empty, _⟩, same⟩ := Option.ite_none_right_eq_some.mp moves
          cases same
          exact ⟨_, _, .generated _ on frps empty, rfl⟩
      | _ => cases moves
  | pin call cfg token =>
      cases input with
      | go =>
          obtain ⟨lock, taken, rfl⟩ := Option.map_eq_some_iff.mp moves
          exact ⟨_, _, .pinned taken, rfl⟩
      | _ => cases moves
  | pinning call cfg =>
      cases input <;> cases moves <;> exact ⟨_, _, .kept, rfl⟩
  | update call cfg =>
      cases input with
      | go =>
          cases moves
          unfold updateStep
          split
          · next frps => exact ⟨_, _, .served frps, rfl⟩
          · next other => exact ⟨_, _, .handed other, rfl⟩
      | _ => cases moves
  | launch call cfg =>
      cases input with
      | go =>
          unfold taskStep launchStep at moves
          dsimp only at moves
          split at moves <;> cases moves
          · next running => exact ⟨_, _, .noop running, rfl⟩
          · exact ⟨_, _, .launched, rfl⟩
      | fails error =>
          obtain ⟨_, same⟩ := Option.ite_none_left_eq_some.mp moves
          cases same
          exact ⟨_, _, .failed error, rfl⟩
      | _ => cases moves

/-! ## What a turn leaves alone -/

@[simp] theorem goto_pcs_self : (s.goto t pc).pcs t = pc := Function.update_self ..

theorem goto_pcs_of_ne (other : u ≠ t) : (s.goto t pc).pcs u = s.pcs u :=
  Function.update_of_ne other ..

@[simp] theorem leave_pcs (call : Call) : (s.leave call).pcs = s.pcs := by
  unfold State.leave
  split <;> rfl

@[simp] theorem leave_handles (call : Call) : (s.leave call).handles = s.handles := by
  unfold State.leave
  split <;> rfl

@[simp] theorem leave_runs (call : Call) : (s.leave call).runs = s.runs := by
  unfold State.leave
  split <;> rfl

@[simp] theorem leave_mem (call : Call) : (s.leave call).mem = s.mem := by
  unfold State.leave
  split <;> rfl

@[simp] theorem leave_lock (call : Call) : (s.leave call).lock = s.lock := by
  unfold State.leave
  split <;> rfl

@[simp] theorem leave_server (call : Call) : (s.leave call).server = s.server := by
  unfold State.leave
  split <;> rfl

theorem leave_ops {call : Call} (other : call.service ≠ .frpc) : (s.leave call).ops = s.ops := by
  rw [State.leave, if_neg other]

/-- Giving back one's own run lock leaves the locks of others. -/
theorem freed_eq {k : Service} (held : s.runs k = some u) (other : u ≠ t) :
    s.freed t m k = some u := by
  unfold State.freed
  split
  · next mine =>
      have different : k ≠ m := by
        intro same
        rw [same, mine] at held
        exact other (Option.some.inj held).symm
      rw [Function.update_of_ne different, held]
  · exact held

theorem Turn.pcs (turn : Turn w s t pc base pc') : base.pcs = s.pcs := by
  cases turn <;> simp [State.setHandle]

theorem Turn.handles {k : Service} (turn : Turn w s t pc base pc') (other : pc.service ≠ some k) :
    base.handles k = s.handles k := by
  cases turn <;> simp only [leave_handles, State.setHandle]
  all_goals exact Function.update_of_ne (fun same => other (congrArg some same.symm)) _ _

theorem Entry.pc_service (call : Call) (entry : Entry) :
    (entry.pc call).service = some call.service := by
  cases entry with
  | stop => rfl
  | start | apply =>
      unfold Entry.pc
      dsimp only
      split <;> rfl

theorem enter_service (call : Call) (entry : Entry) :
    (enter call entry).service = some call.service := by
  unfold enter
  split
  · rfl
  · exact Entry.pc_service call entry

theorem resume_service (call : Call) (use : Use) (cfg : Config) :
    (use.resume call cfg).service = some call.service := by
  cases use with
  | status | adopt => rfl
  | start =>
      unfold Use.resume
      dsimp only
      split <;> rfl

theorem afterStart_service (call : Call) (result : Except String Unit) :
    (call.afterStart result).service = some call.service ∨ (call.afterStart result).service = none := by
  unfold Call.afterStart
  split
  · exact .inl rfl
  · exact .inr rfl
  · exact .inr rfl

theorem afterStop_service (call : Call) :
    call.afterStop.service = some call.service ∨ call.afterStop.service = none := by
  unfold Call.afterStop
  split
  · exact .inl (Entry.pc_service ..)
  · exact .inl (Entry.pc_service ..)
  · exact .inl (enter_service ..)
  · exact .inl rfl
  · exact .inl rfl
  · exact .inr rfl

theorem Phase.next_service (call : Call) (phase : Phase) :
    (phase.next call).service = some call.service ∨ (phase.next call).service = none := by
  cases phase with
  | before => exact .inl (enter_service ..)
  | after => exact .inr rfl

/-- A call stays with its module until it returns. -/
theorem Turn.service (turn : Turn w s t pc base pc') :
    pc'.service = pc.service ∨ pc'.service = none := by
  cases turn with
  | refused | unsaved | rests => exact .inr rfl
  | committed => exact .inl (enter_service ..)
  | saved => exact Phase.next_service ..
  | entered | restarts => exact .inl (Entry.pc_service ..)
  | stored | fellBack => exact .inl (resume_service ..)
  | stopped => exact afterStop_service _
  | already | disabled | noop | launched | failed => exact afterStart_service ..
  | _ => exact .inl rfl

/-! ## Who holds the locks -/

/-- The modules that hold their `run` lock while they start. -/
def Service.ownsRun : Service → Bool
  | .easytier | .stunTurn | .rustdesk => true
  | .frps | .frpc => false

namespace Pc

/-- Inside `start`, from the reading of the configuration on. -/
def inStart : Pc → Bool
  | reading _ .start _ | storing _ .start _ | fallback _ .start => true
  | check _ _ | pin _ _ _ | pinning _ _ | update _ _ | launch _ _ => true
  | _ => false

/-- Inside a method, where frpc holds `ops`. -/
def inMethod : Pc → Bool
  | idle | returned _ | edit _ _ | saving _ _ | ops _ _ => false
  | enable _ _ | enableSave _ _ | enableSaving _ _ => false
  | _ => true

/-- Outside of the modules. -/
def outside : Pc → Bool
  | idle | returned _ | edit _ _ | saving _ _ => true
  | enable _ _ | enableSave _ _ | enableSaving _ _ => true
  | _ => false

end Pc

/-- The locks a task holds at a place. -/
structure Holds (s : State) (t : TaskId) (pc : Pc) : Prop where
  run : ∀ {m}, pc.service = some m → m.ownsRun = true → pc.inStart = true → s.runs m = some t
  ops : pc.service = some .frpc → pc.inMethod = true → s.ops = some t
  waits : ∀ {call entry}, pc = .ops call entry → call.service = .frpc

theorem Holds.of_outside (outside : pc.outside = true) : Holds s t pc := by
  cases pc with
  | idle | returned | edit | saving | enable | enableSave | enableSaving =>
      exact ⟨fun _ _ inStart => (by cases inStart), fun _ inMethod => (by cases inMethod), nofun⟩
  | _ => cases outside

/-- A method that is not one of frpc holds no lock at its beginning. -/
theorem Holds.of_entry {call : Call} (entry : Entry)
    (ops : call.service = .frpc → s.ops = some t) : Holds s t (entry.pc call) := by
  rcases call with ⟨service, caller⟩
  refine ⟨?_, ?_, ?_⟩
  · intro m named owns inStart
    rw [Entry.pc_service] at named
    cases named
    cases service with
    | frps | frpc => cases owns
    | _ => cases entry <;> cases inStart
  · intro named _
    rw [Entry.pc_service] at named
    exact ops (Option.some.inj named)
  · intro call entry' same
    cases service <;> cases entry <;> cases same

theorem Holds.of_enter (call : Call) (entry : Entry) : Holds s t (enter call entry) := by
  unfold enter
  split
  · next frpc =>
      refine ⟨fun _ _ inStart => (by cases inStart), fun _ inMethod => (by cases inMethod), ?_⟩
      intro call' entry' same
      cases same
      exact frpc
  · next other => exact .of_entry entry fun frpc => absurd frpc other

theorem Holds.of_afterStart (call : Call) (result : Except String Unit) :
    Holds s t (call.afterStart result) := by
  unfold Call.afterStart
  split <;> exact .of_outside rfl

theorem Holds.of_afterStop {call : Call} (alone : ¬(call.caller = .put ∨ call.caller = .cert)) :
    Holds s t call.afterStop := by
  unfold Call.afterStop
  split
  · next put => exact absurd (.inl put) alone
  · next cert => exact absurd (.inr cert) alone
  · exact .of_enter ..
  · exact .of_outside rfl
  · exact .of_outside rfl
  · exact .of_outside rfl

theorem Holds.of_next (call : Call) (phase : Phase) : Holds s t (phase.next call) := by
  cases phase with
  | before => exact .of_enter ..
  | after => exact .of_outside rfl

/-- A step inside `start` that changes no lock. -/
theorem Holds.onward (holds : Holds s t pc) (runs : base.runs = s.runs) (ops : base.ops = s.ops)
    (service : pc'.service = pc.service) (inStart : pc'.inStart = true → pc.inStart = true)
    (inMethod : pc.inMethod = true) (inside : pc'.inMethod = true) : Holds base t pc' := by
  refine ⟨?_, ?_, ?_⟩
  · intro m named owns starts
    rw [runs]
    exact holds.run (service ▸ named) owns (inStart starts)
  · intro named _
    rw [ops]
    exact holds.ops (service ▸ named) inMethod
  · intro call entry same
    rw [same] at inside
    cases inside

theorem resume_inside (call : Call) (use : Use) (cfg : Config) :
    (use.resume call cfg).inMethod = true ∧
      ((use.resume call cfg).inStart = true → use = .start) := by
  cases use with
  | status | adopt => exact ⟨rfl, fun inStart => (by cases inStart)⟩
  | start =>
      unfold Use.resume
      dsimp only
      split <;> exact ⟨rfl, fun _ => rfl⟩

/-- The task that moves holds its locks at the new place, too. -/
theorem Holds.mover (turn : Turn w s t pc base pc') (holds : Holds s t pc) : Holds base t pc' := by
  cases turn with
  | edited | refused | unsaved | flagged | saves | rests => exact .of_outside rfl
  | committed => exact .of_enter ..
  | saved => exact .of_next ..
  | entered => exact .of_entry _ fun _ => rfl
  | @stored call use cfg =>
      have ⟨inside, starts⟩ := resume_inside call use cfg
      refine holds.onward rfl rfl (resume_service ..) ?_ rfl inside
      intro inStart
      cases starts inStart
      rfl
  | @fellBack call use =>
      have ⟨inside, starts⟩ := resume_inside call use s.snapshot
      refine holds.onward rfl rfl (resume_service ..) ?_ rfl inside
      intro inStart
      cases starts inStart
      rfl
  | restarts => exact .of_entry _ fun frpc => holds.ops (congrArg some frpc) rfl
  | stopped _ alone => exact .of_afterStop alone
  | already | disabled | noop | launched | failed => exact .of_afterStart ..
  | begun =>
      refine ⟨?_, fun named _ => holds.ops named rfl, nofun⟩
      intro m named _ _
      cases named
      exact Function.update_self ..
  | @read call use _ _ | @blocked call use _ | @gaveUp call use _ =>
      refine holds.onward rfl rfl rfl ?_ rfl rfl
      intro inStart
      cases use <;> first | cases inStart; done | rfl
  | adopted | runs => exact holds.onward rfl rfl rfl (fun inStart => by cases inStart) rfl rfl
  | secured | passed | generated | pinned | kept | served | handed =>
      exact holds.onward rfl rfl rfl (fun _ => rfl) rfl rfl

/-- The locks of the others stay. -/
theorem Turn.keepsRun {k : Service} (turn : Turn w s t pc base pc') (held : s.runs k = some u)
    (other : u ≠ t) : base.runs k = some u := by
  cases turn <;> simp only [leave_runs, State.setHandle, held]
  case begun call free =>
    have different : k ≠ call.service := by
      intro same
      rw [same, free] at held
      cases held
    rw [Function.update_of_ne different, held]
  all_goals exact freed_eq held other

theorem leave_keepsOps {call : Call} (holds : call.service = .frpc → s.ops = some t)
    (held : s.ops = some u) (other : u ≠ t) : (s.leave call).ops = some u := by
  by_cases frpc : call.service = .frpc
  · rw [holds frpc] at held
    exact absurd (Option.some.inj held).symm other
  · rw [leave_ops frpc, held]

theorem Turn.keepsOps (turn : Turn w s t pc base pc') (holds : Holds s t pc)
    (held : s.ops = some u) (other : u ≠ t) : base.ops = some u := by
  cases turn with
  | entered free =>
      rw [free] at held
      cases held
  | rests | stopped | already | disabled | noop | launched | failed =>
      exact leave_keepsOps (fun frpc => holds.ops (congrArg some frpc) rfl) held other
  | _ => exact held

theorem Holds.other {pcu : Pc} (turn : Turn w s t pc base pc') (mover : Holds s t pc)
    (holds : Holds s u pcu) (other : u ≠ t) : Holds base u pcu where
  run named owns inStart := turn.keepsRun (holds.run named owns inStart) other
  ops named inMethod := turn.keepsOps mover (holds.ops named inMethod) other
  waits := holds.waits

/-- Every task holds the locks its place asks for. -/
def Locked (s : State) : Prop := ∀ t, Holds s t (s.pcs t)

theorem begin_holds (request : Request) : Holds s t (begin w request) := by
  cases request with
  | boot => exact .of_enter ..
  | action m action =>
      cases action with
      | stop => exact .of_enter ..
      | start | restart => exact .of_outside rfl
  | put =>
      unfold begin
      dsimp only
      split <;> exact .of_outside rfl
  | cert =>
      unfold begin
      dsimp only
      split <;> exact .of_outside rfl

theorem Locked.step {a : Action} (locked : Locked s) (moves : step w s a = some s') : Locked s' := by
  cases a with
  | request t request =>
      unfold Modules.step at moves
      dsimp only at moves
      split at moves
      · cases moves
        intro u
        by_cases mover : u = t
        · subst mover
          rw [goto_pcs_self]
          exact begin_holds request
        · rw [goto_pcs_of_ne mover]
          exact ⟨(locked u).run, (locked u).ops, (locked u).waits⟩
      · cases moves
  | step t input =>
      obtain ⟨base, pc', turn, rfl⟩ := taskStep_turn moves
      intro u
      by_cases mover : u = t
      · subst mover
        have holds := Holds.mover turn (locked u)
        rw [goto_pcs_self]
        exact ⟨holds.run, holds.ops, holds.waits⟩
      · have holds := Holds.other turn (locked t) (locked u) mover
        rw [goto_pcs_of_ne mover, turn.pcs]
        exact ⟨holds.run, holds.ops, holds.waits⟩
  | died m =>
      obtain ⟨_, same⟩ := Option.ite_none_right_eq_some.mp moves
      cases same
      intro u
      exact ⟨(locked u).run, (locked u).ops, (locked u).waits⟩

end Remgr.Modules
