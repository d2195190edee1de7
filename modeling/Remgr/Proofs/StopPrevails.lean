/-
Module: Remgr.Proofs.StopPrevails
Purpose: One stop of a module and one change of its configuration at the same time. The module is
  stopped in the end as long as the restart does not go past its look at the flag once the module has
  been stopped, which only frpc makes sure of.
Trusted boundary: as in `Remgr.Modules.Step`
Main exports: stopAndApply, serial, Order, stop_prevails
-/
import Remgr.Proofs.ModuleTurns
import Remgr.Proofs.ConsoleShape

namespace Remgr.Modules

open Remgr.Lib
open Remgr.Console

/-! ## Two requests -/

/-- A module that runs, one request to stop it, and one that has changed its configuration or is about
to. Calls for other modules may come and go. -/
structure Begins (w : World) (m : Service) (stopper applier : TaskId) (s : State) : Prop where
  distinct : stopper ≠ applier
  running : m.running (s.handles m) = true
  runs : ∀ k, s.runs k = none
  ops : s.ops = none
  stop : s.pcs stopper = begin w (.action m .stop)
  apply : (∃ value, s.pcs applier = begin w (.put m value)) ∨
    ∃ certPath keyPath, s.pcs applier = begin w (.cert m certPath keyPath)
  others : ∀ t, t ≠ stopper → t ≠ applier → s.pcs t = .idle

def stopAndApply (w : World) (m : Service) (stopper applier : TaskId) : System State Action where
  init := Begins w m stopper applier
  step s a s' := (∀ t request, a = .request t request → request.service ≠ m) ∧ step w s a = some s'

namespace Pc

/-- A request to stop a module that has taken the handle. -/
def stopped : Pc → Bool
  | enable _ _ | enableSave _ _ | enableSaving _ _ | returned _ => true
  | _ => false

/-- Before the handle is taken. -/
def stops : Pc → Bool
  | stopping _ => true
  | _ => false

/-- A start that finds its flag set. -/
def passes : Pc → Bool
  | check call cfg => call.service.enabled cfg
  | _ => false

/-- Past the look at the flag. -/
def decided : Pc → Bool
  | pin _ _ _ | pinning _ _ | update _ _ | launch _ _ => true
  | _ => false

def succeeded : Pc → Bool
  | returned (.ok _) => true
  | _ => false

end Pc

/-- The restart does not pass its look at the flag when the module has been stopped already, and frps
is not stopped while it stands between that look and the end of its start. frpc need not care. -/
def serial (m : Service) (stopper applier : TaskId) (s : State) : Action → Bool
  | .step t _ =>
      m = .frpc ∨
        (¬(t = applier ∧ (s.pcs t).passes ∧ (s.pcs stopper).stopped) ∧
          ¬(m = .frps ∧ t = stopper ∧ (s.pcs t).stops ∧ (s.pcs applier).decided))
  | _ => true

/-! ## The order of the two -/

/-- Where a request to stop the module can be. -/
def StopAt (m : Service) : Pc → Prop
  | .ops call entry => call = ⟨m, .action .stop⟩ ∧ entry = .stop
  | .stopping call => call = ⟨m, .action .stop⟩
  | .enable call phase | .enableSave call phase | .enableSaving call phase =>
      call = ⟨m, .action .stop⟩ ∧ phase = .after
  | .returned _ => True
  | _ => False

/-- A call after a change of the module's configuration. -/
def Call.Applies (m : Service) (call : Call) : Prop :=
  call.service = m ∧ (call.caller = .put ∨ call.caller = .cert)

/-- Where a request that changes the module's configuration can be. -/
def ApplyAt (m : Service) : Pc → Prop
  | .returned _ => True
  | .idle | .enable _ _ | .enableSave _ _ | .enableSaving _ _ => False
  | .ops call entry => call.Applies m ∧ entry = .apply
  | .edit call _ | .saving call _ | .reading call _ _ | .storing call _ _ | .fallback call _
  | .adopt call _ | .look call | .stopping call | .check call _ | .pin call _ _ | .pinning call _
  | .update call _ | .launch call _ => call.Applies m
  | .starting call => call.Applies m ∧ call.service ≠ .frpc

/-- The restart will start the module unless it fails. Under `ops` this is settled when it has seen
the module run. -/
def Pc.committed (m : Service) (pc : Pc) : Bool :=
  pc.decided || m = .frpc && (pc.stops || pc.inStart)

/-- Once the module has been stopped it stays so, and the restart is not on its way to start it. -/
structure Order (m : Service) (stopper applier : TaskId) (s : State) : Prop where
  distinct : stopper ≠ applier
  locked : Locked s
  foreign : ∀ t, t ≠ stopper → t ≠ applier → (s.pcs t).service ≠ some m
  stop : StopAt m (s.pcs stopper)
  apply : ApplyAt m (s.pcs applier)
  quiet : (s.pcs stopper).stopped = true →
    s.handles m = none ∧ (s.pcs applier).committed m = false

variable {w : World} {s s' base : State} {t stopper applier : TaskId} {pc pc' : Pc} {m : Service}

/-! ### The stop -/

theorem StopAt.turn (turn : Turn w s t pc base pc') (stands : StopAt m pc) : StopAt m pc' := by
  cases turn <;> try exact stands.elim
  case flagged | saves => exact stands
  case saved =>
    obtain ⟨_, rfl⟩ := stands
    trivial
  case entered =>
    obtain ⟨rfl, rfl⟩ := stands
    exact rfl
  case restarts applies =>
    cases stands
    rcases applies with put | cert
    · cases put
    · cases cert
  case stopped =>
    cases stands
    exact ⟨rfl, rfl⟩

theorem StopAt.call {call : Call} (stands : StopAt m (.stopping call)) : call.service = m := by
  cases stands
  rfl

/-- The step that takes the handle. -/
theorem Turn.takes (turn : Turn w s t pc base pc') (stands : StopAt m pc)
    (before : pc.stopped = false) (after : pc'.stopped = true) :
    pc.stops = true ∧ pc.service = some m ∧ s.runs m = none ∧ base.handles m = none := by
  cases turn <;> try exact stands.elim
  case flagged | saves | saved => cases before
  case entered =>
    obtain ⟨_, rfl⟩ := stands
    cases after
  case restarts free _ =>
    cases stands
    exact ⟨rfl, rfl, free, Function.update_self ..⟩
  case stopped free _ =>
    cases stands
    refine ⟨rfl, rfl, free, ?_⟩
    rw [leave_handles]
    exact Function.update_self ..

/-- After it, the handle is left alone. -/
theorem Turn.taken (turn : Turn w s t pc base pc') (stands : StopAt m pc)
    (before : pc.stopped = true) : base.handles = s.handles := by
  cases turn <;> first | rfl | exact stands.elim | cases before

/-! ### The change -/

theorem ApplyAt.entry {call : Call} {entry : Entry} (applies : call.Applies m) :
    ApplyAt m (entry.pc call) := by
  rcases call with ⟨service, caller⟩
  cases entry <;> cases service <;> first | exact applies | exact ⟨applies, nofun⟩

theorem ApplyAt.enter {call : Call} (applies : call.Applies m) : ApplyAt m (enter call .apply) := by
  unfold Modules.enter
  split
  · exact ⟨applies, rfl⟩
  · exact .entry applies

theorem ApplyAt.resume {call : Call} {use : Use} {cfg : Config} (applies : call.Applies m) :
    ApplyAt m (use.resume call cfg) := by
  cases use with
  | status | adopt => exact applies
  | start =>
      unfold Use.resume
      dsimp only
      split <;> exact applies

theorem ApplyAt.afterStart {call : Call} {result : Except String Unit} (applies : call.Applies m) :
    ApplyAt m (call.afterStart result) := by
  unfold Call.afterStart
  split
  · next start =>
      rcases applies.2 with put | cert
      · cases start.symm.trans put
      · cases start.symm.trans cert
  · trivial
  · trivial

theorem ApplyAt.turn (turn : Turn w s t pc base pc') (stands : ApplyAt m pc) : ApplyAt m pc' := by
  cases turn with
  | refused | unsaved | rests => trivial
  | committed => exact .enter stands
  | entered => exact .entry stands.1
  | stored | fellBack => exact .resume stands
  | restarts => exact .entry stands
  | stopped _ alone => exact absurd stands.2 alone
  | already => exact .afterStart stands.1
  | disabled | noop | launched | failed => exact .afterStart stands
  | begun => exact stands.1
  | flagged | saves | saved => exact stands.elim
  | _ => exact stands

theorem ApplyAt.service (stands : ApplyAt m pc) (inside : pc.inMethod = true) :
    pc.service = some m := by
  cases pc with
  | idle | returned | edit | saving | ops | enable | enableSave | enableSaving => cases inside
  | starting => exact congrArg some stands.1.1
  | _ => exact congrArg some stands.1

theorem committed_afterStart (call : Call) (result : Except String Unit) :
    (call.afterStart result).committed m = false := by
  unfold Call.afterStart
  split <;> simp [Pc.committed, Pc.decided, Pc.stops, Pc.inStart]

theorem running_none (m : Service) : m.running none = false := by
  cases m <;> rfl

/-- A place before the method, or before the start inside it, settles nothing. -/
theorem committed_apply {call : Call} : (Entry.pc call .apply).committed call.service = false := by
  rcases call with ⟨service, caller⟩
  cases service <;> rfl

theorem committed_enter {call : Call} : (enter call .apply).committed call.service = false := by
  unfold enter
  split
  · simp [Pc.committed, Pc.decided, Pc.stops, Pc.inStart]
  · exact committed_apply

theorem committed_restart {call : Call} (other : call.service ≠ .frpc) :
    (Entry.pc call .start).committed call.service = false := by
  rcases call with ⟨service, caller⟩
  cases service with
  | frpc => exact absurd rfl other
  | _ => rfl

theorem committed_resume {call : Call} {use : Use} {cfg : Config}
    (before : use = .start → call.service ≠ .frpc) :
    (use.resume call cfg).committed call.service = false := by
  cases use with
  | status | adopt => simp [Use.resume, Pc.committed, Pc.decided, Pc.stops, Pc.inStart]
  | start => simp [Use.resume, Pc.committed, Pc.decided, before rfl]

/-- While nothing runs, a restart that is not settled on starting the module does not settle on it, but
for one that finds its flag set. -/
theorem Turn.stays_uncommitted (turn : Turn w s t pc base pc') (stands : ApplyAt m pc)
    (still : s.handles m = none) (before : pc.committed m = false)
    (flag : m = .frpc ∨ pc.passes = false) :
    base.handles m = none ∧ pc'.committed m = false := by
  have frpcStart : ∀ {pc : Pc}, pc.committed m = false → pc.inStart = true → m ≠ .frpc := by
    intro pc before inStart frpc
    simp [Pc.committed, frpc, inStart] at before
  have frpcStop : ∀ {pc : Pc}, pc.committed m = false → pc.stops = true → m ≠ .frpc := by
    intro pc before stops frpc
    simp [Pc.committed, frpc, stops] at before
  have cleared : ∀ {handles : Service → Option Bool}, handles m = none →
      Function.update handles m none m = none := fun _ => Function.update_self ..
  cases turn with
  | refused | unsaved | edited =>
      exact ⟨still, by simp [Pc.committed, Pc.decided, Pc.stops, Pc.inStart]⟩
  | rests =>
      rw [leave_handles]
      exact ⟨still, by simp [Pc.committed, Pc.decided, Pc.stops, Pc.inStart]⟩
  | committed =>
      cases stands.1
      exact ⟨still, committed_enter⟩
  | flagged | saves | saved => exact stands.elim
  | @entered call entry _ =>
      obtain ⟨⟨rfl, _⟩, rfl⟩ := stands
      exact ⟨still, committed_apply⟩
  | @read call use _ _ | @blocked call use _ | @gaveUp call use _ =>
      refine ⟨still, ?_⟩
      cases use <;> exact before
  | @stored call use cfg =>
      cases stands.1
      refine ⟨still, committed_resume ?_⟩
      rintro rfl
      exact frpcStart before rfl
  | @fellBack call use =>
      cases stands.1
      refine ⟨still, committed_resume ?_⟩
      rintro rfl
      exact frpcStart before rfl
  | adopted => exact ⟨still, by simp [Pc.committed, Pc.decided, Pc.stops, Pc.inStart]⟩
  | runs running =>
      cases stands.1
      rw [still, running_none] at running
      cases running
  | restarts =>
      cases stands.1
      exact ⟨cleared still, committed_restart (frpcStop before rfl)⟩
  | stopped _ alone => exact absurd stands.2 alone
  | already | disabled =>
      rw [leave_handles]
      exact ⟨still, committed_afterStart ..⟩
  | begun =>
      obtain ⟨⟨rfl, _⟩, other⟩ := stands
      exact ⟨cleared still, by simp [Pc.committed, Pc.decided, other]⟩
  | secured on | passed on | generated _ on =>
      rcases flag with frpc | off
      · exact absurd frpc (frpcStart before rfl)
      · cases on.symm.trans off
  | pinned | kept | served | handed | noop | launched | failed => cases before

/-! ### Both -/

theorem Order.begins (begins : Begins w m stopper applier s) : Order m stopper applier s where
  distinct := begins.distinct
  locked := by
    intro t
    by_cases stops : t = stopper
    · rw [stops, begins.stop]
      exact begin_holds _
    · by_cases applies : t = applier
      · rw [applies]
        rcases begins.apply with ⟨value, put⟩ | ⟨certPath, keyPath, cert⟩
        · rw [put]
          exact begin_holds _
        · rw [cert]
          exact begin_holds _
      · rw [begins.others t stops applies]
        exact .of_outside rfl
  foreign := by
    intro t stops applies
    rw [begins.others t stops applies]
    nofun
  stop := by
    rw [begins.stop]
    unfold begin enter
    dsimp only
    split
    · exact ⟨rfl, rfl⟩
    · exact rfl
  apply := by
    rcases begins.apply with ⟨value, put⟩ | ⟨certPath, keyPath, cert⟩
    · rw [put]
      unfold begin
      dsimp only
      split
      · trivial
      · exact ⟨rfl, .inl rfl⟩
    · rw [cert]
      unfold begin
      dsimp only
      split
      · trivial
      · exact ⟨rfl, .inr rfl⟩
  quiet := by
    rw [begins.stop]
    unfold begin enter
    dsimp only
    split <;> intro stopped <;> cases stopped

theorem Pc.inStart_of_decided (decided : pc.decided = true) : pc.inStart = true := by
  cases pc <;> first | rfl | cases decided

theorem Pc.inMethod_of_inStart (inStart : pc.inStart = true) : pc.inMethod = true := by
  cases pc <;> first | rfl | cases inStart

theorem Pc.inMethod_of_stops (stops : pc.stops = true) : pc.inMethod = true := by
  cases pc <;> first | rfl | cases stops

theorem Pc.inMethod_of_committed (committed : pc.committed m = true) : pc.inMethod = true := by
  rcases Bool.or_eq_true_iff.mp committed with decided | frpc
  · exact inMethod_of_inStart (inStart_of_decided decided)
  · rcases Bool.or_eq_true_iff.mp (Bool.and_eq_true_iff.mp frpc).2 with stops | inStart
    · exact inMethod_of_stops stops
    · exact inMethod_of_inStart inStart

theorem Pc.committed_of_ne (other : m ≠ .frpc) : pc.committed m = pc.decided := by
  simp [committed, other]

/-- The handle is not taken while the restart is settled on starting the module: it holds the `run`
lock or `ops` then, and of frps this is asked. -/
theorem Order.uncommitted (order : Order m stopper applier s)
    (stops : (s.pcs stopper).stops = true) (service : (s.pcs stopper).service = some m)
    (free : s.runs m = none) (frps : m = .frps → (s.pcs applier).decided = false) :
    (s.pcs applier).committed m = false := by
  rw [Bool.eq_false_iff]
  intro committed
  have inside := Pc.inMethod_of_committed committed
  have mine := order.apply.service inside
  by_cases frpc : m = .frpc
  · subst frpc
    have held := (order.locked stopper).ops service (Pc.inMethod_of_stops stops)
    have other := (order.locked applier).ops mine inside
    exact order.distinct (Option.some.inj (held.symm.trans other))
  · rw [Pc.committed_of_ne frpc] at committed
    by_cases owns : m.ownsRun = true
    · have held := (order.locked applier).run mine owns (Pc.inStart_of_decided committed)
      rw [free] at held
      cases held
    · have server : m = .frps := by
        cases m <;> first | rfl | exact absurd rfl owns | exact absurd rfl frpc
      rw [frps server] at committed
      cases committed

theorem begin_service (request : Request) (other : request.service ≠ m) :
    (begin w request).service ≠ some m := by
  have different : some request.service ≠ some m := fun same => other (Option.some.inj same)
  cases request with
  | boot => rwa [begin, enter_service]
  | action m action =>
      cases action with
      | stop => rwa [begin, enter_service]
      | start | restart => exact different
  | put =>
      unfold begin
      dsimp only
      split
      · nofun
      · exact different
  | cert =>
      unfold begin
      dsimp only
      split
      · nofun
      · exact different

theorem Order.died {k : Service} (order : Order m stopper applier s) (alive : s.handles k = some true)
    (locked : Locked (s.setHandle k (some false))) :
    Order m stopper applier (s.setHandle k (some false)) := by
  refine ⟨order.distinct, locked, order.foreign, order.stop, order.apply, ?_⟩
  intro stopped
  obtain ⟨still, uncommitted⟩ := order.quiet stopped
  have different : m ≠ k := by
    rintro rfl
    rw [still] at alive
    cases alive
  exact ⟨(Function.update_of_ne different _ _).trans still, uncommitted⟩

/-- A step of neither request, which leaves the handle. -/
theorem Order.foreignMoves (order : Order m stopper applier s) (locked : Locked (base.goto t pc'))
    (pcs : base.pcs = s.pcs) (handles : base.handles m = s.handles m)
    (elsewhere : pc'.service ≠ some m) (notStopper : stopper ≠ t) (notApplier : applier ≠ t) :
    Order m stopper applier (base.goto t pc') := by
  have stopperPc : (base.goto t pc').pcs stopper = s.pcs stopper := by
    rw [goto_pcs_of_ne notStopper, pcs]
  have applierPc : (base.goto t pc').pcs applier = s.pcs applier := by
    rw [goto_pcs_of_ne notApplier, pcs]
  refine ⟨order.distinct, locked, ?_, stopperPc ▸ order.stop, applierPc ▸ order.apply, ?_⟩
  · intro u stops applies
    by_cases mover : u = t
    · subst mover
      rwa [goto_pcs_self]
    · rw [goto_pcs_of_ne mover, pcs]
      exact order.foreign u stops applies
  · rw [stopperPc, applierPc]
    intro stopped
    have ⟨still, uncommitted⟩ := order.quiet stopped
    exact ⟨handles.trans still, uncommitted⟩

/-- A step of the request to stop. -/
theorem Order.stopperMoves (order : Order m stopper applier s)
    (turn : Turn w s stopper (s.pcs stopper) base pc') (locked : Locked (base.goto stopper pc'))
    (frps : m = .frps → (s.pcs stopper).stops = true → (s.pcs applier).decided = false) :
    Order m stopper applier (base.goto stopper pc') := by
  have applierPc : (base.goto stopper pc').pcs applier = s.pcs applier := by
    rw [goto_pcs_of_ne order.distinct.symm, turn.pcs]
  refine ⟨order.distinct, locked, ?_, ?_, applierPc ▸ order.apply, ?_⟩
  · intro u stops applies
    rw [goto_pcs_of_ne stops, turn.pcs]
    exact order.foreign u stops applies
  · rw [goto_pcs_self]
    exact order.stop.turn turn
  · rw [goto_pcs_self, applierPc]
    intro after
    cases before : (s.pcs stopper).stopped with
    | false =>
        obtain ⟨stops, service, free, taken⟩ := turn.takes order.stop before after
        exact ⟨taken, order.uncommitted stops service free fun server => frps server stops⟩
    | true =>
        have ⟨still, uncommitted⟩ := order.quiet before
        exact ⟨(congrFun (turn.taken order.stop before) m).trans still, uncommitted⟩

/-- A step of the request that changes the configuration. -/
theorem Order.applierMoves (order : Order m stopper applier s)
    (turn : Turn w s applier (s.pcs applier) base pc') (locked : Locked (base.goto applier pc'))
    (flag : (s.pcs stopper).stopped = true → m = .frpc ∨ (s.pcs applier).passes = false) :
    Order m stopper applier (base.goto applier pc') := by
  have stopperPc : (base.goto applier pc').pcs stopper = s.pcs stopper := by
    rw [goto_pcs_of_ne order.distinct, turn.pcs]
  refine ⟨order.distinct, locked, ?_, stopperPc ▸ order.stop, ?_, ?_⟩
  · intro u stops applies
    rw [goto_pcs_of_ne applies, turn.pcs]
    exact order.foreign u stops applies
  · rw [goto_pcs_self]
    exact order.apply.turn turn
  · rw [stopperPc, goto_pcs_self]
    intro stopped
    have ⟨still, uncommitted⟩ := order.quiet stopped
    exact turn.stays_uncommitted order.apply still uncommitted (flag stopped)

theorem Order.step {a : Action} (order : Order m stopper applier s)
    (calm : serial m stopper applier s a = true)
    (move : (stopAndApply w m stopper applier).step s a s') : Order m stopper applier s' := by
  obtain ⟨elsewhere, moves⟩ := move
  have locked := order.locked.step moves
  cases a with
  | died k =>
      obtain ⟨alive, same⟩ := Option.ite_none_right_eq_some.mp moves
      cases same
      exact order.died alive locked
  | request t request =>
      unfold Modules.step at moves
      dsimp only at moves
      split at moves
      · next idle =>
          cases moves
          refine order.foreignMoves locked rfl rfl (begin_service request (elsewhere _ _ rfl)) ?_ ?_
          · rintro rfl
            have stands := order.stop
            rw [idle] at stands
            exact stands
          · rintro rfl
            have stands := order.apply
            rw [idle] at stands
            exact stands
      · cases moves
  | step t input =>
      obtain ⟨base, pc', turn, rfl⟩ := taskStep_turn moves
      have calm : m = .frpc ∨ ¬(t = applier ∧ (s.pcs t).passes ∧ (s.pcs stopper).stopped) ∧
          ¬(m = .frps ∧ t = stopper ∧ (s.pcs t).stops ∧ (s.pcs applier).decided) :=
        of_decide_eq_true calm
      by_cases stops : stopper = t
      · subst stops
        refine order.stopperMoves turn locked ?_
        rintro rfl stops
        rw [Bool.eq_false_iff]
        intro decided
        rcases calm with frpc | ⟨_, apart⟩
        · cases frpc
        · exact apart ⟨rfl, rfl, stops, decided⟩
      · by_cases applies : applier = t
        · subst applies
          refine order.applierMoves turn locked ?_
          intro stopped
          refine calm.imp_right fun ⟨apart, _⟩ => ?_
          rw [Bool.eq_false_iff]
          intro passes
          exact apart ⟨rfl, passes, stopped⟩
        · have away : (s.pcs t).service ≠ some m :=
            order.foreign t (fun same => stops same.symm) fun same => applies same.symm
          refine order.foreignMoves locked turn.pcs (turn.handles away) ?_ stops applies
          rcases turn.service with same | none
          · rwa [same]
          · rw [none]
            nofun

/-! ## A relay to look at -/

/-- The relay runs; it is asked to stop, and a certificate is made for it. -/
def relayState : State where
  mem := sampleConfig
  snapshot := sampleConfig
  handles m := if m = .stunTurn then some true else none
  pcs
    | 0 => begin sampleWorld (.action .stunTurn .stop)
    | 1 => begin sampleWorld
        (.cert .stunTurn "/etc/remgr/ssl/stun_turn_cert.pem" "/etc/remgr/ssl/stun_turn_key.pem")
    | _ => .idle

theorem relayState_begins : Begins sampleWorld .stunTurn 0 1 relayState where
  distinct := by decide
  running := rfl
  runs _ := rfl
  ops := rfl
  stop := rfl
  apply := .inr ⟨_, _, rfl⟩
  others t stops applies := by
    match t, stops, applies with
    | 0, stops, _ => exact absurd rfl stops
    | 1, _, applies => exact absurd rfl applies
    | _ + 2, _, _ => rfl

/-- Steps of the two requests that meet a condition. -/
def relayStep (allowed : State → Action → Bool) (a : Action) (s : State) : Option State :=
  match a with
  | .step t input => if allowed s (.step t input) then step sampleWorld s (.step t input) else none
  | _ => none

theorem relayStep_steps {allowed : State → Action → Bool} {a : Action}
    (moves : relayStep allowed a s = some s') :
    allowed s a = true ∧ (stopAndApply sampleWorld .stunTurn 0 1).step s a s' := by
  cases a with
  | step t input =>
      obtain ⟨permitted, moves⟩ := Option.ite_none_right_eq_some.mp moves
      exact ⟨permitted, nofun, moves⟩
  | _ => cases moves

theorem relay_run {allowed : State → Action → Bool} {labels : List Action} {check : State → Bool}
    (passed : (System.execute (relayStep allowed) labels relayState).any check = true) :
    ∃ s, (stopAndApply sampleWorld .stunTurn 0 1).Reaches (fun s a => allowed s a = true) s ∧
      check s = true :=
  System.reaches_of_any (fun _ moves => relayStep_steps moves) (.start relayState_begins) passed

theorem Pc.eq_of_succeeded (succeeded : pc.succeeded = true) : pc = .returned (.ok ()) := by
  cases pc with
  | returned result =>
      cases result with
      | ok => rfl
      | error => cases succeeded
  | _ => cases succeeded

def steps (t : TaskId) (count : Nat) : List Action := List.replicate count (.step t .go)

/-- Once a module has been stopped it does not run, whatever a change of its configuration does at the
same time. -/
theorem stop_prevails (w : World) (m : Service) (stopper applier : TaskId) (s : State)
    (run : (stopAndApply w m stopper applier).Reaches
      (fun s a => serial m stopper applier s a = true) s)
    (stopped : s.pcs stopper = .returned (.ok ())) : m.running (s.handles m) = false := by
  have order : Order m stopper applier s := by
    refine run.invariant (P := Order m stopper applier) ?_ ?_
    · exact Order.begins
    · intro s a s' _ order calm move
      exact order.step calm move
  have ⟨still, _⟩ := order.quiet (by rw [stopped]; rfl)
  rw [still, running_none]

/-- The restart is over before the stop. -/
theorem stop_prevails_serially : ∃ s : State, s.pcs 0 = .returned (.ok ()) ∧
    s.pcs 1 = .returned (.ok ()) ∧ Service.running .stunTurn (s.handles .stunTurn) = false := by
  have passed : (System.execute (relayStep (serial .stunTurn 0 1)) (steps 1 11 ++ steps 0 4)
      relayState).any (fun s => (s.pcs 0).succeeded && (s.pcs 1).succeeded) = true := by
    decide +kernel
  obtain ⟨s, run, done⟩ := relay_run passed
  have ⟨stopped, applied⟩ := Bool.and_eq_true_iff.mp done
  have stopped := Pc.eq_of_succeeded stopped
  exact ⟨s, stopped, Pc.eq_of_succeeded applied,
    stop_prevails sampleWorld .stunTurn 0 1 s run stopped⟩

/-- The module is stopped between the two halves of a restart, and both requests succeed. -/
theorem stop_undone : ∃ s : State, (stopAndApply sampleWorld .stunTurn 0 1).Reachable s ∧
    s.pcs 0 = .returned (.ok ()) ∧ s.pcs 1 = .returned (.ok ()) ∧
      Service.running .stunTurn (s.handles .stunTurn) = true := by
  have passed : (System.execute (relayStep fun _ _ => true) (steps 1 6 ++ steps 0 1 ++ steps 1 5 ++
      steps 0 3) relayState).any (fun s => ((s.pcs 0).succeeded && (s.pcs 1).succeeded) &&
        Service.running .stunTurn (s.handles .stunTurn)) = true := by
    decide +kernel
  obtain ⟨s, run, done⟩ := relay_run passed
  have ⟨returned, running⟩ := Bool.and_eq_true_iff.mp done
  have ⟨stopped, applied⟩ := Bool.and_eq_true_iff.mp returned
  exact ⟨s, run.reachable, Pc.eq_of_succeeded stopped, Pc.eq_of_succeeded applied, running⟩

end Remgr.Modules
