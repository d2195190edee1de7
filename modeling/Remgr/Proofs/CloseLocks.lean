/-
Module: Remgr.Proofs.CloseLocks
Purpose: The lock on the names of a control. Whoever holds it is inside `close_proxy` and can always
  make its next step, whatever the other tasks do, so the lock is released after at most three of
  them.
Trusted boundary: none
Main exports: Closer.action, Releases, server_locked, Beside, lock_released
-/
import Remgr.Proofs.ServerOnward

namespace Remgr.Frps.Server

open Remgr.Lib

/-! ## One call -/

/-- The task is at a call of `close_proxy` for this name of the control. -/
def State.atClose (s : State) (c : StreamId) (name : String) : Closer → Prop
  | .reader => (s.streams c).pc = .closing name ∨
      ∃ r, (s.streams c).pc = .registering r .undoClose ∧ s.nameOf r = name
  | .teardown x => ∃ rest, (s.sweeps x).current = some (c, .close (name :: rest))

/-- The step of the task that is in the call. -/
def Closer.action (c : StreamId) : Closer → Action
  | .reader => .stream c .go
  | .teardown x => .sweep x .go

/-- A step of the task that makes this call on the control. -/
def Action.isOfCloser (a : Action) (c : StreamId) : Closer → Prop
  | .reader => ∃ input, a = .stream c input
  | .teardown x => ∃ input, a = .sweep x input

/-- The steps a call has still to make. -/
def ClosePc.left : ClosePc → Nat
  | .info => 3
  | .port _ _ => 2
  | .unlock => 1

section Call

variable {w : World} {s s' s₁ : State} {x : Closer} {c : StreamId} {name : String} {returned : Bool}

/-- A step of `close_proxy` locks the names of its own control only, for its own task, and has let
go of them when it has returned. -/
theorem closeProxy_closing (closed : s.closeProxy x c name = some (s₁, returned)) :
    (∀ d, d ≠ c → s₁.closing d = s.closing d) ∧
      (returned = true → s₁.closing c = none) ∧
      ∀ call, s₁.closing c = some call → call.closer = x ∧ call.name = name := by
  have writes : ∀ (t : State) (next : Option Closing), t.closing = s.closing →
      (∀ d, d ≠ c → (t.setClosing c next).closing d = s.closing d) ∧
        (t.setClosing c next).closing c = next := by
    intro t next same
    refine ⟨fun d other => ?_, Function.update_self ..⟩
    rw [← same]
    exact Function.update_of_ne other ..
  have goesOn : ∀ (t : State) (call : Closing), t.closing = s.closing → call.closer = x →
      call.name = name → (∀ d, d ≠ c → (t.setClosing c (some call)).closing d = s.closing d) ∧
        (false = true → (t.setClosing c (some call)).closing c = none) ∧
        ∀ call', (t.setClosing c (some call)).closing c = some call' →
          call'.closer = x ∧ call'.name = name := by
    intro t call same closer named
    refine ⟨(writes t _ same).1, nofun, ?_⟩
    intro call' held
    cases (writes t _ same).2.symm.trans held
    exact ⟨closer, named⟩
  cases closeProxy_cases closed with
  | absent free _ =>
      refine ⟨fun _ _ => rfl, fun _ => free, ?_⟩
      intro call held
      cases free.symm.trans held
  | removed _ _ | unknown _ _ | told _ _ | released _ => exact goesOn _ _ rfl rfl rfl
  | returned _ =>
      refine ⟨(writes s none rfl).1, fun _ => (writes s none rfl).2, ?_⟩
      intro call held
      cases (writes s none rfl).2.symm.trans held

/-- The task that holds the lock can make its next step, and comes closer to letting go. -/
theorem closeProxy_progress {call : Closing} (held : s.closing c = some call) :
    ∃ s₁ returned, s.closeProxy call.closer c call.name = some (s₁, returned) ∧
      ((returned = true ∧ s₁.closing c = none) ∨ returned = false ∧
        ∃ pc, s₁.closing c = some { call with pc := pc } ∧ pc.left < call.pc.left) := by
  have writes : ∀ (t : State) (next : Option Closing), (t.setClosing c next).closing c = next :=
    fun t next => Function.update_self ..
  unfold State.closeProxy
  rw [held]
  dsimp only
  rw [if_pos ⟨rfl, rfl⟩]
  cases place : call.pc with
  | info =>
      cases s.proxyInfos.lookup call.name with
      | none => exact ⟨_, _, rfl, .inr ⟨rfl, .unlock, writes _ _, by decide⟩⟩
      | some info => exact ⟨_, _, rfl, .inr ⟨rfl, .port _ _, writes _ _, Nat.lt_succ_self 2⟩⟩
  | port kind p => exact ⟨_, _, rfl, .inr ⟨rfl, .unlock, writes _ _, Nat.lt_succ_self 1⟩⟩
  | unlock => exact ⟨_, _, rfl, .inl ⟨rfl, writes _ _⟩⟩

end Call

/-! ## Who holds the lock -/

/-- Whoever has locked the names of a control is at the call it has locked them for. -/
def Locked (s : State) : Prop :=
  ∀ c call, s.closing c = some call → s.atClose c call.name call.closer

section Steps

variable {w : World} {s s' : State} {a : Action}

/-- A task is at one call at a time. -/
theorem atClose_unique {a : Action} {c c' : StreamId} {name name' : String} {x x' : Closer}
    (mine : a.isOfCloser c x) (mine' : a.isOfCloser c' x') (here : s.atClose c name x)
    (there : s.atClose c' name' x') : c' = c ∧ x' = x ∧ name' = name := by
  cases x with
  | reader =>
      rcases mine with ⟨input, rfl⟩
      cases x' with
      | reader =>
          rcases mine' with ⟨_, same⟩
          cases same
          refine ⟨rfl, rfl, ?_⟩
          rcases here with here | ⟨r, here, rfl⟩ <;> rcases there with there | ⟨r', there, rfl⟩ <;>
            cases here.symm.trans there <;> rfl
      | teardown y =>
          rcases mine' with ⟨_, same⟩
          cases same
  | teardown y =>
      rcases mine with ⟨input, rfl⟩
      cases x' with
      | reader =>
          rcases mine' with ⟨_, same⟩
          cases same
      | teardown z =>
          rcases mine' with ⟨_, same⟩
          cases same
          rcases here with ⟨rest, here⟩
          rcases there with ⟨rest', there⟩
          cases here.symm.trans there
          exact ⟨rfl, rfl, rfl⟩

/-- What the step does to the locks: nothing, as its task is at no call, or it is a step of the call
that the task is at, where it stays until the call returns. -/
inductive ClosingTurn (a : Action) (s s' : State) : Prop
  | still (closing : s'.closing = s.closing)
      (elsewhere : ∀ c name x, a.isOfCloser c x → ¬ s.atClose c name x)
  | closes {c : StreamId} {name : String} {x : Closer} {s₁ : State} {returned : Bool}
      (mine : a.isOfCloser c x) (here : s.atClose c name x)
      (closed : s.closeProxy x c name = some (s₁, returned)) (closing : s'.closing = s₁.closing)
      (stays : returned = false → s'.atClose c name x)

/-- The stages of a stream at which it calls `close_proxy`. -/
def StreamPc.closes : StreamPc → Bool
  | .closing _ | .registering _ .undoClose => true
  | _ => false

theorem streamStep_closing {k : StreamId} {input : Input}
    (move : streamStep w k s (s.streams k).pc input = some s') :
    ClosingTurn (.stream k input) s s' := by
  have still : (s.streams k).pc.closes = false → s'.closing = s.closing →
      ClosingTurn (.stream k input) s s' := by
    intro away closing
    refine .still closing ?_
    rintro c name (_ | x) ⟨input', same⟩
    · cases same
      rintro (here | ⟨r, here, _⟩) <;> rw [here] at away <;> cases away
    · cases same
  have closes : ∀ {name : String} {s₁ : State} {returned : Bool} {next : StreamPc},
      s.atClose k name .reader → s.closeProxy .reader k name = some (s₁, returned) →
      s' = s₁.goto k next → (returned = false → s'.atClose k name .reader) →
      ClosingTurn (.stream k input) s s' := by
    rintro name s₁ returned next here closed rfl stays
    exact .closes (x := .reader) ⟨input, rfl⟩ here closed rfl stays
  generalize stage : (s.streams k).pc = pc at move still
  cases streamStep_cases move with
  | pool sent | pong sent =>
      rcases trySend_eq sent with ⟨out, rfl⟩
      exact still rfl rfl
  | registering call =>
      rcases regStep_cases call with ⟨s₁, next, step, rfl⟩
      cases step with
      | reply sent =>
          rcases trySend_eq sent with ⟨out, rfl⟩
          exact still rfl rfl
      | @undoClose s₁ returned closed =>
          refine closes (.inr ⟨_, stage, rfl⟩) closed rfl ?_
          rintro rfl
          refine .inr ⟨_, congrArg Stream.pc (goto_streams_self ..), ?_⟩
          exact congrArg NewProxy.proxyName (closeProxy_regs closed _).np
      | _ => exact still rfl rfl
  | closing closed =>
      refine closes (.inl stage) closed rfl ?_
      rintro rfl
      exact .inl (congrArg Stream.pc (goto_streams_self ..))
  | _ => exact still rfl rfl

theorem sweepStep_closing {x : Caller} {input : SweepInput} (move : sweepStep x input s = some s') :
    ClosingTurn (.sweep x input) s s' := by
  have still : (∀ c name rest, (s.sweeps x).current ≠ some (c, .close (name :: rest))) →
      s'.closing = s.closing → ClosingTurn (.sweep x input) s s' := by
    intro away closing
    refine .still closing ?_
    rintro c name (_ | y) ⟨input', same⟩
    · cases same
    · cases same
      rintro ⟨rest, here⟩
      exact away c name rest here
  have free : (s.sweeps x).current = none →
      ∀ c name rest, (s.sweeps x).current ≠ some (c, .close (name :: rest)) := by
    intro none c name rest here
    cases none.symm.trans here
  cases sweepStep_cases move with
  | @call c _ _ _ _ stage call =>
      have away : ∀ {pc}, (s.sweeps x).current = some (c, pc) →
          (∀ name rest, pc ≠ .close (name :: rest)) →
          ∀ d name rest, (s.sweeps x).current ≠ some (d, .close (name :: rest)) := by
        intro pc stage other d name rest here
        cases stage.symm.trans here
        exact other name rest rfl
      cases call with
      | close closed =>
          refine .closes (x := .teardown x) ⟨.go, rfl⟩ ⟨_, stage⟩ closed rfl ?_
          rintro rfl
          exact ⟨_, congrArg Sweep.current (setSweep_sweeps_self ..)⟩
      | _ => exact still (away stage nofun) rfl
  | begins none _ _ | skips none _ _ => exact still (free none) rfl

theorem step_closing (move : step w a s = some s') : ClosingTurn a s s' := by
  have still : (∀ c x, ¬ a.isOfCloser c x) → s'.closing = s.closing → ClosingTurn a s s' :=
    fun others closing => .still closing fun c _ x mine => absurd mine (others c x)
  cases a with
  | server input =>
      refine still ?_ ?_
      · rintro c (_ | x) ⟨_, same⟩ <;> cases same
      · cases serverStep_cases move <;> rfl
  | stream k input =>
      rcases Option.ite_none_right_eq_some.mp move with ⟨_, moved⟩
      exact streamStep_closing moved
  | sweep x input => exact sweepStep_closing move
  | writer c input =>
      refine still ?_ ?_
      · rintro c (_ | x) ⟨_, same⟩ <;> cases same
      · rcases writerStep_aside move with ⟨out, rfl⟩
        rfl
  | listener r input =>
      refine still ?_ (listenerStep_aside move).1.closing
      rintro c (_ | x) ⟨_, same⟩ <;> cases same
  | bridge b input =>
      refine still ?_ (bridgeStep_aside move).1.closing
      rintro c (_ | x) ⟨_, same⟩ <;> cases same

/-- A call of `teardown` moves by steps of its caller. -/
theorem step_current (move : step w a s = some s') {x : Caller}
    (other : ∀ input, a ≠ .sweep x input) : (s'.sweeps x).current = (s.sweeps x).current := by
  cases a with
  | server input => exact (serverStep_quiet move).1.current x
  | stream k input =>
      rcases Option.ite_none_right_eq_some.mp move with ⟨_, moved⟩
      cases streamStep_turn moved with
      | moves quiet _ _ => exact quiet.current x
      | counts _ raised after =>
          subst raised after
          rfl
      | creates _ after | delivers _ after =>
          subst after
          rfl
  | sweep y input =>
      have different : x ≠ y := by
        rintro rfl
        exact other input rfl
      rw [sweepStep_others move x different]
  | writer c input =>
      rcases writerStep_aside move with ⟨out, rfl⟩
      rfl
  | listener r input => rw [(listenerStep_aside move).1.sweeps]
  | bridge b input => rw [(bridgeStep_aside move).1.sweeps]

/-- A task stays at its call while others move. -/
theorem atClose_kept (admission : Admission w s) (move : step w a s = some s') {c : StreamId}
    {name : String} {x : Closer} (here : s.atClose c name x) (other : ¬ a.isOfCloser c x) :
    s'.atClose c name x := by
  cases x with
  | reader =>
      have stays : (s.streams c).pc ≠ .unopened → (s'.streams c).pc = (s.streams c).pc := by
        intro opened
        rcases step_stage move c with same | ⟨unopened, _⟩ | ⟨input, mine, _⟩
        · exact same
        · exact absurd unopened opened
        · exact absurd ⟨input, mine⟩ other
      rcases here with here | ⟨r, here, rfl⟩
      · exact .inl ((stays (by rw [here]; nofun)).trans here)
      · refine .inr ⟨r, (stays (by rw [here]; nofun)).trans here, ?_⟩
        exact congrArg NewProxy.proxyName (step_np move (admission.calls here).known)
  | teardown x =>
      rcases here with ⟨rest, here⟩
      exact ⟨rest, (step_current move fun input same => other ⟨input, same⟩).trans here⟩

theorem Locked.step (locked : Locked s) (admission : Admission w s)
    (move : Server.step w a s = some s') : Locked s' := by
  intro c call held
  cases step_closing move with
  | still closing elsewhere =>
      rw [closing] at held
      have here := locked c call held
      exact atClose_kept admission move here fun mine => elsewhere _ _ _ mine here
  | @closes d name x s₁ returned mine here closed closing stays =>
      rcases closeProxy_closing closed with ⟨others, released, own⟩
      rw [closing] at held
      by_cases same : c = d
      · subst same
        rcases own call held with ⟨rfl, rfl⟩
        apply stays
        apply Bool.eq_false_of_not_eq_true
        intro back
        cases (released back).symm.trans held
      · have here' := locked c call ((others c same).symm.trans held)
        refine atClose_kept admission move here' ?_
        intro mine'
        exact same (atClose_unique mine mine' here here').1

end Steps

theorem server_locked {w : World} {allowed : State → Action → Prop} {s : State}
    (run : (server w).Reaches allowed s) : Locked s := by
  refine run.invariant ?_ ?_
  · rintro s ⟨cfg, rfl⟩ c call held
    cases held
  · intro s a s' before locked _ move
    exact locked.step (server_admission before.reachable) move

/-! ## Letting go -/

/-- The server object, its loops and the run tokens are as they were. -/
structure Beside (s s' : State) : Prop where
  server : s'.server = s.server
  nextEpoch : s'.nextEpoch = s.nextEpoch
  loops : s'.loops = s.loops
  cut : ∀ e, (s'.shared e).runCancelled = (s.shared e).runCancelled

namespace Beside

variable {s s' s'' : State}

theorem refl (s : State) : Beside s s := ⟨rfl, rfl, rfl, fun _ => rfl⟩

theorem trans (first : Beside s s') (second : Beside s' s'') : Beside s s'' where
  server := second.server.trans first.server
  nextEpoch := second.nextEpoch.trans first.nextEpoch
  loops := second.loops.trans first.loops
  cut e := (second.cut e).trans (first.cut e)

theorem closeProxy {x : Closer} {c : StreamId} {name : String} {returned : Bool}
    (closed : s.closeProxy x c name = some (s', returned)) : Beside s s' :=
  have own := OwnMove.closeProxy (k := c) closed
  ⟨own.server, own.nextEpoch, own.loops, own.cut⟩

end Beside

/-- The step is one of the task that has locked the names of the control. -/
def Releases (c : StreamId) (s : State) (a : Action) : Prop :=
  ∃ call, s.closing c = some call ∧ a = call.closer.action c

section Release

variable {w : World} {s : State} {c : StreamId}

/-- The holder makes its next step, beside everybody else. -/
theorem holder_step (w : World) (locked : Locked s) {call : Closing}
    (held : s.closing c = some call) :
    ∃ s', step w (call.closer.action c) s = some s' ∧ Beside s s' ∧
      (∀ y, call.closer ≠ .teardown y → s'.sweeps y = s.sweeps y) ∧
      (s'.closing c = none ∨
        ∃ pc, s'.closing c = some { call with pc := pc } ∧ pc.left < call.pc.left) := by
  rcases closeProxy_progress held with ⟨s₁, returned, closed, progress⟩
  have goesOn := progress.imp And.right And.right
  have beside := Beside.closeProxy closed
  have sweeps := closeProxy_sweeps closed
  have here := locked c call held
  rcases call with ⟨x, name, tk, place⟩
  dsimp only at closed goesOn here ⊢
  cases x with
  | reader =>
      have moves : ∀ next, ∃ s', some (s₁.goto c next) = some s' ∧ Beside s s' ∧
          (∀ y, Closer.reader ≠ .teardown y → s'.sweeps y = s.sweeps y) ∧
          (s'.closing c = none ∨
            ∃ pc, s'.closing c = some ⟨.reader, name, tk, pc⟩ ∧ pc.left < place.left) := by
        intro next
        refine ⟨_, rfl, ⟨beside.server, beside.nextEpoch, beside.loops, beside.cut⟩, ?_, goesOn⟩
        intro y _
        exact congrFun sweeps y
      rcases here with stage | ⟨r, stage, named⟩
      · have stepEq : step w (.stream c .go) s =
            some (s₁.goto c (if returned then .reading else .closing name)) := by
          simp only [step, stage, streamStep, closed, Option.map_some, deliverable, if_true]
        rw [Closer.action, stepEq]
        exact moves _
      · rw [← named] at closed
        have stepEq : step w (.stream c .go) s =
            some (s₁.goto c (if returned then .reading else .registering r .undoClose)) := by
          simp only [step, stage, streamStep, regStep, closed, Option.map_some, deliverable, if_true]
        rw [Closer.action, stepEq]
        exact moves _
  | teardown x =>
      rcases here with ⟨rest, stage⟩
      have stepEq : step w (.sweep x .go) s = some (s₁.setSweep x { s.sweeps x with
          current := some (c, .close (if returned then rest else name :: rest)) }) := by
        simp only [step, sweepStep, stage, teardownStep, closed, Option.map_some]
      rw [Closer.action, stepEq]
      refine ⟨_, rfl, ⟨beside.server, beside.nextEpoch, beside.loops, beside.cut⟩, ?_, goesOn⟩
      intro y other
      rw [setSweep_sweeps_of_ne _ _ (fun same => other (by rw [same])), sweeps]

theorem released_of_held (run : (server w).Reachable s) {call : Closing}
    (held : s.closing c = some call) :
    ∃ s', ((server w).startedAt s).Reaches (Releases c) s' ∧ Beside s s' ∧
      (∀ y, call.closer ≠ .teardown y → s'.sweeps y = s.sweeps y) ∧ s'.closing c = none := by
  induction size : call.pc.left using Nat.strongRecOn generalizing s call with
  | ind n inductionHypothesis =>
      rcases holder_step w (server_locked run) held with
        ⟨middle, move, beside, sweeps, free | ⟨pc, still, fewer⟩⟩
      · exact ⟨middle, .next (.start rfl) ⟨call, held, rfl⟩ move, beside, sweeps, free⟩
      · rcases inductionHypothesis _ (size ▸ fewer) (run.next trivial move) still rfl with
          ⟨s', onward, beside', sweeps', free⟩
        have first : ((server w).startedAt s).Reaches (Releases c) middle :=
          .next (.start rfl) ⟨call, held, rfl⟩ move
        refine ⟨s', first.trans onward, beside.trans beside', ?_, free⟩
        intro y other
        exact (sweeps' y other).trans (sweeps y other)

/-- The names of a control do not stay locked: the task that has locked them can go on to where it
lets go, with nobody else making a step, and no other caller of `teardown` is touched by that. -/
theorem lock_released (run : (server w).Reachable s) (c : StreamId) :
    ∃ s', ((server w).startedAt s).Reaches (Releases c) s' ∧ Beside s s' ∧
      (∀ y, (∀ call, s.closing c = some call → call.closer ≠ .teardown y) →
        s'.sweeps y = s.sweeps y) ∧ s'.closing c = none := by
  cases held : s.closing c with
  | none => exact ⟨s, .start rfl, .refl s, fun _ _ => rfl, held⟩
  | some call =>
      rcases released_of_held run held with ⟨s', onward, beside, sweeps, free⟩
      exact ⟨s', onward, beside, fun y others => sweeps y (others call rfl), free⟩

end Release

end Remgr.Frps.Server
