/-
Module: Remgr.Proofs.WorkCustody
Purpose: A work connection is in one place at a time: with its own handler, in the pool of one
  control, or with one user. It is handed on from the handler to the pool to the user and never back,
  so over a whole run it serves one user at most.
Trusted boundary: none
Main exports: WorkPlace, State.workAt, step_custody, server_custody, work_conn_serves_one_user
-/
import Remgr.Lib.Custody
import Remgr.Proofs.Handover
import Remgr.Proofs.WorkPool

namespace Remgr.Frps.Server

open Remgr.Lib

/-! ## Places -/

/-- Where a work connection can be once its handler has delivered it. -/
inductive WorkPlace where
  | pool (c : StreamId)
  | user (b : BridgeId)
deriving DecidableEq

/-- The places that do not hand on what they get. -/
def WorkPlace.keeps : WorkPlace → Prop
  | .pool _ => False
  | .user _ => True

def State.workAt (s : State) : WorkPlace → List StreamId
  | .pool c => (s.pool c).conns
  | .user b => (s.bridges b).pc.work.toList

section Places

variable (s : State)

theorem workAt_congr {s' : State} (pool : s'.pool = s.pool) (bridges : s'.bridges = s.bridges) :
    s'.workAt = s.workAt := by
  funext place
  cases place with
  | pool c => rw [State.workAt, State.workAt, pool]
  | user b => rw [State.workAt, State.workAt, bridges]

theorem workAt_goto (k : StreamId) (pc : StreamPc) : (s.goto k pc).workAt = s.workAt :=
  workAt_congr s rfl rfl

theorem workAt_setSweep (x : Caller) (sweep : Sweep) : (s.setSweep x sweep).workAt = s.workAt :=
  workAt_congr s rfl rfl

theorem workAt_setPool (c : StreamId) (pool : Pool) :
    (s.setPool c pool).workAt = Function.update s.workAt (.pool c) pool.conns := by
  funext place
  cases place with
  | pool d =>
      change (Function.update s.pool c pool d).conns = _
      by_cases same : d = c
      · subst same
        rw [Function.update_self, Function.update_self]
      · have other : WorkPlace.pool d ≠ .pool c := fun equal => same (WorkPlace.pool.inj equal)
        rw [Function.update_of_ne other, Function.update_of_ne same]
        rfl
  | user b =>
      have other : WorkPlace.user b ≠ .pool c := WorkPlace.noConfusion
      rw [Function.update_of_ne other]
      rfl

theorem workAt_setBridge (b : BridgeId) (bridge : Bridge) :
    (s.setBridge b bridge).workAt = Function.update s.workAt (.user b) bridge.pc.work.toList := by
  funext place
  cases place with
  | pool c =>
      have other : WorkPlace.pool c ≠ .user b := WorkPlace.noConfusion
      rw [Function.update_of_ne other]
      rfl
  | user d =>
      change (Function.update s.bridges b bridge d).pc.work.toList = _
      by_cases same : d = b
      · subst same
        rw [Function.update_self, Function.update_self]
      · have other : WorkPlace.user d ≠ .user b := fun equal => same (WorkPlace.user.inj equal)
        rw [Function.update_of_ne other, Function.update_of_ne same]
        rfl

end Places

/-- Replacing what is at one place by less. -/
theorem update_fewer {held : WorkPlace → List StreamId} {place : WorkPlace} {list : List StreamId}
    (fewer : list.Sublist (held place)) (other : WorkPlace) :
    (Function.update held place list other).Sublist (held other) := by
  by_cases same : other = place
  · subst same
    rw [Function.update_self]
    exact fewer
  · rw [Function.update_of_ne same]

/-! ## Steps -/

/-- The task of the stream ends with this step, as it does when it delivers. -/
def Ends (s s' : State) (k : StreamId) : Prop :=
  (s.streams k).pc ≠ .done ∧ (s'.streams k).pc = .done

abbrev WorkTurn (s s' : State) : Prop :=
  Custody.Turn (Ends s s') WorkPlace.keeps s.workAt s'.workAt

section Steps

variable {w : World} {s s' : State}

theorem WorkTurn.same (pool : s'.pool = s.pool) (bridges : s'.bridges = s.bridges) :
    WorkTurn s s' := by
  refine .less fun place => ?_
  rw [workAt_congr s pool bridges]

/-- A stream whose task has ended stays so. -/
theorem done_kept {a : Action} {k : StreamId} (move : step w a s = some s')
    (ended : (s.streams k).pc = .done) : (s'.streams k).pc = .done := by
  cases a with
  | server input =>
      rcases (serverStep_quiet move).2 with same | ⟨d, stream, _, unopened, _, rfl⟩
      · rw [same]
        exact ended
      · have different : k ≠ d := by
          rintro rfl
          cases ended.symm.trans unopened
        rw [setStream_streams_of_ne _ _ different]
        exact ended
  | stream d input =>
      rcases Option.ite_none_right_eq_some.mp move with ⟨_, moved⟩
      have different : k ≠ d := by
        rintro rfl
        rw [ended] at moved
        cases input <;> cases moved
      rw [(OwnMove.streamStep moved).others k different]
      exact ended
  | sweep x input =>
      have kept : Keeps (fun _ => True) s s' := sweepStep_keeps move
      rw [kept.streams]
      exact ended
  | writer c input =>
      rcases writerStep_aside move with ⟨out, rfl⟩
      exact ended
  | listener r input =>
      rw [(listenerStep_aside move).1.streams]
      exact ended
  | bridge b input =>
      rw [(bridgeStep_aside move).1.streams]
      exact ended

theorem streamStep_custody {k : StreamId} {input : Input}
    (move : streamStep w k s (s.streams k).pc input = some s') : WorkTurn s s' := by
  cases streamStep_turn move with
  | moves quiet _ _ => exact .same quiet.pool quiet.bridges
  | counts _ raised same =>
      subst raised same
      exact .same rfl rfl
  | creates _ same =>
      subst same
      exact .same rfl rfl
  | @delivers c was same =>
      subst same
      rw [WorkTurn, workAt_goto, workAt_setPool]
      have passes : ¬ (WorkPlace.pool c).keeps := id
      refine Custody.Turn.enters ⟨?_, ?_⟩ passes
      · intro ended
        cases was.symm.trans ended
      · rw [goto_streams_self]

theorem sweepStep_custody {x : Caller} {input : SweepInput}
    (move : sweepStep x input s = some s') : WorkTurn s s' := by
  cases sweepStep_turn move with
  | onward onward => exact .same onward.pool onward.bridges
  | @locks c stage free same =>
      subst same
      refine .less fun place => ?_
      rw [workAt_setSweep, workAt_setPool]
      exact update_fewer (.refl _) place
  | skips stage held same =>
      subst same
      exact .same rfl rfl
  | @drains c stage same =>
      subst same
      refine .less fun place => ?_
      rw [workAt_setSweep, workAt_setPool]
      exact update_fewer (List.nil_sublist _) place

theorem listenerStep_custody {r : RegId} {listener : Listener} {input : ListenerInput}
    (move : listenerStep r s listener input = some s') : WorkTurn s s' := by
  cases listenerStep_cases move with
  | accept port | serve _ _ =>
      refine .less fun place => ?_
      rw [workAt_setBridge]
      exact update_fewer (List.nil_sublist _) place
  | exit _ _ => exact .same rfl rfl

theorem bridgeStep_custody {b : BridgeId} {c : StreamId} {input : BridgeInput}
    (move : bridgeStep b c s (s.bridges b).pc input = some s') : WorkTurn s s' := by
  rcases bridgeStep_cases move with ⟨s₁, next, step, rfl⟩
  have atUser : s.workAt (.user b) = (s.bridges b).pc.work.toList := rfl
  generalize (s.bridges b).pc = pc at step atUser
  -- the pool is as it was but for its lock, and the user has what it had, or less
  have fewer : ∀ {s₁ : State} {next : BridgePc}, s₁.workAt = s.workAt →
      next.work.toList.Sublist (s.workAt (.user b)) →
      WorkTurn s (s₁.setBridge b { s₁.bridges b with pc := next }) := by
    intro s₁ next same less
    refine .less fun place => ?_
    rw [workAt_setBridge, same]
    exact update_fewer less place
  have relocked : ∀ holder, (s.setPool c { s.pool c with holder := holder }).workAt = s.workAt := by
    intro holder
    rw [workAt_setPool]
    exact Function.update_eq_self (WorkPlace.pool c) s.workAt
  -- the first connection of the pool goes to the user
  have moves : ∀ {work : StreamId} {rest : List StreamId} {next : BridgePc},
      (s.pool c).conns = work :: rest → s.workAt (.user b) = [] → next.work = some work →
      WorkTurn s ((s.setPool c { conns := rest, holder := none }).setBridge b
        { s.bridges b with pc := next }) := by
    intro work rest next found empty got
    have first : s.workAt (.pool c) = work :: rest := found
    have passes : ¬ (WorkPlace.pool c).keeps := id
    rw [WorkTurn, workAt_setBridge, workAt_setPool, got]
    exact Custody.Turn.moves first passes trivial empty
  cases step with
  | pick free | lock free | empty none | timeout | cancelled cut =>
      exact fewer (relocked _) (List.nil_sublist _)
  | picked found | delivered found => exact moves found atUser rfl
  | replenish sent =>
      refine fewer (workAt_congr s (Quiet.trySend sent).pool (Quiet.trySend sent).bridges) ?_
      rw [atUser]
      exact .refl _
  | request sent =>
      refine fewer (workAt_congr s (Quiet.trySend sent).pool (Quiet.trySend sent).bridges) ?_
      exact List.nil_sublist _
  | start work ok =>
      refine fewer rfl ?_
      rw [atUser]
      cases ok with
      | false => exact List.nil_sublist _
      | true => exact .refl _
  | started work => exact fewer rfl (List.nil_sublist _)

/-- Every step of the server is a turn of the work connections. -/
theorem step_custody {a : Action} (move : step w a s = some s') : WorkTurn s s' := by
  cases a with
  | server input => exact .same (serverStep_quiet move).1.pool (serverStep_quiet move).1.bridges
  | stream k input =>
      rcases Option.ite_none_right_eq_some.mp move with ⟨_, moved⟩
      exact streamStep_custody moved
  | sweep x input => exact sweepStep_custody move
  | writer c input =>
      rcases writerStep_aside move with ⟨out, rfl⟩
      exact .same rfl rfl
  | listener r input => exact listenerStep_custody move
  | bridge b input => exact bridgeStep_custody move

end Steps

/-! ## Runs -/

/-- No work connection is in two places, and the ones that are in a place are delivered. -/
structure Custody (s : State) : Prop where
  sole : Lib.Custody.Sole s.workAt
  delivered : ∀ ⦃place k⦄, k ∈ s.workAt place → (s.streams k).pc = .done

theorem Custody.step {w : World} {s s' : State} {a : Action} (custody : Custody s)
    (move : Server.step w a s = some s') : Custody s' := by
  have turn := step_custody move
  constructor
  · refine turn.sole custody.sole ?_
    intro place k found new
    exact new.1 (custody.delivered found)
  · intro place k found
    rcases turn.arrived found with there | new | ⟨_, before, there, _⟩
    · exact done_kept move (custody.delivered there)
    · exact new.2
    · exact done_kept move (custody.delivered there)

theorem server_custody {w : World} {allowed : State → Action → Prop} {s : State}
    (run : (server w).Reaches allowed s) : Custody s := by
  refine run.invariant ?_ ?_
  · rintro s ⟨cfg, rfl⟩
    have nothing : ∀ place, (State.new cfg).workAt place = [] := by
      intro place
      cases place <;> rfl
    refine ⟨⟨?_, ?_⟩, ?_⟩
    · intro place
      rw [nothing]
      exact List.nodup_nil
    · intro place other k found
      rw [nothing] at found
      cases found
    · intro place k found
      rw [nothing] at found
      cases found
  · intro s a s' _ custody _ move
    exact custody.step move

/-- In every reachable state a work connection is in one pool or with one user, there once; and from
the moment it is with a user it will never be in a pool or with another user again. -/
theorem work_conn_serves_one_user {w : World} {s : State} (run : (server w).Reachable s) :
    Lib.Custody.Sole s.workAt ∧
    ∀ b k s', (s.bridges b).pc.work = some k → ((server w).startedAt s).Reachable s' →
      ∀ place, k ∈ s'.workAt place → place = .user b := by
  have custody := server_custody run
  refine ⟨custody.sole, ?_⟩
  intro b k s' carried onward
  have there : k ∈ s.workAt (.user b) := by
    rw [State.workAt, carried]
    exact List.mem_singleton_self k
  let Settled (t : State) : Prop :=
    (t.streams k).pc = .done ∧ ∀ place, k ∈ t.workAt place → place = .user b
  have settled : Settled s' := by
    refine onward.invariant ?_ ?_
    · rintro _ rfl
      exact ⟨custody.delivered there, fun place found => custody.sole.apart found there⟩
    · intro s₁ a s₂ _ before _ move
      refine ⟨done_kept move before.1, ?_⟩
      exact (step_custody move).settled trivial (fun ends => ends.1 before.1) before.2
  exact settled.2

/-- The user of a sample run is served with the stream that was opened for it. -/
theorem work_conn_serves_one_user_pooled :
    ∃ s, (server sampleWorld).Reachable s ∧ (s.bridges 0).pc.work = some 2 ∧
      ∀ s', ((server sampleWorld).startedAt s).Reachable s' →
        ∀ place, 2 ∈ s'.workAt place → place = .user 0 := by
  rcases sample_reaches (pooledProxyRun ++ .writer 1 (.wrote true) :: userRun .queued)
    (fun s => decide ((s.bridges 0).pc.work = some 2)) (by decide +kernel) with ⟨s, run, shown⟩
  have carried := of_decide_eq_true shown
  exact ⟨s, run, carried, fun s' => (work_conn_serves_one_user run).2 0 2 s' carried⟩

end Remgr.Frps.Server
