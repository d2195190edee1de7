/-
Module: Remgr.Proofs.WorkOrigin
Purpose: Where the work connection of a user comes from: a stream of the same run that began with a
  NewWorkConn for the run id of the control it serves, and whose credential was looked at before it
  was put into the pool of that control.
Trusted boundary: md5 is a parameter, so only equality with the expected key is proved
Main exports: Presented, Vouches, step_asked, server_origin, work_conn_vouched
-/
import Remgr.Proofs.ServerOnward
import Remgr.Proofs.WorkCustody

namespace Remgr.Frps.Server

open Remgr.Lib

/-- The first frame of the stream is this NewWorkConn. -/
structure Stream.Opens (w : World) (stream : Stream) (nwc : NewWorkConn) : Prop where
  role : stream.role ≠ .muxControl
  frame : ∃ body, stream.firstFrame = some (TYPE_NEW_WORK_CONN, body) ∧
    (w.fromSlice body).bind NewWorkConn.ofJson = some nwc

/-- Stream `k` asked for the control `c` of its own run, by its run id. -/
structure Presented (w : World) (s : State) (k c : StreamId) (nwc : NewWorkConn) : Prop where
  opens : (s.streams k).Opens w nwc
  created : (s.ctl c).created = true
  runId : (s.ctl c).runId = nwc.runId
  epoch : (s.ctl c).epoch = (s.streams k).epoch

/-- The step in which the handler of `k` finds no credential, or the one of the server's token. -/
def Vouches (w : World) (k c : StreamId) (nwc : NewWorkConn) (s : State) (a : Action) : Prop :=
  a = .stream k .go ∧ (s.streams k).pc = .workAuth nwc c ∧
    (nwc.privilegeKey = "" ∨ nwc.privilegeKey = authKey w.md5 s.cfg.token nwc.timestamp)

/-- Stream `k` has got past the check on its way to control `c`: it is about to enter the pool, or
in it, or with a user of a proxy of `c`. -/
inductive State.Asked (s : State) (k c : StreamId) : Prop
  | enters (stage : (s.streams k).pc = .workEnqueue c)
  | pooled (member : k ∈ (s.pool c).conns)
  | serves {b : BridgeId} (carried : (s.bridges b).pc.work = some k) (served : s.servedBy b = c)

theorem Stream.Opens.unique {w : World} {stream : Stream} {nwc other : NewWorkConn}
    (opens : stream.Opens w nwc) (again : stream.Opens w other) : nwc = other := by
  rcases opens.frame with ⟨body, first, decoded⟩
  rcases again.frame with ⟨body', first', decoded'⟩
  cases first.symm.trans first'
  exact Option.some.inj (decoded.symm.trans decoded')

section Steps

variable {w : World} {s s' : State} {a : Action}

/-! ## Presenting -/

theorem Stream.Onward.opens {old new : Stream} {nwc : NewWorkConn} (onward : old.Onward new)
    (later : old.pc ≠ .first) : new.Opens w nwc ↔ old.Opens w nwc := by
  have same := onward.firstFrame later
  constructor
  · intro opens
    exact ⟨onward.role ▸ opens.role, same ▸ opens.frame⟩
  · intro opens
    refine ⟨?_, ?_⟩
    · rw [onward.role]
      exact opens.role
    · rw [same]
      exact opens.frame

/-- What a stream has presented it has presented for good. -/
theorem Presented.kept {k c : StreamId} {nwc : NewWorkConn} (presented : Presented w s k c nwc)
    (shape : Shape s) (opened : (s.streams k).pc ≠ .unopened) (later : (s.streams k).pc ≠ .first)
    (move : step w a s = some s') : Presented w s' k c nwc := by
  have control := step_later shape move presented.created
  have stream := step_stream move opened
  constructor
  · exact (stream.opens later).mpr presented.opens
  · rw [control.created]
    exact presented.created
  · rw [control.runId]
    exact presented.runId
  · rw [control.epoch, stream.epoch]
    exact presented.epoch

/-! ## Getting past the check -/

/-- A call of `handle_new_proxy` stays with its control. -/
theorem CallStep.inControl {k : StreamId} {r : RegId} {pc : RegPc} {input : Input}
    {next : StreamPc} (call : CallStep w k r s pc input s' next) : next.inControl = true := by
  have flushed : ∀ serve, (afterFlush r serve).inControl = true := by
    intro serve
    cases serve <;> rfl
  cases call with
  | reply sent =>
      split
      · rfl
      · exact flushed _
  | flush released => exact flushed _
  | undoClose _ => split <;> rfl
  | _ => rfl

/-- A handler goes to the pool from the check alone. -/
theorem streamStep_enqueues {k c : StreamId} {input : Input}
    (move : streamStep w k s (s.streams k).pc input = some s')
    (stage : (s'.streams k).pc = .workEnqueue c) :
    ∃ nwc, input = .go ∧ (s.streams k).pc = .workAuth nwc c ∧
      (nwc.privilegeKey = "" ∨ nwc.privilegeKey = authKey w.md5 s.cfg.token nwc.timestamp) := by
  have goes : ∀ {s₁ : State} {pc : StreamPc}, ((s₁.goto k pc).streams k).pc = .workEnqueue c →
      pc = .workEnqueue c := by
    intro s₁ pc stage
    rw [goto_streams_self] at stage
    exact stage
  generalize current : (s.streams k).pc = pc at move ⊢
  cases streamStep_cases move with
  | @workAdmitted nwc d right =>
      cases goes stage
      refine ⟨nwc, rfl, rfl, ?_⟩
      by_cases absent : nwc.privilegeKey = ""
      · exact .inl absent
      · refine .inr (authOk_iff.mp ?_)
        by_contra wrong
        exact right ⟨absent, Bool.eq_false_of_not_eq_true wrong⟩
  | authorized _ =>
      rw [setStream_streams_self] at stage
      cases stage
  | frameIgnored _ => cases current.symm.trans stage
  | registering call =>
      rcases regStep_cases call with ⟨s₁, next, step, rfl⟩
      have inControl := step.inControl
      rw [goes stage] at inControl
      cases inControl
  | closing _ =>
      have after := goes stage
      split at after <;> cases after
  | _ => cases goes stage

/-- What is in a pool after a step was there before, or its handler has just put it there. -/
theorem step_pooled {k c : StreamId} (move : step w a s = some s') (member : k ∈ (s'.pool c).conns) :
    k ∈ (s.pool c).conns ∨ (s.streams k).pc = .workEnqueue c := by
  have same : s'.pool = s.pool → k ∈ (s.pool c).conns ∨ (s.streams k).pc = .workEnqueue c := by
    intro same
    rw [same] at member
    exact .inl member
  -- the pool of one control is replaced by what was there, or less
  have fewer : ∀ {d : StreamId} {pool : Pool}, s'.pool = Function.update s.pool d pool →
      pool.conns ⊆ (s.pool d).conns →
      k ∈ (s.pool c).conns ∨ (s.streams k).pc = .workEnqueue c := by
    intro d pool pools less
    rw [pools] at member
    by_cases own : c = d
    · subst own
      rw [Function.update_self] at member
      exact .inl (less member)
    · rw [Function.update_of_ne own] at member
      exact .inl member
  cases a with
  | server input => exact same (serverStep_quiet move).1.pool
  | stream d input =>
      rcases Option.ite_none_right_eq_some.mp move with ⟨_, moved⟩
      cases streamStep_turn moved with
      | moves quiet _ _ => exact same quiet.pool
      | counts _ raised after =>
          subst raised after
          exact same rfl
      | creates _ after =>
          subst after
          exact same rfl
      | @delivers e was after =>
          subst after
          change k ∈ (Function.update s.pool e _ c).conns at member
          by_cases own : c = e
          · subst own
            rw [Function.update_self, List.mem_append, List.mem_singleton] at member
            rcases member with there | rfl
            · exact .inl there
            · exact .inr was
          · rw [Function.update_of_ne own] at member
            exact .inl member
  | sweep x input =>
      cases sweepStep_turn move with
      | onward onward => exact same onward.pool
      | locks stage free after =>
          subst after
          exact fewer rfl (List.Subset.refl _)
      | skips stage held after =>
          subst after
          exact same rfl
      | drains stage after =>
          subst after
          exact fewer rfl (List.nil_subset _)
  | writer d input =>
      rcases writerStep_aside move with ⟨out, rfl⟩
      exact same rfl
  | listener r input => exact same (listenerStep_pool move)
  | bridge b input =>
      rcases bridgeStep_turn move with ⟨pc, pool, _, pools, turn⟩
      exact fewer pools turn.shrinks.subset

/-- What a user has after its own step it had before, or has just taken out of the pool. -/
theorem bridgeStep_work {b : BridgeId} {c k : StreamId} {input : BridgeInput}
    (move : bridgeStep b c s (s.bridges b).pc input = some s')
    (carried : (s'.bridges b).pc.work = some k) :
    (s.bridges b).pc.work = some k ∨ k ∈ (s.pool c).conns := by
  rcases bridgeStep_cases move with ⟨s₁, next, step, rfl⟩
  have has : next.work = some k := by
    change (Function.update s₁.bridges b _ b).pc.work = some k at carried
    rw [Function.update_self] at carried
    exact carried
  generalize (s.bridges b).pc = pc at step ⊢
  cases step with
  | picked found | delivered found =>
      cases has
      rw [found]
      exact .inr (List.mem_cons_self ..)
  | replenish sent => exact .inl has
  | start work ok =>
      cases ok with
      | false => cases has
      | true => exact .inl has
  | _ => cases has

/-- Whoever has got past the check after a step had so before, or the step was the check. -/
theorem step_asked {k c : StreamId} (locks : Locks s) (move : step w a s = some s')
    (asked : s'.Asked k c) : s.Asked k c ∨ ∃ nwc, Vouches w k c nwc s a := by
  cases asked with
  | enters stage =>
      rcases step_stage move k with same | ⟨_, opened⟩ | ⟨input, rfl, moved⟩
      · exact .inl (.enters (same ▸ stage))
      · cases opened.symm.trans stage
      · rcases streamStep_enqueues moved stage with ⟨nwc, rfl, before, right⟩
        exact .inr ⟨nwc, rfl, before, right⟩
  | pooled member => exact .inl ((step_pooled move member).elim .pooled .enters)
  | @serves b carried served =>
      have born : (s'.bridges b).pc ≠ .unborn := by
        intro unborn
        rw [unborn] at carried
        cases carried
      rcases step_user locks move born with fresh | ⟨home, same | ⟨input, rfl, moved⟩⟩
      · rw [fresh] at carried
        cases carried
      · exact .inl (.serves (same ▸ carried) (home ▸ served))
      · rcases bridgeStep_work moved carried with before | member
        · exact .inl (.serves before (home ▸ served))
        · exact .inl (.pooled (home.symm.trans served ▸ member))

/-- A first frame is looked at as the one of a work connection. -/
theorem streamStep_frames {k : StreamId} {input : Input} {frame : RawMsg}
    (move : streamStep w k s (s.streams k).pc input = some s')
    (stage : (s'.streams k).pc = .workFrame frame) :
    (s'.streams k).firstFrame = some frame ∧ (s'.streams k).role ≠ .muxControl := by
  have goes : ∀ {s₁ : State} {pc : StreamPc}, ((s₁.goto k pc).streams k).pc = .workFrame frame →
      pc = .workFrame frame := by
    intro s₁ pc stage
    rw [goto_streams_self] at stage
    exact stage
  generalize current : (s.streams k).pc = pc at move
  cases streamStep_cases move with
  | workConn role _ =>
      cases goes stage
      rw [goto_streams_self, setStream_streams_self]
      exact ⟨rfl, role⟩
  | authorized _ =>
      rw [setStream_streams_self] at stage
      cases stage
  | frameIgnored _ => cases current.symm.trans stage
  | registering call =>
      rcases regStep_cases call with ⟨s₁, next, step, rfl⟩
      have inControl := step.inControl
      rw [goes stage] at inControl
      cases inControl
  | closing _ =>
      have after := goes stage
      split at after <;> cases after
  | _ => cases goes stage

/-- A handler comes to the check with the message of its frame, and with the control that its run
lists under the run id. -/
theorem streamStep_asks {k c : StreamId} {input : Input} {nwc : NewWorkConn}
    (move : streamStep w k s (s.streams k).pc input = some s')
    (stage : (s'.streams k).pc = .workAuth nwc c) :
    ∃ body, (s.streams k).pc = .workFrame (TYPE_NEW_WORK_CONN, body) ∧
      (w.fromSlice body).bind NewWorkConn.ofJson = some nwc ∧
      (s.shared (s.streams k).epoch).controls.lookup nwc.runId = some c := by
  have goes : ∀ {s₁ : State} {pc : StreamPc}, ((s₁.goto k pc).streams k).pc = .workAuth nwc c →
      pc = .workAuth nwc c := by
    intro s₁ pc stage
    rw [goto_streams_self] at stage
    exact stage
  generalize current : (s.streams k).pc = pc at move ⊢
  have moved := move
  cases streamStep_cases move with
  | @workFound frame nwc' c' decoded found =>
      cases goes stage
      rcases frame with ⟨type, body⟩
      -- a frame of another type would have been rejected
      have right : type = TYPE_NEW_WORK_CONN := by
        by_contra other
        have rejected : workLookup w k (type, body) s = s.goto k .workReject := if_pos other
        have same := Option.some.inj moved
        rw [← same, rejected] at stage
        cases goes stage
      subst right
      exact ⟨body, rfl, decoded, found⟩
  | authorized _ =>
      rw [setStream_streams_self] at stage
      cases stage
  | frameIgnored _ => cases current.symm.trans stage
  | registering call =>
      rcases regStep_cases call with ⟨s₁, next, step, rfl⟩
      have inControl := step.inControl
      rw [goes stage] at inControl
      cases inControl
  | closing _ =>
      have after := goes stage
      split at after <;> cases after
  | _ => cases goes stage

/-! ## Runs -/

/-- Whatever stage a work connection is at, its stream has presented it. -/
structure Origin (w : World) (s : State) : Prop where
  frame : ∀ ⦃k frame⦄, (s.streams k).pc = .workFrame frame →
    (s.streams k).firstFrame = some frame ∧ (s.streams k).role ≠ .muxControl
  asks : ∀ ⦃k nwc c⦄, (s.streams k).pc = .workAuth nwc c → Presented w s k c nwc
  asked : ∀ ⦃k c⦄, s.Asked k c → ∃ nwc, Presented w s k c nwc

/-- A handler that has got past the check is about to deliver its stream, or has delivered it. -/
theorem State.Asked.stage {k c : StreamId} (asked : s.Asked k c) (custody : Custody s) :
    (s.streams k).pc = .workEnqueue c ∨ (s.streams k).pc = .done := by
  cases asked with
  | enters stage => exact .inl stage
  | pooled member =>
      have there : k ∈ s.workAt (.pool c) := member
      exact .inr (custody.delivered there)
  | @serves b carried served =>
      have there : k ∈ s.workAt (.user b) := by
        rw [State.workAt, carried]
        exact List.mem_singleton_self k
      exact .inr (custody.delivered there)

theorem Origin.step (origin : Origin w s) (shape : Shape s) (locks : Locks s) (custody : Custody s)
    (move : Server.step w a s = some s') : Origin w s' := by
  have kept : ∀ {k c : StreamId} {nwc : NewWorkConn} {pc : StreamPc}, (s.streams k).pc = pc →
      pc ≠ .unopened → pc ≠ .first → Presented w s k c nwc → Presented w s' k c nwc := by
    intro k c nwc pc stage opened later presented
    rw [← stage] at opened later
    exact presented.kept shape opened later move
  constructor
  · intro k frame stage
    rcases step_stage move k with same | ⟨_, opened⟩ | ⟨input, rfl, moved⟩
    · have before := same.symm.trans stage
      have onward := step_stream move (before ▸ nofun : (s.streams k).pc ≠ .unopened)
      have first := origin.frame before
      refine ⟨?_, ?_⟩
      · rw [onward.firstFrame (before ▸ nofun)]
        exact first.1
      · rw [onward.role]
        exact first.2
    · cases opened.symm.trans stage
    · exact streamStep_frames moved stage
  · intro k nwc c stage
    rcases step_stage move k with same | ⟨_, opened⟩ | ⟨input, rfl, moved⟩
    · have before := same.symm.trans stage
      exact kept before nofun nofun (origin.asks before)
    · cases opened.symm.trans stage
    · rcases streamStep_asks moved stage with ⟨body, before, decoded, found⟩
      have first := origin.frame before
      rcases shape.listed found with ⟨created, runId, epoch⟩
      exact kept before nofun nofun ⟨⟨first.2, body, first.1, decoded⟩, created, runId, epoch⟩
  · intro k c asked
    rcases step_asked locks move asked with before | ⟨nwc, _, checked, _⟩
    · rcases origin.asked before with ⟨nwc, presented⟩
      rcases before.stage custody with stage | stage
      · exact ⟨nwc, kept stage nofun nofun presented⟩
      · exact ⟨nwc, kept stage nofun nofun presented⟩
    · exact ⟨nwc, kept checked nofun nofun (origin.asks checked)⟩

end Steps

theorem asked_new (cfg : FrpsConfig) {k c : StreamId} : ¬ (State.new cfg).Asked k c := by
  rintro (stage | member | carried)
  · cases stage
  · cases member
  · cases carried

theorem server_origin {w : World} {allowed : State → Action → Prop} {s : State}
    (run : (server w).Reaches allowed s) : Origin w s := by
  refine run.invariant ?_ ?_
  · rintro s ⟨cfg, rfl⟩
    constructor
    · intro k frame stage
      cases stage
    · intro k nwc c stage
      cases stage
    · intro k c asked
      exact absurd asked (asked_new cfg)
  · intro s a s' before origin _ move
    exact origin.step (server_shape before) (server_locks before) (server_custody before) move

/-- The work connection that a user of a reachable state has been given began with a NewWorkConn for
the run id of the control whose proxy it serves, in the same run of the server; and no run leads to
that state without a step in which the handler of that stream found the message without a
credential, or with the one of the server's token at that time. -/
theorem work_conn_vouched {w : World} {s : State} (run : (server w).Reachable s) {b : BridgeId}
    {k : StreamId} (carried : (s.bridges b).pc.work = some k) :
    ∃ nwc, Presented w s k (s.servedBy b) nwc ∧
      (server w).Unavoidable (Vouches w k (s.servedBy b) nwc) s := by
  generalize home : s.servedBy b = c
  have asked : s.Asked k c := .serves carried home
  rcases (server_origin run).asked asked with ⟨nwc, presented⟩
  refine ⟨nwc, presented, ?_⟩
  let Clean (t : State) : Prop := (t.streams k).Opens w nwc → ¬ t.Asked k c
  have broken : ¬ Clean s := fun clean => clean presented.opens asked
  refine System.Unavoidable.of_kept broken ?_ ?_
  · rintro t ⟨cfg, rfl⟩ _
    exact asked_new cfg
  · intro t a t' before clean quiet move opens askedAfter
    have back : ∀ {pc : StreamPc}, (t.streams k).pc = pc → pc ≠ .unopened → pc ≠ .first →
        (t.streams k).Opens w nwc := by
      intro pc stage opened later
      rw [← stage] at opened later
      exact ((step_stream move opened).opens later).mp opens
    rcases step_asked (server_locks before) move askedAfter with already | ⟨other, vouches⟩
    · rcases already.stage (server_custody before) with stage | stage
      · exact clean (back stage nofun nofun) already
      · exact clean (back stage nofun nofun) already
    · have checked := vouches.2.1
      have same := ((server_origin before).asks checked).opens.unique (back checked nofun nofun)
      subst same
      exact quiet vouches

/-- The stream of the sample run's user named the run id of the client it was opened by. -/
theorem work_conn_vouched_pooled :
    ∃ s, (server sampleWorld).Reachable s ∧ (s.bridges 0).pc.work = some 2 ∧
      ∃ nwc, Presented sampleWorld s 2 (s.servedBy 0) nwc ∧
        (server sampleWorld).Unavoidable (Vouches sampleWorld 2 (s.servedBy 0) nwc) s := by
  rcases sample_reaches (pooledProxyRun ++ .writer 1 (.wrote true) :: userRun .queued)
    (fun s => decide ((s.bridges 0).pc.work = some 2)) (by decide +kernel) with ⟨s, run, shown⟩
  have carried := of_decide_eq_true shown
  exact ⟨s, run, carried, work_conn_vouched run carried⟩

end Remgr.Frps.Server
