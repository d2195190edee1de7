/-
Module: Remgr.Proofs.ServerOnward
Purpose: What no step of the server takes back: a control keeps its run id, its run and its
  cancellation, a registration its control, an opened stream its role, its run and its first frame,
  and a user its control.
Trusted boundary: none
Main exports: step_later, step_creates, step_runCancelled, cut_kept, step_homes, step_np,
  step_registers, Stream.Onward, step_stream, step_stage, step_user
-/
import Remgr.Proofs.WorkPool

namespace Remgr.Frps.Server

open Remgr.Lib

section Onward

variable {w : World} {s s' : State} {a : Action}

/-! ## Controls -/

theorem sweepStep_later {x : Caller} {input : SweepInput} (move : sweepStep x input s = some s')
    (c : StreamId) : (s.ctl c).Later (s'.ctl c) := by
  cases sweepStep_cases move with
  | @call d _ _ s₁ _ stage call =>
      cases call with
      | cancel =>
          have later : (s.ctl d).Later { s.ctl d with cancelled := true } :=
            ⟨rfl, rfl, rfl, fun _ => rfl⟩
          exact later_setControl s later c
      | clear online =>
          have later : (s.ctl d).Later { s.ctl d with online := false } :=
            ⟨rfl, rfl, rfl, fun cancelled => cancelled⟩
          exact later_setControl s later c
      | close closed =>
          change (s.ctl c).Later (s₁.ctl c)
          rw [closeProxy_ctl closed]
          exact .refl _
      | _ => exact .refl _
  | begins _ _ _ | skips _ _ _ => exact .refl _

/-- A control that exists stays what it is. -/
theorem step_later (shape : Shape s) (move : step w a s = some s') {c : StreamId}
    (created : (s.ctl c).created = true) : (s.ctl c).Later (s'.ctl c) := by
  have same : s'.ctl = s.ctl → (s.ctl c).Later (s'.ctl c) := by
    intro ctl
    rw [ctl]
    exact .refl _
  cases a with
  | server input => exact same (serverStep_quiet move).1.ctl
  | stream k input =>
      rcases Option.ite_none_right_eq_some.mp move with ⟨_, moved⟩
      cases streamStep_turn moved with
      | moves quiet _ _ => exact same quiet.ctl
      | counts _ raised after =>
          subst raised after
          exact .refl _
      | creates was after =>
          have absent : (s.ctl k).created = false := by
            apply shape.before
            rw [was]
            rfl
          have other : c ≠ k := by
            rintro rfl
            cases absent.symm.trans created
          subst after
          change (s.ctl c).Later (Function.update s.ctl k _ c)
          rw [Function.update_of_ne other]
          exact .refl _
      | delivers _ after =>
          subst after
          exact .refl _
  | sweep x input => exact sweepStep_later move c
  | writer d input =>
      rcases writerStep_aside move with ⟨out, rfl⟩
      exact .refl _
  | listener r input => exact same (listenerStep_aside move).1.ctl
  | bridge b input => exact same (bridgeStep_aside move).1.ctl

/-- A control comes into being by the login of its stream. -/
theorem step_creates (move : step w a s = some s') {c : StreamId}
    (absent : (s.ctl c).created = false) (created : (s'.ctl c).created = true) :
    ∃ login runId poolCap, (s.streams c).pc = .insert login runId poolCap ∧
      s' = insertStep c login runId poolCap s := by
  have impossible : s'.ctl = s.ctl → False := by
    intro ctl
    rw [ctl] at created
    cases absent.symm.trans created
  cases a with
  | server input => exact (impossible (serverStep_quiet move).1.ctl).elim
  | stream k input =>
      rcases Option.ite_none_right_eq_some.mp move with ⟨_, moved⟩
      cases streamStep_turn moved with
      | moves quiet _ _ => exact (impossible quiet.ctl).elim
      | counts _ raised after =>
          subst raised after
          exact (impossible rfl).elim
      | @creates login runId poolCap was after =>
          by_cases own : c = k
          · subst own
            exact ⟨login, runId, poolCap, was, after⟩
          · subst after
            change (Function.update s.ctl k _ c).created = true at created
            rw [Function.update_of_ne own] at created
            cases absent.symm.trans created
      | delivers _ after =>
          subst after
          exact (impossible rfl).elim
  | sweep x input =>
      have later := sweepStep_later move c
      cases absent.symm.trans (later.created.symm.trans created)
  | writer d input =>
      rcases writerStep_aside move with ⟨out, rfl⟩
      exact (impossible rfl).elim
  | listener r input => exact (impossible (listenerStep_aside move).1.ctl).elim
  | bridge b input => exact (impossible (bridgeStep_aside move).1.ctl).elim

/-- The token of a run is cancelled by `stop`, and by nothing else. -/
theorem step_runCancelled (move : step w a s = some s') (e : Epoch) :
    (s'.shared e).runCancelled = (s.shared e).runCancelled ∨
      a = .server .stopCancel ∧ s.server = .running e ∧ (s'.shared e).runCancelled = true := by
  have same : s'.shared = s.shared → (s'.shared e).runCancelled = (s.shared e).runCancelled ∨
      a = .server .stopCancel ∧ s.server = .running e ∧ (s'.shared e).runCancelled = true := by
    intro shared
    rw [shared]
    exact .inl rfl
  cases a with
  | server input =>
      cases serverStep_cases move with
      | @stopCancel e' running =>
          change (Function.update s.shared e' _ e).runCancelled = _ ∨
            _ ∧ _ ∧ (Function.update s.shared e' _ e).runCancelled = true
          by_cases own : e = e'
          · subst own
            rw [Function.update_self]
            exact .inr ⟨rfl, running, rfl⟩
          · rw [Function.update_of_ne own]
            exact .inl rfl
      | _ => exact .inl rfl
  | stream k input =>
      rcases Option.ite_none_right_eq_some.mp move with ⟨_, moved⟩
      exact .inl ((OwnMove.streamStep moved).cut e)
  | sweep x input =>
      cases sweepStep_cases move with
      | @call c _ _ _ _ stage call =>
          cases call with
          | close closed =>
              have kept := closeProxy_runCancelled closed e
              exact .inl kept
          | remove =>
              refine .inl ?_
              change (Function.update s.shared (s.ctl c).epoch _ e).runCancelled = _
              by_cases own : e = (s.ctl c).epoch
              · subst own
                rw [Function.update_self]
              · rw [Function.update_of_ne own]
          | _ => exact .inl rfl
      | begins _ _ _ | skips _ _ _ => exact .inl rfl
  | writer d input =>
      rcases writerStep_aside move with ⟨out, rfl⟩
      exact .inl rfl
  | listener r input => exact same (listenerStep_aside move).1.shared
  | bridge b input => exact same (bridgeStep_aside move).1.shared

/-- A run token that is cancelled stays cancelled. -/
theorem runCancelled_kept (move : step w a s = some s') {e : Epoch}
    (cut : (s.shared e).runCancelled = true) : (s'.shared e).runCancelled = true := by
  rcases step_runCancelled move e with same | ⟨_, _, after⟩
  · rw [same]
    exact cut
  · exact after

/-- A control that is cut off stays cut off. -/
theorem cut_kept (shape : Shape s) (move : step w a s = some s') {c : StreamId}
    (created : (s.ctl c).created = true) (cut : s.tokenCancelled c = true) :
    s'.tokenCancelled c = true := by
  have later := step_later shape move created
  rw [State.tokenCancelled, Bool.or_eq_true] at cut ⊢
  rw [later.epoch]
  exact cut.imp later.cancelled (runCancelled_kept move)

/-! ## Registrations -/

theorem step_homes (move : step w a s = some s') : SameHomes s s' := by
  cases a with
  | server input => exact (serverStep_quiet move).1.homes
  | stream k input =>
      rcases Option.ite_none_right_eq_some.mp move with ⟨_, moved⟩
      cases streamStep_turn moved with
      | moves quiet _ _ => exact quiet.homes
      | counts _ raised after =>
          subst raised after
          exact .of_regs rfl rfl
      | creates _ after | delivers _ after =>
          subst after
          exact .of_regs rfl rfl
  | sweep x input =>
      cases sweepStep_cases move with
      | @call c _ _ _ _ stage call =>
          cases call with
          | close closed =>
              have closed := SameHomes.closeProxy closed
              exact ⟨closed.nextReg, closed.control⟩
          | _ => exact .of_regs rfl rfl
      | begins _ _ _ | skips _ _ _ => exact .of_regs rfl rfl
  | writer c input =>
      rcases writerStep_aside move with ⟨out, rfl⟩
      exact .of_regs rfl rfl
  | listener r input =>
      rcases listenerStep_aside move with ⟨aside, ⟨kind, port, _, _, regs⟩ | regs | ⟨worker, regs⟩⟩
      · exact .setReg regs aside.nextReg rfl
      · exact .of_regs regs aside.nextReg
      · exact .setReg regs aside.nextReg rfl
  | bridge b input =>
      have aside := bridgeStep_aside move
      exact .of_regs aside.2 aside.1.nextReg

/-- What a registration asks for stays as it is. -/
theorem step_np (move : step w a s = some s') {r : RegId} (known : r < s.nextReg) :
    (s'.regs r).np = (s.regs r).np := by
  -- one registration is told more
  have told : ∀ {q : RegId} {reg : Registration}, s'.regs = Function.update s.regs q reg →
      reg.np = (s.regs q).np → (s'.regs r).np = (s.regs r).np := by
    intro q reg regs np
    rw [regs]
    by_cases same : r = q
    · subst same
      rw [Function.update_self]
      exact np
    · rw [Function.update_of_ne same]
  cases a with
  | server input => cases serverStep_cases move <;> rfl
  | stream k input =>
      rcases Option.ite_none_right_eq_some.mp move with ⟨_, moved⟩
      generalize (s.streams k).pc = pc at moved
      cases streamStep_cases moved with
      | entered _ => exact congrArg _ (setReg_regs_of_ne _ _ known.ne _)
      | pool sent | pong sent =>
          rcases trySend_eq sent with ⟨out, rfl⟩
          rfl
      | registering call =>
          rcases regStep_cases call with ⟨s₁, next, step, rfl⟩
          cases step with
          | reply sent =>
              rcases trySend_eq sent with ⟨out, rfl⟩
              rfl
          | undoClose closed =>
              have kept := closeProxy_regs closed r
              exact kept.np
          | config kind | publish kind p => exact told rfl rfl
          | _ => rfl
      | closing closed =>
          have kept := closeProxy_regs closed r
          exact kept.np
      | _ => rfl
  | sweep x input =>
      cases sweepStep_cases move with
      | @call c _ _ _ _ stage call =>
          cases call with
          | close closed =>
              have kept := closeProxy_regs closed r
              exact kept.np
          | _ => rfl
      | begins _ _ _ | skips _ _ _ => rfl
  | writer c input =>
      rcases writerStep_aside move with ⟨out, rfl⟩
      rfl
  | listener q input =>
      rcases listenerStep_aside move with ⟨_, ⟨kind, port, _, _, regs⟩ | regs | ⟨worker, regs⟩⟩
      · exact told regs rfl
      · rw [regs]
      · exact told regs rfl
  | bridge b input => rw [(bridgeStep_aside move).2]

/-- A registration comes into being when the reader of a control takes a NewProxy. -/
theorem step_registers (move : step w a s = some s') :
    s'.nextReg = s.nextReg ∨
      ∃ k np, (s.streams k).pc = .entering np ∧ s.tokenCancelled k = false ∧
        s' = { s.setReg s.nextReg { control := k, np := np } with nextReg := s.nextReg + 1 }.goto k
          (.registering s.nextReg .reserve) := by
  cases a with
  | server input => cases serverStep_cases move <;> exact .inl rfl
  | stream k input =>
      rcases Option.ite_none_right_eq_some.mp move with ⟨_, moved⟩
      generalize stage : (s.streams k).pc = pc at moved
      cases streamStep_cases moved with
      | entered alive => exact .inr ⟨k, _, stage, Bool.eq_false_of_not_eq_true alive, rfl⟩
      | pool sent | pong sent =>
          rcases trySend_eq sent with ⟨out, rfl⟩
          exact .inl rfl
      | registering call =>
          rcases regStep_cases call with ⟨s₁, next, step, rfl⟩
          cases step with
          | reply sent =>
              rcases trySend_eq sent with ⟨out, rfl⟩
              exact .inl rfl
          | undoClose closed =>
              have kept := closeProxy_nextReg closed
              exact .inl kept
          | _ => exact .inl rfl
      | closing closed =>
          have kept := closeProxy_nextReg closed
          exact .inl kept
      | _ => exact .inl rfl
  | sweep x input =>
      cases sweepStep_cases move with
      | @call c _ _ _ _ stage call =>
          cases call with
          | close closed =>
              have kept := closeProxy_nextReg closed
              exact .inl kept
          | _ => exact .inl rfl
      | begins _ _ _ | skips _ _ _ => exact .inl rfl
  | writer c input =>
      rcases writerStep_aside move with ⟨out, rfl⟩
      exact .inl rfl
  | listener r input => exact .inl (listenerStep_aside move).1.nextReg
  | bridge b input => exact .inl (bridgeStep_aside move).1.nextReg

/-! ## Streams -/

/-- The same stream later in its life. -/
structure Stream.Onward (old new : Stream) : Prop where
  role : new.role = old.role
  epoch : new.epoch = old.epoch
  firstFrame : old.pc ≠ .first → new.firstFrame = old.firstFrame

theorem streamStep_record {k : StreamId} {input : Input}
    (move : streamStep w k s (s.streams k).pc input = some s') :
    (s'.streams k).role = (s.streams k).role ∧
      ((s.streams k).pc ≠ .first → (s'.streams k).firstFrame = (s.streams k).firstFrame) := by
  have goes : ∀ {s₁ : State} {pc : StreamPc}, s₁.streams = s.streams →
      ((s₁.goto k pc).streams k).role = (s.streams k).role ∧
        ((s.streams k).pc ≠ .first →
          ((s₁.goto k pc).streams k).firstFrame = (s.streams k).firstFrame) := by
    intro s₁ pc streams
    rw [goto_streams_self, streams]
    exact ⟨rfl, fun _ => rfl⟩
  generalize stage : (s.streams k).pc = pc at move goes ⊢
  cases streamStep_cases move with
  | dropped _ | login _ _ | workConn _ _ =>
      rw [goto_streams_self, setStream_streams_self]
      exact ⟨rfl, fun later => absurd rfl later⟩
  | authorized _ =>
      rw [setStream_streams_self]
      exact ⟨rfl, fun _ => rfl⟩
  | pool sent | pong sent =>
      rcases trySend_eq sent with ⟨out, rfl⟩
      exact goes rfl
  | frameIgnored _ => exact ⟨rfl, fun _ => rfl⟩
  | registering call =>
      rcases regStep_cases call with ⟨s₁, next, step, rfl⟩
      cases step with
      | reply sent =>
          rcases trySend_eq sent with ⟨out, rfl⟩
          exact goes rfl
      | undoClose closed => exact goes (closeProxy_streams closed)
      | _ => exact goes rfl
  | closing closed => exact goes (closeProxy_streams closed)
  | _ => exact goes rfl

/-- A stream that has been opened goes on from what it was. -/
theorem step_stream (move : step w a s = some s') {k : StreamId}
    (opened : (s.streams k).pc ≠ .unopened) : (s.streams k).Onward (s'.streams k) := by
  have same : s'.streams = s.streams → (s.streams k).Onward (s'.streams k) := by
    intro streams
    rw [streams]
    exact ⟨rfl, rfl, fun _ => rfl⟩
  cases a with
  | server input =>
      rcases (serverStep_quiet move).2 with streams | ⟨d, stream, _, unopened, _, rfl⟩
      · exact same streams
      · have different : k ≠ d := by
          rintro rfl
          exact opened unopened
        rw [setStream_streams_of_ne _ _ different]
        exact ⟨rfl, rfl, fun _ => rfl⟩
  | stream d input =>
      rcases Option.ite_none_right_eq_some.mp move with ⟨_, moved⟩
      have own := OwnMove.streamStep moved
      by_cases mine : k = d
      · subst mine
        have record := streamStep_record moved
        exact ⟨record.1, own.epoch, record.2⟩
      · rw [own.others k mine]
        exact ⟨rfl, rfl, fun _ => rfl⟩
  | sweep x input =>
      have kept : Keeps (fun _ => True) s s' := sweepStep_keeps move
      exact same kept.streams
  | writer c input =>
      rcases writerStep_aside move with ⟨out, rfl⟩
      exact same rfl
  | listener r input => exact same (listenerStep_aside move).1.streams
  | bridge b input => exact same (bridgeStep_aside move).1.streams

/-- A stream moves by its own task, or is opened. -/
theorem step_stage (move : step w a s = some s') (k : StreamId) :
    (s'.streams k).pc = (s.streams k).pc ∨
      (s.streams k).pc = .unopened ∧ (s'.streams k).pc = .first ∨
      ∃ input, a = .stream k input ∧ streamStep w k s (s.streams k).pc input = some s' := by
  cases a with
  | server input =>
      rcases (serverStep_quiet move).2 with same | ⟨d, stream, _, unopened, first, rfl⟩
      · rw [same]
        exact .inl rfl
      · by_cases mine : k = d
        · subst mine
          rw [setStream_streams_self]
          exact .inr (.inl ⟨unopened, first⟩)
        · rw [setStream_streams_of_ne _ _ mine]
          exact .inl rfl
  | stream d input =>
      rcases Option.ite_none_right_eq_some.mp move with ⟨_, moved⟩
      by_cases mine : k = d
      · subst mine
        exact .inr (.inr ⟨input, rfl, moved⟩)
      · rw [(OwnMove.streamStep moved).others k mine]
        exact .inl rfl
  | sweep x input =>
      have kept : Keeps (fun _ => True) s s' := sweepStep_keeps move
      rw [kept.streams]
      exact .inl rfl
  | writer c input =>
      rcases writerStep_aside move with ⟨out, rfl⟩
      exact .inl rfl
  | listener r input =>
      rw [(listenerStep_aside move).1.streams]
      exact .inl rfl
  | bridge b input =>
      rw [(bridgeStep_aside move).1.streams]
      exact .inl rfl

/-! ## Users -/

/-- A user that is there stays with its control, and moves by its own task. -/
theorem step_user (locks : Locks s) (move : step w a s = some s') {b : BridgeId}
    (born : (s'.bridges b).pc ≠ .unborn) :
    (s'.bridges b).pc = .pick ∨ s'.servedBy b = s.servedBy b ∧
      ((s'.bridges b).pc = (s.bridges b).pc ∨ ∃ input, a = .bridge b input ∧
        bridgeStep b (s.servedBy b) s (s.bridges b).pc input = some s') := by
  have same : s'.bridges b = s.bridges b → s'.servedBy b = s.servedBy b ∧
      ((s'.bridges b).pc = (s.bridges b).pc ∨ ∃ input, a = .bridge b input ∧
        bridgeStep b (s.servedBy b) s (s.bridges b).pc input = some s') := by
    intro same
    rw [same] at born
    refine ⟨?_, .inl (by rw [same])⟩
    rw [State.servedBy, same]
    exact (step_homes move).control _ (locks.known born)
  cases a with
  | server input => exact .inr (same (by rw [(serverStep_quiet move).1.bridges]))
  | stream k input =>
      rcases Option.ite_none_right_eq_some.mp move with ⟨_, moved⟩
      refine .inr (same ?_)
      cases streamStep_turn moved with
      | moves quiet _ _ => rw [quiet.bridges]
      | counts _ raised after =>
          subst raised after
          rfl
      | creates _ after | delivers _ after =>
          subst after
          rfl
  | sweep x input =>
      refine .inr (same ?_)
      cases sweepStep_turn move with
      | onward onward => rw [onward.bridges]
      | locks _ _ after | skips _ _ after | drains _ after =>
          subst after
          rfl
  | writer c input =>
      rcases writerStep_aside move with ⟨out, rfl⟩
      exact .inr (same rfl)
  | listener r input =>
      have comes : s'.bridges = Function.update s.bridges s.nextBridge { reg := r, pc := .pick } →
          (s'.bridges b).pc = .pick ∨ s'.bridges b = s.bridges b := by
        intro bridges
        by_cases new : b = s.nextBridge
        · subst new
          rw [bridges, Function.update_self]
          exact .inl rfl
        · rw [bridges, Function.update_of_ne new]
          exact .inr rfl
      have turn : ListenerStep r s (s.regs r).listener input s' := listenerStep_cases move
      generalize (s.regs r).listener = listener at turn
      cases turn with
      | accept _ | serve _ _ => exact (comes rfl).imp_right same
      | exit _ _ => exact .inr (same rfl)
  | bridge d input =>
      by_cases mine : b = d
      · subst mine
        refine .inr ⟨?_, .inr ⟨input, rfl, move⟩⟩
        rcases bridgeStep_turn move with ⟨pc, _, bridges, _, _⟩
        rw [State.servedBy, (bridgeStep_aside move).2, bridges, Function.update_self]
        rfl
      · rcases bridgeStep_turn move with ⟨pc, _, bridges, _, _⟩
        refine .inr (same ?_)
        rw [bridges, Function.update_of_ne mine]

end Onward

end Remgr.Frps.Server
