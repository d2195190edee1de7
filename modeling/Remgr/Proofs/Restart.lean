/-
Module: Remgr.Proofs.Restart
Purpose: Whom a successful `start` of the frp client relies on. A supervisor that is held in `run`
  is never cancelled, so it leaves its loop only after it has read a configuration it cannot use; a
  `start` that comes between that reading and the end of the task reports success all the same.
Trusted boundary: none
Main exports: Stage.inLoop, Prompt, start_answered_in_loop
-/
import Remgr.Proofs.Reconfigure

namespace Remgr.Frpc.Client

open Remgr.Lib

/-! ## The statement -/

/-- The supervisor has not decided to leave its loop. -/
def Stage.inLoop : Stage → Bool
  | .refuse _ | .refused | .leaving | .lastDisconnect | .lastIdle | .lastIdling _ | .returning
  | .finished => false
  | _ => true

/-- It has decided to leave, and its task has not ended. -/
def Stage.givingUp (stage : Stage) : Bool := !stage.inLoop && !stage.isFinished

/-- The condition on a step: `start` does not look at the supervisor in `run` while that one is
giving up. -/
def Prompt (s : State) : Action → Prop
  | .lock .go => s.lock = .startCheck → ∀ v, s.run = some v → (s.supervisors v).stage.givingUp = false
  | _ => True

/-- No `stop` is issued. -/
def NoStop (_ : State) (a : Action) : Prop := a ≠ .lock .stop

/-- `start` returns `Ok`, with this supervisor in `run`. -/
def StartsOk (v : SupervisorId) (s s' : State) : Prop :=
  (s.lock = .startCheck ∨ s.lock = .startSpawn) ∧ s'.lock = .free ∧ s'.run = some v

/-! ## Who is in `run` -/

/-- The supervisor in `run` is known and not cancelled. -/
def Held (s : State) : Prop :=
  ∀ v, s.run = some v → v < s.nextSupervisor ∧ (s.supervisors v).cancelled = false

section Steps

variable {w : World} {s s' s₁ : State} {sup sup' : Supervisor}

theorem Turn.cancelled_eq {stage : Stage} (turn : Turn w s sup stage s₁ sup') :
    sup'.cancelled = sup.cancelled := by
  cases turn <;> rfl

theorem Turn.reads_le {stage : Stage} (turn : Turn w s sup stage s₁ sup') :
    sup.reads ≤ sup'.reads := by
  cases turn with
  | usable valid => exact Nat.le_succ _
  | unusable invalid => exact Nat.le_succ _
  | _ => exact le_rfl

/-- A supervisor that is not cancelled leaves its loop only by reading the configuration. -/
theorem Turn.stays {stage : Stage} (turn : Turn w s sup stage s₁ sup')
    (alive : sup.cancelled = false) (inLoop : stage.inLoop = true) :
    sup'.stage.inLoop = true ∨ sup.reads < sup'.reads := by
  cases turn with
  | cancelled isCancelled _ => cases alive.symm.trans isCancelled
  | usable valid => exact .inl rfl
  | unusable invalid => exact .inr (Nat.lt_succ_self _)
  | refuse msg => cases inLoop
  | refused => cases inLoop
  | leavingCancelled _ => cases inLoop
  | leaving _ => cases inLoop
  | lastDisconnect => cases inLoop
  | lastIdle ids => cases inLoop
  | lastIdling r left => cases inLoop
  | lastIdled => cases inLoop
  | returning => cases inLoop
  | _ => exact .inl rfl

/-- What a step of another task does to the supervisors: nothing, a new one, or a cancelled one. -/
theorem lockStep_supervisors {pc : LockPc} {input : LockInput}
    (move : lockStep w s pc input = some s') :
    s'.supervisors = s.supervisors ∧ s'.nextSupervisor = s.nextSupervisor ∧
        (s'.run = s.run ∨ s'.run = none) ∨
      s'.supervisors = Function.update s.supervisors s.nextSupervisor {} ∧
        s'.nextSupervisor = s.nextSupervisor + 1 ∧ s'.run = some s.nextSupervisor ∨
      pc = .stopTake ∧ s'.nextSupervisor = s.nextSupervisor ∧ s'.run = none := by
  cases lockStep_turn move with
  | spawn => exact .inr (.inl ⟨rfl, rfl, rfl⟩)
  | take held => exact .inr (.inr ⟨rfl, rfl, rfl⟩)
  | finished held done => exact .inl ⟨rfl, rfl, .inr rfl⟩
  | _ => exact .inl ⟨rfl, rfl, .inl rfl⟩

theorem updateStep_supervisors {u : UpdateId} {pc : UpdatePc} {input : UpdateInput}
    (move : updateStep u s pc input = some s') :
    s'.supervisors = s.supervisors ∧ s'.nextSupervisor = s.nextSupervisor ∧ s'.run = s.run ∧
      s'.lock = s.lock := by
  cases pc with
  | rebuild cfg previous =>
      cases input <;> cases move
      have same := rebuildLoop_untouched previous cfg.proxies s ∅
      exact ⟨same.supervisors, same.nextSupervisor, same.run, same.lock⟩
  | _ =>
      cases input <;> cases move
      exact ⟨rfl, rfl, rfl, rfl⟩

theorem Held.step (held : Held s) {a : Action} (move : step w a s = some s') : Held s' := by
  cases a with
  | supervisor v input =>
      rcases superviseStep_turn move with ⟨s₁, sup', turn, rfl⟩
      have same := turn.untouched
      intro d inRun
      change s₁.run = some d at inRun
      rw [same.run] at inRun
      refine ⟨?_, ?_⟩
      · change d < s₁.nextSupervisor
        rw [same.nextSupervisor]
        exact (held d inRun).1
      · by_cases own : d = v
        · rw [own, setSupervisor_self, turn.cancelled_eq]
          exact (held v (own ▸ inRun)).2
        · rw [setSupervisor_of_ne _ own, same.supervisors]
          exact (held d inRun).2
  | lock input =>
      intro d inRun
      rcases lockStep_supervisors move with ⟨same, next, run | none⟩ | ⟨spawned, next, run⟩ | taken
      · rw [same, next]
        exact held d (run.symm.trans inRun)
      · cases none.symm.trans inRun
      · cases run.symm.trans inRun
        rw [spawned, next, Function.update_self]
        exact ⟨Nat.lt_succ_self _, rfl⟩
      · cases taken.2.2.symm.trans inRun
  | update u input =>
      have same := updateStep_supervisors move
      intro d inRun
      rw [same.1, same.2.1]
      exact held d (same.2.2.1.symm.trans inRun)

theorem client_held {allowed : State → Action → Prop} (run : (client w).Reaches allowed s) :
    Held s := by
  refine run.invariant ?_ ?_
  · rintro s ⟨cfg, rfl⟩ v inRun
    have none : (State.new cfg).run = none := (rebuildLoop_untouched ∅ cfg.proxies { cfg } ∅).run
    cases none.symm.trans inRun
  · intro s a s' _ held _ move
    exact held.step move

/-! ## Going on without a stop -/

/-- The holder of the lock is not in `stop`. -/
def LockPc.starting : LockPc → Bool
  | .free | .startCheck | .startRead | .startReset | .startIdle | .startIdling _ | .startSpawn => true
  | _ => false

/-- The supervisor is known, not cancelled, and in its loop unless it has read the configuration
again since it had read it `count` times. -/
structure Answers (v : SupervisorId) (count : Nat) (s : State) : Prop where
  starting : s.lock.starting = true
  known : v < s.nextSupervisor
  alive : (s.supervisors v).cancelled = false
  reads : count ≤ (s.supervisors v).reads
  stays : (s.supervisors v).stage.inLoop = true ∨ count < (s.supervisors v).reads

theorem Answers.step {v : SupervisorId} {count : Nat} (answers : Answers v count s) {a : Action}
    (noStop : NoStop s a) (move : Client.step w a s = some s') : Answers v count s' := by
  have unmoved : s'.lock.starting = true → s.nextSupervisor ≤ s'.nextSupervisor →
      s'.supervisors v = s.supervisors v → Answers v count s' := by
    intro starting next same
    refine ⟨starting, answers.known.trans_le next, ?_, ?_, ?_⟩
    · rw [same]
      exact answers.alive
    · rw [same]
      exact answers.reads
    · rw [same]
      exact answers.stays
  cases a with
  | supervisor d input =>
      rcases superviseStep_turn move with ⟨s₁, sup', turn, rfl⟩
      have same := turn.untouched
      have starting : (s₁.setSupervisor d sup').lock.starting = true := by
        change s₁.lock.starting = true
        rw [same.lock]
        exact answers.starting
      by_cases own : v = d
      · subst own
        refine ⟨starting, ?_, ?_, ?_, ?_⟩
        · exact answers.known.trans_eq same.nextSupervisor.symm
        · rw [setSupervisor_self, turn.cancelled_eq]
          exact answers.alive
        · rw [setSupervisor_self]
          exact answers.reads.trans turn.reads_le
        · rw [setSupervisor_self]
          rcases answers.stays with inLoop | more
          · exact (turn.stays answers.alive inLoop).imp_right answers.reads.trans_lt
          · exact .inr (more.trans_le turn.reads_le)
      · refine unmoved starting same.nextSupervisor.ge ?_
        rw [setSupervisor_of_ne _ own, same.supervisors]
  | lock input =>
      have starting : s'.lock.starting = true := by
        have before := answers.starting
        change lockStep w s s.lock input = some s' at move
        generalize s.lock = pc at move before
        cases lockStep_turn move with
        | stop => exact absurd rfl noStop
        | takeNone _ => cases before
        | take _ => cases before
        | joined _ => cases before
        | abandoned _ => cases before
        | stopDisconnect => cases before
        | stopIdle _ => cases before
        | stopIdling _ _ => cases before
        | stopIdled => cases before
        | flags => cases before
        | _ => rfl
      rcases lockStep_supervisors move with ⟨same, next, _⟩ | ⟨spawned, next, _⟩ | ⟨taking, _⟩
      · exact unmoved starting next.ge (by rw [same])
      · refine unmoved starting (next ▸ Nat.le_succ _) ?_
        rw [spawned, Function.update_of_ne answers.known.ne]
      · have before := answers.starting
        rw [taking] at before
        cases before
  | update u input =>
      have same := updateStep_supervisors move
      refine unmoved ?_ same.2.1.ge (by rw [same.1])
      rw [same.2.2.2]
      exact answers.starting

end Steps

/-- In runs that meet the condition: when `start` returns `Ok`, the supervisor in `run` is in its
loop, and as long as no `stop` is issued it does not leave it without reading the stored
configuration again. -/
theorem start_answered_in_loop {w : World} {s s' : State} {v : SupervisorId}
    (run : (client w).Reaches Prompt s) (prompt : Prompt s (.lock .go))
    (move : step w (.lock .go) s = some s') (ok : StartsOk v s s') :
    (s'.supervisors v).stage.inLoop = true ∧
      ∀ s'', ((client w).startedAt s').Reaches NoStop s'' →
        (s''.supervisors v).stage.inLoop = false →
        (s'.supervisors v).reads < (s''.supervisors v).reads := by
  have held' : Held s' := (client_held run).step move
  have inLoop : (s'.supervisors v).stage.inLoop = true := by
    rcases ok with ⟨stage, free, inRun⟩
    change lockStep w s s.lock .go = some s' at move
    rcases stage with check | spawn
    · have calm := prompt check
      rw [check] at move
      cases lockStep_turn move with
      | none empty => cases free
      | finished held done => cases free
      | @alive d held alive =>
          cases held.symm.trans inRun
          have resolved := calm v held
          simp only [Stage.givingUp, alive, Bool.not_false, Bool.and_true,
            Bool.not_eq_false'] at resolved
          exact resolved
    · rw [spawn] at move
      cases lockStep_turn move with
      | spawn =>
          cases inRun
          change (Function.update s.supervisors s.nextSupervisor {} s.nextSupervisor).stage.inLoop = _
          rw [Function.update_self]
          rfl
  refine ⟨inLoop, ?_⟩
  intro s'' onward left
  have answers : Answers v (s'.supervisors v).reads s'' := by
    refine onward.invariant ?_ ?_
    · rintro _ rfl
      have free := ok.2.1
      exact ⟨by rw [free]; rfl, (held' v ok.2.2).1, (held' v ok.2.2).2, le_rfl, .inl inLoop⟩
    · intro s₁ a s₂ _ answers noStop move
      exact answers.step noStop move
  rcases answers.stays with stays | more
  · cases left.symm.trans stays
  · exact more

/-! ## A start that is answered, and one that is not -/

def Action.isStop : Action → Bool
  | .lock .stop => true
  | _ => false

theorem noStop_of_check {w : World} {s s' : State} {a : Action}
    (moved : (if a.isStop then none else step w a s) = some s') :
    NoStop s a ∧ step w a s = some s' := by
  rcases Option.ite_none_left_eq_some.mp moved with ⟨other, move⟩
  refine ⟨?_, move⟩
  rintro rfl
  exact other rfl

/-- The condition, as it is checked of a step of the run below. -/
def promptCheck (s : State) : Action → Bool
  | .lock .go =>
      match s.lock, s.run with
      | .startCheck, some v => !(s.supervisors v).stage.givingUp
      | _, _ => true
  | _ => true

theorem prompt_of_check {s : State} {a : Action} (checked : promptCheck s a = true) :
    Prompt s a := by
  unfold Prompt
  split
  · intro check v inRun
    simp only [promptCheck, check, inRun, Bool.not_eq_true'] at checked
    exact checked
  · trivial

/-- A session that fails to log in, while the configuration loses its upstream; the supervisor tries
again and reads it. -/
def refusedRun : List Action :=
  sessionRun 0 ++ [.supervisor 0 (.loginFailed "refused")] ++ updateRun (upstream "") ++
    [.supervisor 0 .go, .supervisor 0 .go, .supervisor 0 .elapsed, .supervisor 0 .go,
      .supervisor 0 .go]

/-- A second `start` finds the supervisor of the first one in its loop and returns `Ok`. The
supervisor leaves its loop later on, and by then has read the configuration again. -/
theorem start_answered_in_loop_second :
    ∃ s s' s'', (client sampleWorld).Reaches Prompt s ∧ s.lock = .startCheck ∧ StartsOk 0 s s' ∧
      (s'.supervisors 0).stage.inLoop = true ∧
      ((client sampleWorld).startedAt s').Reaches NoStop s'' ∧
      (s''.supervisors 0).stage.inLoop = false ∧
      (s'.supervisors 0).reads < (s''.supervisors 0).reads := by
  have passed : (System.execute (System.guarded promptCheck (step sampleWorld))
      (startRun ++ readRun 0 ++ [.lock .start]) (State.new (upstream "a"))).any
        (fun s => decide (s.lock = .startCheck) && promptCheck s (.lock .go) &&
          (step sampleWorld (.lock .go) s).any fun s' =>
            decide (s'.lock = .free ∧ s'.run = some 0) &&
              (System.execute (fun a s => if a.isStop then none else step sampleWorld a s) refusedRun
                s').any fun s'' => !(s''.supervisors 0).stage.inLoop) = true := by
    decide +kernel
  rcases System.exists_of_any passed with ⟨s, done, shown⟩
  simp only [Bool.and_eq_true, decide_eq_true_eq, Option.any_eq_true] at shown
  rcases shown with ⟨⟨check, prompt⟩, s', move, ⟨free, inRun⟩, s'', done', left⟩
  have run : (client sampleWorld).Reaches Prompt s :=
    System.reaches_of_execute
      (fun _ moved =>
        have ⟨checked, move⟩ := Option.ite_none_right_eq_some.mp moved
        ⟨prompt_of_check checked, move⟩) (.start ⟨_, rfl⟩) done
  have onward : ((client sampleWorld).startedAt s').Reaches NoStop s'' :=
    System.reaches_of_execute (fun _ moved => noStop_of_check moved) (.start rfl) done'
  have ok : StartsOk 0 s s' := ⟨.inl check, free, inRun⟩
  have gone : (s''.supervisors 0).stage.inLoop = false := by simpa using left
  rcases start_answered_in_loop run (prompt_of_check prompt) move ok with ⟨inLoop, answered⟩
  exact ⟨s, s', s'', run, check, ok, inLoop, onward, gone, answered s'' onward gone⟩

/-- The supervisor reads a configuration without an upstream, and gives up; meanwhile `start` is
called again. -/
def giveUpRun : List Action :=
  startRun ++ [.supervisor 0 .go, .supervisor 0 .go] ++ updateRun (upstream "") ++
    [.supervisor 0 .go, .lock .start]

/-- What is left to do for a supervisor that has refused its configuration. -/
def lastRun : List Action :=
  [.supervisor 0 .go, .supervisor 0 .go, .supervisor 0 .go, .supervisor 0 .go,
    .supervisor 0 (.order []), .supervisor 0 .go, .supervisor 0 .go]

/-- `start` reports success for a supervisor that has decided to leave its loop, and that ends
without reading the configuration again. -/
theorem start_answered_by_leaver :
    ∃ s s' s'', (client sampleWorld).Reachable s ∧ step sampleWorld (.lock .go) s = some s' ∧
      StartsOk 0 s s' ∧ (s'.supervisors 0).stage.inLoop = false ∧
      ((client sampleWorld).startedAt s').Reaches NoStop s'' ∧
      (s''.supervisors 0).stage.isFinished = true ∧
      (s''.supervisors 0).reads = (s'.supervisors 0).reads := by
  rcases System.exists_of_any (by decide +kernel : (System.execute (step sampleWorld) giveUpRun
      (State.new (upstream "a"))).any
        (fun s => decide (s.lock = .startCheck) &&
          (step sampleWorld (.lock .go) s).any (fun s' =>
            decide (s'.lock = .free ∧ s'.run = some 0) && !(s'.supervisors 0).stage.inLoop &&
              (System.execute (fun a s => if a.isStop then none else step sampleWorld a s) lastRun
                s').any (fun s'' =>
                (s''.supervisors 0).stage.isFinished &&
                  decide ((s''.supervisors 0).reads = (s'.supervisors 0).reads)))) = true)
    with ⟨s, done, shown⟩
  simp only [Bool.and_eq_true, decide_eq_true_eq, Option.any_eq_true] at shown
  rcases shown with ⟨check, s', move, ⟨⟨free, inRun⟩, left⟩, s'', done', finished, reads⟩
  refine ⟨s, s', s'', ?_, move, ⟨.inl check, free, inRun⟩, by simpa using left, ?_, finished, reads⟩
  · exact System.reaches_of_execute (fun _ moved => ⟨trivial, moved⟩) (.start ⟨_, rfl⟩) done
  · exact System.reaches_of_execute (fun _ moved => noStop_of_check moved) (.start rfl) done'

end Remgr.Frpc.Client
