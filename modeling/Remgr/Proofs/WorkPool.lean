/-
Module: Remgr.Proofs.WorkPool
Purpose: The pool of work connections around a teardown. Its receiving end is locked by a user
  inside `get_work_conn` or by the teardown that drains it, and a teardown that finds it locked goes
  on without draining. In runs where no work connection is delivered after the draining, and where a
  teardown that finds the pool locked by a user finds it empty, the pool stays empty from then on.
Trusted boundary: none
Main exports: Locks, server_locks, Orderly, Emptied, pool_empty_after_teardown
-/
import Remgr.Proofs.Online

namespace Remgr.Frps.Server

open Remgr.Lib

/-! ## Who has the lock -/

/-- The stages at which the user's task has locked the pool. -/
def BridgePc.locks : BridgePc → Bool
  | .picking | .wait => true
  | _ => false

/-- The control whose pool serves the user. -/
def State.servedBy (s : State) (b : BridgeId) : StreamId := (s.regs (s.bridges b).reg).control

/-- The lock of a pool is with exactly the task that thinks so. -/
structure Locks (s : State) : Prop where
  known : ∀ ⦃b⦄, (s.bridges b).pc ≠ .unborn → (s.bridges b).reg < s.nextReg
  locked : ∀ ⦃b⦄, (s.bridges b).pc.locks = true → (s.pool (s.servedBy b)).holder = some (.bridge b)
  drains : ∀ x c, (s.sweeps x).current = some (c, .draining) ↔
    (s.pool c).holder = some (.teardown x)

theorem BridgePc.ne_unborn {pc : BridgePc} (locks : pc.locks = true) : pc ≠ .unborn := by
  rintro rfl
  cases locks

namespace Locks

variable {s s' : State}

theorem servedBy_eq (locks : Locks s) (homes : SameHomes s s') (bridges : s'.bridges = s.bridges)
    {b : BridgeId} (born : (s.bridges b).pc ≠ .unborn) : s'.servedBy b = s.servedBy b := by
  rw [State.servedBy, bridges]
  exact homes.control _ (locks.known born)

/-- The locks and the users are as they were, and no teardown has begun or ended its draining. -/
theorem of_same (locks : Locks s) (homes : SameHomes s s') (bridges : s'.bridges = s.bridges)
    (holder : ∀ c, (s'.pool c).holder = (s.pool c).holder)
    (current : ∀ x c, (s'.sweeps x).current = some (c, .draining) ↔
      (s.sweeps x).current = some (c, .draining)) : Locks s' := by
  constructor
  · intro b born
    rw [bridges] at born ⊢
    exact (locks.known born).trans_le homes.nextReg
  · intro b locked
    rw [bridges] at locked
    rw [locks.servedBy_eq homes bridges (BridgePc.ne_unborn locked), holder]
    exact locks.locked locked
  · intro x c
    rw [current, holder]
    exact locks.drains x c

theorem quiet (locks : Locks s) (quiet : Quiet s s') : Locks s' :=
  locks.of_same quiet.homes quiet.bridges (fun c => by rw [quiet.pool])
    (fun x c => by rw [quiet.current])

theorem streamStep (locks : Locks s) {w : World} {k : StreamId} {input : Input}
    (move : streamStep w k s (s.streams k).pc input = some s') : Locks s' := by
  cases streamStep_turn move with
  | moves quiet _ _ => exact locks.quiet quiet
  | counts _ raised same =>
      subst raised same
      exact locks.of_same (.of_regs rfl rfl) rfl (fun _ => rfl) (fun _ _ => Iff.rfl)
  | creates _ same =>
      subst same
      exact locks.of_same (.of_regs rfl rfl) rfl (fun _ => rfl) (fun _ _ => Iff.rfl)
  | @delivers c _ same =>
      subst same
      refine locks.of_same (.of_regs rfl rfl) rfl ?_ (fun _ _ => Iff.rfl)
      intro d
      change (Function.update s.pool c _ d).holder = _
      by_cases own : d = c
      · subst own
        rw [Function.update_self]
      · rw [Function.update_of_ne own]

end Locks

/-! ## The users -/

/-- What a step of a user does to the pool it is served from, and whether it has the lock before and
after: nothing, it takes the lock, or it gives it back with at most a connection taken out. -/
inductive PoolTurn (b : BridgeId) (pool : Pool) : Bool → Bool → Pool → Prop
  | keeps : PoolTurn b pool false false pool
  | takes (free : pool.holder = none) :
      PoolTurn b pool false true { pool with holder := some (.bridge b) }
  | frees {conns : List StreamId} (left : conns <:+ pool.conns) :
      PoolTurn b pool true false { conns := conns, holder := none }

theorem bridgeStep_turn {s s' : State} {b : BridgeId} {c : StreamId} {input : BridgeInput}
    (move : bridgeStep b c s (s.bridges b).pc input = some s') :
    ∃ pc pool, s'.bridges = Function.update s.bridges b { s.bridges b with pc := pc } ∧
      s'.pool = Function.update s.pool c pool ∧
      PoolTurn b (s.pool c) (s.bridges b).pc.locks pc.locks pool := by
  have same : s.pool = Function.update s.pool c (s.pool c) := by
    rw [Function.update_eq_self]
  have sends : ∀ {way sent} {pc : BridgePc}, s.trySend c (.reqWorkConn {}, none) way = some sent →
      (sent.setBridge b { sent.bridges b with pc := pc }).bridges =
        Function.update s.bridges b { s.bridges b with pc := pc } ∧
      (sent.setBridge b { sent.bridges b with pc := pc }).pool =
        Function.update s.pool c (s.pool c) := by
    intro way sent pc sentEq
    have quiet := Quiet.trySend sentEq
    refine ⟨?_, quiet.pool.trans same⟩
    rw [← quiet.bridges]
    rfl
  rcases bridgeStep_cases move with ⟨s₁, next, step, rfl⟩
  generalize (s.bridges b).pc = pc at step
  cases step with
  | pick free | lock free => exact ⟨_, _, rfl, rfl, .takes free⟩
  | picked found | delivered found =>
      exact ⟨_, _, rfl, rfl, .frees (found ▸ List.suffix_cons _ _)⟩
  | empty _ | timeout | cancelled _ => exact ⟨_, _, rfl, rfl, .frees List.suffix_rfl⟩
  | replenish sent | request sent => exact ⟨_, _, (sends sent).1, (sends sent).2, .keeps⟩
  | start work ok => cases ok <;> exact ⟨_, _, rfl, same, .keeps⟩
  | started work => exact ⟨_, _, rfl, same, .keeps⟩

namespace Locks

variable {s s' : State}

theorem bridgeStep (locks : Locks s) {b : BridgeId} {input : BridgeInput}
    (move : bridgeStep b (s.servedBy b) s (s.bridges b).pc input = some s') : Locks s' := by
  have born : (s.bridges b).pc ≠ .unborn := by
    intro unborn
    rw [unborn] at move
    cases input <;> cases move
  have aside := bridgeStep_aside move
  rcases bridgeStep_turn move with ⟨pc, pool, bridges, pools, turn⟩
  have reg : ∀ d, (s'.bridges d).reg = (s.bridges d).reg := by
    intro d
    by_cases own : d = b
    · rw [bridges, own, Function.update_self]
    · rw [bridges, Function.update_of_ne own]
  have served : ∀ d, s'.servedBy d = s.servedBy d := by
    intro d
    rw [State.servedBy, aside.2, reg]
    rfl
  constructor
  · intro d bornAfter
    rw [reg, aside.1.nextReg]
    by_cases own : d = b
    · rw [own]
      exact locks.known born
    · rw [bridges, Function.update_of_ne own] at bornAfter
      exact locks.known bornAfter
  · intro d locked
    rw [served, pools]
    by_cases own : d = b
    · -- only a user that has just taken the lock has it now
      subst own
      rw [bridges, Function.update_self] at locked
      rw [Function.update_self]
      generalize (s.bridges d).pc.locks = was, pc.locks = has at turn locked
      cases turn with
      | takes free => rfl
      | keeps => cases locked
      | frees left => cases locked
    · rw [bridges, Function.update_of_ne own] at locked
      have holds := locks.locked locked
      by_cases together : s.servedBy d = s.servedBy b
      · -- the pool is locked by another user, so this one can do nothing to it
        rw [together] at holds ⊢
        rw [Function.update_self]
        generalize was : (s.bridges b).pc.locks = had, pc.locks = has at turn
        cases turn with
        | keeps => exact holds
        | takes free => cases free.symm.trans holds
        | frees left =>
            cases (locks.locked was).symm.trans holds
            exact absurd rfl own
      · rw [Function.update_of_ne together]
        exact holds
  · intro x c
    rw [pools, aside.1.sweeps, locks.drains]
    by_cases own : c = s.servedBy b
    · rw [own, Function.update_self]
      generalize was : (s.bridges b).pc.locks = had, pc.locks = has at turn
      cases turn with
      | keeps => exact Iff.rfl
      | takes free =>
          rw [free]
          exact ⟨nofun, nofun⟩
      | frees left =>
          rw [locks.locked was]
          exact ⟨nofun, nofun⟩
    · rw [Function.update_of_ne own]

/-- A user comes. -/
theorem setBridge (locks : Locks s) {b : BridgeId} {r : RegId} (known : r < s.nextReg) :
    Locks (s.setBridge b { reg := r, pc := .pick }) := by
  have others : ∀ d, d ≠ b → (s.setBridge b { reg := r, pc := .pick }).bridges d = s.bridges d :=
    fun d other => Function.update_of_ne other ..
  have own : (s.setBridge b { reg := r, pc := .pick }).bridges b = { reg := r, pc := .pick } :=
    Function.update_self ..
  constructor
  · intro d born
    by_cases same : d = b
    · rw [same, own]
      exact known
    · rw [others d same] at born ⊢
      exact locks.known born
  · intro d locked
    have same : d ≠ b := by
      rintro rfl
      rw [own] at locked
      cases locked
    rw [State.servedBy, others d same]
    rw [others d same] at locked
    exact locks.locked locked
  · exact locks.drains

theorem listenerStep (locks : Locks s) {w : World} (admission : Admission w s) {r : RegId}
    {input : ListenerInput} (move : listenerStep r s (s.regs r).listener input = some s') :
    Locks s' := by
  have told : ∀ {s₁ : State} {reg : Registration}, Locks s →
      s₁.regs = Function.update s.regs r reg → reg.control = (s.regs r).control →
      s₁.nextReg = s.nextReg → s₁.bridges = s.bridges → s₁.pool = s.pool → s₁.sweeps = s.sweeps →
      Locks s₁ := by
    intro s₁ reg locks regs home nextReg bridges pool sweeps
    refine locks.of_same (.setReg regs nextReg home) bridges ?_ ?_
    · rw [pool]
      exact fun _ => rfl
    · rw [sweeps]
      exact fun _ _ => Iff.rfl
  generalize stage : (s.regs r).listener = was at move
  have known : ∀ {kind port}, was = .running kind port → r < s.nextReg := by
    rintro kind port rfl
    have published : (s.regs r).listener.published = some (kind, port) := by
      rw [stage]
      rfl
    exact (admission.served published).1
  cases listenerStep_cases move with
  | accept port =>
      refine Locks.setBridge ?_ (known rfl)
      exact locks.of_same (.of_regs rfl rfl) rfl (fun _ => rfl) (fun _ _ => Iff.rfl)
  | serve _ _ =>
      refine Locks.setBridge ?_ (known rfl)
      exact told locks rfl rfl rfl rfl rfl rfl
  | exit _ _ => exact told locks rfl rfl rfl rfl rfl rfl

end Locks

/-! ## Teardowns -/

/-- The stages of `teardown` after the pool. -/
def TeardownPc.pastDrain : TeardownPc → Bool
  | .cancel | .drain | .draining => false
  | _ => true

/-- Some call of `teardown` on the control has got past the pool. -/
def State.drained (s : State) (c : StreamId) : Prop :=
  s.tornDown c ∨ ∃ x pc, (s.sweeps x).current = some (c, pc) ∧ pc.pastDrain = true

/-- A step of a caller of `teardown` that has nothing to do with a pool. Whatever is past the pool
after it was so before. -/
structure SweepOnward (x : Caller) (s s' : State) : Prop where
  pool : s'.pool = s.pool
  bridges : s'.bridges = s.bridges
  homes : SameHomes s s'
  others : ∀ y, y ≠ x → s'.sweeps y = s.sweeps y
  was : ∀ c, (s.sweeps x).current ≠ some (c, .draining)
  next : ∀ c, (s'.sweeps x).current ≠ some (c, .draining)
  past : ∀ c pc, (s'.sweeps x).current = some (c, pc) → pc.pastDrain = true → s.drained c
  torn : ∀ c, s'.tornDown c → s.drained c

/-- What a step of a caller of `teardown` does to the pools: nothing, it locks one, it goes on
because the pool is locked, or it drains the one it has locked. -/
inductive SweepTurn (x : Caller) (s s' : State) : Prop
  | onward (onward : SweepOnward x s s')
  | locks {c : StreamId} (stage : (s.sweeps x).current = some (c, .drain))
      (free : (s.pool c).holder = none)
      (same : s' = (s.setPool c { s.pool c with holder := some (.teardown x) }).setSweep x
        { s.sweeps x with current := some (c, .draining) })
  | skips {c : StreamId} {holder : PoolHolder} (stage : (s.sweeps x).current = some (c, .drain))
      (held : (s.pool c).holder = some holder)
      (same : s' = s.setSweep x { s.sweeps x with current := some (c, .collect) })
  | drains {c : StreamId} (stage : (s.sweeps x).current = some (c, .draining))
      (same : s' = (s.setPool c {}).setSweep x { s.sweeps x with current := some (c, .collect) })

section Sweeps

variable {s s' : State} {x : Caller}

theorem TeardownStep.turn {c : StreamId} {pc : TeardownPc} {input : SweepInput}
    {next : Option (StreamId × TeardownPc)} (call : TeardownStep x c s pc input s' next)
    (stage : (s.sweeps x).current = some (c, pc)) :
    SweepTurn x s (s'.setSweep x { s.sweeps x with current := next }) := by
  have past : pc.pastDrain = true → s.drained c := fun past => .inr ⟨x, pc, stage, past⟩
  -- a stage that goes on to a later one, with the controls at most cancelled
  have onward : ∀ {s₁ : State} {current : Option (StreamId × TeardownPc)}, pc ≠ .draining →
      (∀ d pc', current = some (d, pc') →
        pc' ≠ .draining ∧ (pc'.pastDrain = true → d = c ∧ pc.pastDrain = true)) →
      s₁.pool = s.pool → s₁.bridges = s.bridges → SameHomes s s₁ → s₁.sweeps = s.sweeps →
      (∀ d, s₁.tornDown d → s.drained d) →
      SweepTurn x s (s₁.setSweep x { s.sweeps x with current := current }) := by
    intro s₁ current was next pool bridges homes sweeps torn
    refine .onward ⟨pool, bridges, ⟨homes.nextReg, homes.control⟩, ?_, ?_, ?_, ?_, torn⟩
    · intro y other
      rw [setSweep_sweeps_of_ne _ _ other, sweeps]
    · intro d draining
      rw [stage] at draining
      cases draining
      exact was rfl
    · intro d draining
      rw [setSweep_sweeps_self] at draining
      exact (next d _ draining).1 rfl
    · intro d pc' after pastAfter
      rw [setSweep_sweeps_self] at after
      rcases (next d pc' after).2 pastAfter with ⟨rfl, pastBefore⟩
      exact past pastBefore
  have same : ∀ d, s.tornDown d → s.drained d := fun d torn => .inl torn
  have later : ∀ {pc' : TeardownPc}, pc' ≠ .draining → (pc'.pastDrain = true → pc.pastDrain = true) →
      ∀ d pc'', some (c, pc') = some (d, pc'') →
        pc'' ≠ .draining ∧ (pc''.pastDrain = true → d = c ∧ pc.pastDrain = true) := by
    intro pc' other pastToo d pc'' after
    cases after
    exact ⟨other, fun pastAfter => ⟨rfl, pastToo pastAfter⟩⟩
  cases call with
  | cancel =>
      refine onward nofun (later nofun nofun) rfl rfl (.of_regs rfl rfl) rfl ?_
      intro d torn
      by_cases own : d = c
      · subst own
        unfold State.tornDown at torn
        rw [setControl_ctl_self] at torn
        exact .inl torn
      · unfold State.tornDown at torn
        rw [setControl_ctl_of_ne _ _ own] at torn
        exact .inl torn
  | lock free => exact .locks stage free rfl
  | locked held => exact .skips stage held rfl
  | drain => exact .drains stage rfl
  | collect _ _ | mine _ | replaced _ | remove =>
      exact onward nofun (later nofun fun _ => rfl) rfl rfl (.of_regs rfl rfl) rfl same
  | close closed =>
      have quiet := Quiet.closeProxy closed
      refine onward nofun (later nofun fun _ => rfl) quiet.pool quiet.bridges quiet.homes
        (closeProxy_sweeps closed) ?_
      intro d torn
      unfold State.tornDown at torn
      rw [quiet.ctl] at torn
      exact .inl torn
  | clear _ =>
      refine onward nofun (later nofun fun _ => rfl) rfl rfl (.of_regs rfl rfl) rfl ?_
      intro d torn
      by_cases own : d = c
      · subst own
        exact past rfl
      · unfold State.tornDown at torn
        rw [setControl_ctl_of_ne _ _ own] at torn
        exact .inl torn
  | cleared _ | uncount => exact onward nofun nofun rfl rfl (.of_regs rfl rfl) rfl same

theorem sweepStep_turn {input : SweepInput} (move : sweepStep x input s = some s') :
    SweepTurn x s s' := by
  have resting : ∀ {sweep : Sweep}, (s.sweeps x).current = none →
      (∀ c pc, sweep.current = some (c, pc) → pc = .cancel) →
      SweepTurn x s (s.setSweep x sweep) := by
    intro sweep free fresh
    refine .onward ⟨rfl, rfl, .of_regs rfl rfl, ?_, ?_, ?_, ?_, fun _ torn => .inl torn⟩
    · intro y other
      rw [setSweep_sweeps_of_ne _ _ other]
    · intro c draining
      cases free.symm.trans draining
    · intro c draining
      rw [setSweep_sweeps_self] at draining
      cases fresh c _ draining
    · intro c pc after pastAfter
      rw [setSweep_sweeps_self] at after
      rw [fresh c pc after] at pastAfter
      cases pastAfter
  cases sweepStep_cases move with
  | call stage call => exact call.turn stage
  | begins free _ _ =>
      refine resting free ?_
      intro c pc after
      cases after
      rfl
  | skips free _ _ => exact resting free nofun

/-- A teardown takes the lock of a pool, or gives it back. -/
theorem Locks.setHolder (locks : Locks s) {c : StreamId} {pool : Pool} {sweep : Sweep}
    (free : ∀ b, (s.pool c).holder ≠ some (.bridge b))
    (mine : ∀ y, (s.pool c).holder = some (.teardown y) → y = x)
    (others : ∀ d, d ≠ c → (s.sweeps x).current ≠ some (d, .draining))
    (current : ∀ d, sweep.current = some (d, .draining) ↔
      d = c ∧ pool.holder = some (.teardown x))
    (holder : pool.holder = none ∨ pool.holder = some (.teardown x)) :
    Locks ((s.setPool c pool).setSweep x sweep) := by
  have own : ((s.setPool c pool).setSweep x sweep).pool c = pool := Function.update_self ..
  have rest : ∀ d, d ≠ c → ((s.setPool c pool).setSweep x sweep).pool d = s.pool d :=
    fun d other => Function.update_of_ne other ..
  constructor
  · exact locks.known
  · intro b locked
    have holds := locks.locked locked
    have other : s.servedBy b ≠ c := by
      intro same
      rw [same] at holds
      exact free b holds
    change (((s.setPool c pool).setSweep x sweep).pool (s.servedBy b)).holder = _
    rw [rest _ other]
    exact holds
  · intro y d
    by_cases caller : y = x
    · subst caller
      rw [setSweep_sweeps_self, current]
      by_cases same : d = c
      · rw [same, own]
        exact ⟨And.right, fun held => ⟨rfl, held⟩⟩
      · rw [rest d same, ← locks.drains]
        exact ⟨fun both => absurd both.1 same, fun held => absurd held (others d same)⟩
    · rw [setSweep_sweeps_of_ne _ _ caller]
      change (s.sweeps y).current = _ ↔ _
      rw [locks.drains]
      by_cases same : d = c
      · rw [same, own]
        constructor
        · intro held
          exact absurd (mine y held) caller
        · intro held
          rcases holder with none | mineNow
          · cases none.symm.trans held
          · cases mineNow.symm.trans held
            exact absurd rfl caller
      · rw [rest d same]

theorem Locks.sweepStep (locks : Locks s) {input : SweepInput}
    (move : sweepStep x input s = some s') : Locks s' := by
  cases sweepStep_turn move with
  | onward onward =>
      refine locks.of_same onward.homes onward.bridges (fun c => by rw [onward.pool]) ?_
      intro y c
      by_cases caller : y = x
      · subst caller
        exact ⟨fun after => absurd after (onward.next c), fun before => absurd before (onward.was c)⟩
      · rw [onward.others y caller]
  | @locks c stage free same =>
      subst same
      apply locks.setHolder
      · rw [free]
        nofun
      · rw [free]
        nofun
      · rw [stage]
        nofun
      · intro d
        constructor
        · intro draining
          cases draining
          exact ⟨rfl, rfl⟩
        · rintro ⟨rfl, _⟩
          rfl
      · exact .inr rfl
  | @skips c holder stage held same =>
      subst same
      refine locks.of_same (.of_regs rfl rfl) rfl (fun _ => rfl) ?_
      intro y d
      by_cases caller : y = x
      · subst caller
        rw [setSweep_sweeps_self, stage]
        exact ⟨nofun, nofun⟩
      · rw [setSweep_sweeps_of_ne _ _ caller]
  | @drains c stage same =>
      subst same
      have mine := (locks.drains x c).mp stage
      apply locks.setHolder
      · rw [mine]
        nofun
      · intro y held
        cases mine.symm.trans held
        rfl
      · intro d other draining
        cases stage.symm.trans draining
        exact other rfl
      · exact fun d => ⟨nofun, nofun⟩
      · exact .inl rfl

end Sweeps

theorem Locks.step {s s' : State} (locks : Locks s) {w : World} (admission : Admission w s)
    {a : Action} (move : step w a s = some s') : Locks s' := by
  cases a with
  | server input => exact locks.quiet (serverStep_quiet move).1
  | stream k input =>
      rcases Option.ite_none_right_eq_some.mp move with ⟨_, moved⟩
      exact locks.streamStep moved
  | sweep x input => exact locks.sweepStep move
  | writer c input =>
      rcases writerStep_aside move with ⟨out, rfl⟩
      exact locks.of_same (.of_regs rfl rfl) rfl (fun _ => rfl) (fun _ _ => Iff.rfl)
  | listener r input => exact locks.listenerStep admission move
  | bridge b input => exact locks.bridgeStep move

theorem server_locks {w : World} {allowed : State → Action → Prop} {s : State}
    (run : (server w).Reaches allowed s) : Locks s := by
  refine run.invariant ?_ ?_
  · rintro s ⟨cfg, rfl⟩
    refine ⟨?_, nofun, fun _ _ => ⟨nofun, nofun⟩⟩
    intro b born
    exact absurd rfl born
  · intro s a s' before locks _ move
    exact locks.step (server_admission before) move

/-! ## Draining in time -/

/-- The condition on a step. A handler delivers a work connection only as long as no teardown of its
control has got past the pool; and a teardown that finds the pool locked by a user finds it empty.
-/
def Orderly (s : State) : Action → Prop
  | .stream k _ => ∀ c, (s.streams k).pc = .workEnqueue c → ¬ s.drained c
  | .sweep x _ => ∀ c b, (s.sweeps x).current = some (c, .drain) →
      (s.pool c).holder = some (.bridge b) → (s.pool c).conns = []
  | _ => True

/-- Once a teardown has got past the pool, the pool is empty, unless another one has it locked and
is draining it. -/
def Emptied (s : State) : Prop :=
  ∀ c, s.drained c → (s.pool c).conns = [] ∨ ∃ x, (s.pool c).holder = some (.teardown x)

section Draining

variable {w : World} {s s' : State} {a : Action}

theorem drained_of_same {c : StreamId} (ctl : s'.ctl = s.ctl)
    (current : ∀ x, (s'.sweeps x).current = (s.sweeps x).current) (drained : s'.drained c) :
    s.drained c := by
  unfold State.drained State.tornDown at drained
  rw [ctl] at drained
  simp only [current] at drained
  exact drained

theorem listenerStep_pool {r : RegId} {listener : Listener} {input : ListenerInput}
    (move : listenerStep r s listener input = some s') : s'.pool = s.pool := by
  cases listenerStep_cases move <;> rfl

/-- What a user does to a pool: connections go out, and a draining teardown keeps the lock. -/
theorem PoolTurn.shrinks {b : BridgeId} {pool pool' : Pool} {had has : Bool}
    (turn : PoolTurn b pool had has pool') : pool'.conns <:+ pool.conns := by
  cases turn with
  | keeps => exact List.suffix_rfl
  | takes free => exact List.suffix_rfl
  | frees left => exact left

/-- An orderly step puts no connection into a pool that a teardown has got past. -/
theorem conns_shrink {c : StreamId} (orderly : Orderly s a) (move : step w a s = some s')
    (drained : s.drained c) : (s'.pool c).conns <:+ (s.pool c).conns := by
  have same : s'.pool = s.pool → (s'.pool c).conns <:+ (s.pool c).conns := by
    intro same
    rw [same]
  cases a with
  | server input => exact same (serverStep_quiet move).1.pool
  | stream k input =>
      rcases Option.ite_none_right_eq_some.mp move with ⟨_, moved⟩
      cases streamStep_turn moved with
      | moves quiet _ _ => exact same quiet.pool
      | counts _ raised moved =>
          subst raised moved
          exact same rfl
      | creates _ moved =>
          subst moved
          exact same rfl
      | @delivers d was moved =>
          have other : c ≠ d := by
            rintro rfl
            exact orderly c was drained
          subst moved
          change (Function.update s.pool d _ c).conns <:+ _
          rw [Function.update_of_ne other]
  | sweep x input =>
      cases sweepStep_turn move with
      | onward onward => exact same onward.pool
      | @locks d stage free moved =>
          subst moved
          change (Function.update s.pool d _ c).conns <:+ _
          by_cases own : c = d
          · subst own
            rw [Function.update_self]
          · rw [Function.update_of_ne own]
      | skips stage held moved =>
          subst moved
          exact same rfl
      | @drains d stage moved =>
          subst moved
          change (Function.update s.pool d _ c).conns <:+ _
          by_cases own : c = d
          · subst own
            rw [Function.update_self]
            exact List.nil_suffix
          · rw [Function.update_of_ne own]
  | writer d input =>
      rcases writerStep_aside move with ⟨out, rfl⟩
      exact same rfl
  | listener r input => exact same (listenerStep_pool move)
  | bridge b input =>
      rcases bridgeStep_turn move with ⟨pc, pool, _, pools, turn⟩
      rw [pools]
      by_cases own : c = (s.regs (s.bridges b).reg).control
      · rw [own, Function.update_self]
        exact turn.shrinks
      · rw [Function.update_of_ne own]

/-- A pool that a teardown has locked stays locked by it, until it is drained. -/
theorem holder_kept (locks : Locks s) {c : StreamId} {x : Caller} (move : step w a s = some s')
    (held : (s.pool c).holder = some (.teardown x)) :
    (s'.pool c).holder = some (.teardown x) ∨ (s'.pool c).conns = [] := by
  have same : s'.pool = s.pool →
      (s'.pool c).holder = some (.teardown x) ∨ (s'.pool c).conns = [] := by
    intro same
    rw [same]
    exact .inl held
  cases a with
  | server input => exact same (serverStep_quiet move).1.pool
  | stream k input =>
      rcases Option.ite_none_right_eq_some.mp move with ⟨_, moved⟩
      cases streamStep_turn moved with
      | moves quiet _ _ => exact same quiet.pool
      | counts _ raised moved =>
          subst raised moved
          exact same rfl
      | creates _ moved =>
          subst moved
          exact same rfl
      | @delivers d was moved =>
          subst moved
          change (Function.update s.pool d _ c).holder = _ ∨ _
          by_cases own : c = d
          · subst own
            rw [Function.update_self]
            exact .inl held
          · rw [Function.update_of_ne own]
            exact .inl held
  | sweep y input =>
      cases sweepStep_turn move with
      | onward onward => exact same onward.pool
      | @locks d stage free moved =>
          subst moved
          have other : c ≠ d := by
            rintro rfl
            cases free.symm.trans held
          refine .inl ?_
          change (Function.update s.pool d _ c).holder = _
          rw [Function.update_of_ne other]
          exact held
      | skips stage held moved =>
          subst moved
          exact same rfl
      | @drains d stage moved =>
          subst moved
          by_cases own : c = d
          · subst own
            refine .inr ?_
            change (Function.update s.pool c _ c).conns = []
            rw [Function.update_self]
          · refine .inl ?_
            change (Function.update s.pool d _ c).holder = _
            rw [Function.update_of_ne own]
            exact held
  | writer d input =>
      rcases writerStep_aside move with ⟨out, rfl⟩
      exact same rfl
  | listener r input => exact same (listenerStep_pool move)
  | bridge b input =>
      rcases bridgeStep_turn move with ⟨pc, pool, _, pools, turn⟩
      rw [pools]
      by_cases own : c = (s.regs (s.bridges b).reg).control
      · rw [own] at held
        rw [own, Function.update_self]
        generalize was : (s.bridges b).pc.locks = had, pc.locks = has at turn
        cases turn with
        | keeps => exact .inl held
        | takes free => cases free.symm.trans held
        | frees left => cases (locks.locked was).symm.trans held
      · rw [Function.update_of_ne own]
        exact .inl held

/-- A control is past its pool after a step only if it was before, or a teardown has just drained
the pool or left it locked. -/
theorem drained_cases {c : StreamId} (move : step w a s = some s') (drained : s'.drained c) :
    s.drained c ∨ ∃ x input, a = .sweep x input ∧
      ((∃ holder, (s.sweeps x).current = some (c, .drain) ∧
          (s.pool c).holder = some holder ∧ s'.pool = s.pool) ∨
        (s'.pool c).conns = []) := by
  have same : s'.ctl = s.ctl → (∀ x, (s'.sweeps x).current = (s.sweeps x).current) →
      s.drained c := fun ctl current => drained_of_same ctl current drained
  cases a with
  | server input =>
      have quiet := (serverStep_quiet move).1
      exact .inl (same quiet.ctl quiet.current)
  | stream k input =>
      rcases Option.ite_none_right_eq_some.mp move with ⟨_, moved⟩
      cases streamStep_turn moved with
      | moves quiet _ _ => exact .inl (same quiet.ctl quiet.current)
      | counts _ raised moved =>
          subst raised moved
          exact .inl drained
      | creates _ moved =>
          subst moved
          rcases drained with ⟨created, offline⟩ | past
          · change (Function.update s.ctl k _ c).created = true at created
            change (Function.update s.ctl k _ c).online = false at offline
            by_cases own : c = k
            · subst own
              rw [Function.update_self] at offline
              cases offline
            · rw [Function.update_of_ne own] at created offline
              exact .inl (.inl ⟨created, offline⟩)
          · exact .inl (.inr past)
      | delivers was moved =>
          subst moved
          exact .inl drained
  | sweep x input =>
      -- past the pool through this very call, or through something that was there before
      have others : (∀ y, y ≠ x → s'.sweeps y = s.sweeps y) →
          (∀ d, s'.tornDown d → s.drained d) →
          s.drained c ∨ ∃ pc, (s'.sweeps x).current = some (c, pc) ∧ pc.pastDrain = true := by
        intro others torn
        rcases drained with tornDown | ⟨y, pc, stage, past⟩
        · exact .inl (torn c tornDown)
        · by_cases own : y = x
          · subst own
            exact .inr ⟨pc, stage, past⟩
          · rw [others y own] at stage
            exact .inl (.inr ⟨y, pc, stage, past⟩)
      have before := sweepStep_others move
      cases sweepStep_turn move with
      | onward onward =>
          rcases others before onward.torn with was | ⟨pc, stage, past⟩
          · exact .inl was
          · exact .inl (onward.past c pc stage past)
      | @locks d stage free moved =>
          subst moved
          rcases others before (fun _ torn => .inl torn) with was | ⟨pc, after, past⟩
          · exact .inl was
          · rw [setSweep_sweeps_self] at after
            cases after
            cases past
      | @skips d holder stage held moved =>
          subst moved
          rcases others before (fun _ torn => .inl torn) with was | ⟨pc, after, past⟩
          · exact .inl was
          · rw [setSweep_sweeps_self] at after
            cases after
            exact .inr ⟨x, input, rfl, .inl ⟨holder, stage, held, rfl⟩⟩
      | @drains d stage moved =>
          subst moved
          rcases others before (fun _ torn => .inl torn) with was | ⟨pc, after, past⟩
          · exact .inl was
          · rw [setSweep_sweeps_self] at after
            cases after
            refine .inr ⟨x, input, rfl, .inr ?_⟩
            change (Function.update s.pool c _ c).conns = []
            rw [Function.update_self]
  | writer d input =>
      rcases writerStep_aside move with ⟨out, rfl⟩
      exact .inl drained
  | listener r input =>
      have aside := (listenerStep_aside move).1
      exact .inl (same aside.ctl fun x => by rw [aside.sweeps])
  | bridge b input =>
      have aside := (bridgeStep_aside move).1
      exact .inl (same aside.ctl fun x => by rw [aside.sweeps])

theorem Emptied.step (emptied : Emptied s) (locks : Locks s) (orderly : Orderly s a)
    (move : step w a s = some s') : Emptied s' := by
  intro c drained
  rcases drained_cases move drained with was | ⟨x, input, rfl, left | empty⟩
  · rcases emptied c was with empty | ⟨x, held⟩
    · have shrunk := conns_shrink orderly move was
      rw [empty] at shrunk
      exact .inl (List.suffix_nil.mp shrunk)
    · rcases holder_kept locks move held with still | empty
      · exact .inr ⟨x, still⟩
      · exact .inl empty
  · rcases left with ⟨holder, stage, held, pool⟩
    rw [pool]
    cases holder with
    | bridge b => exact .inl (orderly c b stage held)
    | teardown y => exact .inr ⟨y, held⟩
  · exact .inl empty

theorem server_emptied (run : (server w).Reaches Orderly s) : Emptied s := by
  refine run.invariant ?_ ?_
  · rintro s ⟨cfg, rfl⟩ c _
    exact .inl rfl
  · intro s a s' before emptied orderly move
    exact emptied.step (server_locks before) orderly move

end Draining

/-- In runs all of whose steps are orderly: once a control has been torn down and no teardown is
still draining its pool, the pool is empty, and it stays empty however the run goes on. -/
theorem pool_empty_after_teardown {w : World} {s s' : State} {c : StreamId}
    (run : (server w).Reaches Orderly s) (torn : s.tornDown c)
    (drained : ∀ x, (s.sweeps x).current ≠ some (c, .draining))
    (onward : ((server w).startedAt s).Reaches Orderly s') : (s'.pool c).conns = [] := by
  have empty : (s.pool c).conns = [] := by
    rcases server_emptied run c (.inl torn) with empty | ⟨x, held⟩
    · exact empty
    · exact absurd (((server_locks run).drains x c).mpr held) (drained x)
  have kept : s'.tornDown c ∧ (s'.pool c).conns = [] := by
    refine onward.invariant (P := fun s => s.tornDown c ∧ (s.pool c).conns = []) ?_ ?_
    · rintro _ rfl
      exact ⟨torn, empty⟩
    · intro s₁ a s₂ before both orderly move
      have shrunk := conns_shrink orderly move (.inl both.1)
      rw [both.2] at shrunk
      exact ⟨tornDown_kept (server_shape (run.trans before)) both.1 move, List.suffix_nil.mp shrunk⟩
  exact kept.2

/-! ## An orderly run, and one that is not -/

/-- The condition as far as it shows on the control itself: nobody has begun to tear it down. -/
def orderlyCheck (s : State) : Action → Bool
  | .stream k _ =>
      match (s.streams k).pc with
      | .workEnqueue c => !(s.ctl c).cancelled && (s.ctl c).online
      | _ => true
  | .sweep x _ =>
      match (s.sweeps x).current with
      | some (c, .drain) => (s.pool c).holder.isNone
      | _ => true
  | _ => true

theorem orderly_of_check {s : State} {a : Action} (shape : Shape s)
    (checked : orderlyCheck s a = true) : Orderly s a := by
  cases a with
  | stream k input =>
      intro c stage drained
      simp only [orderlyCheck, stage, Bool.and_eq_true, Bool.not_eq_true'] at checked
      rcases drained with torn | ⟨x, pc, current, past⟩
      · cases checked.2.symm.trans torn.2
      · have cancelled := (shape.current current).2 (by rintro rfl; cases past)
        cases checked.1.symm.trans cancelled
  | sweep x input =>
      intro c b stage held
      simp only [orderlyCheck, stage, held] at checked
      cases checked
  | _ => trivial

/-- A work connection comes to the handler that has looked up its control. -/
def workRun (k : StreamId) : List Action :=
  [.server (.accept k 0), .stream k (.frame (some (TYPE_NEW_WORK_CONN, (sampleLogin "one").toVec))),
    .stream k .go]

/-- The client leaves, and its reader tears the control down. -/
def leaveRun (names : List String) : List Action :=
  [.stream 1 (.frame none), .sweep (.stream 1) (.idle 0), .sweep (.stream 1) .go,
    .sweep (.stream 1) .go, .sweep (.stream 1) .go, .sweep (.stream 1) (.names names)] ++
  List.replicate (4 * names.length + 4) (.sweep (.stream 1) .go)

/-- Without multiplexing, work connections are connections of their own. -/
def plainStart : List Action := [.server (.updateConfig { tcpMux := false }), .server .start]

/-- A connection that was delivered in time is drained. -/
theorem pool_empty_after_teardown_drained :
    ∃ s, (server sampleWorld).Reaches Orderly s ∧ s.tornDown 1 ∧ (s.pool 1).conns = [] := by
  have reached : ∃ s, (server sampleWorld).Reaches Orderly s ∧
      ((s.ctl 1).created && !(s.ctl 1).online && (s.pool 1).holder.isNone) = true :=
    System.reaches_of_any
      (fun before moved =>
        have ⟨checked, move⟩ := Option.ite_none_right_eq_some.mp moved
        ⟨orderly_of_check (server_shape before) checked, move⟩) (.start ⟨_, rfl⟩)
      (by decide +kernel : (System.execute
        (fun a s => if orderlyCheck s a then step sampleWorld a s else none)
        (plainStart ++ loginRun 1 "one" ++ workRun 2 ++ [.stream 2 .go, .stream 2 .go] ++ leaveRun [])
        (State.new {})).any
          (fun s => (s.ctl 1).created && !(s.ctl 1).online && (s.pool 1).holder.isNone) = true)
  rcases reached with ⟨s, run, shown⟩
  simp only [Bool.and_eq_true, Bool.not_eq_true', Option.isNone_iff_eq_none] at shown
  refine ⟨s, run, shown.1, ?_⟩
  refine pool_empty_after_teardown run shown.1 ?_ (.start rfl)
  intro x draining
  cases shown.2.symm.trans (((server_locks run).drains x 1).mp draining)

/-- The stream has no task, or its task has ended. -/
def StreamPc.finished : StreamPc → Bool
  | .unopened | .done => true
  | _ => false

/-- A client with a proxy and a user it serves leaves while a second work connection has looked its
control up; the handler goes on after the teardown. -/
def lateDeliveryRun : List Action :=
  plainStart ++ loginRun 1 "one" ++ workRun 2 ++ [.stream 2 .go, .stream 2 .go] ++
    proxyRunToBind 1 6001 ++ proxyRunFromBind 1 ++
    [.listener 0 .accept, .bridge 0 .go, .bridge 0 .go, .bridge 0 (.via .queued),
      .bridge 0 (.wrote true)] ++
    workRun 3 ++ leaveRun ["web"] ++
    [.stream 1 .go, .writer 1 .cancelled, .stream 1 .go, .stream 3 .go, .stream 3 .go]

/-- The teardown has returned and the tasks of all streams have ended, and the work connection that
was delivered late is in the pool of a control that the user's task keeps. -/
theorem late_delivery_remains :
    ∃ s, (server sampleWorld).Reachable s ∧ s.tornDown 1 ∧
      (∀ k, (s.streams k).pc.finished = true) ∧ (s.sweeps (.stream 1)).current = none ∧
      (s.bridges 0).pc = .started 2 ∧ s.servedBy 0 = 1 ∧ (s.pool 1).conns = [3] := by
  rcases sample_reaches_opening lateDeliveryRun
    (fun s => (s.ctl 1).created && !(s.ctl 1).online && (s.streams 1).pc.finished &&
      (s.streams 2).pc.finished && (s.streams 3).pc.finished &&
      decide ((s.sweeps (.stream 1)).current = none ∧ (s.bridges 0).pc = .started 2 ∧
        s.servedBy 0 = 1 ∧ (s.pool 1).conns = [3]))
    (by decide +kernel) with ⟨s, run, shown, closed⟩
  simp only [Bool.and_eq_true, decide_eq_true_eq, Bool.not_eq_true'] at shown
  rcases shown with ⟨⟨⟨⟨torn, first⟩, second⟩, third⟩, rest⟩
  refine ⟨s, run, torn, ?_, rest⟩
  intro k
  by_cases named : k = 1 ∨ k = 2 ∨ k = 3
  · rcases named with rfl | rfl | rfl
    · exact first
    · exact second
    · exact third
  · simp only [not_or] at named
    have unopened : (s.streams k).pc = .unopened := by
      apply closed
      simp [lateDeliveryRun, plainStart, loginRun, workRun, proxyRunToBind, proxyRunFromBind,
        leaveRun, Action.opens, Ne.symm named.1, Ne.symm named.2.1, Ne.symm named.2.2]
    rw [unopened]
    rfl

end Remgr.Frps.Server
