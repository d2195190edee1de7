/-
Module: Remgr.Proofs.Online
Purpose: The online counter over whole runs of the server. Three kinds of things are counted: logins
  that have raised the counter and have no control yet, controls whose `online` flag is set, and
  calls of `teardown` that have cleared the flag and have not lowered the counter yet. Every step
  keeps the counter equal to their number.
Trusted boundary: none
Main exports: State.onlineTotal, Counting, server_counting, clients_online_counted
-/
import Remgr.Lib.Tally
import Remgr.Proofs.Turns

namespace Remgr.Frps.Server

open Remgr.Lib

/-! ## What is counted -/

/-- One unit of the online counter, and who will give it back. -/
inductive Counted where
  | login (k : StreamId)
  | control (c : StreamId)
  | teardown (x : Caller)

/-- The logins that have raised the counter and have not created their control yet. -/
def State.pendingLogins (s : State) : Set StreamId := {k | (s.streams k).pc.counts = true}

/-- The controls whose `online` flag is set. -/
def State.onlineControls (s : State) : Set StreamId :=
  {c | (s.ctl c).created = true ∧ (s.ctl c).online = true}

/-- The call of `teardown` is between the two atomics: the flag is cleared, the counter not yet
lowered. -/
def TeardownPc.lowers : TeardownPc → Bool
  | .uncount => true
  | _ => false

/-- The callers of `teardown` that are about to lower the counter. -/
def State.lowering (s : State) : Set Caller :=
  {x | ∃ c pc, (s.sweeps x).current = some (c, pc) ∧ pc.lowers = true}

def State.counted (s : State) : Set Counted :=
  .login '' s.pendingLogins ∪ .control '' s.onlineControls ∪ .teardown '' s.lowering

noncomputable def State.onlineTotal (s : State) : Nat :=
  s.onlineControls.ncard + s.pendingLogins.ncard + s.lowering.ncard

section Members

variable (s : State)

@[simp] theorem login_mem_counted (k : StreamId) :
    .login k ∈ s.counted ↔ k ∈ s.pendingLogins := by
  simp [State.counted]

@[simp] theorem control_mem_counted (c : StreamId) :
    .control c ∈ s.counted ↔ c ∈ s.onlineControls := by
  simp [State.counted]

@[simp] theorem teardown_mem_counted (x : Caller) :
    .teardown x ∈ s.counted ↔ x ∈ s.lowering := by
  simp [State.counted]

variable {s}

/-- The units of one kind are as many as what they stand for. -/
theorem ncard_counted (finite : s.counted.Finite) :
    s.pendingLogins.Finite ∧ s.onlineControls.Finite ∧ s.lowering.Finite ∧
      s.counted.ncard = s.onlineTotal := by
  have logins : (Counted.login '' s.pendingLogins).Finite :=
    finite.subset (Set.subset_union_left.trans Set.subset_union_left)
  have controls : (Counted.control '' s.onlineControls).Finite :=
    finite.subset (Set.subset_union_right.trans Set.subset_union_left)
  have teardowns : (Counted.teardown '' s.lowering).Finite :=
    finite.subset Set.subset_union_right
  have login_injective : Function.Injective Counted.login := fun _ _ same => Counted.login.inj same
  have control_injective : Function.Injective Counted.control :=
    fun _ _ same => Counted.control.inj same
  have teardown_injective : Function.Injective Counted.teardown :=
    fun _ _ same => Counted.teardown.inj same
  refine ⟨logins.of_finite_image login_injective.injOn,
    controls.of_finite_image control_injective.injOn,
    teardowns.of_finite_image teardown_injective.injOn, ?_⟩
  have apart : Disjoint (Counted.login '' s.pendingLogins)
      (Counted.control '' s.onlineControls) := by
    rw [Set.disjoint_left]
    rintro _ ⟨k, _, rfl⟩ ⟨c, _, same⟩
    cases same
  have apart' : Disjoint (Counted.login '' s.pendingLogins ∪ Counted.control '' s.onlineControls)
      (Counted.teardown '' s.lowering) := by
    rw [Set.disjoint_left]
    rintro _ (⟨k, _, rfl⟩ | ⟨c, _, rfl⟩) ⟨x, _, same⟩ <;> cases same
  rw [State.counted, Set.ncard_union_eq apart' (logins.union controls) teardowns,
    Set.ncard_union_eq apart logins controls, Set.ncard_image_of_injective _ login_injective,
    Set.ncard_image_of_injective _ control_injective,
    Set.ncard_image_of_injective _ teardown_injective, State.onlineTotal]
  omega

end Members

/-! ## The invariant -/

/-- The counter is right; only what was created can be online, and a call of `teardown` that is
about to lower the counter has cleared the flag. -/
structure Counting (s : State) : Prop where
  tally : Tally s.clientsOnline s.counted
  cleared : ∀ x c, (s.sweeps x).current = some (c, .uncount) → (s.ctl c).online = false

namespace Counting

variable {s s' : State}

/-- A step that touches none of what is counted. -/
theorem of_same (counting : Counting s) (clientsOnline : s'.clientsOnline = s.clientsOnline)
    (logins : s'.pendingLogins = s.pendingLogins)
    (ctl : ∀ c, (s'.ctl c).created = (s.ctl c).created ∧ (s'.ctl c).online = (s.ctl c).online)
    (current : ∀ x, (s'.sweeps x).current = (s.sweeps x).current ∨
      ∀ c pc, (s'.sweeps x).current = some (c, pc) ∨ (s.sweeps x).current = some (c, pc) →
        pc.lowers = false) : Counting s' := by
  have controls : s'.onlineControls = s.onlineControls := by
    ext c
    simp only [State.onlineControls, Set.mem_ofPred_eq, (ctl c).1, (ctl c).2]
  have lowering : s'.lowering = s.lowering := by
    ext x
    rcases current x with same | neither
    · simp only [State.lowering, Set.mem_ofPred_eq, same]
    · constructor
      · rintro ⟨c, pc, stage, lowers⟩
        rw [neither c pc (.inl stage)] at lowers
        cases lowers
      · rintro ⟨c, pc, stage, lowers⟩
        rw [neither c pc (.inr stage)] at lowers
        cases lowers
  constructor
  · rw [clientsOnline, State.counted, logins, controls, lowering]
    exact counting.tally
  · intro x c stage
    rw [(ctl c).2]
    rcases current x with same | neither
    · exact counting.cleared x c (same ▸ stage)
    · cases neither c .uncount (.inl stage)

/-- A quiet step of a stream that has nothing to do with the counting. -/
theorem quiet (counting : Counting s) (quiet : Quiet s s')
    (logins : s'.pendingLogins = s.pendingLogins) : Counting s' :=
  counting.of_same quiet.clientsOnline logins (fun c => by rw [quiet.ctl]; exact ⟨rfl, rfl⟩)
    (fun x => .inl (quiet.current x))

/-- A call of `teardown` moves between stages before the lowering. -/
theorem setCurrent (counting : Counting s) {s₁ : State} {x : Caller} {sweep : Sweep}
    (clientsOnline : s₁.clientsOnline = s.clientsOnline) (streams : s₁.streams = s.streams)
    (ctl : ∀ c, (s₁.ctl c).created = (s.ctl c).created ∧ (s₁.ctl c).online = (s.ctl c).online)
    (sweeps : s₁.sweeps = s.sweeps)
    (was : ∀ c pc, (s.sweeps x).current = some (c, pc) → pc.lowers = false)
    (next : ∀ c pc, sweep.current = some (c, pc) → pc.lowers = false) :
    Counting (s₁.setSweep x sweep) := by
  refine counting.of_same clientsOnline ?_ ctl ?_
  · change {k | (s₁.streams k).pc.counts = true} = _
    rw [streams]
    rfl
  · intro y
    by_cases same : y = x
    · subst same
      refine .inr ?_
      rintro c pc (after | before)
      · rw [setSweep_sweeps_self] at after
        exact next c pc after
      · exact was c pc before
    · rw [setSweep_sweeps_of_ne _ _ same, sweeps]
      exact .inl rfl

/-! ### Steps -/

/-- The pending logins, when one stream has moved and the others have not. -/
theorem pendingLogins_eq {k : StreamId} (others : ∀ d, d ≠ k → s'.streams d = s.streams d)
    (same : (s'.streams k).pc.counts = (s.streams k).pc.counts) :
    s'.pendingLogins = s.pendingLogins := by
  ext d
  simp only [State.pendingLogins, Set.mem_ofPred_eq]
  by_cases own : d = k
  · subst own
    rw [same]
  · rw [others d own]

/-- A login raises the counter: one more unit, which is the login's. -/
theorem raise (counting : Counting s) {k : StreamId} {login : Login} {runId : String}
    {poolCap : Nat} (was : (s.streams k).pc = .online login runId poolCap) :
    Counting ({ s with clientsOnline := s.clientsOnline + 1 }.goto k
      (.insert login runId poolCap)) := by
  have new : .login k ∉ s.counted := by
    simp only [login_mem_counted, State.pendingLogins, Set.mem_ofPred_eq, was]
    nofun
  constructor
  · refine (counting.tally.enter new).of_mem_iff ?_
    intro unit
    cases unit with
    | login d =>
        by_cases own : d = k
        · subst own
          simp [State.pendingLogins, StreamPc.counts]
        · simp [State.pendingLogins, goto_streams_of_ne _ _ own, own]
    | control c => simp [State.onlineControls, State.goto, State.setStream]
    | teardown x => simp [State.lowering, State.goto, State.setStream]
  · exact counting.cleared

/-- The control is created: the login's unit becomes the control's. -/
theorem create (counting : Counting s) (shape : Shape s) {k : StreamId} {login : Login}
    {runId : String} {poolCap : Nat} (was : (s.streams k).pc = .insert login runId poolCap) :
    Counting (insertStep k login runId poolCap s) := by
  have unborn : (s.ctl k).created = false := shape.before (by rw [was]; rfl)
  have pending : .login k ∈ s.counted := by
    simp only [login_mem_counted, State.pendingLogins, Set.mem_ofPred_eq, was]
    rfl
  have new : .control k ∉ s.counted := by
    simp [State.onlineControls, unborn]
  constructor
  · refine (counting.tally.swap pending new).of_mem_iff ?_
    intro unit
    cases unit with
    | login d =>
        by_cases own : d = k
        · subst own
          simp [State.pendingLogins, insertStep, StreamPc.counts]
        · simp [State.pendingLogins, insertStep, goto_streams_of_ne _ _ own, own, State.setShared,
            State.setControl]
    | control c =>
        by_cases own : c = k
        · subst own
          simp [State.onlineControls, insertStep, State.goto, State.setStream, State.setShared]
        · simp [State.onlineControls, insertStep, State.goto, State.setStream, State.setShared,
            setControl_ctl_of_ne _ _ own, own]
    | teardown x =>
        simp [State.lowering, insertStep, State.goto, State.setStream, State.setShared,
          State.setControl]
  · intro x c stage
    have other : c ≠ k := by
      rintro rfl
      rw [(shape.current stage).1] at unborn
      cases unborn
    have same : (insertStep k login runId poolCap s).ctl c = s.ctl c :=
      setControl_ctl_of_ne _ _ other _
    rw [same]
    exact counting.cleared x c stage

theorem streamStep (counting : Counting s) (shape : Shape s) {w : World} {k : StreamId}
    {input : Input} (move : streamStep w k s (s.streams k).pc input = some s') : Counting s' := by
  have others := (OwnMove.streamStep move).others
  cases streamStep_turn move with
  | moves quiet was next =>
      exact counting.quiet quiet (pendingLogins_eq others (next.trans was.symm))
  | counts was raised same =>
      subst raised same
      exact counting.raise was
  | creates was same =>
      subst same
      exact counting.create shape was
  | delivers was same =>
      refine counting.of_same ?_ (pendingLogins_eq others ?_) ?_ ?_
      · rw [same]
        rfl
      · rw [same, goto_streams_self, was]
        rfl
      · intro c
        rw [same]
        exact ⟨rfl, rfl⟩
      · intro x
        rw [same]
        exact .inl rfl

/-- The flag is cleared: the control's unit becomes the teardown's. -/
theorem clear (counting : Counting s) (shape : Shape s) {x : Caller} {c : StreamId}
    (stage : (s.sweeps x).current = some (c, .offline)) (online : (s.ctl c).online = true) :
    Counting ((s.setControl c { s.ctl c with online := false }).setSweep x
      { s.sweeps x with current := some (c, .uncount) }) := by
  have created := (shape.current stage).1
  have inside : .control c ∈ s.counted := by
    simp [State.onlineControls, created, online]
  have new : .teardown x ∉ s.counted := by
    simp [State.lowering, stage, TeardownPc.lowers]
  constructor
  · refine (counting.tally.swap inside new).of_mem_iff ?_
    intro unit
    cases unit with
    | login d => simp [State.pendingLogins, State.setSweep, State.setControl]
    | control d =>
        by_cases own : d = c
        · subst own
          simp [State.onlineControls, State.setSweep]
        · simp [State.onlineControls, State.setSweep, setControl_ctl_of_ne _ _ own, own]
    | teardown y =>
        by_cases own : y = x
        · subst own
          simp [State.lowering, TeardownPc.lowers]
        · simp [State.lowering, setSweep_sweeps_of_ne _ _ own, own, State.setControl]
  · intro y d clearing
    by_cases own : d = c
    · subst own
      simp [State.setSweep]
    · have different : y ≠ x := by
        rintro rfl
        rw [setSweep_sweeps_self] at clearing
        cases clearing
        exact own rfl
      rw [setSweep_sweeps_of_ne _ _ different] at clearing
      change ((s.setControl c _).ctl d).online = false
      rw [setControl_ctl_of_ne _ _ own]
      exact counting.cleared y d clearing

/-- The counter is lowered: the teardown's unit is given back. -/
theorem lower (counting : Counting s) {x : Caller} {c : StreamId}
    (stage : (s.sweeps x).current = some (c, .uncount)) :
    Counting ({ s with clientsOnline := s.clientsOnline - 1 }.setSweep x
      { s.sweeps x with current := none }) := by
  have inside : .teardown x ∈ s.counted := by
    simp [State.lowering, stage, TeardownPc.lowers]
  constructor
  · refine (counting.tally.leave inside).of_mem_iff ?_
    intro unit
    cases unit with
    | login d => simp [State.pendingLogins, State.setSweep]
    | control d => simp [State.onlineControls, State.setSweep]
    | teardown y =>
        by_cases own : y = x
        · subst own
          simp [State.lowering]
        · simp [State.lowering, setSweep_sweeps_of_ne _ _ own, own]
  · intro y d clearing
    have different : y ≠ x := by
      rintro rfl
      rw [setSweep_sweeps_self] at clearing
      cases clearing
    rw [setSweep_sweeps_of_ne _ _ different] at clearing
    exact counting.cleared y d clearing

theorem teardownStep (counting : Counting s) (shape : Shape s) {x : Caller} {c : StreamId}
    {pc : TeardownPc} {input : SweepInput} {s₁ : State} {next : Option (StreamId × TeardownPc)}
    (stage : (s.sweeps x).current = some (c, pc)) (call : TeardownStep x c s pc input s₁ next) :
    Counting (s₁.setSweep x { s.sweeps x with current := next }) := by
  have was : pc.lowers = false →
      ∀ d pc', (s.sweeps x).current = some (d, pc') → pc'.lowers = false := by
    intro before d pc' current
    rw [stage] at current
    cases current
    exact before
  -- the stages before the flag is looked at all move on without touching what is counted
  have onward : ∀ {s₁ : State} {pc' : TeardownPc}, pc.lowers = false → pc'.lowers = false →
      s₁.clientsOnline = s.clientsOnline → s₁.streams = s.streams →
      (∀ c, (s₁.ctl c).created = (s.ctl c).created ∧ (s₁.ctl c).online = (s.ctl c).online) →
      s₁.sweeps = s.sweeps →
      Counting (s₁.setSweep x { s.sweeps x with current := some (c, pc') }) := by
    intro s₁ pc' before after clientsOnline streams ctl sweeps
    refine counting.setCurrent clientsOnline streams ctl sweeps (was before) ?_
    intro d stage current
    cases current
    exact after
  cases call with
  | cancel =>
      refine onward rfl rfl rfl rfl ?_ rfl
      intro d
      by_cases own : d = c
      · subst own
        rw [setControl_ctl_self]
        exact ⟨rfl, rfl⟩
      · rw [setControl_ctl_of_ne _ _ own]
        exact ⟨rfl, rfl⟩
  | close closed =>
      have quiet := Quiet.closeProxy closed
      refine onward rfl rfl quiet.clientsOnline (closeProxy_streams closed) ?_
        (closeProxy_sweeps closed)
      rw [quiet.ctl]
      exact fun _ => ⟨rfl, rfl⟩
  | clear online => exact counting.clear shape stage online
  | cleared _ => exact counting.setCurrent rfl rfl (fun _ => ⟨rfl, rfl⟩) rfl (was rfl) nofun
  | uncount => exact counting.lower stage
  | _ => exact onward rfl rfl rfl rfl (fun _ => ⟨rfl, rfl⟩) rfl

theorem sweepStep (counting : Counting s) (shape : Shape s) {x : Caller} {input : SweepInput}
    (move : sweepStep x input s = some s') : Counting s' := by
  have was : (s.sweeps x).current = none →
      ∀ c pc, (s.sweeps x).current = some (c, pc) → pc.lowers = false := by
    intro free
    rw [free]
    nofun
  cases sweepStep_cases move with
  | call stage call => exact counting.teardownStep shape stage call
  | begins free _ _ =>
      refine counting.setCurrent rfl rfl (fun _ => ⟨rfl, rfl⟩) rfl (was free) ?_
      intro d pc current
      cases current
      rfl
  | skips free _ _ => exact counting.setCurrent rfl rfl (fun _ => ⟨rfl, rfl⟩) rfl (was free) nofun

/-- One step of any task keeps the counter right. -/
theorem step (counting : Counting s) (shape : Shape s) {w : World} {a : Action}
    (move : step w a s = some s') : Counting s' := by
  have aside : Aside s s' → Counting s' := by
    intro aside
    refine counting.of_same aside.clientsOnline ?_ ?_ ?_
    · rw [State.pendingLogins, aside.streams]
      rfl
    · rw [aside.ctl]
      exact fun _ => ⟨rfl, rfl⟩
    · rw [aside.sweeps]
      exact fun _ => .inl rfl
  cases a with
  | server input =>
      rcases serverStep_quiet move with ⟨quiet, same | ⟨k, stream, _, closed, first, rfl⟩⟩
      · refine counting.quiet quiet ?_
        rw [State.pendingLogins, same]
        rfl
      · have others : ∀ d, d ≠ k → (s.setStream k stream).streams d = s.streams d :=
          fun d other => setStream_streams_of_ne _ _ other _
        refine counting.quiet quiet (pendingLogins_eq others ?_)
        rw [setStream_streams_self, first, closed]
        rfl
  | stream k input =>
      rcases Option.ite_none_right_eq_some.mp move with ⟨_, moved⟩
      exact counting.streamStep shape moved
  | sweep x input => exact counting.sweepStep shape move
  | writer c input =>
      rcases writerStep_aside move with ⟨out, rfl⟩
      exact counting.of_same rfl rfl (fun _ => ⟨rfl, rfl⟩) (fun _ => .inl rfl)
  | listener r input => exact aside (listenerStep_aside move).1
  | bridge b input => exact aside (bridgeStep_aside move).1

end Counting

/-- In every state any run reaches, the counter is right. -/
theorem server_counting {w : World} {allowed : State → Action → Prop} {s : State}
    (run : (server w).Reaches allowed s) : Counting s := by
  refine run.invariant ?_ ?_
  · rintro s ⟨cfg, rfl⟩
    constructor
    · refine Tally.empty.of_mem_iff ?_
      intro unit
      cases unit with
      | login k => simp [State.pendingLogins, State.new, StreamPc.counts]
      | control c => simp [State.onlineControls, State.new]
      | teardown x => simp [State.lowering, State.new]
    · intro x c current
      cases current
  · intro s a s' before counting _ move
    exact counting.step (server_shape before) move

/-! ## Controls that have been torn down -/

/-- A call of `teardown` of the control returns. -/
def TeardownReturns (c : StreamId) (s : State) (_ : Action) (s' : State) : Prop :=
  ∃ x pc, (s.sweeps x).current = some (c, pc) ∧ (s'.sweeps x).current = none

section TornDown

variable {w : World} {s s' : State}

theorem TeardownStep.flag {x : Caller} {c : StreamId} {pc : TeardownPc} {input : SweepInput}
    {next : Option (StreamId × TeardownPc)} (call : TeardownStep x c s pc input s' next)
    (d : StreamId) : (s'.ctl d).created = (s.ctl d).created ∧
      ((s.ctl d).online = false → (s'.ctl d).online = false) := by
  have control : ∀ control : Control, control.created = (s.ctl c).created →
      ((s.ctl c).online = false → control.online = false) →
      ((s.setControl c control).ctl d).created = (s.ctl d).created ∧
        ((s.ctl d).online = false → ((s.setControl c control).ctl d).online = false) := by
    intro control created online
    by_cases own : d = c
    · subst own
      rw [setControl_ctl_self]
      exact ⟨created, online⟩
    · rw [setControl_ctl_of_ne _ _ own]
      exact ⟨rfl, fun offline => offline⟩
  cases call with
  | cancel => exact control _ rfl fun offline => offline
  | close closed =>
      rw [closeProxy_ctl closed]
      exact ⟨rfl, fun offline => offline⟩
  | clear _ => exact control _ rfl fun _ => rfl
  | _ => exact ⟨rfl, fun offline => offline⟩

theorem TeardownStep.sweeps {x : Caller} {c : StreamId} {pc : TeardownPc} {input : SweepInput}
    {next : Option (StreamId × TeardownPc)} (call : TeardownStep x c s pc input s' next) :
    s'.sweeps = s.sweeps := by
  cases call with
  | close closed => exact closeProxy_sweeps closed
  | _ => rfl

/-- A caller of `teardown` leaves the calls of the others alone. -/
theorem sweepStep_others {x : Caller} {input : SweepInput} (move : sweepStep x input s = some s')
    (y : Caller) (other : y ≠ x) : s'.sweeps y = s.sweeps y := by
  cases sweepStep_cases move with
  | call stage call => rw [setSweep_sweeps_of_ne _ _ other, call.sweeps]
  | begins _ _ _ | skips _ _ _ => rw [setSweep_sweeps_of_ne _ _ other]

/-- What has been torn down stays torn down: the flag is never set again. -/
theorem tornDown_kept {a : Action} {c : StreamId} (shape : Shape s) (torn : s.tornDown c)
    (move : step w a s = some s') : s'.tornDown c := by
  have same : s'.ctl = s.ctl → s'.tornDown c := by
    intro same
    rw [State.tornDown, same]
    exact torn
  cases a with
  | server input => exact same (serverStep_quiet move).1.ctl
  | stream k input =>
      rcases Option.ite_none_right_eq_some.mp move with ⟨_, moved⟩
      cases streamStep_turn moved with
      | moves quiet _ _ => exact same quiet.ctl
      | counts _ raised moved =>
          subst raised moved
          exact torn
      | creates was moved =>
          have other : c ≠ k := by
            rintro rfl
            have unborn := shape.before (k := c) (by rw [was]; rfl)
            rw [torn.1] at unborn
            cases unborn
          have kept : s'.ctl c = s.ctl c := by
            rw [moved]
            exact setControl_ctl_of_ne _ _ other _
          rw [State.tornDown, kept]
          exact torn
      | delivers _ moved =>
          subst moved
          exact torn
  | sweep x input =>
      cases sweepStep_cases move with
      | call stage call =>
          have later := call.flag c
          exact ⟨later.1.trans torn.1, later.2 torn.2⟩
      | begins _ _ _ | skips _ _ _ => exact torn
  | writer d input =>
      rcases writerStep_aside move with ⟨out, rfl⟩
      exact torn
  | listener r input => exact same (listenerStep_aside move).1.ctl
  | bridge b input => exact same (bridgeStep_aside move).1.ctl

/-- A call of `teardown` returns only with the flag cleared, by itself or by another call. -/
theorem TeardownStep.returns {x : Caller} {c : StreamId} {pc : TeardownPc} {input : SweepInput}
    (call : TeardownStep x c s pc input s' none) (shape : Shape s) (counting : Counting s)
    (stage : (s.sweeps x).current = some (c, pc)) : s'.tornDown c := by
  have created := (shape.current stage).1
  cases call with
  | cleared offline => exact ⟨created, offline⟩
  | uncount => exact ⟨created, counting.cleared x c stage⟩

theorem tornDown_of_returns {a : Action} {c : StreamId} (shape : Shape s) (counting : Counting s)
    (move : step w a s = some s') (returns : TeardownReturns c s a s') : s'.tornDown c := by
  rcases returns with ⟨x, pc, stage, returned⟩
  have still : (s'.sweeps x).current = (s.sweeps x).current → s'.tornDown c := by
    intro same
    rw [same, stage] at returned
    cases returned
  cases a with
  | server input => exact still ((serverStep_quiet move).1.current x)
  | stream k input =>
      rcases Option.ite_none_right_eq_some.mp move with ⟨_, moved⟩
      cases streamStep_turn moved with
      | moves quiet _ _ => exact still (quiet.current x)
      | counts _ raised moved =>
          subst raised moved
          exact still rfl
      | creates _ moved =>
          subst moved
          exact still rfl
      | delivers _ moved =>
          subst moved
          exact still rfl
  | sweep y input =>
      by_cases own : y = x
      · subst own
        cases sweepStep_cases move with
        | @call d pc' _ _ next stage' call =>
            rw [stage] at stage'
            cases stage'
            rw [setSweep_sweeps_self] at returned
            have ends : next = none := returned
            subst ends
            exact call.returns shape counting stage
        | begins free _ _ | skips free _ _ =>
            rw [stage] at free
            cases free
      · exact still (by rw [sweepStep_others move x (Ne.symm own)])
  | writer d input =>
      rcases writerStep_aside move with ⟨out, rfl⟩
      exact still rfl
  | listener r input => exact still (by rw [(listenerStep_aside move).1.sweeps])
  | bridge b input => exact still (by rw [(bridgeStep_aside move).1.sweeps])

end TornDown

/-! ## The counter over whole runs -/

/-- The online counter is the number of controls whose flag is set, of logins that have raised it
and have no control yet, and of teardowns that have cleared a flag and have not lowered it yet. As
long as that number fits the counter, it is never lowered from zero; and it is zero as soon as every
control has been torn down once and no login and no teardown is at those stages. -/
theorem clients_online_counted {w : World} {s : State} (run : (server w).Reachable s) :
    (s.onlineControls.Finite ∧ s.pendingLogins.Finite ∧ s.lowering.Finite) ∧
    s.clientsOnline = UInt64.ofNat s.onlineTotal ∧
    (s.onlineTotal < 2 ^ 64 → s.clientsOnline.toNat = s.onlineTotal ∧
      (s.lowering.Nonempty → 0 < s.clientsOnline.toNat)) ∧
    ((∀ c, (s.ctl c).created = true → (server w).Passed (TeardownReturns c) s) →
      s.pendingLogins = ∅ → s.lowering = ∅ → s.clientsOnline = 0) := by
  have counting := server_counting run
  rcases ncard_counted counting.tally.finite with ⟨logins, controls, lowering, total⟩
  have exact : s.clientsOnline = UInt64.ofNat s.onlineTotal := by
    rw [← total]
    exact counting.tally.exact
  refine ⟨⟨controls, logins, lowering⟩, exact, ?_, ?_⟩
  · intro fits
    rw [← total] at fits
    have same := counting.tally.toNat_eq fits
    refine ⟨same.trans total, ?_⟩
    rintro ⟨x, about⟩
    rw [same]
    exact counting.tally.pos_of_mem ((teardown_mem_counted s x).mpr about)
  · intro torn noLogin noTeardown
    have noControl : s.onlineControls = ∅ := by
      refine Set.eq_empty_of_forall_notMem ?_
      rintro c ⟨created, online⟩
      have down : s.tornDown c := (torn c created).kept
        (fun before move returns =>
          tornDown_of_returns (server_shape before) (server_counting before) move returns)
        (fun before down move => tornDown_kept (server_shape before) down move)
      rw [down.2] at online
      cases online
    rw [exact, State.onlineTotal, noControl, noLogin, noTeardown]
    simp

/-- With one client online, the counter is right. -/
theorem clients_online_counted_one :
    ∃ s, (server sampleWorld).Reachable s ∧ 1 ∈ s.onlineControls ∧ s.clientsOnline = 1 ∧
      s.clientsOnline = UInt64.ofNat s.onlineTotal := by
  rcases sample_reaches (.server .start :: loginRun 1 "one")
    (fun s => (s.ctl 1).created && (s.ctl 1).online && decide (s.clientsOnline = 1))
    (by decide +kernel) with ⟨s, run, shown⟩
  simp only [Bool.and_eq_true, decide_eq_true_eq] at shown
  exact ⟨s, run, shown.1, shown.2, (clients_online_counted run).2.1⟩

/-! ## Between the two atomics -/

/-- The client leaves and the server stops: both tear the control down. The reader's call has
cleared the flag, and the one of `stop` is about to find it cleared. -/
def twoTeardownsRun : List Action :=
  .server .start :: (loginRun 1 "one" ++
    [.stream 1 (.frame none), .server .stopCancel, .server (.stopCollect [1]),
      .sweep (.stream 1) (.idle 0), .sweep (.stream 1) .go, .sweep (.stream 1) .go,
      .sweep (.stream 1) .go, .sweep (.stream 1) (.names []), .sweep (.stream 1) .go,
      .sweep (.stream 1) .go, .sweep (.stream 1) .go,
      .sweep (.stop 0) (.idle 0), .sweep (.stop 0) .go, .sweep (.stop 0) .go,
      .sweep (.stop 0) .go, .sweep (.stop 0) (.names []), .sweep (.stop 0) .go])

/-- A call of `teardown` returns while another one has cleared the flag and not lowered the counter:
the only control has been torn down, no login is pending, and the counter still says one. -/
theorem counter_lags :
    ∃ s, (server sampleWorld).Reachable s ∧ s.onlineControls = ∅ ∧ s.pendingLogins = ∅ ∧
      (∀ c, (s.ctl c).created = true → (server sampleWorld).Passed (TeardownReturns c) s) ∧
      s.clientsOnline = 1 := by
  rcases sample_reaches_opening twoTeardownsRun
    (fun s => decide ((s.sweeps (.stop 0)).current = some (1, .offline)) &&
      !(s.ctl 1).online && !(s.streams 1).pc.counts && decide (s.clientsOnline = 1))
    (by decide +kernel) with ⟨s, run, shown, closed⟩
  simp only [Bool.and_eq_true, decide_eq_true_eq, Bool.not_eq_true'] at shown
  rcases shown with ⟨⟨⟨stage, offline⟩, settled⟩, one⟩
  have unborn : ∀ c, c ≠ 1 → (s.streams c).pc = .unopened := fun c other =>
    closed c (by simpa [twoTeardownsRun, loginRun, Action.opens] using Ne.symm other)
  have move : step sampleWorld (.sweep (.stop 0) .go) s =
      some (s.setSweep (.stop 0) { s.sweeps (.stop 0) with current := none }) := by
    simp [step, sweepStep, teardownStep, stage, offline]
  refine ⟨_, .next run trivial move, ?_, ?_, ?_, one⟩
  · refine Set.eq_empty_of_forall_notMem ?_
    rintro c ⟨created, online⟩
    by_cases own : c = 1
    · subst own
      cases offline.symm.trans online
    · cases ((server_shape run).before (by rw [unborn c own]; rfl)).symm.trans created
  · refine Set.eq_empty_of_forall_notMem ?_
    intro k pending
    by_cases own : k = 1
    · subst own
      cases settled.symm.trans pending
    · have counts : (s.streams k).pc.counts = true := pending
      rw [unborn k own] at counts
      cases counts
  · intro c created
    by_cases own : c = 1
    · subst own
      exact .now run move ⟨.stop 0, .offline, stage, by rw [setSweep_sweeps_self]⟩
    · cases ((server_shape run).before (by rw [unborn c own]; rfl)).symm.trans created

end Remgr.Frps.Server
