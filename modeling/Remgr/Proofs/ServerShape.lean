/-
Module: Remgr.Proofs.ServerShape
Purpose: What the operations of the server leave alone, and the facts about its bookkeeping that
  hold in every run: a stream has a control exactly from its login on, `controls` lists controls
  under their own run id, and whoever tears a control down has cancelled it first.
Trusted boundary: none
Main exports: Shape, server_shape
-/
import Remgr.Proofs.ServerSteps

namespace Remgr.Frps.Server

open Remgr.Lib

/-! ## Frames -/

section Frames

variable (s : State) (c : StreamId) (name : String)

@[simp] theorem setStream_streams_self (stream : Stream) :
    (s.setStream c stream).streams c = stream :=
  Function.update_self ..

theorem setStream_streams_of_ne {d : StreamId} (other : d ≠ c) (stream : Stream) :
    (s.setStream c stream).streams d = s.streams d :=
  Function.update_of_ne other ..

@[simp] theorem goto_streams_self (pc : StreamPc) :
    (s.goto c pc).streams c = { s.streams c with pc := pc } :=
  Function.update_self ..

theorem goto_streams_of_ne {d : StreamId} (other : d ≠ c) (pc : StreamPc) :
    (s.goto c pc).streams d = s.streams d :=
  Function.update_of_ne other ..

@[simp] theorem setReg_regs_self (r : RegId) (reg : Registration) :
    (s.setReg r reg).regs r = reg :=
  Function.update_self ..

theorem setReg_regs_of_ne (r : RegId) {q : RegId} (other : q ≠ r) (reg : Registration) :
    (s.setReg r reg).regs q = s.regs q :=
  Function.update_of_ne other ..

@[simp] theorem setControl_ctl_self (control : Control) :
    (s.setControl c control).ctl c = control :=
  Function.update_self ..

theorem setControl_ctl_of_ne {d : StreamId} (other : d ≠ c) (control : Control) :
    (s.setControl c control).ctl d = s.ctl d :=
  Function.update_of_ne other ..

@[simp] theorem setSweep_sweeps_self (x : Caller) (sweep : Sweep) :
    (s.setSweep x sweep).sweeps x = sweep :=
  Function.update_self ..

theorem setSweep_sweeps_of_ne (x : Caller) {y : Caller} (other : y ≠ x) (sweep : Sweep) :
    (s.setSweep x sweep).sweeps y = s.sweeps y :=
  Function.update_of_ne other ..

/-- What new shared data of a run has in common with the old, the runs have after it as before. -/
theorem setShared_view {α : Type} (view : Shared → α) {e : Epoch} {shared : Shared}
    (same : view shared = view (s.shared e)) (e' : Epoch) :
    view ((s.setShared e shared).shared e') = view (s.shared e') := by
  by_cases own : e' = e
  · subst own
    rw [show (s.setShared e' shared).shared e' = shared from Function.update_self ..]
    exact same
  · rw [show (s.setShared e shared).shared e' = s.shared e' from Function.update_of_ne own ..]

theorem Shared.releaseProxyPort_controls (shared : Shared) (kind : ProxyType) (port : UInt16) :
    (shared.releaseProxyPort kind port name).controls = shared.controls := by
  unfold Shared.releaseProxyPort Shared.setPorts
  split
  · cases kind <;> rfl
  · rfl

theorem Shared.releaseProxyPort_runCancelled (shared : Shared) (kind : ProxyType) (port : UInt16) :
    (shared.releaseProxyPort kind port name).runCancelled = shared.runCancelled := by
  unfold Shared.releaseProxyPort Shared.setPorts
  split
  · cases kind <;> rfl
  · rfl

@[simp] theorem releaseProxyPort_controls (e e' : Epoch) (kind : ProxyType) (port : UInt16) :
    ((s.releaseProxyPort e kind port name).shared e').controls = (s.shared e').controls :=
  setShared_view s Shared.controls (Shared.releaseProxyPort_controls name _ kind port) e'

@[simp] theorem releaseProxyPort_runCancelled (e e' : Epoch) (kind : ProxyType) (port : UInt16) :
    ((s.releaseProxyPort e kind port name).shared e').runCancelled =
      (s.shared e').runCancelled :=
  setShared_view s Shared.runCancelled (Shared.releaseProxyPort_runCancelled name _ kind port) e'

section Close

variable {s s₁ : State} {x : Closer} {c : StreamId} {name : String} {returned : Bool}

/-- Closing a proxy writes the names of the control and their lock, the registration, the infos and
the ports only. -/
theorem closeProxy_view {α : Type} (closed : s.closeProxy x c name = some (s₁, returned))
    (view : State → α)
    (blind : ∀ proxies closing regs infos shared, view { s with
      proxies := proxies, closing := closing, regs := regs, proxyInfos := infos,
      shared := shared } = view s) : view s₁ = view s := by
  cases closeProxy_cases closed with
  | absent _ _ => rfl
  | removed _ _ => exact blind _ _ _ _ _
  | unknown _ _ => exact blind _ _ _ _ _
  | told _ _ => exact blind _ _ _ _ _
  | released _ => exact blind _ _ _ _ _
  | returned _ => exact blind _ _ _ _ _

theorem closeProxy_streams (closed : s.closeProxy x c name = some (s₁, returned)) :
    s₁.streams = s.streams :=
  closeProxy_view closed State.streams fun _ _ _ _ _ => rfl

theorem closeProxy_ctl (closed : s.closeProxy x c name = some (s₁, returned)) : s₁.ctl = s.ctl :=
  closeProxy_view closed State.ctl fun _ _ _ _ _ => rfl

theorem closeProxy_sweeps (closed : s.closeProxy x c name = some (s₁, returned)) :
    s₁.sweeps = s.sweeps :=
  closeProxy_view closed State.sweeps fun _ _ _ _ _ => rfl

theorem closeProxy_out (closed : s.closeProxy x c name = some (s₁, returned)) : s₁.out = s.out :=
  closeProxy_view closed State.out fun _ _ _ _ _ => rfl

/-- Of the shared data of a run only the ports can change. -/
theorem closeProxy_shared {α : Type} (closed : s.closeProxy x c name = some (s₁, returned))
    (view : Shared → α)
    (blind : ∀ shared kind p, view (Shared.releaseProxyPort shared kind p name) = view shared)
    (e : Epoch) : view (s₁.shared e) = view (s.shared e) := by
  cases closeProxy_cases closed with
  | released _ => exact setShared_view s view (blind _ _ _) e
  | _ => rfl

theorem closeProxy_controls (closed : s.closeProxy x c name = some (s₁, returned)) (e : Epoch) :
    (s₁.shared e).controls = (s.shared e).controls :=
  closeProxy_shared closed Shared.controls (fun shared => shared.releaseProxyPort_controls name) e

theorem closeProxy_runCancelled (closed : s.closeProxy x c name = some (s₁, returned)) (e : Epoch) :
    (s₁.shared e).runCancelled = (s.shared e).runCancelled :=
  closeProxy_shared closed Shared.runCancelled
    (fun shared => shared.releaseProxyPort_runCancelled name) e

end Close

theorem registerProxyPort_runCancelled {shared shared' : Shared} {kind : ProxyType}
    {port : UInt16} (registered : shared.registerProxyPort kind port name = .ok shared') :
    shared'.runCancelled = shared.runCancelled := by
  unfold Shared.registerProxyPort at registered
  split at registered
  · split at registered
    · cases registered
    · cases registered
      rfl
  · cases registered
    cases kind <;> rfl

theorem registerProxyPort_controls {shared shared' : Shared} {kind : ProxyType} {port : UInt16}
    (registered : shared.registerProxyPort kind port name = .ok shared') :
    shared'.controls = shared.controls := by
  unfold Shared.registerProxyPort at registered
  split at registered
  · split at registered
    · cases registered
    · cases registered
      rfl
  · cases registered
    cases kind <;> rfl

/-- Sending touches the outbox of one control only. -/
theorem trySend_eq {s s' : State} {c : StreamId} {item : Outgoing} {way : SendVia}
    (sent : s.trySend c item way = some s') : ∃ out, s' = s.setOut c out := by
  have unchanged : s = s.setOut c (s.out c) := by simp [State.setOut]
  cases way with
  | cancelled =>
      simp only [State.trySend, Option.ite_none_right_eq_some, Option.some.injEq] at sent
      rcases sent with ⟨_, rfl⟩
      exact ⟨_, unchanged⟩
  | queued =>
      simp only [State.trySend, Option.ite_none_right_eq_some, Option.some.injEq] at sent
      exact ⟨_, sent.2.symm⟩
  | closed =>
      simp only [State.trySend, Option.ite_none_right_eq_some, Option.some.injEq] at sent
      rcases sent with ⟨_, rfl⟩
      exact ⟨_, unchanged⟩

end Frames

/-! ## Shape -/

/-- The stream has no control yet. -/
def StreamPc.before : StreamPc → Bool
  | .unopened | .first | .auth _ | .denied | .count _ | .lookup _ | .replace _ _ | .reply _ _ _
  | .online _ _ _ | .insert _ _ _ | .workFrame _ | .workAuth _ _ | .workReject
  | .workEnqueue _ => true
  | _ => false

/-- The stream runs its control. -/
def StreamPc.inControl : StreamPc → Bool
  | .pool _ | .reading | .entering _ | .registering _ _ | .closing _ | .pinging _ | .pong _
  | .ending | .joining => true
  | _ => false

/-- The same control later in its life: it may have been cancelled. -/
structure Control.Later (old new : Control) : Prop where
  created : new.created = old.created
  runId : new.runId = old.runId
  epoch : new.epoch = old.epoch
  cancelled : old.cancelled = true → new.cancelled = true

theorem Control.Later.refl (control : Control) : control.Later control :=
  ⟨rfl, rfl, rfl, fun cancelled => cancelled⟩

theorem later_setControl (s : State) {c : StreamId} {control : Control}
    (later : (s.ctl c).Later control) (d : StreamId) :
    (s.ctl d).Later ((s.setControl c control).ctl d) := by
  by_cases same : d = c
  · subst same
    simpa [State.setControl] using later
  · simpa [State.setControl, same] using Control.Later.refl (s.ctl d)

structure Shape (s : State) : Prop where
  before : ∀ ⦃k⦄, (s.streams k).pc.before = true → (s.ctl k).created = false
  inControl : ∀ ⦃k⦄, (s.streams k).pc.inControl = true → (s.ctl k).created = true
  listed : ∀ ⦃e runId c⦄, (s.shared e).controls.lookup runId = some c →
    (s.ctl c).created = true ∧ (s.ctl c).runId = runId ∧ (s.ctl c).epoch = e
  waiting : ∀ ⦃x c⦄, c ∈ (s.sweeps x).todo → (s.ctl c).created = true
  current : ∀ ⦃x c pc⦄, (s.sweeps x).current = some (c, pc) →
    (s.ctl c).created = true ∧ (pc ≠ .cancel → (s.ctl c).cancelled = true)

namespace Shape

variable {s : State}

/-- A stream moves on, keeping its control or staying without one. -/
theorem setStream (shape : Shape s) {k : StreamId} {stream : Stream}
    (before : stream.pc.before = true → (s.ctl k).created = false)
    (inControl : stream.pc.inControl = true → (s.ctl k).created = true) :
    Shape (s.setStream k stream) where
  before := by
    intro j atBefore
    by_cases same : j = k
    · subst same
      simp only [State.setStream, Function.update_self] at atBefore
      exact before atBefore
    · simp only [State.setStream, Function.update_of_ne same] at atBefore
      exact shape.before atBefore
  inControl := by
    intro j atControl
    by_cases same : j = k
    · subst same
      simp only [State.setStream, Function.update_self] at atControl
      exact inControl atControl
    · simp only [State.setStream, Function.update_of_ne same] at atControl
      exact shape.inControl atControl
  listed := shape.listed
  waiting := shape.waiting
  current := shape.current

/-- A stream without a control moves on without one. -/
theorem goto_before (shape : Shape s) {k : StreamId} {pc : StreamPc}
    (was : (s.streams k).pc.before = true) (notControl : pc.inControl = false) :
    Shape (s.goto k pc) := by
  apply shape.setStream
  · intro _
    exact shape.before was
  · intro atControl
    rw [notControl] at atControl
    cases atControl

/-- A stream with a control moves on with it. -/
theorem goto_inControl (shape : Shape s) {k : StreamId} {pc : StreamPc}
    (was : (s.streams k).pc.inControl = true) (notBefore : pc.before = false) :
    Shape (s.goto k pc) := by
  apply shape.setStream
  · intro atBefore
    rw [notBefore] at atBefore
    cases atBefore
  · intro _
    exact shape.inControl was

/-- A caller of `teardown` with other work: what it waits for are controls, and it is past the
cancelling only with a cancelled one. -/
theorem setSweep (shape : Shape s) {x : Caller} {sweep : Sweep}
    (waiting : ∀ c ∈ sweep.todo, (s.ctl c).created = true)
    (current : ∀ c pc, sweep.current = some (c, pc) →
      (s.ctl c).created = true ∧ (pc ≠ .cancel → (s.ctl c).cancelled = true)) :
    Shape (s.setSweep x sweep) where
  before := shape.before
  inControl := shape.inControl
  listed := shape.listed
  waiting := by
    intro y c isWaiting
    by_cases same : y = x
    · subst same
      simp only [State.setSweep, Function.update_self] at isWaiting
      exact waiting c isWaiting
    · simp only [State.setSweep, Function.update_of_ne same] at isWaiting
      exact shape.waiting isWaiting
  current := by
    intro y c pc isCurrent
    by_cases same : y = x
    · subst same
      simp only [State.setSweep, Function.update_self] at isCurrent
      exact current c pc isCurrent
    · simp only [State.setSweep, Function.update_of_ne same] at isCurrent
      exact shape.current isCurrent

/-- A call of `teardown` that goes on from a stage past the cancelling. -/
theorem setCurrent (shape : Shape s) {x : Caller} {c : StreamId} {pc pc' : TeardownPc}
    (stage : (s.sweeps x).current = some (c, pc)) (past : pc ≠ .cancel) :
    Shape (s.setSweep x { s.sweeps x with current := some (c, pc') }) := by
  apply shape.setSweep
  · intro d isWaiting
    exact shape.waiting isWaiting
  · intro d pc'' isCurrent
    cases isCurrent
    exact ⟨(shape.current stage).1, fun _ => (shape.current stage).2 past⟩

/-- Controls have at most been cancelled, and at most been taken off the list. -/
theorem of_later {s' : State} (shape : Shape s) (streams : s'.streams = s.streams)
    (ctl : ∀ c, (s.ctl c).Later (s'.ctl c))
    (controls : ∀ e runId c, (s'.shared e).controls.lookup runId = some c →
      (s.shared e).controls.lookup runId = some c)
    (sweeps : s'.sweeps = s.sweeps) : Shape s' where
  before := by
    intro k atBefore
    rw [streams] at atBefore
    exact (ctl k).created.trans (shape.before atBefore)
  inControl := by
    intro k atControl
    rw [streams] at atControl
    exact (ctl k).created.trans (shape.inControl atControl)
  listed := by
    intro e runId c found
    rcases shape.listed (controls e runId c found) with ⟨created, runIdEq, epochEq⟩
    exact ⟨(ctl c).created.trans created, (ctl c).runId.trans runIdEq, (ctl c).epoch.trans epochEq⟩
  waiting := by
    intro x c isWaiting
    rw [sweeps] at isWaiting
    exact (ctl c).created.trans (shape.waiting isWaiting)
  current := by
    intro x c pc isCurrent
    rw [sweeps] at isCurrent
    rcases shape.current isCurrent with ⟨created, cancelled⟩
    exact ⟨(ctl c).created.trans created, fun past => (ctl c).cancelled (cancelled past)⟩

/-- Nothing the shape looks at has changed. -/
theorem of_same {s' : State} (shape : Shape s) (streams : s'.streams = s.streams)
    (ctl : s'.ctl = s.ctl) (controls : ∀ e, (s'.shared e).controls = (s.shared e).controls)
    (sweeps : s'.sweeps = s.sweeps) : Shape s' := by
  refine shape.of_later streams ?_ ?_ sweeps
  · intro c
    rw [ctl]
    exact .refl _
  · intro e runId c found
    rw [controls] at found
    exact found

theorem closeProxy (shape : Shape s) {s₁ : State} {x : Closer} {c : StreamId} {name : String}
    {returned : Bool} (closed : s.closeProxy x c name = some (s₁, returned)) : Shape s₁ :=
  shape.of_same (closeProxy_streams closed) (closeProxy_ctl closed) (closeProxy_controls closed)
    (closeProxy_sweeps closed)

theorem releaseProxyPort (shape : Shape s) (e : Epoch) (kind : ProxyType) (port : UInt16)
    (name : String) : Shape (s.releaseProxyPort e kind port name) :=
  shape.of_same rfl rfl (by simp) rfl

/-! ### Steps -/

theorem regStep (shape : Shape s) {w : World} {k : StreamId} {r : RegId} {pc : RegPc}
    {input : Input} {s' : State} (stage : (s.streams k).pc = .registering r pc)
    (move : regStep w k r s pc input = some s') : Shape s' := by
  have was : (s.streams k).pc.inControl = true := by rw [stage]; rfl
  rcases regStep_cases move with ⟨s₁, next, call, rfl⟩
  cases call with
  | portHeld registered =>
      refine Shape.goto_inControl ?_ was rfl
      refine shape.of_same rfl rfl ?_ rfl
      exact setShared_view s Shared.controls (registerProxyPort_controls _ registered)
  | @reply _ serve _ _ sent =>
      rcases trySend_eq sent with ⟨out, rfl⟩
      refine Shape.goto_inControl ?_ was ?_
      · exact shape.of_same rfl rfl (fun _ => rfl) rfl
      · cases serve <;> split <;> rfl
  | @flush serve _ =>
      refine shape.goto_inControl was ?_
      cases serve <;> rfl
  | release _ _ _ | undoRelease _ _ =>
      exact (shape.releaseProxyPort _ _ _ _).goto_inControl was rfl
  | undoClose closed =>
      refine (shape.closeProxy closed).goto_inControl ?_ ?_
      · rw [closeProxy_streams closed]
        exact was
      · split <;> rfl
  | _ =>
      refine Shape.goto_inControl ?_ was rfl
      exact shape.of_same rfl rfl (fun _ => rfl) rfl

/-- The reader loop returns and queues the teardown of its own control. -/
theorem endReader (shape : Shape s) {k : StreamId} (was : (s.streams k).pc.inControl = true) :
    Shape (endReader k s) := by
  refine Shape.goto_inControl ?_ was rfl
  apply shape.setSweep
  · intro c isWaiting
    rw [List.mem_singleton.mp isWaiting]
    exact shape.inControl was
  · intro c pc isCurrent
    exact shape.current isCurrent

/-- The control is created and listed in one go; until then nothing refers to it. -/
theorem insertStep (shape : Shape s) {k : StreamId} {login : Login} {runId : String}
    {poolCap : Nat} (was : (s.streams k).pc.before = true) :
    Shape (insertStep k login runId poolCap s) := by
  have new : (s.ctl k).created = false := shape.before was
  have others : ∀ c, (s.ctl c).created = true → c ≠ k := by
    intro c created same
    rw [same, new] at created
    cases created
  have kept : ∀ c, c ≠ k → (Server.insertStep k login runId poolCap s).ctl c = s.ctl c := by
    intro c other
    simp [Server.insertStep, State.goto, State.setStream, State.setShared, State.setControl, other]
  have made : ((Server.insertStep k login runId poolCap s).ctl k).created = true := by
    simp [Server.insertStep, State.goto, State.setStream, State.setShared, State.setControl]
  constructor
  · intro j atBefore
    by_cases same : j = k
    · subst same
      simp [Server.insertStep, State.goto, State.setStream, StreamPc.before] at atBefore
    · rw [kept j same]
      apply shape.before
      simpa [Server.insertStep, State.goto, State.setStream, State.setShared, State.setControl,
        same] using atBefore
  · intro j atControl
    by_cases same : j = k
    · subst same
      exact made
    · rw [kept j same]
      apply shape.inControl
      simpa [Server.insertStep, State.goto, State.setStream, State.setShared, State.setControl,
        same] using atControl
  · intro e rid c found
    by_cases fresh : e = (s.streams k).epoch ∧ rid = runId
    · rcases fresh with ⟨rfl, rfl⟩
      have isNew : c = k := by
        simpa [Server.insertStep, State.goto, State.setStream, State.setShared, State.setControl,
          eq_comm] using found
      subst isNew
      simp [Server.insertStep, State.goto, State.setStream, State.setShared, State.setControl]
    · have old : (s.shared e).controls.lookup rid = some c := by
        by_cases sameRun : e = (s.streams k).epoch
        · subst sameRun
          have otherId : rid ≠ runId := fun same => fresh ⟨rfl, same⟩
          simpa [Server.insertStep, State.goto, State.setStream, State.setShared,
            State.setControl, Finmap.lookup_insert_of_ne _ otherId] using found
        · simpa [Server.insertStep, State.goto, State.setStream, State.setShared,
            State.setControl, sameRun] using found
      have was := shape.listed old
      rw [kept c (others c was.1)]
      exact was
  · intro x c isWaiting
    have was := shape.waiting isWaiting
    rw [kept c (others c was)]
    exact was
  · intro x c pc isCurrent
    have was := shape.current isCurrent
    rw [kept c (others c was.1)]
    exact was

/-- The first frame is noted, and only sends the stream on its way. -/
theorem noteFirst (shape : Shape s) {k : StreamId} {frame : RawMsg} {pc : StreamPc}
    (was : (s.streams k).pc.before = true) (next : pc.inControl = false) :
    Shape ((s.setStream k { s.streams k with firstFrame := some frame }).goto k pc) := by
  have noted : Shape (s.setStream k { s.streams k with firstFrame := some frame }) := by
    apply shape.setStream
    · intro _
      exact shape.before was
    · intro atControl
      exact shape.inControl atControl
  refine noted.goto_before ?_ next
  simpa [State.setStream] using was

theorem streamStep (shape : Shape s) {w : World} {k : StreamId} {input : Input} {s' : State}
    (move : streamStep w k s (s.streams k).pc input = some s') : Shape s' := by
  generalize stage : (s.streams k).pc = pc at move
  have early : pc.before = true → (s.streams k).pc.before = true := by
    intro before
    rw [stage, before]
  have running : pc.inControl = true → (s.streams k).pc.inControl = true := by
    intro inControl
    rw [stage, inControl]
  cases streamStep_cases move with
  | dropped _ | login _ _ | workConn _ _ => exact shape.noteFirst (early rfl) rfl
  | authorized _ =>
      apply shape.setStream
      · intro _
        exact shape.before (early rfl)
      · intro atControl
        cases atControl
  | count _ | online _ _ _ | workEnqueue _ =>
      refine Shape.goto_before ?_ (early rfl) rfl
      exact shape.of_same rfl rfl (fun _ => rfl) rfl
  | lookup login _ =>
      refine Shape.goto_before ?_ (early rfl) rfl
      apply shape.setSweep
      · intro c isWaiting
        exact (shape.listed (Option.mem_toList.mp isWaiting)).1
      · intro c pc isCurrent
        exact shape.current isCurrent
  | insert login runId poolCap => exact shape.insertStep (early rfl)
  | pool sent | pong sent =>
      rcases trySend_eq sent with ⟨out, rfl⟩
      refine Shape.goto_inControl ?_ (running rfl) rfl
      exact shape.of_same rfl rfl (fun _ => rfl) rfl
  | frameEnds _ | cancelled _ | sessionOver _ => exact shape.endReader (running rfl)
  | frameIgnored _ => exact shape
  | entered _ =>
      refine Shape.goto_inControl ?_ (running rfl) rfl
      exact shape.of_same rfl rfl (fun _ => rfl) rfl
  | registering call => exact shape.regStep stage call
  | closing closed =>
      refine (shape.closeProxy closed).goto_inControl ?_ ?_
      · rw [closeProxy_streams closed]
        exact running rfl
      · split <;> rfl
  | pooled | frameProxy _ _ | frameClose _ _ | framePing _ _ | notEntered _ | pinging _
  | ending _ | joining _ => exact shape.goto_inControl (running rfl) rfl
  | _ => exact shape.goto_before (early rfl) rfl

/-- Tearing down cancels first; after that only names, the list and the counters change. -/
theorem teardownStep (shape : Shape s) {x : Caller} {c : StreamId} {pc : TeardownPc}
    {input : SweepInput} {s₁ : State} {next : Option (StreamId × TeardownPc)}
    (stage : (s.sweeps x).current = some (c, pc)) (call : TeardownStep x c s pc input s₁ next) :
    Shape (s₁.setSweep x { s.sweeps x with current := next }) := by
  cases call with
  | cancel =>
      have cancelled : Shape (s.setControl c { s.ctl c with cancelled := true }) :=
        shape.of_later rfl (later_setControl s ⟨rfl, rfl, rfl, fun _ => rfl⟩)
          (fun _ _ _ found => found) rfl
      apply cancelled.setSweep
      · intro d isWaiting
        exact cancelled.waiting isWaiting
      · intro d pc isCurrent
        cases isCurrent
        exact ⟨(cancelled.current stage).1, fun _ => by simp [State.setControl]⟩
  | lock _ | drain =>
      refine Shape.setCurrent ?_ stage nofun
      exact shape.of_same rfl rfl (fun _ => rfl) rfl
  | locked _ | collect _ _ _ | mine _ | replaced _ => exact shape.setCurrent stage nofun
  | close closed =>
      rw [← closeProxy_sweeps closed]
      rw [← closeProxy_sweeps closed] at stage
      exact (shape.closeProxy closed).setCurrent stage nofun
  | remove =>
      refine Shape.setCurrent ?_ stage nofun
      refine shape.of_later rfl (fun d => .refl _) ?_ rfl
      intro e runId d found
      by_cases same : e = (s.ctl c).epoch
      · subst same
        simp only [State.setShared, Function.update_self] at found
        by_cases sameId : runId = (s.ctl c).runId
        · subst sameId
          simp at found
        · rwa [Finmap.lookup_erase_ne sameId] at found
      · simpa only [State.setShared, Function.update_of_ne same] using found
  | clear _ =>
      have offline : Shape (s.setControl c { s.ctl c with online := false }) :=
        shape.of_later rfl (later_setControl s ⟨rfl, rfl, rfl, fun cancelled => cancelled⟩)
          (fun _ _ _ found => found) rfl
      exact offline.setCurrent stage nofun
  | cleared _ =>
      apply shape.setSweep
      · intro d isWaiting
        exact shape.waiting isWaiting
      · intro d pc isCurrent
        cases isCurrent
  | uncount =>
      have counted : Shape { s with clientsOnline := s.clientsOnline - 1 } :=
        shape.of_same rfl rfl (fun _ => rfl) rfl
      apply counted.setSweep
      · intro d isWaiting
        exact counted.waiting isWaiting
      · intro d pc isCurrent
        cases isCurrent

theorem sweepStep (shape : Shape s) {x : Caller} {input : SweepInput} {s' : State}
    (move : sweepStep x input s = some s') : Shape s' := by
  have listed : ∀ {c rest}, (s.sweeps x).todo = c :: rest →
      ∀ d ∈ c :: rest, (s.ctl d).created = true := by
    intro c rest todo d isWaiting
    rw [← todo] at isWaiting
    exact shape.waiting isWaiting
  cases sweepStep_cases move with
  | call stage call => exact shape.teardownStep stage call
  | @begins c rest _ _ todo _ =>
      apply shape.setSweep fun d isWaiting => listed todo d (List.mem_cons_of_mem c isWaiting)
      intro d pc isCurrent
      cases isCurrent
      exact ⟨listed todo c List.mem_cons_self, fun past => absurd rfl past⟩
  | @skips c rest _ _ todo _ =>
      apply shape.setSweep fun d isWaiting => listed todo d (List.mem_cons_of_mem c isWaiting)
      intro d pc isCurrent
      cases isCurrent

/-- A list of all controls of a run names only created ones. -/
theorem of_listsControls (shape : Shape s) {e : Epoch} {entries : List StreamId}
    (lists : listsControls (s.shared e) entries = true) {c : StreamId} (isListed : c ∈ entries) :
    (s.ctl c).created = true := by
  have entriesEq := of_decide_eq_true lists
  have inMultiset : c ∈ (s.shared e).controls.entries.map Sigma.snd := by
    rw [← entriesEq]
    exact isListed
  rcases Multiset.mem_map.mp inMultiset with ⟨⟨runId, d⟩, inEntries, rfl⟩
  exact (shape.listed (Finmap.mem_lookup_iff.mpr inEntries)).1

theorem serverStep (shape : Shape s) {input : ServerInput} {s' : State}
    (move : serverStep s input = some s') : Shape s' := by
  cases serverStep_cases move with
  | stopCancel running => exact shape.of_same rfl rfl (setShared_view _ Shared.controls rfl) rfl
  | stopCollect _ lists | monitorCollect _ lists =>
      refine Shape.setSweep ?_ ?_ ?_
      · exact shape.of_same rfl rfl (fun _ => rfl) rfl
      · intro c isWaiting
        exact shape.of_listsControls lists isWaiting
      · intro c pc isCurrent
        exact shape.current isCurrent
  | accept unopened _ | openStream unopened _ _ _ =>
      apply shape.setStream
      · intro _
        exact shape.before (by rw [unopened]; rfl)
      · intro atControl
        cases atControl
  | _ => exact shape.of_same rfl rfl (fun _ => rfl) rfl

end Shape

/-! ## What the task of a stream leaves alone -/

/-- The task of stream `k` moves that stream, and may create its control; the server object, the run
tokens, the other streams and the other controls stay as they are. -/
structure OwnMove (k : StreamId) (s s' : State) : Prop where
  server : s'.server = s.server
  nextEpoch : s'.nextEpoch = s.nextEpoch
  loops : s'.loops = s.loops
  cut : ∀ e, (s'.shared e).runCancelled = (s.shared e).runCancelled
  others : ∀ d, d ≠ k → s'.streams d = s.streams d
  epoch : (s'.streams k).epoch = (s.streams k).epoch
  ctl : s'.ctl = s.ctl ∨
    ∃ control, s'.ctl = Function.update s.ctl k control ∧ control.epoch = (s.streams k).epoch

namespace OwnMove

variable {w : World} {k : StreamId} {s s' s₁ : State}

/-- An update of anything else. -/
theorem of_same (server : s'.server = s.server) (nextEpoch : s'.nextEpoch = s.nextEpoch)
    (loops : s'.loops = s.loops)
    (cut : ∀ e, (s'.shared e).runCancelled = (s.shared e).runCancelled)
    (streams : s'.streams = s.streams) (ctl : s'.ctl = s.ctl) : OwnMove k s s' where
  server := server
  nextEpoch := nextEpoch
  loops := loops
  cut := cut
  others d _ := by rw [streams]
  epoch := by rw [streams]
  ctl := .inl ctl

theorem refl (k : StreamId) (s : State) : OwnMove k s s :=
  of_same rfl rfl rfl (fun _ => rfl) rfl rfl

theorem setStream (moved : OwnMove k s s₁) {stream : Stream}
    (epoch : stream.epoch = (s₁.streams k).epoch) : OwnMove k s (s₁.setStream k stream) where
  server := moved.server
  nextEpoch := moved.nextEpoch
  loops := moved.loops
  cut := moved.cut
  others d other := by
    rw [setStream_streams_of_ne _ _ other]
    exact moved.others d other
  epoch := by
    rw [setStream_streams_self, epoch]
    exact moved.epoch
  ctl := moved.ctl

theorem goto (moved : OwnMove k s s₁) (pc : StreamPc) : OwnMove k s (s₁.goto k pc) :=
  moved.setStream rfl

theorem closeProxy {x : Closer} {c : StreamId} {name : String} {returned : Bool}
    (closed : s.closeProxy x c name = some (s₁, returned)) : OwnMove k s s₁ := by
  apply of_same
  · exact closeProxy_view closed State.server fun _ _ _ _ _ => rfl
  · exact closeProxy_view closed State.nextEpoch fun _ _ _ _ _ => rfl
  · exact closeProxy_view closed State.loops fun _ _ _ _ _ => rfl
  · exact closeProxy_runCancelled closed
  · exact closeProxy_streams closed
  · exact closeProxy_ctl closed

theorem releaseProxyPort (e : Epoch) (kind : ProxyType) (p : UInt16) (name : String) :
    OwnMove k s (s.releaseProxyPort e kind p name) :=
  of_same rfl rfl rfl (fun e' => releaseProxyPort_runCancelled s name e e' kind p) rfl rfl

theorem trySend {c : StreamId} {item : Outgoing} {way : SendVia}
    (sent : s.trySend c item way = some s₁) : OwnMove k s s₁ := by
  rcases trySend_eq sent with ⟨out, rfl⟩
  exact of_same rfl rfl rfl (fun _ => rfl) rfl rfl

theorem regStep {r : RegId} {pc : RegPc} {input : Input}
    (move : regStep w k r s pc input = some s') : OwnMove k s s' := by
  rcases regStep_cases move with ⟨s₁, next, call, rfl⟩
  cases call with
  | portHeld registered =>
      refine goto ?_ _
      refine of_same rfl rfl rfl ?_ rfl rfl
      exact setShared_view s Shared.runCancelled (registerProxyPort_runCancelled _ registered)
  | reply sent => exact (trySend sent).goto _
  | release _ _ _ | undoRelease _ _ => exact (releaseProxyPort _ _ _ _).goto _
  | undoClose closed => exact (closeProxy closed).goto _
  | _ =>
      refine goto ?_ _
      exact of_same rfl rfl rfl (fun _ => rfl) rfl rfl

theorem streamStep {pc : StreamPc} {input : Input}
    (move : streamStep w k s pc input = some s') : OwnMove k s s' := by
  cases streamStep_cases move with
  | dropped _ | login _ _ | workConn _ _ =>
      refine goto ?_ _
      apply (refl k s).setStream
      rfl
  | authorized _ =>
      apply (refl k s).setStream
      rfl
  | insert login runId poolCap =>
      unfold insertStep
      dsimp only
      refine goto ?_ _
      refine ⟨rfl, rfl, rfl, ?_, fun _ _ => rfl, rfl, .inr ⟨_, rfl, rfl⟩⟩
      intro e
      by_cases same : e = (s.streams k).epoch
      · subst same
        simp only [State.setShared, Function.update_self]
      · simp only [State.setShared, Function.update_of_ne same]
        rfl
  | pool sent | pong sent => exact (trySend sent).goto _
  | frameIgnored _ => exact refl k s
  | registering call => exact regStep call
  | closing closed => exact (closeProxy closed).goto _
  | _ =>
      refine goto ?_ _
      exact of_same rfl rfl rfl (fun _ => rfl) rfl rfl

end OwnMove

/-- The writers, the listeners and the bridges keep their hands off streams, controls, sweeps and
the shared maps. -/
structure Aside (s s' : State) : Prop where
  cfg : s'.cfg = s.cfg
  streams : s'.streams = s.streams
  ctl : s'.ctl = s.ctl
  shared : s'.shared = s.shared
  sweeps : s'.sweeps = s.sweeps
  proxies : s'.proxies = s.proxies
  closing : s'.closing = s.closing
  infos : s'.proxyInfos = s.proxyInfos
  nextReg : s'.nextReg = s.nextReg
  totalLogins : s'.totalLogins = s.totalLogins
  clientsOnline : s'.clientsOnline = s.clientsOnline
  server : s'.server = s.server
  nextEpoch : s'.nextEpoch = s.nextEpoch
  loops : s'.loops = s.loops

theorem writerStep_aside {c : StreamId} {s s' : State} {writer : Writer} {input : WriterInput}
    (move : writerStep c s writer input = some s') : ∃ out, s' = s.setOut c out := by
  cases writerStep_cases move <;> exact ⟨_, rfl⟩

theorem bridgeStep_aside {b : BridgeId} {c : StreamId} {s s' : State} {pc : BridgePc}
    {input : BridgeInput} (move : bridgeStep b c s pc input = some s') :
    Aside s s' ∧ s'.regs = s.regs := by
  rcases bridgeStep_cases move with ⟨s₁, next, step, rfl⟩
  cases step with
  | replenish sent | request sent =>
      rcases trySend_eq sent with ⟨out, rfl⟩
      exact ⟨⟨rfl, rfl, rfl, rfl, rfl, rfl, rfl, rfl, rfl, rfl, rfl, rfl, rfl, rfl⟩, rfl⟩
  | _ => exact ⟨⟨rfl, rfl, rfl, rfl, rfl, rfl, rfl, rfl, rfl, rfl, rfl, rfl, rfl, rfl⟩, rfl⟩

/-- A listener serves another user, or notices that it is cancelled and exits. -/
theorem listenerStep_aside {r : RegId} {s s' : State} {listener : Listener}
    {input : ListenerInput} (move : listenerStep r s listener input = some s') :
    Aside s s' ∧
      ((∃ kind port, listener = .running kind port ∧ s.ptkCancelled r = true ∧
          s'.regs = Function.update s.regs r
            { s.regs r with listener := .exited kind port }) ∨
        s'.regs = s.regs ∨
        ∃ worker, s'.regs = Function.update s.regs r { s.regs r with worker := worker }) := by
  have aside : Aside s s' := by
    cases listenerStep_cases move <;>
      exact ⟨rfl, rfl, rfl, rfl, rfl, rfl, rfl, rfl, rfl, rfl, rfl, rfl, rfl, rfl⟩
  refine ⟨aside, ?_⟩
  cases listenerStep_cases move with
  | exit _ cut => exact .inl ⟨_, _, rfl, cut, rfl⟩
  | accept port => exact .inr (.inl rfl)
  | serve _ _ => exact .inr (.inr ⟨_, rfl⟩)

theorem Shape.aside {s s' : State} (shape : Shape s) (aside : Aside s s') : Shape s' :=
  shape.of_same aside.streams aside.ctl (fun e => by rw [aside.shared]) aside.sweeps

/-- One step of any task. -/
theorem Shape.step {s s' : State} {w : World} {a : Action} (shape : Shape s)
    (move : step w a s = some s') : Shape s' := by
  cases a with
  | server input => exact shape.serverStep move
  | stream k input =>
      rcases Option.ite_none_right_eq_some.mp move with ⟨_, moved⟩
      exact shape.streamStep moved
  | sweep x input => exact shape.sweepStep move
  | writer c input =>
      rcases writerStep_aside move with ⟨out, rfl⟩
      exact shape.of_same rfl rfl (fun _ => rfl) rfl
  | listener r input => exact shape.aside (listenerStep_aside move).1
  | bridge b input => exact shape.aside (bridgeStep_aside move).1

/-- In every state any run reaches, the bookkeeping is in shape. -/
theorem server_shape {w : World} {allowed : State → Action → Prop} {s : State}
    (run : (server w).Reaches allowed s) : Shape s := by
  refine run.invariant ?_ ?_
  · rintro s ⟨cfg, rfl⟩
    constructor <;> simp [State.new, StreamPc.inControl]
  · intro s a s' _ shape _ move
    exact shape.step move

end Remgr.Frps.Server
