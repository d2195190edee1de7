/-
Module: Remgr.Proofs.Stopping
Purpose: What `stop` leaves behind, and that nothing can keep it from returning. A run that is over
  has no accept loop, no monitor and no call of `teardown` of theirs, all of its controls are cut
  off for good, and none of them takes another NewProxy; the maps of a run that has yet to start are
  empty. From every state in which `stop` is under way, its own steps, those of the two loops it
  waits for and those of the tasks inside `close_proxy` lead to its return, whatever the clients do
  or fail to do.
Trusted boundary: none
Main exports: ServerPc.epoch, Tidy, server_tidy, stopped_run_quiet, Sweeps, sweep_ends,
  stop_can_finish
-/
import Remgr.Proofs.CloseLocks
import Remgr.Proofs.CutOff

namespace Remgr.Frps.Server

open Remgr.Lib

/-- The run that the server object is in. -/
def ServerPc.epoch : ServerPc → Option Epoch
  | .idle => none
  | .running e | .stopping e _ => some e

/-- What belongs to a run is there only while the run goes on. -/
structure Tidy (s : State) : Prop where
  known : ∀ ⦃e⦄, s.server.epoch = some e → e < s.nextEpoch
  accepting : ∀ ⦃e⦄, (s.loops e).accepting = true → s.server.epoch = some e
  monitor : ∀ ⦃e⦄, (s.loops e).monitor ≠ .over → s.server.epoch = some e
  stops : ∀ ⦃e⦄, (s.sweeps (.stop e)).idle = false → s.server = .stopping e true
  rounds : ∀ ⦃e⦄, (s.sweeps (.monitor e)).idle = false →
    ∃ timeout, (s.loops e).monitor = .sweeping timeout
  unused : ∀ ⦃e⦄, s.nextEpoch ≤ e → s.shared e = {}

/-! ## Maps of other runs -/

section Shared

variable {w : World} {s s' : State} {a : Action}

theorem setShared_shared_of_ne {e e' : Epoch} (other : e' ≠ e) (shared : Shared) :
    (s.setShared e shared).shared e' = s.shared e' :=
  Function.update_of_ne other ..

theorem closeProxy_shared_of_ne {x : Closer} {c : StreamId} {name : String} {returned : Bool}
    (closed : s.closeProxy x c name = some (s', returned)) {e : Epoch}
    (other : e ≠ (s.ctl c).epoch) : s'.shared e = s.shared e := by
  cases closeProxy_cases closed with
  | released _ => exact setShared_shared_of_ne other _
  | _ => rfl

/-- The maps of a run that nobody has started stay as they are. -/
theorem step_unused (shape : Shape s) (epochs : Epochs s) (tidy : Tidy s)
    (move : step w a s = some s') {e : Epoch} (unused : s.nextEpoch ≤ e) :
    s'.shared e = s.shared e := by
  have away : ∀ {c}, (s.ctl c).created = true → e ≠ (s.ctl c).epoch := by
    rintro c created rfl
    exact Nat.not_lt.mpr unused (epochs.created created)
  cases a with
  | server input =>
      cases serverStep_cases move with
      | @stopCancel e' running =>
          refine setShared_shared_of_ne ?_ _
          rintro rfl
          exact Nat.not_lt.mpr unused (tidy.known (by rw [running]; rfl))
      | _ => rfl
  | stream k input =>
      rcases Option.ite_none_right_eq_some.mp move with ⟨_, moved⟩
      have opened : (s.streams k).pc ≠ .unopened := by
        intro unopened
        rw [unopened] at moved
        cases input <;> cases moved
      have elsewhere : e ≠ (s.streams k).epoch := by
        rintro rfl
        exact Nat.not_lt.mpr unused (epochs.opened opened)
      have inControl : (s.streams k).pc.inControl = true → e ≠ (s.ctl k).epoch :=
        fun inside => away (shape.inControl inside)
      generalize (s.streams k).pc = pc at moved inControl
      cases streamStep_cases moved with
      | insert login runId poolCap => exact setShared_shared_of_ne elsewhere _
      | pool sent | pong sent =>
          rcases trySend_eq sent with ⟨out, rfl⟩
          rfl
      | registering call =>
          rcases regStep_cases call with ⟨s₁, next, step, rfl⟩
          cases step with
          | reply sent =>
              rcases trySend_eq sent with ⟨out, rfl⟩
              rfl
          | portHeld _ | release _ _ _ | undoRelease _ _ =>
              exact setShared_shared_of_ne (inControl rfl) _
          | undoClose closed =>
              have kept := closeProxy_shared_of_ne closed (inControl rfl)
              exact kept
          | _ => rfl
      | closing closed =>
          have kept := closeProxy_shared_of_ne closed (inControl rfl)
          exact kept
      | _ => rfl
  | sweep x input =>
      cases sweepStep_cases move with
      | @call c pc _ _ _ stage call =>
          have other := away (shape.current stage).1
          cases call with
          | close closed =>
              have kept := closeProxy_shared_of_ne closed other
              exact kept
          | remove => exact setShared_shared_of_ne other _
          | _ => rfl
      | begins _ _ _ | skips _ _ _ => rfl
  | writer c input =>
      rcases writerStep_aside move with ⟨out, rfl⟩
      rfl
  | listener r input => rw [(listenerStep_aside move).1.shared]
  | bridge b input => rw [(bridgeStep_aside move).1.shared]

end Shared

/-! ## Callers of `teardown` -/

/-- A caller of `teardown` moves alone: the server object, its loops, the run tokens and the other
callers stay as they are. -/
structure OwnSweep (x : Caller) (s s' : State) : Prop extends Beside s s' where
  others : ∀ y, y ≠ x → s'.sweeps y = s.sweeps y

namespace OwnSweep

variable {x : Caller} {s s' : State}

theorem setSweep (own : OwnSweep x s s') (sweep : Sweep) : OwnSweep x s (s'.setSweep x sweep) where
  server := own.server
  nextEpoch := own.nextEpoch
  loops := own.loops
  cut := own.cut
  others y other := (setSweep_sweeps_of_ne _ _ other _).trans (own.others y other)

theorem sweepStep {input : SweepInput} (move : sweepStep x input s = some s') : OwnSweep x s s' := by
  cases sweepStep_cases move with
  | @call c _ _ _ _ stage call =>
      refine setSweep ?_ _
      cases call with
      | close closed => exact ⟨.closeProxy closed, fun y _ => congrFun (closeProxy_sweeps closed) y⟩
      | remove => exact ⟨⟨rfl, rfl, rfl, setShared_view s Shared.runCancelled rfl⟩, fun _ _ => rfl⟩
      | _ => exact ⟨⟨rfl, rfl, rfl, fun _ => rfl⟩, fun _ _ => rfl⟩
  | begins _ _ _ | skips _ _ _ => exact setSweep ⟨.refl s, fun _ _ => rfl⟩ _

end OwnSweep

/-! ## The server object and its loops -/

section Steps

variable {w : World} {s s' : State} {a : Action}

/-- The server object and its loops are as they were, and nobody but a caller that was busy before
has got anything to do. -/
theorem Tidy.of_same (tidy : Tidy s) (server : s'.server = s.server)
    (nextEpoch : s'.nextEpoch = s.nextEpoch) (loops : s'.loops = s.loops)
    (stops : ∀ e, (s'.sweeps (.stop e)).idle = false → (s.sweeps (.stop e)).idle = false)
    (rounds : ∀ e, (s'.sweeps (.monitor e)).idle = false → (s.sweeps (.monitor e)).idle = false)
    (unused : ∀ e, s.nextEpoch ≤ e → s'.shared e = s.shared e) : Tidy s' := by
  constructor
  · rw [server, nextEpoch]
    exact tidy.known
  · rw [server, loops]
    exact tidy.accepting
  · rw [server, loops]
    exact tidy.monitor
  · intro e busy
    rw [server]
    exact tidy.stops (stops e busy)
  · intro e busy
    rw [loops]
    exact tidy.rounds (rounds e busy)
  · intro e later
    rw [nextEpoch] at later
    rw [unused e later]
    exact tidy.unused later

theorem setLoops_loops_self (s : State) (e : Epoch) (loops : Loops) :
    (s.setLoops e loops).loops e = loops :=
  Function.update_self ..

/-- The loops of one run change. -/
theorem Tidy.setLoops (tidy : Tidy s) {e : Epoch} {loops : Loops}
    (accepting : loops.accepting = true → s.server.epoch = some e)
    (monitor : loops.monitor ≠ .over → s.server.epoch = some e)
    (rounds : (s.sweeps (.monitor e)).idle = false → ∃ timeout, loops.monitor = .sweeping timeout) :
    Tidy (s.setLoops e loops) := by
  have own := setLoops_loops_self s e loops
  have others : ∀ {e'}, e' ≠ e → (s.setLoops e loops).loops e' = s.loops e' :=
    fun other => Function.update_of_ne other ..
  constructor
  · exact tidy.known
  · intro e' on
    by_cases same : e' = e
    · subst same
      exact accepting (own ▸ on)
    · exact tidy.accepting (others same ▸ on)
  · intro e' on
    by_cases same : e' = e
    · subst same
      exact monitor (own ▸ on)
    · exact tidy.monitor (others same ▸ on)
  · exact tidy.stops
  · intro e' busy
    by_cases same : e' = e
    · subst same
      rw [own]
      exact rounds busy
    · rw [others same]
      exact tidy.rounds busy
  · exact tidy.unused

/-- A caller gets its list. -/
theorem Tidy.setSweep (tidy : Tidy s) {x : Caller} {sweep : Sweep}
    (stops : ∀ e, x = .stop e → sweep.idle = false → s.server = .stopping e true)
    (rounds : ∀ e, x = .monitor e → sweep.idle = false →
      ∃ timeout, (s.loops e).monitor = .sweeping timeout) : Tidy (s.setSweep x sweep) := by
  constructor
  · exact tidy.known
  · exact tidy.accepting
  · exact tidy.monitor
  · intro e busy
    by_cases own : Caller.stop e = x
    · rw [← own, setSweep_sweeps_self] at busy
      exact stops e own.symm busy
    · rw [setSweep_sweeps_of_ne _ _ own] at busy
      exact tidy.stops busy
  · intro e busy
    by_cases own : Caller.monitor e = x
    · rw [← own, setSweep_sweeps_self] at busy
      exact rounds e own.symm busy
    · rw [setSweep_sweeps_of_ne _ _ own] at busy
      exact tidy.rounds busy
  · exact tidy.unused

/-- A monitor that is between two rounds is there, and has nothing left to look at. -/
theorem Tidy.free (tidy : Tidy s) {e : Epoch} (free : monitorFree s e = true) :
    (s.loops e).monitor ≠ .over ∧ (s.sweeps (.monitor e)).idle = true := by
  unfold monitorFree at free
  split at free
  · next resting =>
      refine ⟨by rw [resting]; nofun, ?_⟩
      by_contra busy
      rcases tidy.rounds (Bool.eq_false_of_not_eq_true busy) with ⟨timeout, sweeping⟩
      cases resting.symm.trans sweeping
  · next sweeping => exact ⟨by rw [sweeping]; nofun, free⟩
  · cases free

/-- The server object goes on with the same run, or is about to leave one that has been tidied. -/
theorem Tidy.setServer (tidy : Tidy s) {pc : ServerPc}
    (same : pc.epoch = s.server.epoch)
    (stops : ∀ e, (s.sweeps (.stop e)).idle = false → pc = .stopping e true) :
    Tidy { s with server := pc } := by
  constructor
  · intro e current
    exact tidy.known (same.symm.trans current)
  · intro e on
    exact same.trans (tidy.accepting on)
  · intro e on
    exact same.trans (tidy.monitor on)
  · intro e busy
    exact stops e busy
  · exact tidy.rounds
  · exact tidy.unused

theorem Tidy.start (tidy : Tidy s) (idle : s.server = .idle) :
    Tidy ({ s with server := .running s.nextEpoch, nextEpoch := s.nextEpoch + 1 }.setLoops
      s.nextEpoch { accepting := true, monitor := .resting }) := by
  have nobody : ∀ {e}, s.server.epoch ≠ some e := by
    intro e
    rw [idle]
    nofun
  have others : ∀ {e : Epoch} {loops : Loops}, e ≠ s.nextEpoch →
      Function.update s.loops s.nextEpoch loops e = s.loops e :=
    fun other => Function.update_of_ne other ..
  constructor
  · intro e current
    cases current
    exact Nat.lt_succ_self _
  · intro e on
    change (Function.update s.loops s.nextEpoch _ e).accepting = true at on
    by_cases own : e = s.nextEpoch
    · subst own
      rfl
    · rw [others own] at on
      exact absurd (tidy.accepting on) nobody
  · intro e on
    change (Function.update s.loops s.nextEpoch _ e).monitor ≠ .over at on
    by_cases own : e = s.nextEpoch
    · subst own
      rfl
    · rw [others own] at on
      exact absurd (tidy.monitor on) nobody
  · intro e busy
    have stopping := tidy.stops (e := e) busy
    cases idle.symm.trans stopping
  · intro e busy
    rcases tidy.rounds (e := e) busy with ⟨timeout, sweeping⟩
    exact absurd (tidy.monitor (by rw [sweeping]; nofun)) nobody
  · intro e later
    exact tidy.unused (Nat.le_of_succ_le later)

theorem Tidy.serverStep (tidy : Tidy s) {input : ServerInput}
    (unused : ∀ e, s.nextEpoch ≤ e → s'.shared e = s.shared e)
    (move : serverStep s input = some s') : Tidy s' := by
  cases serverStep_cases move with
  | updateConfig cfg | accept _ _ | openStream _ _ _ _ =>
      exact tidy.of_same rfl rfl rfl (fun _ busy => busy) (fun _ busy => busy) (fun _ _ => rfl)
  | start idle port => exact tidy.start idle
  | @stopCancel e running =>
      have stays : Tidy { s with server := .stopping e false } := by
        refine tidy.setServer (by rw [running]; rfl) ?_
        intro e' busy
        cases running.symm.trans (tidy.stops busy)
      exact stays.of_same rfl rfl rfl (fun _ busy => busy) (fun _ busy => busy) unused
  | @stopCollect e entries stopping lists =>
      have stays : Tidy { s with server := .stopping e true } := by
        refine tidy.setServer (by rw [stopping]; rfl) ?_
        intro e' busy
        cases stopping.symm.trans (tidy.stops busy)
      refine stays.setSweep ?_ nofun
      intro e' same _
      cases same
      rfl
  | @stopFinish e stopping idle accepting monitor =>
      -- whatever belongs to a run belongs to this one, and it has been checked to be over
      have current : ∀ {e'}, s.server.epoch = some e' → e' = e := by
        intro e' current
        rw [stopping] at current
        cases current
        rfl
      constructor
      · intro e' current
        cases current
      · intro e' on
        cases current (tidy.accepting on)
        cases accepting.symm.trans on
      · intro e' on
        cases current (tidy.monitor on)
        exact absurd monitor on
      · intro e' busy
        have still := tidy.stops (e := e') busy
        cases stopping.symm.trans still
        cases idle.symm.trans busy
      · exact tidy.rounds
      · exact tidy.unused
  | @acceptExit e cancelled =>
      exact tidy.setLoops nofun (fun on => tidy.monitor on) fun busy => tidy.rounds busy
  | @monitorTick e free timeout =>
      have own := tidy.monitor (tidy.free free).1
      refine tidy.setLoops (fun _ => own) (fun _ => own) ?_
      intro busy
      cases (tidy.free free).2.symm.trans busy
  | @monitorCollect e entries timeout ticked lists =>
      have own := tidy.monitor (e := e) (by rw [ticked]; nofun)
      have sweeping : Tidy (s.setLoops e { s.loops e with monitor := .sweeping timeout }) :=
        tidy.setLoops (fun _ => own) (fun _ => own) fun _ => ⟨timeout, rfl⟩
      refine sweeping.setSweep nofun ?_
      intro e' same _
      cases same
      refine ⟨timeout, ?_⟩
      rw [setLoops_loops_self]
  | @monitorExit e cancelled free =>
      refine tidy.setLoops (fun on => tidy.accepting on) nofun ?_
      intro busy
      cases (tidy.free free).2.symm.trans busy

theorem Tidy.step (tidy : Tidy s) (shape : Shape s) (epochs : Epochs s)
    (move : Server.step w a s = some s') : Tidy s' := by
  have unused : ∀ e, s.nextEpoch ≤ e → s'.shared e = s.shared e :=
    fun e later => step_unused shape epochs tidy move later
  cases a with
  | server input => exact tidy.serverStep unused move
  | stream k input =>
      rcases Option.ite_none_right_eq_some.mp move with ⟨_, moved⟩
      have own := OwnMove.streamStep moved
      have others : ∀ x : Caller, (∀ k, x ≠ .stream k) → s'.sweeps x = s.sweeps x := by
        intro x other
        cases streamStep_sweeps moved with
        | same sweeps => rw [sweeps]
        | lookup id stage => exact Function.update_of_ne (other k) ..
        | ends stage ends => exact Function.update_of_ne (other k) ..
      refine tidy.of_same own.server own.nextEpoch own.loops ?_ ?_ unused
      · intro e busy
        rw [others (.stop e) nofun] at busy
        exact busy
      · intro e busy
        rw [others (.monitor e) nofun] at busy
        exact busy
  | sweep x input =>
      have busy : (s.sweeps x).idle = false := by
        by_contra idle
        have stuck : sweepStep x input s = none :=
          sweepStep_idle (Bool.eq_true_of_not_eq_false idle)
        cases stuck.symm.trans move
      have turn := OwnSweep.sweepStep move
      refine tidy.of_same turn.server turn.nextEpoch turn.loops ?_ ?_ unused
      · intro e after
        by_cases own : Caller.stop e = x
        · subst own
          exact busy
        · rw [turn.others _ own] at after
          exact after
      · intro e after
        by_cases own : Caller.monitor e = x
        · subst own
          exact busy
        · rw [turn.others _ own] at after
          exact after
  | writer c input =>
      rcases writerStep_aside move with ⟨out, rfl⟩
      exact tidy.of_same rfl rfl rfl (fun _ busy => busy) (fun _ busy => busy) unused
  | listener r input =>
      have aside := (listenerStep_aside move).1
      refine tidy.of_same aside.server aside.nextEpoch aside.loops ?_ ?_ unused <;>
        rw [aside.sweeps] <;> exact fun _ busy => busy
  | bridge b input =>
      have aside := (bridgeStep_aside move).1
      refine tidy.of_same aside.server aside.nextEpoch aside.loops ?_ ?_ unused <;>
        rw [aside.sweeps] <;> exact fun _ busy => busy

/-- The server object gets into a run by `start`, and into a new one. -/
theorem step_epoch (move : Server.step w a s = some s') : s.nextEpoch ≤ s'.nextEpoch ∧
    (s'.server.epoch = s.server.epoch ∨ s'.server.epoch = none ∨
      s'.server.epoch = some s.nextEpoch) := by
  have same : s'.server = s.server → s'.nextEpoch = s.nextEpoch → s.nextEpoch ≤ s'.nextEpoch ∧
      (s'.server.epoch = s.server.epoch ∨ s'.server.epoch = none ∨
        s'.server.epoch = some s.nextEpoch) := by
    intro server nextEpoch
    rw [server]
    exact ⟨nextEpoch.ge, .inl rfl⟩
  cases a with
  | server input =>
      cases serverStep_cases move with
      | start _ _ => exact ⟨Nat.le_succ _, .inr (.inr rfl)⟩
      | stopCancel before | stopCollect before _ =>
          refine ⟨le_rfl, .inl ?_⟩
          rw [before]
          rfl
      | stopFinish _ _ _ _ => exact ⟨le_rfl, .inr (.inl rfl)⟩
      | _ => exact same rfl rfl
  | stream k input =>
      rcases Option.ite_none_right_eq_some.mp move with ⟨_, moved⟩
      exact same (OwnMove.streamStep moved).server (OwnMove.streamStep moved).nextEpoch
  | sweep x input => exact same (OwnSweep.sweepStep move).server (OwnSweep.sweepStep move).nextEpoch
  | writer c input =>
      rcases writerStep_aside move with ⟨out, rfl⟩
      exact same rfl rfl
  | listener r input =>
      have aside := (listenerStep_aside move).1
      exact same aside.server aside.nextEpoch
  | bridge b input =>
      have aside := (bridgeStep_aside move).1
      exact same aside.server aside.nextEpoch

end Steps

/-! ## A run that is over -/

theorem server_tidy {w : World} {allowed : State → Action → Prop} {s : State}
    (run : (server w).Reaches allowed s) : Tidy s := by
  refine run.invariant ?_ ?_
  · rintro s ⟨cfg, rfl⟩
    constructor
    · intro e current
      cases current
    · intro e on
      cases on
    · intro e on
      exact absurd rfl on
    · intro e busy
      cases busy
    · intro e busy
      cases busy
    · intro e _
      rfl
  · intro s a s' before tidy _ move
    exact tidy.step (server_shape before) (server_epochs before) move

/-- The run `e` is over: its two loops have ended, nobody tears anything down for them, and its
controls are cut off. -/
structure State.Over (s : State) (e : Epoch) : Prop where
  server : s.server.epoch ≠ some e
  accepting : (s.loops e).accepting = false
  monitor : (s.loops e).monitor = .over
  stops : (s.sweeps (.stop e)).idle = true
  rounds : (s.sweeps (.monitor e)).idle = true
  cut : ∀ c, (s.ctl c).created = true → (s.ctl c).epoch = e → s.tokenCancelled c = true

/-- A run that has been started and is not the one of the server object is over. -/
theorem Tidy.past {s : State} (tidy : Tidy s) (epochs : Epochs s) {e : Epoch}
    (started : e < s.nextEpoch) (left : s.server.epoch ≠ some e) : s.Over e where
  server := left
  accepting := by
    by_contra on
    exact left (tidy.accepting (Bool.eq_true_of_not_eq_false on))
  monitor := by
    by_contra on
    exact left (tidy.monitor on)
  stops := by
    by_contra busy
    have stopping := tidy.stops (Bool.eq_false_of_not_eq_true busy)
    exact left (by rw [stopping]; rfl)
  rounds := by
    by_contra busy
    rcases tidy.rounds (Bool.eq_false_of_not_eq_true busy) with ⟨timeout, sweeping⟩
    exact left (tidy.monitor (by rw [sweeping]; nofun))
  cut c created own := by
    have cancelled : (s.shared e).runCancelled = true := by
      by_contra going
      have running := epochs.current started (Bool.eq_false_of_not_eq_true going)
      exact left (by rw [running]; rfl)
    rw [State.tokenCancelled, own, cancelled, Bool.or_true]

/-- A run that `stop` has returned from stays over, however the server goes on: its loops have
ended, its controls are cut off, and none of them takes another NewProxy. The run that is started
next finds empty maps. -/
theorem stopped_run_quiet {w : World} {s s' : State} {e : Epoch} (run : (server w).Reachable s)
    (started : e < s.nextEpoch) (left : s.server.epoch ≠ some e)
    (onward : ((server w).startedAt s).Reachable s') :
    s'.Over e ∧ s'.shared s'.nextEpoch = {} ∧
      ∀ r, s.nextReg ≤ r → r < s'.nextReg → (s'.ctl (s'.regs r).control).epoch ≠ e := by
  let Past (t : State) : Prop := e < t.nextEpoch ∧ t.server.epoch ≠ some e ∧
    ∀ r, s.nextReg ≤ r → r < t.nextReg →
      (t.ctl (t.regs r).control).created = true ∧ (t.ctl (t.regs r).control).epoch ≠ e
  have past : Past s' := by
    refine onward.invariant ?_ ?_
    · rintro _ rfl
      exact ⟨started, left, fun r later known => absurd known (Nat.not_lt.mpr later)⟩
    · rintro t a t' before ⟨startedNow, leftNow, taken⟩ _ move
      have reached := run.trans before
      have shape := server_shape reached
      have epoch := step_epoch move
      refine ⟨startedNow.trans_le epoch.1, ?_, ?_⟩
      · rcases epoch.2 with same | none | new
        · rw [same]
          exact leftNow
        · rw [none]
          nofun
        · rw [new]
          intro same
          cases same
          exact Nat.lt_irrefl _ startedNow
      · intro r later known
        have homes := step_homes move
        have old : r < t.nextReg → (t'.ctl (t'.regs r).control).created = true ∧
            (t'.ctl (t'.regs r).control).epoch ≠ e := by
          intro before
          rcases taken r later before with ⟨created, other⟩
          rw [homes.control r before, (step_later shape move created).created,
            (step_later shape move created).epoch]
          exact ⟨created, other⟩
        rcases step_registers move with same | ⟨k, np, entering, alive, rfl⟩
        · exact old (same ▸ known)
        · rcases Nat.lt_succ_iff_lt_or_eq.mp known with before | rfl
          · exact old before
          · have created : (t.ctl k).created = true := shape.inControl (by rw [entering]; rfl)
            have home : (Function.update t.regs t.nextReg { control := k, np := np }
                t.nextReg).control = k := by
              rw [Function.update_self]
            change (t.ctl (Function.update t.regs t.nextReg _ t.nextReg).control).created = true ∧
              (t.ctl (Function.update t.regs t.nextReg _ t.nextReg).control).epoch ≠ e
            rw [home]
            refine ⟨created, ?_⟩
            intro own
            have quiet := (server_tidy reached).past (server_epochs reached) startedNow leftNow
            cases alive.symm.trans (quiet.cut k created own)
  have reached := run.trans onward
  have tidy := server_tidy reached
  exact ⟨tidy.past (server_epochs reached) past.1 past.2.1, tidy.unused le_rfl,
    fun r later known => (past.2.2 r later known).2⟩

/-- The server is stopped with one client logged in. -/
def stopRun : List Action :=
  .server .start :: (loginRun 1 "one" ++ [.server .stopCancel])

/-- It goes on to the end. -/
def stoppedRun : List Action :=
  stopRun ++ [.server (.stopCollect [1]), .sweep (.stop 0) (.idle 0), .sweep (.stop 0) .go,
    .sweep (.stop 0) .go, .sweep (.stop 0) .go, .sweep (.stop 0) (.names []), .sweep (.stop 0) .go,
    .sweep (.stop 0) .go, .sweep (.stop 0) .go, .sweep (.stop 0) .go, .server (.acceptExit 0),
    .server (.monitorExit 0), .server .stopFinish]

/-- The run of the one client is over for good. -/
theorem stopped_run_quiet_sample :
    ∃ s, (server sampleWorld).Reachable s ∧ (s.ctl 1).created = true ∧
      ∀ s', ((server sampleWorld).startedAt s).Reachable s' → s'.Over 0 := by
  rcases sample_reaches stoppedRun
    (fun s => (s.ctl 1).created && decide (s.server = .idle ∧ s.nextEpoch = 1)) (by decide +kernel)
    with ⟨s, run, shown⟩
  rw [Bool.and_eq_true, decide_eq_true_eq] at shown
  rcases shown with ⟨created, idle, epochs⟩
  refine ⟨s, run, created, fun s' onward => ?_⟩
  refine (stopped_run_quiet run ?_ ?_ onward).1
  · rw [epochs]
    exact Nat.zero_lt_one
  · rw [idle]
    nofun

/-! ## Getting to the end of a stop -/

section Sweeps

variable {w : World} {x : Caller} {s s' s₁ : State}

/-- A step of one caller of `teardown`, or of a task that has locked the names of a control. -/
def Sweeping (x : Caller) (s : State) (a : Action) : Prop :=
  (∃ input, a = .sweep x input) ∨ ∃ c, Releases c s a

/-- What has gone on beside the other callers: those that were idle are as they were. -/
structure OthersIdle (x : Caller) (s s' : State) : Prop extends Beside s s' where
  idle : ∀ y, y ≠ x → (s.sweeps y).idle = true → s'.sweeps y = s.sweeps y

namespace OthersIdle

theorem refl (x : Caller) (s : State) : OthersIdle x s s := ⟨.refl s, fun _ _ _ => rfl⟩

theorem trans (first : OthersIdle x s s₁) (second : OthersIdle x s₁ s') : OthersIdle x s s' where
  toBeside := first.toBeside.trans second.toBeside
  idle y other idle := by
    have same := first.idle y other idle
    exact (second.idle y other (by rw [same]; exact idle)).trans same

theorem sweepStep {input : SweepInput} (move : sweepStep x input s = some s') :
    OthersIdle x s s' :=
  have own := OwnSweep.sweepStep move
  ⟨own.toBeside, fun y other _ => own.others y other⟩

end OthersIdle

/-- The caller can get from `s` to a state with this list left to do; of the others only those have
to move that have locked the names of a control. -/
def Sweeps (w : World) (x : Caller) (todo : List StreamId) (s : State) : Prop :=
  ∃ s', ((server w).startedAt s).Reaches (Sweeping x) s' ∧ OthersIdle x s s' ∧
    s'.sweeps x = { todo := todo, current := none }

theorem Sweeps.of_run {todo : List StreamId}
    (run : ((server w).startedAt s).Reaches (Sweeping x) s₁)
    (others : OthersIdle x s s₁) (ends : Sweeps w x todo s₁) : Sweeps w x todo s := by
  rcases ends with ⟨s', onward, others', left⟩
  exact ⟨s', run.trans onward, others.trans others', left⟩

/-- A first step of the caller, and then the others. -/
theorem Sweeps.of_step {todo : List StreamId} {input : SweepInput}
    (move : sweepStep x input s = some s₁) (ends : Sweeps w x todo s₁) : Sweeps w x todo s :=
  .of_run (.next (.start rfl) (.inl ⟨input, rfl⟩) (a := .sweep x input) move) (.sweepStep move) ends

/-- The caller waits until the names of a control that another task has locked are released. -/
theorem Sweeps.of_unlocked {todo : List StreamId} (run : (server w).Reachable s) (c : StreamId)
    (foreign : ∀ call, s.closing c = some call → call.closer ≠ .teardown x)
    (ends : ∀ s₁, (server w).Reachable s₁ → s₁.sweeps x = s.sweeps x → s₁.closing c = none →
      Sweeps w x todo s₁) : Sweeps w x todo s := by
  rcases lock_released run c with ⟨s₁, onward, beside, sweeps, free⟩
  have others : OthersIdle x s s₁ := by
    refine ⟨beside, fun y _ idle => sweeps y ?_⟩
    intro call held mine
    -- a caller that has locked something is in the middle of a teardown
    have here := server_locked run c call held
    rw [mine] at here
    rcases here with ⟨rest, current⟩
    rw [Sweep.idle, current] at idle
    simp at idle
  have reached := run.trans (onward.weaken fun _ => trivial)
  exact .of_run (onward.weaken fun releases => .inr ⟨c, releases⟩) others
    (ends s₁ reached (sweeps x foreign) free)

/-- A call of `teardown` at this stage can be completed, from every state that is reached. -/
def Completes (w : World) (x : Caller) (c : StreamId) (pc : TeardownPc) : Prop :=
  ∀ (s : State) (todo : List StreamId), (server w).Reachable s →
    s.sweeps x = { todo := todo, current := some (c, pc) } → Sweeps w x todo s

/-- It is enough that the caller can make one step that ends the call, or leads to a stage from
which it can be completed. -/
theorem Sweeps.of_teardownStep {c : StreamId} {pc : TeardownPc} {todo : List StreamId}
    (run : (server w).Reachable s) (stage : s.sweeps x = { todo := todo, current := some (c, pc) })
    {input : SweepInput} {next : Option TeardownPc}
    (step : teardownStep x c s pc input =
      some (s₁.setSweep x { s.sweeps x with current := next.map (c, ·) }))
    (further : ∀ pc' ∈ next, Completes w x c pc') : Sweeps w x todo s := by
  have move : sweepStep x input s =
      some (s₁.setSweep x { s.sweeps x with current := next.map (c, ·) }) := by
    have current : (s.sweeps x).current = some (c, pc) := by rw [stage]
    unfold sweepStep
    rw [current]
    exact step
  refine .of_step move ?_
  have after : (s₁.setSweep x { s.sweeps x with current := next.map (c, ·) }).sweeps x =
      { todo := todo, current := next.map (c, ·) } := by
    rw [setSweep_sweeps_self, stage]
  cases next with
  | none => exact ⟨_, .start rfl, .refl x _, after⟩
  | some pc' => exact further pc' rfl _ _ (run.next trivial (a := .sweep x input) move) after

theorem Completes.of_step {c : StreamId} {pc : TeardownPc}
    (goes : ∀ s : State, ∃ (input : SweepInput) (s₁ : State) (next : Option TeardownPc),
      teardownStep x c s pc input =
        some (s₁.setSweep x { s.sweeps x with current := next.map (c, ·) }) ∧
      ∀ pc' ∈ next, Completes w x c pc') : Completes w x c pc := by
  intro s todo run stage
  rcases goes s with ⟨input, s₁, next, step, further⟩
  exact .of_teardownStep run stage step further

theorem Completes.onward {c : StreamId} {pc : TeardownPc} (completes : Completes w x c pc) :
    ∀ pc' ∈ some pc, Completes w x c pc' := by
  rintro _ ⟨⟩
  exact completes

/-- The names are listed once nobody has locked them. -/
theorem collect_completes {c : StreamId} (close : ∀ names, Completes w x c (.close names)) :
    Completes w x c .collect := by
  intro s todo run stage
  refine .of_unlocked run c ?_ ?_
  · intro call held mine
    have here := server_locked run c call held
    rw [mine] at here
    rcases here with ⟨rest, current⟩
    rw [stage] at current
    cases current
  · intro s₁ run₁ same free
    have listed : teardownStep x c s₁ .collect (.names (s₁.proxies c).keys.toList) = some
        (s₁.setSweep x { s₁.sweeps x with
          current := some (c, .close (s₁.proxies c).keys.toList) }) := by
      refine if_pos ⟨?_, Finset.nodup_toList _, Finset.toList_toFinset _⟩
      exact Option.isNone_iff_eq_none.mpr free
    exact .of_teardownStep run₁ (same.trans stage) listed (close _).onward

/-- A name is closed once nobody else has locked the names: first the steps of a call that has
locked them, by induction on those it has still to make, and from these the whole call. -/
theorem close_completes {c : StreamId} {name : String} {rest : List String}
    (further : Completes w x c (.close rest)) : Completes w x c (.close (name :: rest)) := by
  have goes : ∀ {s s₁ : State} {todo : List StreamId} {returned : Bool}, (server w).Reachable s →
      s.sweeps x = { todo := todo, current := some (c, .close (name :: rest)) } →
      s.closeProxy (.teardown x) c name = some (s₁, returned) →
      (returned = false → ∀ s', (server w).Reachable s' → s'.closing = s₁.closing →
        s'.sweeps x = { todo := todo, current := some (c, .close (name :: rest)) } →
        Sweeps w x todo s') → Sweeps w x todo s := by
    intro s s₁ todo returned run stage closed again
    have step : teardownStep x c s (.close (name :: rest)) .go = some (s₁.setSweep x
        { s.sweeps x with
          current := some (c, .close (if returned then rest else name :: rest)) }) := by
      simp only [teardownStep, closed, Option.map_some]
    have move : sweepStep x .go s = some (s₁.setSweep x
        { s.sweeps x with
          current := some (c, .close (if returned then rest else name :: rest)) }) := by
      have current : (s.sweeps x).current = some (c, .close (name :: rest)) := by rw [stage]
      unfold sweepStep
      rw [current]
      exact step
    have reached : (server w).Reachable _ := run.next trivial (a := .sweep x .go) move
    refine .of_step move ?_
    cases returned with
    | true =>
        refine further _ _ reached ?_
        rw [setSweep_sweeps_self, stage]
        rfl
    | false =>
        refine again rfl _ reached rfl ?_
        rw [setSweep_sweeps_self, stage]
        rfl
  have inside : ∀ {call : Closing} {s : State} {todo : List StreamId}, (server w).Reachable s →
      s.sweeps x = { todo := todo, current := some (c, .close (name :: rest)) } →
      s.closing c = some call → call.closer = .teardown x → Sweeps w x todo s := by
    intro call
    induction size : call.pc.left using Nat.strongRecOn generalizing call with
    | ind n inductionHypothesis =>
        intro s todo run stage held mine
        have here := server_locked run c call held
        rw [mine] at here
        rcases here with ⟨rest', current⟩
        rw [stage] at current
        cases current
        rcases closeProxy_progress held with
          ⟨s₁, returned, closed, ⟨rfl, _⟩ | ⟨rfl, pc, still, fewer⟩⟩
        · rw [mine] at closed
          exact goes run stage closed fun again => Bool.noConfusion again
        · rw [mine] at closed
          refine goes run stage closed fun _ s' reached closing stage' => ?_
          have held' : s'.closing c = some { call with pc := pc } := by
            rw [closing]
            exact still
          exact inductionHypothesis _ (size ▸ fewer) rfl reached stage' held' mine
  have outside : ∀ {s : State} {todo : List StreamId}, (server w).Reachable s →
      s.sweeps x = { todo := todo, current := some (c, .close (name :: rest)) } →
      s.closing c = none → Sweeps w x todo s := by
    intro s todo run stage free
    cases stored : (s.proxies c).lookup name with
    | none =>
        have closed : s.closeProxy (.teardown x) c name = some (s, true) := by
          unfold State.closeProxy
          rw [free]
          dsimp only
          rw [stored]
        exact goes run stage closed fun again => Bool.noConfusion again
    | some tk =>
        have closed : s.closeProxy (.teardown x) c name = some
            (((s.setProxies c ((s.proxies c).erase name)).setReg tk
              { s.regs tk with cancelled := true }).setClosing c
                (some { closer := .teardown x, name := name, tk := tk }), false) := by
          unfold State.closeProxy
          rw [free]
          dsimp only
          rw [stored]
        refine goes run stage closed fun _ s' reached closing stage' => ?_
        have held : s'.closing c = some ⟨.teardown x, name, tk, .info⟩ := by
          rw [closing]
          exact Function.update_self ..
        exact inside reached stage' held rfl
  intro s todo run stage
  by_cases mine : ∃ call, s.closing c = some call ∧ call.closer = .teardown x
  · rcases mine with ⟨call, held, own⟩
    exact inside run stage held own
  · refine .of_unlocked run c (fun call held own => mine ⟨call, held, own⟩) ?_
    intro s₁ run₁ same free
    exact outside run₁ (same.trans stage) free

/-- Every call of `teardown` can be completed: it waits for nobody but a task that is inside
`close_proxy` on the same control. -/
theorem teardown_completes (w : World) (x : Caller) (c : StreamId) (pc : TeardownPc) :
    Completes w x c pc := by
  have uncount : Completes w x c .uncount :=
    .of_step fun s => ⟨.go, { s with clientsOnline := s.clientsOnline - 1 }, none, rfl, nofun⟩
  have offline : Completes w x c .offline := by
    refine .of_step fun s => ?_
    by_cases online : (s.ctl c).online = true
    · exact ⟨.go, s.setControl c { s.ctl c with online := false }, some .uncount, if_pos online,
        uncount.onward⟩
    · exact ⟨.go, s, none, if_neg online, nofun⟩
  have remove : Completes w x c .remove :=
    .of_step fun s => ⟨.go, _, some .offline, rfl, offline.onward⟩
  have closed : Completes w x c (.close []) := by
    refine .of_step fun s => ?_
    by_cases own : (s.shared (s.ctl c).epoch).controls.lookup (s.ctl c).runId = some c
    · refine ⟨.go, s, some .remove, ?_, remove.onward⟩
      simp only [teardownStep, own, decide_true, if_true, Option.map_some]
    · refine ⟨.go, s, some .offline, ?_, offline.onward⟩
      simp only [teardownStep, own, decide_false, Bool.false_eq_true, if_false, Option.map_some]
  have close : ∀ names, Completes w x c (.close names) := by
    intro names
    induction names with
    | nil => exact closed
    | cons name rest inductionHypothesis => exact close_completes inductionHypothesis
  have collect := collect_completes close
  have draining : Completes w x c .draining :=
    .of_step fun s => ⟨.go, s.setPool c {}, some .collect, rfl, collect.onward⟩
  have drain : Completes w x c .drain := by
    refine .of_step fun s => ?_
    cases holder : (s.pool c).holder with
    | none =>
        refine ⟨.go, s.setPool c { s.pool c with holder := some (.teardown x) }, some .draining, ?_,
          draining.onward⟩
        simp only [teardownStep, holder, Option.map_some]
    | some holder' =>
        refine ⟨.go, s, some .collect, ?_, collect.onward⟩
        simp only [teardownStep, holder, Option.map_some]
  cases pc with
  | cancel => exact .of_step fun s => ⟨.go, _, some .drain, rfl, drain.onward⟩
  | drain => exact drain
  | draining => exact draining
  | collect => exact collect
  | close names => exact close names
  | remove => exact remove
  | offline => exact offline
  | uncount => exact uncount

/-- A caller can always get to the end of its list. -/
theorem sweep_ends (x : Caller) (run : (server w).Reachable s) : Sweeps w x [] s := by
  -- from the next control on, by induction on the list
  have next : ∀ (todo : List StreamId) (s : State), (server w).Reachable s →
      s.sweeps x = { todo := todo, current := none } → Sweeps w x [] s := by
    intro todo
    induction todo with
    | nil =>
        intro s _ stage
        exact ⟨s, .start rfl, .refl x s, stage⟩
    | cons c rest inductionHypothesis =>
        intro s run stage
        have onward : ∀ {s₁ : State}, (server w).Reachable s₁ → Sweeps w x rest s₁ →
            Sweeps w x [] s₁ := by
          rintro s₁ run₁ ⟨s₂, onward, others, left⟩
          have reached := run₁.trans (onward.weaken fun _ => trivial)
          exact .of_run onward others (inductionHypothesis s₂ reached left)
        let first : Option (StreamId × TeardownPc) :=
          if wanted s x c 0 then some (c, .cancel) else none
        have start : sweepStep x (.idle 0) s =
            some (s.setSweep x { todo := rest, current := first }) := by
          unfold sweepStep
          rw [stage]
          unfold first
          dsimp only
          split <;> rfl
        have run₁ : (server w).Reachable _ := run.next trivial (a := .sweep x (.idle 0)) start
        refine .of_step start (onward run₁ ?_)
        by_cases wants : wanted s x c 0 = true
        · refine teardown_completes w x c .cancel _ rest run₁ ?_
          rw [setSweep_sweeps_self, show first = some (c, .cancel) from if_pos wants]
        · refine ⟨_, .start rfl, .refl x _, ?_⟩
          rw [setSweep_sweeps_self, show first = none from if_neg wants]
  rcases stage : s.sweeps x with ⟨todo, current⟩
  cases current with
  | none => exact next todo s run stage
  | some call =>
      rcases call with ⟨c, pc⟩
      rcases teardown_completes w x c pc s todo run stage with ⟨s₁, onward, others, left⟩
      have reached := run.trans (onward.weaken fun _ => trivial)
      exact .of_run onward others (next todo s₁ reached left)

/-- The steps `stop` makes itself, and those of the two loops it waits for. -/
def Action.ofStop (e : Epoch) : Action → Prop
  | .server (.stopCollect _) | .server .stopFinish => True
  | .server (.acceptExit e') | .server (.monitorCollect e' _) | .server (.monitorExit e')
  | .sweep (.stop e') _ | .sweep (.monitor e') _ => e' = e
  | _ => False

/-- These steps, and of the other tasks those inside `close_proxy`, where a task keeps the names of
its control locked. -/
def Housekeeping (e : Epoch) (s : State) (a : Action) : Prop := a.ofStop e ∨ ∃ c, Releases c s a

/-- The state can be got to by housekeeping. -/
abbrev Tidies (w : World) (e : Epoch) (s s' : State) : Prop :=
  ((server w).startedAt s).Reaches (Housekeeping e) s'

theorem Tidies.step {e : Epoch} (tidies : Tidies w e s s') (input : ServerInput)
    (ofStop : (Action.server input).ofStop e) (move : serverStep s' input = some s₁) :
    Tidies w e s s₁ :=
  .next tidies (.inl ofStop) (a := .server input) move

/-- The sweeps of `stop` and of the monitor are housekeeping. -/
theorem housekeeping_of_sweeping {e : Epoch} (theirs : x = .stop e ∨ x = .monitor e) {a : Action}
    (sweeping : Sweeping x s a) : Housekeeping e s a := by
  rcases sweeping with ⟨input, rfl⟩ | releases
  · rcases theirs with rfl | rfl
    · exact .inl rfl
    · exact .inl rfl
  · exact .inr releases

/-- The list of all controls, in some order. -/
theorem exists_listsControls (shared : Shared) : ∃ entries, listsControls shared entries = true := by
  refine ⟨(shared.controls.entries.map Sigma.snd).toList, ?_⟩
  exact decide_eq_true (Multiset.coe_toList _)

/-- The monitor of a cancelled run can come to its end, when `stop` is through with its controls. -/
theorem monitor_ends {e : Epoch} (run : (server w).Reachable s)
    (through : (s.sweeps (.stop e)).idle = true) (cut : (s.shared e).runCancelled = true) :
    ∃ s', Tidies w e s s' ∧ s'.server = s.server ∧ (s'.loops e).accepting = (s.loops e).accepting ∧
      (s'.loops e).monitor = .over ∧ s'.sweeps (.stop e) = s.sweeps (.stop e) := by
  have monitorIs : ∀ {s₁ : State} {monitor : Monitor}, (s₁.loops e).monitor = monitor →
      monitor = .resting ∨ (∃ timeout, monitor = .sweeping timeout) ∧
        (s₁.sweeps (.monitor e)).idle = true → monitorFree s₁ e = true := by
    intro s₁ monitor is free
    subst is
    unfold monitorFree
    rcases free with resting | ⟨⟨timeout, sweeping⟩, idle⟩
    · rw [resting]
    · rw [sweeping]
      exact idle
  -- between two rounds it can leave
  have leaves : ∀ {s₁ : State}, Tidies w e s s₁ → s₁.server = s.server →
      (s₁.loops e).accepting = (s.loops e).accepting →
      s₁.sweeps (.stop e) = s.sweeps (.stop e) → (s₁.shared e).runCancelled = true →
      monitorFree s₁ e = true →
      ∃ s', Tidies w e s s' ∧ s'.server = s.server ∧
        (s'.loops e).accepting = (s.loops e).accepting ∧ (s'.loops e).monitor = .over ∧
        s'.sweeps (.stop e) = s.sweeps (.stop e) := by
    intro s₁ tidies server accepting stops cancelled free
    refine ⟨s₁.setLoops e { s₁.loops e with monitor := .over }, ?_, server, ?_, ?_, stops⟩
    · exact tidies.step (.monitorExit e) rfl (if_pos ⟨cancelled, free⟩)
    · rw [setLoops_loops_self]
      exact accepting
    · rw [setLoops_loops_self]
  -- a round it is in can be brought to its end first
  have finishes : ∀ {s₁ : State} {timeout : UInt64}, Tidies w e s s₁ → s₁.server = s.server →
      (s₁.loops e).accepting = (s.loops e).accepting →
      s₁.sweeps (.stop e) = s.sweeps (.stop e) → (s₁.shared e).runCancelled = true →
      (s₁.loops e).monitor = .sweeping timeout →
      ∃ s', Tidies w e s s' ∧ s'.server = s.server ∧
        (s'.loops e).accepting = (s.loops e).accepting ∧ (s'.loops e).monitor = .over ∧
        s'.sweeps (.stop e) = s.sweeps (.stop e) := by
    intro s₁ timeout tidies server accepting stops cancelled sweeping
    rcases sweep_ends (.monitor e) (run.trans (tidies.weaken fun _ => trivial)) with
      ⟨s₂, swept, others, left⟩
    refine leaves (tidies.trans ?_) (others.server.trans server) ?_ ?_
      ((others.cut e).trans cancelled) ?_
    · exact swept.weaken (housekeeping_of_sweeping (.inr rfl))
    · rw [others.loops]
      exact accepting
    · have idle : (s₁.sweeps (.stop e)).idle = true := by
        rw [stops]
        exact through
      rw [others.idle (.stop e) nofun idle]
      exact stops
    · refine monitorIs (by rw [others.loops]; exact sweeping) (.inr ⟨⟨timeout, rfl⟩, ?_⟩)
      rw [left]
      rfl
  cases monitor : (s.loops e).monitor with
  | resting => exact leaves (.start rfl) rfl rfl rfl cut (monitorIs monitor (.inl rfl))
  | sweeping timeout => exact finishes (.start rfl) rfl rfl rfl cut monitor
  | ticked timeout =>
      rcases exists_listsControls (s.shared e) with ⟨entries, lists⟩
      have collects : serverStep s (.monitorCollect e entries) =
          some ((s.setLoops e { s.loops e with monitor := .sweeping timeout }).setSweep
            (.monitor e) { s.sweeps (.monitor e) with todo := entries }) := by
        unfold serverStep
        dsimp only
        rw [monitor]
        exact if_pos lists
      have tidies : Tidies w e s s := .start rfl
      have sweeping := setLoops_loops_self s e { s.loops e with monitor := .sweeping timeout }
      have accepting := congrArg Loops.accepting sweeping
      have monitor := congrArg Loops.monitor sweeping
      have collected : Tidies w e s _ := tidies.step (.monitorCollect e entries) rfl collects
      refine finishes collected rfl accepting ?_ cut monitor
      · have other : Caller.stop e ≠ .monitor e := Caller.noConfusion
        exact setSweep_sweeps_of_ne (s.setLoops e _) _ other _
  | _ => exact ⟨s, .start rfl, rfl, rfl, monitor, rfl⟩

/-- From every state in which a `stop` is under way, its own steps and those of the loops it waits
for can bring it to its end, with those of the tasks that are inside `close_proxy`, which wait for
nobody; no client has to do anything for that. -/
theorem stop_can_finish {e : Epoch} {collected : Bool} (run : (server w).Reachable s)
    (stopping : s.server = .stopping e collected) :
    ∃ s', ((server w).startedAt s).Reaches (Housekeeping e) s' ∧ s'.server = .idle := by
  have finish : ∀ {s₁ : State}, Tidies w e s s₁ → s₁.server = .stopping e true →
      ∃ s', Tidies w e s s' ∧ s'.server = .idle := by
    intro s₁ tidies collected
    have reached := run.trans (tidies.weaken fun _ => trivial)
    have tidy := server_tidy reached
    have cut : (s₁.shared e).runCancelled = true := by
      by_contra going
      have known := tidy.known (e := e) (by rw [collected]; rfl)
      have running := (server_epochs reached).current known (Bool.eq_false_of_not_eq_true going)
      cases collected.symm.trans running
    -- the controls are torn down
    rcases sweep_ends (.stop e) reached with ⟨s₂, swept, others, left⟩
    have tidies₂ : Tidies w e s s₂ :=
      tidies.trans (swept.weaken (housekeeping_of_sweeping (.inl rfl)))
    have cut₂ := (others.cut e).trans cut
    -- the accept loop ends
    let s₃ := s₂.setLoops e { s₂.loops e with accepting := false }
    have tidies₃ : Tidies w e s s₃ := tidies₂.step (.acceptExit e) rfl (if_pos cut₂)
    -- the monitor ends
    have through : (s₃.sweeps (.stop e)).idle = true := by
      change (s₂.sweeps (.stop e)).idle = true
      rw [left]
      rfl
    rcases monitor_ends (run.trans (tidies₃.weaken fun _ => trivial)) through cut₂ with
      ⟨s₄, tidies₄, server₄, accepting₄, over₄, stops₄⟩
    have tidies₅ : Tidies w e s s₄ := tidies₃.trans tidies₄
    refine ⟨{ s₄ with server := .idle }, tidies₅.step .stopFinish trivial ?_, rfl⟩
    have stopping₄ : s₄.server = .stopping e true := server₄.trans (others.server.trans collected)
    unfold serverStep
    dsimp only
    rw [stopping₄]
    refine if_pos ⟨?_, ?_, over₄⟩
    · rw [stops₄]
      exact through
    · rw [accepting₄, setLoops_loops_self]
  cases collected with
  | true => exact finish (.start rfl) stopping
  | false =>
      rcases exists_listsControls (s.shared e) with ⟨entries, lists⟩
      have collects : serverStep s (.stopCollect entries) =
          some ({ s with server := .stopping e true }.setSweep (.stop e)
            { s.sweeps (.stop e) with todo := entries }) := by
        unfold serverStep
        dsimp only
        rw [stopping]
        exact if_pos lists
      have tidies : Tidies w e s s := .start rfl
      exact finish (tidies.step (.stopCollect entries) trivial collects) rfl

end Sweeps

/-- The stop of the sample run can finish. -/
theorem stop_can_finish_sample :
    ∃ s, (server sampleWorld).Reachable s ∧ s.server = .stopping 0 false ∧
      ∃ s', ((server sampleWorld).startedAt s).Reaches (Housekeeping 0) s' ∧
        s'.server = .idle := by
  rcases sample_reaches stopRun (fun s => decide (s.server = .stopping 0 false)) (by decide +kernel)
    with ⟨s, run, shown⟩
  have stopping := of_decide_eq_true shown
  exact ⟨s, run, stopping, stop_can_finish run stopping⟩

end Remgr.Frps.Server
