/-
Module: Remgr.Proofs.CutOff
Purpose: Why a client is cut off. The token of a control is cancelled for one of five reasons: the
  server was stopped, the monitor found the client idle for too long, another login took its run id,
  the client hung up or sent what ends the reader, or its multiplexed session ended. Every run in
  which it is cancelled has a step with one of them.
Trusted boundary: none
Main exports: fatal, Cause, streamStep_sweeps, Uncut, control_cut_for_cause
-/
import Remgr.Proofs.ServerOnward
import Remgr.Proofs.Sessions

namespace Remgr.Frps.Server

open Remgr.Lib

/-! ## Reasons -/

/-- What ends the reader of a control, if it is read: the end of the stream, a message that does not
decode, or one of no known type. -/
def fatal (w : World) : Option RawMsg → Bool
  | none => true
  | some frame =>
      if frame.1 = TYPE_NEW_PROXY then ((w.fromSlice frame.2).bind NewProxy.ofJson).isNone
      else if frame.1 = TYPE_CLOSE_PROXY then
        ((w.fromSlice frame.2).bind CloseProxy.ofJson).isNone
      else if frame.1 = TYPE_PING then ((w.fromSlice frame.2).bind Ping.ofJson).isNone
      else if frame.1 = TYPE_NEW_WORK_CONN then false
      else if frame.1 = TYPE_UDP_PACKET then false
      else !isKnownType frame.1

/-- A step that is a reason to cut off the control `c` of run `e`. -/
inductive Cause (w : World) (c : StreamId) (e : Epoch) (t : State) : Action → Prop
  /-- `stop` cancels the run. -/
  | stopped (running : t.server = .running e) : Cause w c e t (.server .stopCancel)
  /-- The monitor finds a client that should send heartbeats idle for longer than the timeout. -/
  | idle {timeout : UInt64} {rest : List StreamId} {secs : Nat}
      (sweeping : (t.loops e).monitor = .sweeping timeout)
      (todo : (t.sweeps (.monitor e)).todo = c :: rest) (enforced : (t.ctl c).enforceIdle = true)
      (late : timeout.toNat < secs) : Cause w c e t (.sweep (.monitor e) (.idle secs))
  /-- A client with the right credential logs in under the same run id. -/
  | replaced {k : StreamId} {login : Login} {id : String} (stage : (t.streams k).pc = .lookup login)
      (admitted : (t.streams k).Admitted w) (epoch : (t.streams k).epoch = e)
      (named : (t.ctl c).runId = runIdOf login id) :
      Cause w c e t (.stream k (.uuid id))
  /-- The reader gets what ends it. -/
  | hangup {msg : Option RawMsg} (stage : (t.streams c).pc = .reading) (ends : fatal w msg = true) :
      Cause w c e t (.stream c (.frame msg))
  /-- The multiplexed session is over. -/
  | session (stage : (t.streams c).pc = .reading) (mux : (t.streams c).role = .muxControl) :
      Cause w c e t (.stream c .sessionOver)

/-! ## What is given to the callers of `teardown` -/

section Steps

variable {w : World} {s s' : State} {k : StreamId}

theorem endReader_pc : ((endReader k s).streams k).pc = .ending := by
  rw [endReader, goto_streams_self]

/-- A frame ends the reader only if it is fatal. -/
theorem frameStep_fatal {msg : Option RawMsg} (stage : (s.streams k).pc = .reading)
    (ends : frameStep w k s msg = endReader k s) : fatal w msg = true := by
  have ending : ∀ {pc : StreamPc}, s.goto k pc = endReader k s → pc = .ending := by
    intro pc same
    have pcs : ((s.goto k pc).streams k).pc = ((endReader k s).streams k).pc := by rw [same]
    rw [goto_streams_self, endReader_pc] at pcs
    exact pcs
  have notReading : s ≠ endReader k s := by
    intro same
    have pcs : (s.streams k).pc = ((endReader k s).streams k).pc := by rw [← same]
    rw [stage, endReader_pc] at pcs
    cases pcs
  cases msg with
  | none => rfl
  | some frame =>
      unfold frameStep at ends
      unfold fatal
      dsimp only at ends ⊢
      split at ends
      · next type =>
          rw [if_pos type]
          split at ends
          · cases ending ends
          · next undecoded => rw [undecoded, Option.isNone_none]
      · next notProxy =>
          rw [if_neg notProxy]
          split at ends
          · next type =>
              rw [if_pos type]
              split at ends
              · cases ending ends
              · next undecoded => rw [undecoded, Option.isNone_none]
          · next notClose =>
              rw [if_neg notClose]
              split at ends
              · next type =>
                  rw [if_pos type]
                  split at ends
                  · cases ending ends
                  · next undecoded => rw [undecoded, Option.isNone_none]
              · next notPing =>
                  rw [if_neg notPing]
                  split at ends
                  · exact absurd ends notReading
                  · next notWork =>
                      rw [if_neg notWork]
                      split at ends
                      · exact absurd ends notReading
                      · next notUdp =>
                          rw [if_neg notUdp]
                          split at ends
                          · exact absurd ends notReading
                          · next unknown => rw [Bool.eq_false_of_not_eq_true unknown, Bool.not_false]

/-- The reader of `k` ends with this input. -/
inductive ReaderEnds (w : World) (k : StreamId) (s : State) : Input → Prop
  | frame {msg : Option RawMsg} (ends : fatal w msg = true) : ReaderEnds w k s (.frame msg)
  | cancelled (cut : s.tokenCancelled k = true) : ReaderEnds w k s .cancelled
  | sessionOver (mux : (s.streams k).role = .muxControl) : ReaderEnds w k s .sessionOver

/-- The task of a stream gives itself something to tear down when it has looked up the control it
replaces, and when its reader ends. -/
inductive StreamSweeps (w : World) (k : StreamId) (s : State) : Input → State → Prop
  | same {input : Input} {s' : State} (sweeps : s'.sweeps = s.sweeps) : StreamSweeps w k s input s'
  | lookup {login : Login} (id : String) (stage : (s.streams k).pc = .lookup login) :
      StreamSweeps w k s (.uuid id) (lookupStep k login id s)
  | ends {input : Input} (stage : (s.streams k).pc = .reading) (ends : ReaderEnds w k s input) :
      StreamSweeps w k s input (endReader k s)

theorem streamStep_sweeps {input : Input}
    (move : streamStep w k s (s.streams k).pc input = some s') : StreamSweeps w k s input s' := by
  generalize stage : (s.streams k).pc = pc at move
  cases streamStep_cases move with
  | lookup login id => exact .lookup id stage
  | frameEnds ends => exact .ends stage (.frame (frameStep_fatal stage ends))
  | cancelled cut => exact .ends stage (.cancelled cut)
  | sessionOver mux => exact .ends stage (.sessionOver mux)
  | pool sent | pong sent =>
      rcases trySend_eq sent with ⟨out, rfl⟩
      exact .same rfl
  | registering call =>
      rcases regStep_cases call with ⟨s₁, next, step, rfl⟩
      refine .same ?_
      cases step with
      | reply sent =>
          rcases trySend_eq sent with ⟨out, rfl⟩
          rfl
      | undoClose closed =>
          have kept := closeProxy_sweeps closed
          exact kept
      | _ => rfl
  | closing closed =>
      have kept := closeProxy_sweeps closed
      exact .same kept
  | _ => exact .same rfl

end Steps

/-! ## Runs without a reason -/

/-- The control is not cancelled, and nobody is about to do so; at most the monitor of its run has
yet to look at it. -/
structure Spared (c : StreamId) (e : Epoch) (t : State) : Prop where
  cancelled : (t.ctl c).cancelled = false
  current : ∀ x pc, (t.sweeps x).current ≠ some (c, pc)
  todo : ∀ ⦃x⦄, c ∈ (t.sweeps x).todo → x = .monitor e

/-- The run goes on, and if the control belongs to it then it is spared. -/
structure Uncut (c : StreamId) (e : Epoch) (t : State) : Prop where
  running : (t.shared e).runCancelled = false
  spared : (t.ctl c).created = true → (t.ctl c).epoch = e → Spared c e t

section Runs

variable {w : World} {s s' : State} {a : Action} {c : StreamId} {e : Epoch}

theorem Spared.of_same (spared : Spared c e s) (ctl : s'.ctl c = s.ctl c)
    (sweeps : s'.sweeps = s.sweeps) : Spared c e s' := by
  constructor
  · rw [ctl]
    exact spared.cancelled
  · rw [sweeps]
    exact spared.current
  · rw [sweeps]
    exact spared.todo

/-- A caller gets other work, which is not this control. -/
theorem Spared.setSweep (spared : Spared c e s) {x : Caller} {sweep : Sweep}
    (ctl : s'.ctl c = s.ctl c) (sweeps : s'.sweeps = Function.update s.sweeps x sweep)
    (current : ∀ pc, sweep.current ≠ some (c, pc)) (todo : c ∈ sweep.todo → x = .monitor e) :
    Spared c e s' := by
  constructor
  · rw [ctl]
    exact spared.cancelled
  · intro y pc
    rw [sweeps]
    by_cases own : y = x
    · subst own
      rw [Function.update_self]
      exact current pc
    · rw [Function.update_of_ne own]
      exact spared.current y pc
  · intro y member
    rw [sweeps] at member
    by_cases own : y = x
    · subst own
      rw [Function.update_self] at member
      exact todo member
    · rw [Function.update_of_ne own] at member
      exact spared.todo member

theorem Uncut.tokenCancelled (uncut : Uncut c e s) (created : (s.ctl c).created = true)
    (epoch : (s.ctl c).epoch = e) : s.tokenCancelled c = false := by
  rw [State.tokenCancelled, epoch, uncut.running, (uncut.spared created epoch).cancelled]
  rfl

/-- A list of all controls of a run names only those of the run. -/
theorem epoch_of_listsControls (shape : Shape s) {e' : Epoch} {entries : List StreamId}
    (lists : listsControls (s.shared e') entries = true) (member : c ∈ entries) :
    (s.ctl c).epoch = e' := by
  have entriesEq := of_decide_eq_true lists
  have inMultiset : c ∈ (s.shared e').controls.entries.map Sigma.snd := by
    rw [← entriesEq]
    exact member
  rcases Multiset.mem_map.mp inMultiset with ⟨⟨runId, d⟩, inEntries, rfl⟩
  exact (shape.listed (Finmap.mem_lookup_iff.mpr inEntries)).2.2

theorem Spared.serverStep (spared : Spared c e s) (shape : Shape s) (epochs : Epochs s)
    (running : (s.shared e).runCancelled = false) (created : (s.ctl c).created = true)
    (epoch : (s.ctl c).epoch = e) {input : ServerInput} (move : serverStep s input = some s') :
    Spared c e s' := by
  cases serverStep_cases move with
  | @stopCollect e' entries stopping lists =>
      refine spared.setSweep rfl rfl (spared.current _) ?_
      -- `stop` collects the controls of a run that it has cancelled
      intro member
      have own : e' = e := (epoch_of_listsControls shape lists member).symm.trans epoch
      subst own
      have going := epochs.current (epoch ▸ epochs.created created) running
      cases going.symm.trans stopping
  | @monitorCollect e' entries _ _ lists =>
      refine spared.setSweep rfl rfl (spared.current _) ?_
      intro member
      rw [← epoch, epoch_of_listsControls shape lists member]
  | _ => exact spared.of_same rfl rfl

theorem Spared.streamStep (spared : Spared c e s) (shape : Shape s) (admission : Admission w s)
    (alive : s.tokenCancelled c = false) (created : (s.ctl c).created = true)
    (epoch : (s.ctl c).epoch = e) {k : StreamId} {input : Input}
    (quiet : ¬ Cause w c e s (.stream k input))
    (move : streamStep w k s (s.streams k).pc input = some s') : Spared c e s' := by
  have ctl : s'.ctl c = s.ctl c := by
    cases streamStep_turn move with
    | moves quiet _ _ => rw [quiet.ctl]
    | counts _ raised after =>
        subst raised after
        rfl
    | creates was after =>
        have other : c ≠ k := by
          rintro rfl
          have absent := shape.before (k := c) (by rw [was]; rfl)
          cases absent.symm.trans created
        subst after
        change Function.update s.ctl k _ c = _
        rw [Function.update_of_ne other]
    | delivers _ after =>
        subst after
        rfl
  cases streamStep_sweeps move with
  | same sweeps => exact spared.of_same ctl sweeps
  | @lookup login id stage =>
      refine spared.setSweep rfl rfl (spared.current _) ?_
      intro member
      have found := Option.mem_toList.mp member
      rcases shape.listed found with ⟨_, named, own⟩
      have admitted : (s.streams k).Admitted w := by
        have ok := admission.stream k
        rw [Stream.Ok, stage] at ok
        exact ok
      exact absurd (.replaced stage admitted (own.symm.trans epoch) named) quiet
  | ends stage ends =>
      refine spared.setSweep rfl rfl (spared.current _) ?_
      intro member
      cases List.mem_singleton.mp member
      cases ends with
      | frame ends => exact absurd (.hangup stage ends) quiet
      | cancelled cut => cases alive.symm.trans cut
      | sessionOver mux => exact absurd (.session stage mux) quiet

theorem Spared.sweepStep (spared : Spared c e s) {x : Caller} {input : SweepInput}
    (quiet : ¬ Cause w c e s (.sweep x input)) (move : sweepStep x input s = some s') :
    Spared c e s' := by
  cases sweepStep_cases move with
  | @call d pc _ _ next stage call =>
      have other : d ≠ c := by
        rintro rfl
        exact spared.current x pc stage
      have goesOn : ∀ pc, next ≠ some (c, pc) := by
        intro pc same
        subst same
        cases call <;> exact other rfl
      have writes : ∀ control, (s.setControl d control).ctl c = s.ctl c :=
        fun control => setControl_ctl_of_ne _ _ (Ne.symm other) control
      have onward : ∀ {s₁ : State}, s₁.ctl c = s.ctl c → s₁.sweeps = s.sweeps →
          Spared c e (s₁.setSweep x { s.sweeps x with current := next }) := by
        intro s₁ ctl sweeps
        have sweepsEq : (s₁.setSweep x { s.sweeps x with current := next }).sweeps =
            Function.update s.sweeps x { s.sweeps x with current := next } := by
          rw [← sweeps]
          rfl
        exact spared.setSweep ctl sweepsEq goesOn fun member => spared.todo member
      cases call with
      | cancel | clear _ => exact onward (writes _) rfl
      | close closed =>
          refine onward ?_ (closeProxy_sweeps closed)
          rw [closeProxy_ctl closed]
      | _ => exact onward rfl rfl
  | @begins d rest secs free todo wants =>
      refine spared.setSweep rfl rfl ?_ ?_
      · intro pc same
        cases same
        have member : c ∈ (s.sweeps x).todo := by
          rw [todo]
          exact List.mem_cons_self ..
        cases spared.todo member
        unfold wanted at wants
        dsimp only at wants
        split at wants
        · next sweeping =>
            rw [Bool.and_eq_true, decide_eq_true_eq] at wants
            exact quiet (.idle sweeping todo wants.1 wants.2)
        · cases wants
      · intro member
        refine spared.todo ?_
        rw [todo]
        exact List.mem_cons_of_mem _ member
  | @skips d rest secs free todo unwanted =>
      refine spared.setSweep rfl rfl nofun ?_
      intro member
      refine spared.todo ?_
      rw [todo]
      exact List.mem_cons_of_mem _ member

/-- The control that a step creates is not in anybody's hands yet. -/
theorem Spared.fresh (shape : Shape s) {k : StreamId} {login : Login} {runId : String}
    {poolCap : Nat} (was : (s.streams k).pc = .insert login runId poolCap) :
    Spared k e (insertStep k login runId poolCap s) := by
  have absent : (s.ctl k).created = false := shape.before (by rw [was]; rfl)
  constructor
  · change (Function.update s.ctl k _ k).cancelled = false
    rw [Function.update_self]
  · intro x pc current
    have created := (shape.current (x := x) current).1
    cases absent.symm.trans created
  · intro x member
    have created := shape.waiting (x := x) member
    cases absent.symm.trans created

/-- A step without a reason spares the control. -/
theorem Uncut.step (uncut : Uncut c e s) (shape : Shape s) (admission : Admission w s)
    (epochs : Epochs s) (quiet : ¬ Cause w c e s a) (move : step w a s = some s') :
    Uncut c e s' := by
  constructor
  · rcases step_runCancelled move e with same | ⟨rfl, running, _⟩
    · rw [same]
      exact uncut.running
    · exact absurd (.stopped running) quiet
  · intro createdAfter epochAfter
    by_cases created : (s.ctl c).created = true
    · have epoch : (s.ctl c).epoch = e :=
        (step_later shape move created).epoch.symm.trans epochAfter
      have spared := uncut.spared created epoch
      have alive := uncut.tokenCancelled created epoch
      cases a with
      | server input => exact spared.serverStep shape epochs uncut.running created epoch move
      | stream k input =>
          rcases Option.ite_none_right_eq_some.mp move with ⟨_, moved⟩
          exact spared.streamStep shape admission alive created epoch quiet moved
      | sweep x input => exact spared.sweepStep quiet move
      | writer d input =>
          rcases writerStep_aside move with ⟨out, rfl⟩
          exact spared.of_same rfl rfl
      | listener r input =>
          have aside := (listenerStep_aside move).1
          exact spared.of_same (by rw [aside.ctl]) aside.sweeps
      | bridge b input =>
          have aside := (bridgeStep_aside move).1
          exact spared.of_same (by rw [aside.ctl]) aside.sweeps
    · have absent := Bool.eq_false_of_not_eq_true created
      rcases step_creates move absent createdAfter with ⟨login, runId, poolCap, was, rfl⟩
      exact .fresh shape was

end Runs

/-- A control that is cut off has been cut off for a reason: no run leads to a state in which it is
without one of the five steps. -/
theorem control_cut_for_cause {w : World} {s : State} {c : StreamId}
    (created : (s.ctl c).created = true) (cut : s.tokenCancelled c = true) :
    (server w).Unavoidable (Cause w c (s.ctl c).epoch) s := by
  refine System.Unavoidable.of_kept (P := Uncut c (s.ctl c).epoch) ?_ ?_ ?_
  · intro uncut
    cases (uncut.tokenCancelled created rfl).symm.trans cut
  · rintro t ⟨cfg, rfl⟩
    exact ⟨rfl, nofun⟩
  · intro t a t' before uncut quiet move
    exact uncut.step (server_shape before) (server_admission before) (server_epochs before) quiet move

/-- The client of a sample run hangs up, and its reader cancels the control. -/
theorem control_cut_for_cause_hangup :
    ∃ s, (server sampleWorld).Reachable s ∧ s.tokenCancelled 1 = true ∧
      (server sampleWorld).Unavoidable (Cause sampleWorld 1 (s.ctl 1).epoch) s := by
  rcases sample_reaches (.server .start :: loginRun 1 "one" ++
      [.stream 1 (.frame none), .sweep (.stream 1) (.idle 0), .sweep (.stream 1) .go])
    (fun s => (s.ctl 1).created && s.tokenCancelled 1) (by decide +kernel) with ⟨s, run, shown⟩
  rw [Bool.and_eq_true] at shown
  exact ⟨s, run, shown.2, control_cut_for_cause shown.1 shown.2⟩

end Remgr.Frps.Server
