/-
Module: Remgr.Proofs.ClientStop
Purpose: The `run` lock of the client is always given back: whoever holds it, and whatever the upstream
  does or fails to do, the steps of `start` or `stop` and of the supervisor that `stop` waits for are enough.
Trusted boundary: as in `Remgr.Frpc.Client.Step`
Main exports: Stage.left, supervisor_closer, Holds, Alone, run_lock_released
-/
import Remgr.Proofs.ClientStatus
import Remgr.Proofs.Restart

namespace Remgr.Frpc.Client

open Remgr.Lib

/-! ## A cancelled supervisor -/

/-- What the supervisor needs nobody else for: its own code, and its token. -/
def SupervisorInput.internal : SupervisorInput → Bool
  | .go | .order _ | .stopped | .cancelled => true
  | _ => false

/-- How many steps a cancelled supervisor is from its end at most, with so many proxies. -/
def Stage.left (proxies : Nat) : Stage → Nat
  | .finished => 0
  | .returning => 1
  | .leaving => 2
  | .lastIdling left => 2 + left.length
  | .lastIdle => 3 + proxies
  | .lastDisconnect => 4 + proxies
  | .refused | .top | .settled | .backoff => 3
  | .session .connecting _ | .session (.sending _ _) _ | .session .loop _ => 3
  | .refuse _ | .subscribe | .failing _ | .session (.register _) _ | .clone _ => 4
  | .session (.expire left) _ => 4 + left.length
  | .session .snapshot _ | .ended _ | .markSeen _ => 5
  | .session (.report _) _ | .session (.shut _ _) _ | .disconnect _ => 6
  | .session (.closing _) _ => 7
  | .idling _ left => 7 + left.length
  | .idle _ => 8 + proxies
  | .read => 9 + proxies

def State.proxyCount (s : State) : Nat := (s.registry.entries.map Sigma.snd).card

/-- There is an order in which the map gives its values. -/
theorem exists_order (s : State) : ∃ ids, s.listsRegistry ids = true ∧ ids.length = s.proxyCount := by
  refine ⟨(s.registry.entries.map Sigma.snd).toList, ?_, Multiset.length_toList _⟩
  exact decide_eq_true (Multiset.coe_toList _)

section Supervisor

variable {w : World} {v : SupervisorId} {s : State}

theorem goto_stage (s : State) (v : SupervisorId) (stage : Stage) :
    ((s.goto v stage).supervisors v).stage = stage := by
  rw [State.goto, setSupervisor_self]

/-- A cancelled supervisor always gets nearer to its end without anybody else. -/
theorem supervisor_closer (cancelled : (s.supervisors v).cancelled = true)
    (alive : (s.supervisors v).stage.isFinished = false) :
    ∃ input s', input.internal = true ∧
      superviseStep w v s (s.supervisors v).stage input = some s' ∧
        (s'.supervisors v).stage.left s.proxyCount < (s.supervisors v).stage.left s.proxyCount := by
  have going : ∀ {stage : Stage} (next : Stage) (input : SupervisorInput) (s₁ : State),
      input.internal = true → superviseStep w v s stage input = some (s₁.goto v next) →
        next.left s.proxyCount < stage.left s.proxyCount →
          ∃ input s', input.internal = true ∧ superviseStep w v s stage input = some s' ∧
            (s'.supervisors v).stage.left s.proxyCount < stage.left s.proxyCount :=
    fun next input s₁ isInternal move less => ⟨input, _, isInternal, move, by rwa [goto_stage]⟩
  have leaving : ∀ {stage : Stage} (input : SupervisorInput), input.internal = true →
      superviseStep w v s stage input =
        (if (s.supervisors v).cancelled = true then some (s.goto v .leaving) else none) →
      2 < stage.left s.proxyCount →
        ∃ input s', input.internal = true ∧ superviseStep w v s stage input = some s' ∧
          (s'.supervisors v).stage.left s.proxyCount < stage.left s.proxyCount :=
    fun input isInternal move less => going .leaving input s isInternal (move.trans (if_pos cancelled)) less
  cases stage : (s.supervisors v).stage with
  | finished =>
      rw [stage] at alive
      cases alive
  | returning => exact going .finished .go s rfl rfl Nat.one_pos
  | leaving =>
      refine going .returning .go s rfl ?_ (by decide : 1 < 2)
      rw [superviseStep, cancelled, if_pos rfl]
  | lastIdling ids =>
      cases ids with
      | nil => exact going .returning .go s rfl rfl (by decide : 1 < 2)
      | cons r left =>
          exact going (.lastIdling left) .go _ rfl rfl (Nat.lt_succ_self (2 + left.length))
  | lastIdle =>
      obtain ⟨ids, lists, size⟩ := exists_order s
      refine going (.lastIdling ids) (.order ids) s rfl (if_pos lists) ?_
      rw [← size]
      exact Nat.add_lt_add_right (by decide : 2 < 3) _
  | lastDisconnect =>
      exact going .lastIdle .go _ rfl rfl (Nat.add_lt_add_right (by decide : 3 < 4) _)
  | refused => exact going .leaving .go _ rfl rfl (by decide : 2 < 3)
  | refuse msg => exact going .refused .go _ rfl rfl (by decide : 3 < 4)
  | top | settled =>
      refine going .leaving .go s rfl ?_ (by decide : 2 < 3)
      rw [superviseStep, cancelled, if_pos rfl]
  | backoff => exact leaving .cancelled rfl rfl (by decide : 2 < 3)
  | failing msg => exact going .backoff .go _ rfl rfl (by decide : 3 < 4)
  | subscribe =>
      refine ⟨.go, _, rfl, rfl, ?_⟩
      rw [setSupervisor_self]
      exact (by decide : 3 < 4)
  | read =>
      cases checked : s.cfg.validate w with
      | error msg =>
          refine ⟨.go, _, rfl, rfl, ?_⟩
          rw [setSupervisor_self, checked]
          exact Nat.lt_add_right _ (by decide : 4 < 9)
      | ok =>
          refine ⟨.go, _, rfl, rfl, ?_⟩
          rw [setSupervisor_self, checked]
          exact Nat.add_lt_add_right (by decide : 8 < 9) _
  | idle cfg =>
      obtain ⟨ids, lists, size⟩ := exists_order s
      refine going (.idling cfg ids) (.order ids) s rfl (if_pos lists) ?_
      rw [← size]
      exact Nat.add_lt_add_right (by decide : 7 < 8) _
  | idling cfg ids =>
      cases ids with
      | nil => exact going (.disconnect cfg) .go s rfl rfl (by decide : 6 < 7)
      | cons r left => exact going (.idling cfg left) .go _ rfl rfl (Nat.lt_succ_self (7 + left.length))
  | disconnect cfg => exact going (.markSeen cfg) .go _ rfl rfl (by decide : 5 < 6)
  | markSeen cfg =>
      refine ⟨.go, _, rfl, rfl, ?_⟩
      rw [setSupervisor_self]
      exact (by decide : 4 < 5)
  | clone cfg => exact going (.session .connecting _) .go s rfl rfl (by decide : 3 < 4)
  | ended outcome =>
      cases outcome with
      | ok => exact going .settled .go _ rfl rfl (by decide : 3 < 5)
      | error msg => exact going (.failing msg) .go _ rfl rfl (by decide : 4 < 5)
  | session pc ses =>
      have dropped : pc.awaits ses = true → 2 < (Stage.session pc ses).left s.proxyCount →
          ∃ input s', input.internal = true ∧ superviseStep w v s (.session pc ses) input = some s' ∧
            (s'.supervisors v).stage.left s.proxyCount < (Stage.session pc ses).left s.proxyCount :=
        fun awaits less => going .leaving .cancelled s rfl (if_pos ⟨awaits, cancelled⟩) less
      cases pc with
      | connecting | sending | loop => exact dropped rfl (by decide : 2 < 3)
      | report runId => exact going (.session .snapshot ses) .go _ rfl rfl (by decide : 5 < 6)
      | snapshot => exact going (.session (.register _) _) .go s rfl rfl (by decide : 4 < 5)
      | register proxies =>
          cases proxies with
          | nil => exact going (.session .loop ses) .go s rfl rfl (by decide : 3 < 4)
          | cons p left => exact going (.session (.sending p left) ses) .go _ rfl rfl (by decide : 3 < 4)
      | expire names =>
          cases names with
          | nil => exact going (.session .loop _) .go s rfl rfl (by decide : 3 < 4)
          | cons name left =>
              exact going (.session (.expire left) ses) .go _ rfl rfl (Nat.lt_succ_self (4 + left.length))
      | closing outcome => exact going (.session (.shut outcome _) ses) .go s rfl rfl (by decide : 6 < 7)
      | shut outcome stopped => exact going (.ended outcome) .go _ rfl rfl (by decide : 5 < 6)

end Supervisor

/-! ## The holder of the lock -/

/-- A supervisor that is waited for is cancelled, and nobody is in `run` then. -/
structure Holds (s : State) : Prop where
  cancelled : ∀ v, s.lock = .stopWait v → (s.supervisors v).cancelled = true
  vacant : s.lock.vacant = true → s.run = none

section Steps

variable {w : World} {s s' : State}

theorem Holds.step (holds : Holds s) {a : Action} (move : step w a s = some s') : Holds s' := by
  cases a with
  | supervisor v input =>
      obtain ⟨s₁, sup, turn, rfl⟩ := superviseStep_turn move
      have same := turn.untouched
      have lock : (s₁.setSupervisor v sup).lock = s.lock := same.lock
      refine ⟨fun d waits => ?_, fun vacant => ?_⟩
      · have before := holds.cancelled d (lock.symm.trans waits)
        by_cases own : d = v
        · subst own
          rw [setSupervisor_self, turn.cancelled_eq, before]
        · rw [setSupervisor_of_ne _ own, same.supervisors, before]
      · exact same.run.trans (holds.vacant (lock ▸ vacant))
  | lock input =>
      have turn := lockStep_turn move
      generalize before : s.lock = lock at turn
      have vacant : lock.vacant = true → s.run = none := before ▸ holds.vacant
      cases turn with
      | take held =>
          refine ⟨fun d waits => ?_, fun _ => rfl⟩
          cases waits
          change ((s.setSupervisor _ _).supervisors _).cancelled = true
          rw [setSupervisor_self]
      | none empty | takeNone empty => exact ⟨nofun, fun _ => empty⟩
      | finished => exact ⟨nofun, fun _ => rfl⟩
      | start | stop | alive | invalid | spawn | flags => exact ⟨nofun, nofun⟩
      | valid | reset | startIdle | startIdling | startIdled | joined | abandoned | stopDisconnect |
          stopIdle | stopIdling | stopIdled => exact ⟨nofun, fun _ => vacant rfl⟩
  | update u input =>
      obtain ⟨supervisors, -, run, lock⟩ := updateStep_supervisors move
      refine ⟨fun d waits => ?_, fun vacant => ?_⟩
      · rw [supervisors]
        exact holds.cancelled d (lock ▸ waits)
      · exact run.trans (holds.vacant (lock ▸ vacant))

theorem client_holds (run : (client w).Reachable s) : Holds s := by
  refine run.invariant ?_ fun _ holds _ move => holds.step move
  rintro s ⟨cfg, rfl⟩
  have free : (State.new cfg).lock = .free := (rebuildLoop_untouched ∅ cfg.proxies { cfg } ∅).lock
  refine ⟨fun d waits => ?_, fun vacant => ?_⟩
  · cases free.symm.trans waits
  · rw [free] at vacant
    cases vacant

end Steps

/-- The steps of the call that holds the lock and of the supervisor it waits for. No clock runs out, and
nothing comes from the upstream. -/
def Alone (s : State) : Action → Prop
  | .lock .go | .lock (.order _) => True
  | .supervisor v input => s.lock = .stopWait v ∧ input.internal = true
  | _ => False

/-- How many steps the call that holds the lock is from its end at most. -/
def State.left (s : State) : Nat :=
  match s.lock with
  | .free => 0
  | .stopFlags | .startSpawn => 1
  | .stopIdling left | .startIdling left => 2 + left.length
  | .stopIdle | .startIdle => 3 + s.proxyCount
  | .stopDisconnect | .startReset => 4 + s.proxyCount
  | .startRead => 5 + s.proxyCount
  | .startCheck => 6 + s.proxyCount
  | .stopWait v => 5 + s.proxyCount + (s.supervisors v).stage.left s.proxyCount
  | .stopTake =>
      6 + s.proxyCount + s.run.elim 0 fun v => (s.supervisors v).stage.left s.proxyCount

/-- The holder of the lock can go on, or the supervisor it waits for can. -/
theorem Holds.progress {w : World} {s : State} (holds : Holds s) : s.lock = .free ∨
    ∃ a s', Alone s a ∧ (client w).step s a s' ∧ Holds s' ∧ s'.left < s.left := by
  have going : ∀ {lock : LockPc} (input : LockInput) (s' : State), s.lock = lock →
      Alone s (.lock input) → lockStep w s lock input = some s' → s'.left < s.left →
        ∃ a s', Alone s a ∧ (client w).step s a s' ∧ Holds s' ∧ s'.left < s.left := by
    rintro _ input s' rfl isAlone move less
    exact ⟨.lock input, s', isAlone, move, holds.step (a := .lock input) move, less⟩
  have size : ∀ {lock : LockPc}, s.lock = lock → s.left = ({ s with lock := lock } : State).left := by
    rintro _ rfl
    rfl
  obtain ⟨ids, lists, count⟩ := exists_order s
  cases lock : s.lock with
  | free => exact .inl rfl
  | startCheck =>
      right
      cases held : s.run with
      | none =>
          refine going .go { s with lock := .startRead } lock trivial ?_ ?_
          · rw [lockStep, held]
          · rw [size lock]
            exact Nat.add_lt_add_right (by decide : 5 < 6) _
      | some v =>
          cases done : (s.supervisors v).stage.isFinished with
          | true =>
              refine going .go { s with run := none, lock := .startRead } lock trivial ?_ ?_
              · rw [lockStep, held]
                exact if_pos done
              · rw [size lock]
                exact Nat.add_lt_add_right (by decide : 5 < 6) _
          | false =>
              refine going .go { s with lock := .free } lock trivial ?_ ?_
              · rw [lockStep, held]
                exact if_neg (Bool.eq_false_iff.mp done)
              · rw [size lock]
                exact Nat.lt_add_right _ (by decide : 0 < 6)
  | startRead =>
      right
      cases checked : s.cfg.validate w with
      | error msg =>
          refine going .go { s with lock := .free } lock trivial ?_ ?_
          · rw [lockStep, checked]
          · rw [size lock]
            exact Nat.lt_add_right _ (by decide : 0 < 5)
      | ok =>
          refine going .go { s with lock := .startReset } lock trivial ?_ ?_
          · rw [lockStep, checked]
          · rw [size lock]
            exact Nat.add_lt_add_right (by decide : 4 < 5) _
  | startReset =>
      refine .inr (going .go _ lock trivial rfl ?_)
      rw [size lock]
      exact Nat.add_lt_add_right (by decide : 3 < 4) _
  | startIdle =>
      refine .inr (going (.order ids) _ lock trivial (if_pos lists) ?_)
      rw [size lock]
      change 2 + ids.length < 3 + s.proxyCount
      omega
  | startIdling left =>
      right
      cases left with
      | nil =>
          refine going .go _ lock trivial rfl ?_
          rw [size lock]
          exact (by decide : 1 < 2)
      | cons r left =>
          refine going .go _ lock trivial rfl ?_
          rw [size lock]
          exact Nat.lt_succ_self (2 + left.length)
  | startSpawn =>
      refine .inr (going .go _ lock trivial rfl ?_)
      rw [size lock]
      exact Nat.one_pos
  | stopTake =>
      right
      cases held : s.run with
      | none =>
          refine going .go { s with lock := .stopDisconnect } lock trivial ?_ ?_
          · rw [lockStep, held]
          · rw [size lock]
            exact Nat.lt_add_right _ (Nat.add_lt_add_right (by decide : 4 < 6) _)
      | some v =>
          refine going .go { s.setSupervisor v { s.supervisors v with cancelled := true } with
            run := none, lock := .stopWait v } lock trivial ?_ ?_
          · rw [lockStep, held]
          · have before : s.left =
                6 + s.proxyCount + (s.supervisors v).stage.left s.proxyCount := by
              rw [size lock]
              change 6 + s.proxyCount + s.run.elim 0 _ = _
              rw [held]
              rfl
            rw [before]
            change 5 + s.proxyCount + (Stage.left s.proxyCount
              ((s.setSupervisor v { s.supervisors v with cancelled := true }).supervisors v).stage) < _
            rw [setSupervisor_self]
            exact Nat.add_lt_add_right (Nat.add_lt_add_right (by decide : 5 < 6) _) _
  | stopWait v =>
      right
      cases done : (s.supervisors v).stage.isFinished with
      | true =>
          refine going .go { s with lock := .stopDisconnect } lock trivial (if_pos done) ?_
          rw [size lock]
          exact Nat.lt_add_right _ (Nat.add_lt_add_right (by decide : 4 < 5) _)
      | false =>
          obtain ⟨input, s', isInternal, move, less⟩ :=
            supervisor_closer (w := w) (holds.cancelled v lock) done
          obtain ⟨s₁, sup, turn, rfl⟩ := superviseStep_turn move
          have same := turn.untouched
          refine ⟨.supervisor v input, _, ⟨lock, isInternal⟩, move,
            holds.step (a := .supervisor v input) move, ?_⟩
          have count : (s₁.setSupervisor v sup).proxyCount = s.proxyCount := by
            change (s₁.registry.entries.map Sigma.snd).card = s.proxyCount
            rw [same.registry]
            rfl
          have after : (s₁.setSupervisor v sup).left =
              5 + s.proxyCount + ((s₁.setSupervisor v sup).supervisors v).stage.left s.proxyCount := by
            unfold State.left
            rw [show (s₁.setSupervisor v sup).lock = .stopWait v from same.lock.trans lock, count]
          rw [after, size lock]
          exact Nat.add_lt_add_left less _
  | stopDisconnect =>
      refine .inr (going .go _ lock trivial rfl ?_)
      rw [size lock]
      exact Nat.add_lt_add_right (by decide : 3 < 4) _
  | stopIdle =>
      refine .inr (going (.order ids) _ lock trivial (if_pos lists) ?_)
      rw [size lock]
      change 2 + ids.length < 3 + s.proxyCount
      omega
  | stopIdling left =>
      right
      cases left with
      | nil =>
          refine going .go _ lock trivial rfl ?_
          rw [size lock]
          exact (by decide : 1 < 2)
      | cons r left =>
          refine going .go _ lock trivial rfl ?_
          rw [size lock]
          exact Nat.lt_succ_self (2 + left.length)
  | stopFlags =>
      refine .inr (going .go _ lock trivial rfl ?_)
      rw [size lock]
      exact Nat.one_pos

/-! ## What a stop leaves behind -/

/-- The stages of `stop`. -/
def LockPc.stops : LockPc → Bool
  | .stopTake | .stopWait _ | .stopDisconnect | .stopIdle | .stopIdling _ | .stopFlags => true
  | _ => false

/-- The supervisor a `stop` still has to end. -/
def State.waited (s : State) : Option SupervisorId :=
  match s.lock with
  | .stopTake => s.run
  | .stopWait v => some v
  | _ => none

/-- What such a `stop` has done when it stands there, or has returned. -/
def LockPc.Closes (waited : Option SupervisorId) (s : State) : LockPc → Prop
  | .stopTake => s.run = waited
  | .stopWait v => s.run = none ∧ waited = some v
  | .stopDisconnect | .stopIdle | .stopIdling _ | .stopFlags =>
      s.run = none ∧ ∀ v ∈ waited, (s.supervisors v).stage.isFinished = true
  | .free =>
      s.run = none ∧ (∀ v ∈ waited, (s.supervisors v).stage.isFinished = true) ∧
        s.status.running = false ∧ s.status.connected = false
  | _ => False

theorem closes_step {w : World} {s s' : State} {waited : Option SupervisorId} {a : Action}
    (closes : s.lock.Closes waited s) (alone : Alone s a) (move : step w a s = some s') :
    s'.lock.Closes waited s' := by
  cases a with
  | supervisor v input =>
      obtain ⟨s₁, sup, turn, rfl⟩ := superviseStep_turn move
      have same := turn.untouched
      have lock : (s₁.setSupervisor v sup).lock = .stopWait v := same.lock.trans alone.1
      rw [alone.1] at closes
      rw [lock]
      exact ⟨same.run.trans closes.1, closes.2⟩
  | lock input =>
      have turn := lockStep_turn move
      generalize s.lock = lock at turn closes
      cases turn with
      | takeNone empty =>
          refine ⟨empty, fun v inside => ?_⟩
          cases (closes.symm.trans empty).symm.trans (Option.mem_def.mp inside)
      | take held => exact ⟨rfl, closes.symm.trans held⟩
      | joined done =>
          refine ⟨closes.1, fun v inside => ?_⟩
          cases closes.2.symm.trans (Option.mem_def.mp inside)
          exact done
      | stopDisconnect | stopIdle | stopIdling | stopIdled => exact closes
      | flags => exact ⟨closes.1, closes.2, rfl, rfl⟩
      | abandoned | start | stop => cases alone
      | none | finished | alive | invalid | valid | reset | startIdle | startIdling | startIdled | spawn =>
          cases closes
  | update => cases alone

theorem Holds.closes {s : State} (holds : Holds s) (stops : s.lock.stops = true) :
    s.lock.Closes s.waited s := by
  have vacant := holds.vacant
  unfold State.waited
  generalize s.lock = lock at stops vacant
  cases lock with
  | stopTake => rfl
  | stopWait v => exact ⟨vacant rfl, rfl⟩
  | stopDisconnect | stopIdle | stopIdling | stopFlags => exact ⟨vacant rfl, nofun⟩
  | free | startCheck | startRead | startReset | startIdle | startIdling | startSpawn => cases stops

/-- The call that holds the `run` lock can always return, by its own steps and those of the supervisor it
waits for. A `stop` then has ended that one for good, leaves nobody in `run`, and the status says so. -/
theorem run_lock_released {w : World} {s : State} (run : (client w).Reachable s) :
    ∃ s', ((client w).startedAt s).Reaches Alone s' ∧ s'.lock = .free ∧
      (s.lock.stops = true → s'.run = none ∧
        (∀ v ∈ s.waited, (s'.supervisors v).stage.isFinished = true) ∧
          s'.status.running = false ∧ s'.status.connected = false) := by
  have holds := client_holds run
  obtain ⟨s', onward, -, free⟩ :=
    System.exists_reaches_of_measure State.left (fun holds => Holds.progress holds) holds
  refine ⟨s', onward, free, fun stops => ?_⟩
  have closes : s'.lock.Closes s.waited s' := by
    refine onward.invariant ?_ fun _ closes alone move => closes_step closes alone move
    rintro _ rfl
    exact holds.closes stops
  rw [free] at closes
  exact closes

/-- A stop waits for a supervisor in the middle of a session. -/
theorem run_lock_released_session : ∃ s s', (client sampleWorld).Reachable s ∧ s.lock = .stopWait 0 ∧
    s.status.connected = true ∧ ((client sampleWorld).startedAt s).Reaches Alone s' ∧
      s'.lock = .free ∧ s'.run = none ∧ (s'.supervisors 0).stage.isFinished = true ∧
        s'.status.connected = false := by
  have reached : ∃ s, (client sampleWorld).Reachable s ∧
      decide (s.lock = .stopWait 0 ∧ s.status.connected = true) = true :=
    System.reaches_of_any (fun _ moved => ⟨trivial, moved⟩) (.start ⟨_, rfl⟩)
      (by decide +kernel : (System.execute (step sampleWorld)
        (startRun ++ readRun 0 ++ sessionRun 0 ++ loginRun 0 ++ [.lock .stop, .lock .go])
        (State.new (upstream "a"))).any
          (fun s => decide (s.lock = .stopWait 0 ∧ s.status.connected = true)) = true)
  obtain ⟨s, run, checked⟩ := reached
  obtain ⟨waits, connected⟩ := of_decide_eq_true checked
  obtain ⟨s', onward, free, stopped⟩ := run_lock_released run
  have stops : s.lock.stops = true := by
    rw [waits]
    rfl
  have waited : s.waited = some 0 := by
    rw [State.waited, waits]
  obtain ⟨nobody, ended, -, offline⟩ := stopped stops
  exact ⟨s, s', run, waits, connected, onward, free, nobody, ended 0 waited, offline⟩

end Remgr.Frpc.Client
