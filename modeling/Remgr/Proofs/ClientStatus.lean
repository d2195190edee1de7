/-
Module: Remgr.Proofs.ClientStatus
Purpose: What the frp client reports about its session. Unless a `stop` gives up on its supervisor,
  one supervisor is alive at a time, and `connected` follows the stages of its session. From that:
  the reported error is empty while connected, where no session of the same supervisor has failed
  before.
Trusted boundary: none
Main exports: Presence, client_presence, Unmarred, Blamed, connected_healthy
-/
import Remgr.Lib.Record
import Remgr.Proofs.Restart

namespace Remgr.Frpc.Client

open Remgr.Lib

/-! ## The stages and the connection -/

/-- What the stage of a session says about `connected`. -/
def SessionPc.online : SessionPc → Bool
  | .connecting | .report _ => false
  | _ => true

/-- What the stage of a supervisor says about `connected`, if anything. -/
def Stage.presence : Stage → Option Bool
  | .session pc _ => some pc.online
  | .ended _ | .leaving | .lastDisconnect | .lastIdle | .lastIdling _ | .returning | .finished => none
  | _ => some false

/-- The stages of `start` and `stop` during which nobody is in `run`. -/
def LockPc.vacant : LockPc → Bool
  | .free | .startCheck | .stopTake => false
  | _ => true

/-- The stages of `start` after it has reset the reported state. -/
def LockPc.afterReset : LockPc → Bool
  | .startIdle | .startIdling _ | .startSpawn => true
  | _ => false

/-- The condition on a step that all of this rests on: no `stop` gives up on its supervisor. -/
def Joins (_ : State) (a : Action) : Prop := a ≠ .lock .timeout

/-- One supervisor is alive at a time, the one in `run` or the one `stop` waits for, and `connected`
is what its stage says. -/
structure Presence (s : State) : Prop where
  alive : ∀ ⦃v⦄, (s.supervisors v).stage.isFinished = false → s.run = some v ∨ s.lock = .stopWait v
  vacant : s.lock.vacant = true → s.run = none
  connected : ∀ ⦃v b⦄, (s.supervisors v).stage.presence = some b → s.status.connected = b
  reset : s.lock.afterReset = true → s.status.connected = false

theorem isFinished_of_presence {stage : Stage} {b : Bool} (present : stage.presence = some b) :
    stage.isFinished = false := by
  cases stage with
  | finished => cases present
  | _ => rfl

section Steps

variable {w : World} {s s' s₁ : State} {sup sup' : Supervisor}

theorem setNamed_status (s : State) (proxies : Map String RuntimeId) (name : String)
    (state : ProxyState) (remoteAddr : Option String) (error : String) :
    (s.setNamed proxies name state remoteAddr error).status = s.status := by
  unfold State.setNamed
  split <;> rfl

theorem rebuildLoop_status (previous : Map String RuntimeId) (proxies : List FrpcProxyConfig)
    (s : State) (map : Map String RuntimeId) :
    (State.rebuildLoop previous proxies s map).1.status = s.status := by
  induction proxies generalizing s map with
  | nil => rfl
  | cons p rest inductionHypothesis =>
      unfold State.rebuildLoop
      split
      · exact inductionHypothesis s _
      · exact inductionHypothesis _ _

/-- A change of the configuration leaves the reported state alone. -/
theorem updateStep_status {u : UpdateId} {pc : UpdatePc} {input : UpdateInput}
    (move : updateStep u s pc input = some s') : s'.status = s.status := by
  cases pc with
  | rebuild cfg previous =>
      cases input <;> cases move
      exact rebuildLoop_status previous cfg.proxies s ∅
  | _ =>
      cases input <;> cases move
      rfl

/-- `connected` stays what the stage of the session says. -/
theorem SessionTurn.presence {ses ses' : Session} {pc next : SessionPc}
    (turn : SessionTurn s ses pc s₁ next ses') (before : s.status.connected = pc.online) :
    s₁.status.connected = next.online := by
  cases turn with
  | report runId => rfl
  | register p left =>
      rw [setNamed_status]
      exact before
  | answered name state remoteAddr error =>
      rw [setNamed_status]
      exact before
  | expire name left =>
      rw [setNamed_status]
      exact before
  | ignored _ same => rcases same with rfl | rfl <;> exact before
  | _ => exact before

theorem Turn.presence {stage : Stage} (turn : Turn w s sup stage s₁ sup')
    (before : ∀ b, stage.presence = some b → s.status.connected = b) {b : Bool}
    (after : sup'.stage.presence = some b) : s₁.status.connected = b := by
  cases turn with
  | session turn =>
      cases after
      exact turn.presence (before _ rfl)
  | cancelled isCancelled _ => cases after
  | refused => cases after
  | loginFailed ses msg => cases after
  | sendFailed p left ses msg => cases after
  | shutStopped outcome ses => cases after
  | shut outcome ses => cases after
  | endedOk =>
      cases after
      rfl
  | endedError msg =>
      cases after
      rfl
  | disconnect cfg =>
      cases after
      rfl
  | leavingCancelled _ => cases after
  | leaving _ => cases after
  | lastDisconnect => cases after
  | lastIdle ids => cases after
  | lastIdling r left => cases after
  | lastIdled => cases after
  | returning => cases after
  | _ => exact before b after

theorem Turn.alive {stage : Stage} (turn : Turn w s sup stage s₁ sup') :
    stage.isFinished = false := by
  cases turn with
  | @cancelled stage isCancelled cancellable =>
      cases stage with
      | finished => cases cancellable
      | _ => rfl
  | _ => rfl

namespace Presence

theorem only (presence : Presence s) {v d : SupervisorId}
    (first : (s.supervisors v).stage.isFinished = false)
    (second : (s.supervisors d).stage.isFinished = false) : v = d := by
  rcases presence.alive first with run | waits
  · rcases presence.alive second with run' | waits'
    · exact Option.some.inj (run.symm.trans run')
    · have none := presence.vacant (by rw [waits']; rfl)
      cases run.symm.trans none
  · rcases presence.alive second with run' | waits'
    · have none := presence.vacant (by rw [waits]; rfl)
      cases run'.symm.trans none
    · cases waits.symm.trans waits'
      rfl

/-- Between the reset of `start` and its spawn nobody is alive. -/
theorem not_afterReset (presence : Presence s) {v : SupervisorId}
    (alive : (s.supervisors v).stage.isFinished = false) : s.lock.afterReset = false := by
  apply Bool.eq_false_of_not_eq_true
  intro afterReset
  have vacant : s.lock.vacant = true := by
    cases stage : s.lock with
    | _ => first | rfl | (rw [stage] at afterReset; cases afterReset)
  rcases presence.alive alive with run | waits
  · cases (presence.vacant vacant).symm.trans run
  · rw [waits] at afterReset
    cases afterReset

/-- While `start` or `stop` has nobody to wait for, no supervisor is alive. -/
theorem nobody (presence : Presence s) (vacant : s.lock.vacant = true)
    (waits : ∀ v, s.lock ≠ .stopWait v) (v : SupervisorId) :
    (s.supervisors v).stage.isFinished = true := by
  by_contra alive
  rcases presence.alive (Bool.eq_false_of_not_eq_true alive) with run | waiting
  · cases (presence.vacant vacant).symm.trans run
  · exact waits v waiting

theorem superviseStep (presence : Presence s) {v : SupervisorId} {input : SupervisorInput}
    (move : superviseStep w v s (s.supervisors v).stage input = some s') : Presence s' := by
  rcases superviseStep_turn move with ⟨s₁, sup', turn, rfl⟩
  have same := turn.untouched
  have alive := turn.alive
  have others : ∀ d, d ≠ v → (s₁.setSupervisor v sup').supervisors d = s.supervisors d := by
    intro d other
    rw [setSupervisor_of_ne _ other, same.supervisors]
  constructor
  · intro d aliveAfter
    change s₁.run = some d ∨ s₁.lock = .stopWait d
    rw [same.run, same.lock]
    by_cases own : d = v
    · rw [own]
      exact presence.alive alive
    · rw [others d own] at aliveAfter
      exact presence.alive aliveAfter
  · intro vacant
    change s₁.lock.vacant = true at vacant
    change s₁.run = none
    rw [same.lock] at vacant
    rw [same.run]
    exact presence.vacant vacant
  · intro d b present
    change s₁.status.connected = b
    by_cases own : d = v
    · rw [own, setSupervisor_self] at present
      exact turn.presence (fun _ before => presence.connected before) present
    · rw [others d own] at present
      exact absurd (presence.only (isFinished_of_presence present) alive) own
  · intro afterReset
    change s₁.lock.afterReset = true at afterReset
    rw [same.lock] at afterReset
    cases (presence.not_afterReset alive).symm.trans afterReset

/-- The lock moves on, and the reported state changes only while nobody is alive. -/
theorem setLock (presence : Presence s) {run : Option SupervisorId} {status : StatusRaw}
    {pc : LockPc} {runtimes : RuntimeId → ProxyRuntime} {lastRunId : String}
    (alive : ∀ v, (s.supervisors v).stage.isFinished = false → run = some v ∨ pc = .stopWait v)
    (vacant : pc.vacant = true → run = none)
    (connected : status.connected = s.status.connected ∨
      ∀ v, (s.supervisors v).stage.isFinished = true)
    (reset : pc.afterReset = true → status.connected = false) :
    Presence { s with
      run := run, status := status, lock := pc, runtimes := runtimes, lastRunId := lastRunId } := by
  refine ⟨alive, vacant, ?_, reset⟩
  intro v b present
  rcases connected with same | nobody
  · exact same.trans (presence.connected present)
  · have finished := nobody v
    rw [isFinished_of_presence present] at finished
    cases finished

theorem lockStep (presence : Presence s) {input : LockInput} (joins : input ≠ .timeout)
    (move : lockStep w s s.lock input = some s') : Presence s' := by
  have nobody := presence.nobody
  have none : s.lock.vacant = true → s.run = none := presence.vacant
  have reset := presence.reset
  have live : ∀ {pc : LockPc}, (∀ v, s.lock ≠ .stopWait v) →
      ∀ v, (s.supervisors v).stage.isFinished = false → s.run = some v ∨ pc = .stopWait v :=
    fun noWait v alive => .inl ((presence.alive alive).resolve_right (noWait v))
  generalize stage : s.lock = pc at move nobody none reset live
  cases lockStep_turn move with
  | start => exact presence.setLock (live nofun) nofun (.inl rfl) nofun
  | stop => exact presence.setLock (live nofun) nofun (.inl rfl) nofun
  | none empty => exact presence.setLock (live nofun) (fun _ => empty) (.inl rfl) nofun
  | @finished v held done =>
      refine presence.setLock ?_ (fun _ => rfl) (.inl rfl) nofun
      intro d alive
      rcases live nofun d alive with run | waits
      · cases held.symm.trans run
        cases done.symm.trans alive
      · exact .inr waits
  | alive held alive => exact presence.setLock (live nofun) nofun (.inl rfl) nofun
  | invalid _ => exact presence.setLock (live nofun) nofun (.inl rfl) nofun
  | valid _ => exact presence.setLock (live nofun) (fun _ => none rfl) (.inl rfl) nofun
  | reset =>
      exact presence.setLock (live nofun) (fun _ => none rfl) (.inr (nobody rfl nofun)) fun _ => rfl
  | startIdle _ =>
      exact presence.setLock (live nofun) (fun _ => none rfl) (.inl rfl) fun _ => reset rfl
  | startIdling r left =>
      exact presence.setLock (live nofun) (fun _ => none rfl) (.inl rfl) fun _ => reset rfl
  | startIdled =>
      exact presence.setLock (live nofun) (fun _ => none rfl) (.inl rfl) fun _ => reset rfl
  | spawn =>
      have free := nobody rfl nofun
      have spawned : ∀ v, v ≠ s.nextSupervisor →
          ((Function.update s.supervisors s.nextSupervisor {}) v).stage.isFinished = true := by
        intro v other
        rw [Function.update_of_ne other]
        exact free v
      constructor
      · intro v alive
        refine .inl (congrArg some ?_)
        by_contra other
        cases (spawned v (Ne.symm other)).symm.trans alive
      · nofun
      · intro v b present
        by_cases own : v = s.nextSupervisor
        · change ((Function.update s.supervisors s.nextSupervisor {}) v).stage.presence = _ at present
          rw [own, Function.update_self] at present
          cases present
          exact reset rfl
        · have finished := spawned v own
          have alive := isFinished_of_presence present
          cases finished.symm.trans alive
      · nofun
  | takeNone empty => exact presence.setLock (live nofun) (fun _ => empty) (.inl rfl) nofun
  | @take v held =>
      have sameStage : ∀ d, ((s.setSupervisor v { s.supervisors v with cancelled := true }).supervisors
          d).stage = (s.supervisors d).stage := by
        intro d
        by_cases own : d = v
        · rw [own, setSupervisor_self]
        · rw [setSupervisor_of_ne _ own]
      constructor
      · intro d alive
        change ((s.setSupervisor v _).supervisors d).stage.isFinished = false at alive
        rw [sameStage] at alive
        rcases presence.alive alive with run | waits
        · cases held.symm.trans run
          exact .inr rfl
        · cases stage.symm.trans waits
      · exact fun _ => rfl
      · intro d b present
        change ((s.setSupervisor v _).supervisors d).stage.presence = some b at present
        rw [sameStage] at present
        exact presence.connected present
      · nofun
  | @joined v done =>
      refine presence.setLock ?_ (fun _ => none rfl) (.inl rfl) nofun
      intro d alive
      rcases presence.alive alive with run | waits
      · exact .inl run
      · cases stage.symm.trans waits
        cases done.symm.trans alive
  | abandoned v => exact absurd rfl joins
  | stopDisconnect =>
      exact presence.setLock (live nofun) (fun _ => none rfl) (.inr (nobody rfl nofun)) nofun
  | stopIdle _ => exact presence.setLock (live nofun) (fun _ => none rfl) (.inl rfl) nofun
  | stopIdling r left => exact presence.setLock (live nofun) (fun _ => none rfl) (.inl rfl) nofun
  | stopIdled => exact presence.setLock (live nofun) (fun _ => none rfl) (.inl rfl) nofun
  | flags => exact presence.setLock (live nofun) nofun (.inr (nobody rfl nofun)) nofun

theorem step (presence : Presence s) {a : Action} (joins : Joins s a)
    (move : Client.step w a s = some s') : Presence s' := by
  cases a with
  | supervisor v input => exact presence.superviseStep move
  | lock input =>
      refine presence.lockStep ?_ move
      rintro rfl
      exact joins rfl
  | update u input =>
      rcases updateStep_supervisors move with ⟨supervisors, _, run, lock⟩
      have status := updateStep_status move
      constructor
      · rw [supervisors, run, lock]
        exact presence.alive
      · rw [run, lock]
        exact presence.vacant
      · rw [supervisors, status]
        exact presence.connected
      · rw [lock, status]
        exact presence.reset

end Presence

/-- A new client is in order, and stays so in runs in which no `stop` gives up. -/
theorem client_presence {allowed : State → Action → Prop}
    (joins : ∀ {s a}, allowed s a → Joins s a) (run : (client w).Reaches allowed s) :
    Presence s := by
  refine run.invariant ?_ ?_
  · rintro s ⟨cfg, rfl⟩
    have same := rebuildLoop_untouched ∅ cfg.proxies { cfg } ∅
    have none : (State.new cfg).run = none := same.run
    have free : (State.new cfg).lock = .free := same.lock
    constructor
    · rw [new_supervisors]
      nofun
    · exact fun _ => none
    · rw [new_supervisors]
      nofun
    · rw [free]
      nofun
  · intro s a s' _ presence permitted move
    exact presence.step (joins permitted) move

/-! ## The reported error -/

/-- What a step of a supervisor does to the reported state. -/
theorem Turn.status {stage : Stage} (turn : Turn w s sup stage s₁ sup') :
    s₁.status = s.status ∨
      (∃ runId ses, stage = .session (.report runId) ses ∧
        s₁.status = { s.status with connected := true }) ∨
      (stage.presence = some false ∧ s₁.status.connected = s.status.connected) ∨
      s₁.status.connected = false := by
  cases turn with
  | refuse msg => exact .inr (.inr (.inl ⟨rfl, rfl⟩))
  | refused => exact .inr (.inr (.inl ⟨rfl, rfl⟩))
  | failing msg => exact .inr (.inr (.inl ⟨rfl, rfl⟩))
  | @session pc next ses ses' s₁ turn =>
      cases turn with
      | report runId => exact .inr (.inl ⟨runId, ses, rfl, rfl⟩)
      | register p left => exact .inl (setNamed_status ..)
      | answered name state remoteAddr error => exact .inl (setNamed_status ..)
      | expire name left => exact .inl (setNamed_status ..)
      | ignored _ same => rcases same with rfl | rfl <;> exact .inl rfl
      | _ => exact .inl rfl
  | disconnect cfg => exact .inr (.inr (.inr rfl))
  | shut outcome ses => exact .inr (.inr (.inr rfl))
  | endedOk => exact .inr (.inr (.inr rfl))
  | endedError msg => exact .inr (.inr (.inr rfl))
  | lastDisconnect => exact .inr (.inr (.inr rfl))
  | _ => exact .inl rfl

end Steps

/-! ### The sessions of a supervisor -/

/-- The stages after which a supervisor runs no further session. -/
def Stage.over : Stage → Bool
  | .refused | .leaving | .lastDisconnect | .lastIdle | .lastIdling _ | .returning | .finished =>
      true
  | _ => false

/-- The supervisor has had a session that failed. A `start` that follows a `stop` has a supervisor
of its own, so this is about the sessions since the last `start`. -/
def SessionFailed (v : SupervisorId) (past : List (State × Action)) : Prop :=
  ∃ t input msg, (t, .supervisor v input) ∈ past ∧ (t.supervisors v).stage = .failing msg

/-- The condition on a step: no `stop` gives up, and no session reports its login after one of the
same supervisor has failed. -/
def Unmarred (h : System.Recorded State Action) (a : Action) : Prop :=
  Joins h.1 a ∧ ∀ v input, a = .supervisor v input → ∀ runId ses,
    (h.1.supervisors v).stage = .session (.report runId) ses → ¬ SessionFailed v h.2

/-- Where an error that is reported has come from: of a supervisor that can still run a session, a
session has failed. -/
structure Blamed (h : System.Recorded State Action) : Prop where
  failed : ∀ ⦃v⦄, (h.1.supervisors v).stage.over = false → h.1.status.lastError ≠ "" →
    SessionFailed v h.2
  reset : h.1.lock.afterReset = true → h.1.status.lastError = ""
  healthy : h.1.status.connected = true → h.1.status.lastError = ""

section Errors

variable {w : World} {s s' s₁ : State} {sup sup' : Supervisor} {past : List (State × Action)}
  {a : Action}

theorem SessionFailed.later {v : SupervisorId} {entry : State × Action}
    (failed : SessionFailed v past) : SessionFailed v (entry :: past) := by
  rcases failed with ⟨t, input, msg, member, stage⟩
  exact ⟨t, input, msg, List.mem_cons_of_mem _ member, stage⟩

theorem over_of_finished {stage : Stage} (finished : stage.isFinished = true) :
    stage.over = true := by
  cases stage with
  | finished => rfl
  | _ => cases finished

/-- A supervisor that goes on has stored an error only when a session of its own has failed. -/
theorem Turn.lastError {stage : Stage} (turn : Turn w s sup stage s₁ sup')
    (goesOn : sup'.stage.over = false) : stage.over = false ∧
      (s₁.status.lastError = s.status.lastError ∨ ∃ msg, stage = .failing msg) := by
  cases turn with
  | failing msg => exact ⟨rfl, .inr ⟨msg, rfl⟩⟩
  | session turn =>
      refine ⟨rfl, .inl ?_⟩
      cases turn with
      | register p left => rw [setNamed_status]
      | answered name state remoteAddr error => rw [setNamed_status]
      | expire name left => rw [setNamed_status]
      | ignored _ same => rcases same with rfl | rfl <;> rfl
      | _ => rfl
  | cancelled | refuse | refused | leavingCancelled | leaving | lastDisconnect | lastIdle
  | lastIdling | lastIdled | returning => cases goesOn
  | _ => exact ⟨rfl, .inl rfl⟩

theorem Blamed.superviseStep (blamed : Blamed ⟨s, past⟩) (presence : Presence s) {v : SupervisorId}
    {input : SupervisorInput} (unmarred : Unmarred ⟨s, past⟩ (.supervisor v input))
    (move : superviseStep w v s (s.supervisors v).stage input = some s') :
    Blamed ⟨s', (s, .supervisor v input) :: past⟩ := by
  rcases superviseStep_turn move with ⟨s₁, sup', turn, rfl⟩
  have alive := turn.alive
  constructor
  · intro d goesOn stored
    by_cases own : d = v
    · subst own
      change ((s₁.setSupervisor d sup').supervisors d).stage.over = false at goesOn
      rw [setSupervisor_self] at goesOn
      rcases turn.lastError goesOn with ⟨before, same | ⟨msg, failing⟩⟩
      · refine (blamed.failed before ?_).later
        rw [← same]
        exact stored
      · exact ⟨s, input, msg, List.mem_cons_self .., failing⟩
    · -- nobody else is alive
      change ((s₁.setSupervisor v sup').supervisors d).stage.over = false at goesOn
      have unchanged : (s₁.setSupervisor v sup').supervisors d = s.supervisors d := by
        rw [setSupervisor_of_ne _ own, turn.untouched.supervisors]
      rw [unchanged] at goesOn
      have going : (s.supervisors d).stage.isFinished = false := by
        apply Bool.eq_false_of_not_eq_true
        intro finished
        cases goesOn.symm.trans (over_of_finished finished)
      exact absurd (presence.only going alive) own
  · intro afterReset
    change s₁.lock.afterReset = true at afterReset
    rw [turn.untouched.lock] at afterReset
    cases (presence.not_afterReset alive).symm.trans afterReset
  · intro connected
    change s₁.status.connected = true at connected
    change s₁.status.lastError = ""
    rcases turn.status with same | ⟨runId, ses, stage, same⟩ | ⟨offline, same⟩ | cleared
    · rw [same] at connected ⊢
      exact blamed.healthy connected
    · rw [same]
      by_contra stored
      refine unmarred.2 v input rfl runId ses stage (blamed.failed ?_ stored)
      rw [show (s.supervisors v).stage = _ from stage]
      rfl
    · have before := presence.connected offline
      cases connected.symm.trans (same.trans before)
    · cases connected.symm.trans cleared

theorem Blamed.lockStep (blamed : Blamed ⟨s, past⟩) {input : LockInput}
    (move : lockStep w s s.lock input = some s') :
    Blamed ⟨s', (s, .lock input) :: past⟩ := by
  -- the reported state and the stages of the supervisors stay as they are
  have keeps : ∀ {t : State}, t.status.lastError = s.status.lastError →
      (t.status.connected = true → s.status.connected = true) →
      (∀ v, (t.supervisors v).stage = (s.supervisors v).stage) →
      (t.lock.afterReset = true → s.lock.afterReset = true) →
      Blamed ⟨t, (s, .lock input) :: past⟩ := by
    intro t same connected stages afterReset
    constructor
    · intro v goesOn stored
      change (t.supervisors v).stage.over = false at goesOn
      rw [stages] at goesOn
      refine (blamed.failed goesOn ?_).later
      rw [← same]
      exact stored
    · exact fun reset => same.trans (blamed.reset (afterReset reset))
    · exact fun online => same.trans (blamed.healthy (connected online))
  generalize lock : s.lock = pc at move keeps
  cases lockStep_turn move with
  | reset => exact ⟨fun v _ stored => absurd rfl stored, fun _ => rfl, fun _ => rfl⟩
  | startIdle _ | startIdling r left | startIdled =>
      exact keeps rfl (fun online => online) (fun _ => rfl) fun _ => rfl
  | spawn =>
      have none : s.status.lastError = "" := blamed.reset (by rw [lock]; rfl)
      exact ⟨fun v _ stored => absurd none stored, fun _ => none, fun _ => none⟩
  | @take v held =>
      refine keeps rfl (fun online => online) ?_ nofun
      intro d
      change (Function.update s.supervisors v _ d).stage = _
      by_cases own : d = v
      · rw [own, Function.update_self]
      · rw [Function.update_of_ne own]
  | stopDisconnect | flags => exact keeps rfl nofun (fun _ => rfl) nofun
  | _ => exact keeps rfl (fun online => online) (fun _ => rfl) nofun

theorem Blamed.updateStep (blamed : Blamed ⟨s, past⟩) {u : UpdateId} {input : UpdateInput}
    (move : updateStep u s (s.updates u) input = some s') :
    Blamed ⟨s', (s, .update u input) :: past⟩ := by
  rcases updateStep_supervisors move with ⟨supervisors, _, _, lock⟩
  have status := updateStep_status move
  constructor
  · intro v goesOn stored
    change (s'.supervisors v).stage.over = false at goesOn
    change s'.status.lastError ≠ "" at stored
    rw [supervisors] at goesOn
    rw [status] at stored
    exact (blamed.failed goesOn stored).later
  · change s'.lock.afterReset = true → s'.status.lastError = ""
    rw [lock, status]
    exact blamed.reset
  · change s'.status.connected = true → s'.status.lastError = ""
    rw [status]
    exact blamed.healthy

theorem client_blamed {h : System.Recorded State Action}
    (run : (client w).recorded.Reaches Unmarred h) : Blamed h := by
  refine run.invariant ?_ ?_
  · rintro ⟨s, past⟩ ⟨⟨cfg, initial⟩, _⟩
    have same : s.status = {} := by
      rw [show s = State.new cfg from initial]
      exact rebuildLoop_status ∅ cfg.proxies { cfg } ∅
    have none : s.status.lastError = "" := by rw [same]
    exact ⟨fun v _ stored => absurd none stored, fun _ => none, fun _ => none⟩
  · rintro ⟨s, past⟩ a ⟨s', past'⟩ before blamed unmarred ⟨move, rfl⟩
    have presence : Presence s :=
      client_presence (fun joins => joins) (before.unrecorded fun unmarred => unmarred.1)
    cases a with
    | supervisor v input => exact blamed.superviseStep presence unmarred move
    | lock input => exact blamed.lockStep move
    | update u input => exact blamed.updateStep move

end Errors

/-- In runs that meet the condition, the reported error is empty while the client is connected. -/
theorem connected_healthy {w : World} {h : System.Recorded State Action}
    (run : (client w).recorded.Reaches Unmarred h) (connected : h.1.status.connected = true) :
    h.1.status.lastError = "" :=
  (client_blamed run).healthy connected

/-! ### A healthy login, and one after a failure -/

/-- The step stores the error of a session of this supervisor. -/
def failedBy (v : SupervisorId) (entry : State × Action) : Bool :=
  match entry.2, (entry.1.supervisors v).stage with
  | .supervisor d _, .failing _ => d == v
  | _, _ => false

/-- The condition, as it is checked of a step of one of the runs below. -/
def unmarredCheck (h : System.Recorded State Action) : Action → Bool
  | .lock .timeout => false
  | .supervisor v _ =>
      match (h.1.supervisors v).stage with
      | .session (.report _) _ => !h.2.any (failedBy v)
      | _ => true
  | _ => true

theorem unmarred_of_check {h : System.Recorded State Action} {a : Action}
    (checked : unmarredCheck h a = true) : Unmarred h a := by
  constructor
  · rintro rfl
    cases checked
  · rintro v input rfl runId ses stage ⟨t, input', msg, member, failing⟩
    simp only [unmarredCheck, stage, Bool.not_eq_true', List.any_eq_false] at checked
    refine checked _ member ?_
    simp only [failedBy, failing, beq_self_eq_true]

/-- The upstream accepts the login, and the session reports it. -/
def loginRun (v : SupervisorId) : List Action :=
  [.supervisor v (.loggedIn "run"), .supervisor v .go]

/-- The session fails while it connects, the error is stored, and the backoff runs out. -/
def failureRun (v : SupervisorId) : List Action :=
  [.supervisor v (.loginFailed "token rejected"), .supervisor v .go, .supervisor v .go,
    .supervisor v .elapsed]

/-- What the supervisor does at the head of its loop before a further session. -/
def againRun (v : SupervisorId) : List Action :=
  [.supervisor v .go, .supervisor v .go] ++ sessionRun v

/-- `stop` while the supervisor waits to try again, on a client without proxies. -/
def stopRun (v : SupervisorId) : List Action :=
  [.lock .stop, .lock .go, .supervisor v .cancelled, .supervisor v .go, .supervisor v .go, .lock .go,
    .lock .go, .lock (.order []), .lock .go, .lock .go]

/-- A session fails and its error is reported; after a `stop` and a further `start` the next session
logs in, and no error is reported. -/
theorem connected_healthy_restarted :
    ∃ h, (client sampleWorld).recorded.Reaches Unmarred h ∧
      (∃ entry ∈ h.2, entry.1.status.lastError = "token rejected") ∧
      h.1.status.connected = true ∧ h.1.status.lastError = "" := by
  have passed : (System.execute
      (System.guarded unmarredCheck (System.recordedStep (step sampleWorld)))
      (startRun ++ readRun 0 ++ sessionRun 0 ++ (failureRun 0).dropLast ++ stopRun 0 ++ startRun ++
        readRun 1 ++ sessionRun 1 ++ loginRun 1) ⟨State.new (upstream "a"), []⟩).any
      (fun h => h.1.status.connected &&
        h.2.any fun entry => decide (entry.1.status.lastError = "token rejected")) = true := by
    decide +kernel
  rcases System.exists_of_any passed with ⟨h, done, shown⟩
  simp only [Bool.and_eq_true, List.any_eq_true, decide_eq_true_eq] at shown
  have run : (client sampleWorld).recorded.Reaches Unmarred h :=
    System.recording_reaches id unmarred_of_check ⟨_, rfl⟩ done
  exact ⟨h, run, shown.2, shown.1, connected_healthy run shown.1⟩

/-- After a session that has failed, the next one is reported as connected with the old error. -/
theorem connected_with_old_error :
    ∃ s, (client sampleWorld).Reachable s ∧ s.status.connected = true ∧
      s.status.lastError = "token rejected" := by
  have reached : ∃ s, (client sampleWorld).Reachable s ∧
      decide (s.status.connected = true ∧ s.status.lastError = "token rejected") = true :=
    System.reaches_of_any (fun _ moved => ⟨trivial, moved⟩) (.start ⟨_, rfl⟩)
      (by decide +kernel : (System.execute (step sampleWorld)
        (startRun ++ readRun 0 ++ sessionRun 0 ++ failureRun 0 ++ againRun 0 ++ loginRun 0)
        (State.new (upstream "a"))).any
          (fun s => decide (s.status.connected = true ∧ s.status.lastError = "token rejected")) = true)
  rcases reached with ⟨s, run, shown⟩
  exact ⟨s, run, of_decide_eq_true shown⟩

end Remgr.Frpc.Client
