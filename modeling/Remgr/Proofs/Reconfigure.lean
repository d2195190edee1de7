/-
Module: Remgr.Proofs.Reconfigure
Purpose: Configuration edits and the sessions of the frp client. The stored configuration and the
  watch channel are written one after the other by `update_config`, and read one after the other by
  the supervisor. In runs where a supervisor never marks the channel as seen with a configuration
  that has been replaced and announced in the meantime, a session with an outdated configuration
  always has something unseen on its receiver.
Trusted boundary: none
Main exports: Fresh, Noticed, outdated_session_notices
-/
import Remgr.Proofs.Supervision

namespace Remgr.Frpc.Client

open Remgr.Lib

/-! ## The statement -/

/-- The session has not decided to end. -/
def SessionPc.live : SessionPc → Bool
  | .closing _ | .shut _ _ => false
  | _ => true

/-- The call of `update_config` has found a difference and will send a generation. -/
def UpdatePc.willSend : UpdatePc → Bool
  | .none | .compare _ => false
  | _ => true

/-- Some call of `update_config` has yet to send its generation. -/
def State.announcing (s : State) : Prop := ∃ u, (s.updates u).willSend = true

/-- The condition on a step: when a supervisor marks the channel as seen, the configuration it has
read is still the stored one, or some call that has found a difference has yet to send. -/
def Fresh (s : State) : Action → Prop
  | .supervisor v _ => ∀ cfg, (s.supervisors v).stage = .markSeen cfg → cfg = s.cfg ∨ s.announcing
  | _ => True

/-! ## The invariant -/

/-- The configuration a session runs with and the version its receiver has seen, from the marking of
the channel until the session decides to end. -/
def Supervisor.adopted (sup : Supervisor) : Option (FrpcConfig × Nat) :=
  match sup.stage with
  | .clone cfg => some (cfg, sup.seen)
  | .session pc ses => if pc.live then some (ses.cfg, ses.seen) else none
  | _ => none

structure Noticed (s : State) : Prop where
  seen : ∀ v, (s.supervisors v).seen ≤ s.version
  session : ∀ ⦃v cfg seen⦄, (s.supervisors v).adopted = some (cfg, seen) → seen ≤ s.version
  noticed : ∀ ⦃v cfg seen⦄, (s.supervisors v).adopted = some (cfg, seen) → cfg ≠ s.cfg →
    seen < s.version ∨ s.announcing

section Steps

variable {w : World} {s s' s₁ : State} {sup sup' : Supervisor}

/-- A session that goes on keeps its configuration and what its receiver has seen. -/
theorem SessionTurn.adopted {ses ses' : Session} {pc next : SessionPc}
    (turn : SessionTurn s ses pc s₁ next ses') :
    next.live = false ∨ pc.live = true ∧ ses'.cfg = ses.cfg ∧ ses'.seen = ses.seen := by
  cases turn with
  | ends outcome seen bound => exact .inl rfl
  | closing outcome stopped => exact .inl rfl
  | _ => exact .inr ⟨rfl, rfl, rfl⟩

/-- What a supervisor has adopted after a step: nothing, what it had, or what it has just read, with
everything sent so far marked as seen. -/
theorem Turn.adopted (turn : Turn w s sup sup.stage s₁ sup') :
    sup'.adopted = none ∨ sup'.adopted = sup.adopted ∨
      ∃ cfg, sup.stage = .markSeen cfg ∧ sup'.adopted = some (cfg, s.version) := by
  generalize stage : sup.stage = st at turn
  cases turn with
  | markSeen cfg => exact .inr (.inr ⟨cfg, rfl, rfl⟩)
  | clone cfg =>
      refine .inr (.inl ?_)
      simp [Supervisor.adopted, stage, SessionPc.live]
  | @session pc next ses ses' _ turn =>
      rcases turn.adopted with ended | ⟨live, cfg, seen⟩
      · refine .inl ?_
        simp [Supervisor.adopted, ended]
      · by_cases nextLive : next.live = true
        · refine .inr (.inl ?_)
          simp [Supervisor.adopted, stage, live, nextLive, cfg, seen]
        · refine .inl ?_
          simp [Supervisor.adopted, nextLive]
  | _ => exact .inl rfl

theorem Turn.seen {stage : Stage} (turn : Turn w s sup stage s₁ sup')
    (bound : sup.seen ≤ s.version) : sup'.seen ≤ s.version := by
  cases turn with
  | subscribe => exact le_rfl
  | markSeen cfg => exact le_rfl
  | changed => exact le_rfl
  | _ => exact bound

namespace Noticed

/-- A step of a supervisor. -/
theorem superviseStep (noticed : Noticed s) {v : SupervisorId} {input : SupervisorInput}
    (fresh : Fresh s (.supervisor v input))
    (move : superviseStep w v s (s.supervisors v).stage input = some s') : Noticed s' := by
  rcases superviseStep_turn move with ⟨s₁, sup', turn, rfl⟩
  have same := turn.untouched
  have announcing : (s₁.setSupervisor v sup').announcing ↔ s.announcing := by
    change (∃ u, (s₁.updates u).willSend = true) ↔ _
    rw [same.updates]
    rfl
  have others : ∀ d, d ≠ v → (s₁.setSupervisor v sup').supervisors d = s.supervisors d := by
    intro d other
    rw [setSupervisor_of_ne _ other, same.supervisors]
  have version : (s₁.setSupervisor v sup').version = s.version := same.version
  have cfg : (s₁.setSupervisor v sup').cfg = s.cfg := same.cfg
  constructor
  · intro d
    rw [version]
    by_cases own : d = v
    · rw [own, setSupervisor_self]
      exact turn.seen (noticed.seen v)
    · rw [others d own]
      exact noticed.seen d
  · intro d cfg seen adopted
    rw [version]
    by_cases own : d = v
    · rw [own, setSupervisor_self] at adopted
      rcases turn.adopted with none | kept | ⟨read, _, marked⟩
      · cases none.symm.trans adopted
      · exact noticed.session (kept.symm.trans adopted)
      · cases marked.symm.trans adopted
        exact le_rfl
    · rw [others d own] at adopted
      exact noticed.session adopted
  · intro d config seen adopted outdated
    rw [version, announcing]
    rw [cfg] at outdated
    by_cases own : d = v
    · rw [own, setSupervisor_self] at adopted
      rcases turn.adopted with none | kept | ⟨read, stage, marked⟩
      · cases none.symm.trans adopted
      · exact noticed.noticed (kept.symm.trans adopted) outdated
      · cases marked.symm.trans adopted
        rcases fresh _ stage with stored | announced
        · exact absurd stored outdated
        · exact .inr announced
    · rw [others d own] at adopted
      exact noticed.noticed adopted outdated

/-- As long as some call has yet to send, everything may change but the sessions. -/
theorem of_announcing (noticed : Noticed s) (supervisors : s'.supervisors = s.supervisors)
    (version : s'.version = s.version) (announcing : s'.announcing) : Noticed s' := by
  constructor
  · rw [supervisors, version]
    exact noticed.seen
  · rw [supervisors, version]
    exact noticed.session
  · exact fun _ _ _ _ _ => .inr announcing

/-- Nothing but the calls that have yet to send matters, as long as the configuration stays. -/
theorem of_same (noticed : Noticed s) (supervisors : s'.supervisors = s.supervisors)
    (version : s'.version = s.version) (cfg : s'.cfg = s.cfg)
    (announcing : s.announcing → s'.announcing) : Noticed s' := by
  constructor
  · rw [supervisors, version]
    exact noticed.seen
  · rw [supervisors, version]
    exact noticed.session
  · intro v config seen adopted outdated
    rw [supervisors] at adopted
    rw [cfg] at outdated
    rw [version]
    exact (noticed.noticed adopted outdated).imp_right announcing

/-- A step of `update_config`: from the comparison on the call has yet to send, and sending leaves
every receiver behind. -/
theorem updateStep (noticed : Noticed s) {u : UpdateId} {input : UpdateInput}
    (move : updateStep u s (s.updates u) input = some s') : Noticed s' := by
  have sends : ∀ {s₁ : State} {pc : UpdatePc}, pc.willSend = true →
      (s₁.setUpdate u pc).announcing := by
    intro s₁ pc willSend
    refine ⟨u, ?_⟩
    rw [setUpdate_self]
    exact willSend
  have others : ∀ {pc : UpdatePc}, (s.updates u).willSend = false → s.announcing →
      (s.setUpdate u pc).announcing := by
    rintro pc silent ⟨d, willSend⟩
    refine ⟨d, ?_⟩
    have other : d ≠ u := by
      rintro rfl
      cases silent.symm.trans willSend
    rw [setUpdate_of_ne _ other]
    exact willSend
  generalize stage : s.updates u = pc at move others
  cases pc with
  | none =>
      cases input <;> cases move
      exact noticed.of_same rfl rfl rfl (others rfl)
  | compare cfg =>
      cases input <;> cases move
      exact noticed.of_same rfl rfl rfl (others rfl)
  | snapshot cfg =>
      cases input <;> cases move
      exact noticed.of_announcing rfl rfl (sends rfl)
  | rebuild cfg previous =>
      cases input <;> cases move
      have same := rebuildLoop_untouched previous cfg.proxies s ∅
      exact noticed.of_announcing same.supervisors same.version (sends rfl)
  | write cfg =>
      cases input <;> cases move
      exact noticed.of_announcing rfl rfl (sends rfl)
  | bump =>
      cases input <;> cases move
      exact noticed.of_announcing rfl rfl (sends rfl)
  | send =>
      cases input <;> cases move
      constructor
      · exact fun v => (noticed.seen v).trans (Nat.le_succ _)
      · exact fun v cfg seen adopted => (noticed.session adopted).trans (Nat.le_succ _)
      · exact fun v cfg seen adopted _ => .inl (Nat.lt_succ_of_le (noticed.session adopted))

/-- The callers of `start` and `stop` give a session nothing to run with: a new supervisor has
adopted nothing, and a cancelled one runs with what it had. -/
theorem lockStep (noticed : Noticed s) {input : LockInput}
    (move : lockStep w s s.lock input = some s') : Noticed s' := by
  have replaced : ∀ {s₁ : State} {v : SupervisorId} {sup : Supervisor},
      s₁.supervisors = Function.update s.supervisors v sup → s₁.version = s.version →
      s₁.cfg = s.cfg → s₁.updates = s.updates → sup.seen ≤ s.version →
      (sup.adopted = none ∨ sup.adopted = (s.supervisors v).adopted) → Noticed s₁ := by
    intro s₁ v sup supervisors version cfg updates seen adopted
    have before : ∀ {d config seen}, (s₁.supervisors d).adopted = some (config, seen) →
        (s.supervisors d).adopted = some (config, seen) := by
      intro d config seen after
      rw [supervisors] at after
      by_cases own : d = v
      · rw [own, Function.update_self] at after
        rcases adopted with none | same
        · cases none.symm.trans after
        · rw [own]
          exact same.symm.trans after
      · rw [Function.update_of_ne own] at after
        exact after
    constructor
    · intro d
      rw [supervisors, version]
      by_cases own : d = v
      · rw [own, Function.update_self]
        exact seen
      · rw [Function.update_of_ne own]
        exact noticed.seen d
    · intro d config seen after
      rw [version]
      exact noticed.session (before after)
    · intro d config seen after outdated
      rw [cfg] at outdated
      rw [version, State.announcing, updates]
      exact noticed.noticed (before after) outdated
  generalize s.lock = pc at move
  cases lockStep_turn move with
  | spawn => exact replaced rfl rfl rfl rfl (Nat.zero_le _) (.inl rfl)
  | @take v held => exact replaced rfl rfl rfl rfl (noticed.seen v) (.inr rfl)
  | _ => exact noticed.of_same rfl rfl rfl fun announcing => announcing

theorem step (noticed : Noticed s) {a : Action} (fresh : Fresh s a)
    (move : step w a s = some s') : Noticed s' := by
  cases a with
  | supervisor v input => exact noticed.superviseStep fresh move
  | lock input => exact noticed.lockStep move
  | update u input => exact noticed.updateStep move

end Noticed

theorem new_supervisors (cfg : FrpcConfig) :
    (State.new cfg).supervisors = fun _ => { stage := .finished } :=
  (rebuildLoop_untouched ∅ cfg.proxies { cfg } ∅).supervisors

theorem client_noticed (run : (client w).Reaches Fresh s) : Noticed s := by
  refine run.invariant ?_ ?_
  · rintro s ⟨cfg, rfl⟩
    constructor
    · rw [new_supervisors]
      exact fun _ => Nat.zero_le _
    · rw [new_supervisors]
      nofun
    · rw [new_supervisors]
      nofun
  · intro s a s' _ noticed fresh move
    exact noticed.step fresh move

end Steps

/-- In runs that meet the condition: a session that is running with another configuration than the
stored one, while no call of `update_config` is in progress, has an unseen generation on its
receiver, and its control loop can take notice of it. -/
theorem outdated_session_notices {w : World} {s : State} (run : (client w).Reaches Fresh s)
    {v : SupervisorId} {pc : SessionPc} {ses : Session}
    (stage : (s.supervisors v).stage = .session pc ses) (live : pc.live = true)
    (outdated : ses.cfg ≠ s.cfg) (settled : ∀ u, s.updates u = .none) :
    ses.seen < s.version ∧
      (pc = .loop → step w (.supervisor v .changed) s =
        some (s.goto v (.session (.closing (.ok ())) { ses with seen := s.version }))) := by
  have adopted : (s.supervisors v).adopted = some (ses.cfg, ses.seen) := by
    simp [Supervisor.adopted, stage, live]
  have unseen : ses.seen < s.version := by
    rcases (client_noticed run).noticed adopted outdated with unseen | ⟨u, willSend⟩
    · exact unseen
    · rw [settled u] at willSend
      cases willSend
  refine ⟨unseen, ?_⟩
  rintro rfl
  simp only [step, stage, superviseStep, sessionStep, unseen, if_true]

/-! ## An edit that is noticed, and one that is lost -/

/-- The standard library on the texts used here. -/
def sampleWorld : World where
  parseIp text := if text = "127.0.0.1".toList then some (.v4 127 0 0 1) else none
  debug text := "\"" ++ text ++ "\""

def upstream (addr : String) : FrpcConfig := { serverAddr := addr }

/-- `start` on a client without proxies. -/
def startRun : List Action :=
  [.lock .start, .lock .go, .lock .go, .lock .go, .lock (.order []), .lock .go, .lock .go]

/-- The supervisor takes its first steps and reads the configuration. -/
def readRun (v : SupervisorId) : List Action :=
  [.supervisor v .go, .supervisor v .go, .supervisor v .go]

/-- It resets the reported state, marks the channel as seen and begins a session. -/
def sessionRun (v : SupervisorId) : List Action :=
  [.supervisor v (.order []), .supervisor v .go, .supervisor v .go, .supervisor v .go,
    .supervisor v .go]

/-- A whole call of `update_config` with a different configuration. -/
def updateRun (cfg : FrpcConfig) : List Action :=
  [.update 0 (.begin cfg), .update 0 .go, .update 0 .go, .update 0 .go, .update 0 .go, .update 0 .go,
    .update 0 .go]

/-- The call of `update_config` that a step belongs to. -/
def Action.updater : Action → Option UpdateId
  | .update u _ => some u
  | _ => none

/-- Only its own steps move a call of `update_config`. -/
theorem updates_kept {w : World} {s s' : State} {a : Action} {u : UpdateId}
    (move : step w a s = some s') (other : a.updater ≠ some u) : s'.updates u = s.updates u := by
  cases a with
  | supervisor v input =>
      rcases superviseStep_turn move with ⟨s₁, sup, turn, rfl⟩
      exact congrFun turn.untouched.updates u
  | lock input =>
      change lockStep w s s.lock input = some s' at move
      generalize s.lock = pc at move
      cases lockStep_turn move <;> rfl
  | update d input =>
      have different : u ≠ d := by
        rintro rfl
        exact other rfl
      have set : ∀ {s₁ : State} {pc : UpdatePc}, s₁.updates = s.updates →
          (s₁.setUpdate d pc).updates u = s.updates u := by
        intro s₁ pc same
        rw [setUpdate_of_ne _ different, same]
      change updateStep d s (s.updates d) input = some s' at move
      generalize s.updates d = pc at move
      cases pc with
      | rebuild cfg previous =>
          cases input <;> cases move
          exact set (rebuildLoop_untouched previous cfg.proxies s ∅).updates
      | _ =>
          cases input <;> cases move
          exact set rfl

/-- The call is not in progress. -/
def UpdatePc.isNone : UpdatePc → Bool
  | .none => true
  | _ => false

/-- When the only call a list of steps belongs to has returned, no call is in progress. -/
theorem updates_settled {w : World} {stepFn : Action → State → Option State}
    {actions : List Action} {cfg : FrpcConfig} {s : State}
    (sound : ∀ {a s s'}, stepFn a s = some s' → step w a s = some s')
    (done : System.execute stepFn actions (State.new cfg) = some s)
    (only : ∀ u ∈ actions.filterMap Action.updater, u = 0) (settled : (s.updates 0).isNone = true)
    (u : UpdateId) : s.updates u = .none := by
  by_cases own : u = 0
  · rw [own]
    cases stage : s.updates 0 with
    | none => rfl
    | _ =>
        rw [stage] at settled
        cases settled
  · refine System.execute_keeps (P := fun s => s.updates u = .none) ?_ done ?_
    · intro a inside s s' moved before
      rw [updates_kept (sound moved) ?_]
      · exact before
      · intro belongs
        exact own (only u (List.mem_filterMap.mpr ⟨a, inside, belongs⟩))
    · exact congrFun (rebuildLoop_untouched ∅ cfg.proxies { cfg } ∅).updates u

/-- The session of supervisor 0 while it connects, seen by evaluation. -/
def State.connectingWith (s : State) (cfg : FrpcConfig) (seen : Nat) : Bool :=
  match (s.supervisors 0).stage with
  | .session .connecting ses => decide (ses.cfg = cfg ∧ ses.seen = seen)
  | _ => false

theorem connectingWith_spec {s : State} {cfg : FrpcConfig} {seen : Nat}
    (shown : s.connectingWith cfg seen = true) :
    ∃ ses, (s.supervisors 0).stage = .session .connecting ses ∧ ses.cfg = cfg ∧ ses.seen = seen := by
  unfold State.connectingWith at shown
  split at shown
  · next ses stage => exact ⟨ses, stage, of_decide_eq_true shown⟩
  · cases shown

/-- The condition, as far as it shows on the stored configuration. -/
def freshCheck (s : State) : Action → Bool
  | .supervisor v _ =>
      match (s.supervisors v).stage with
      | .markSeen cfg => decide (cfg = s.cfg)
      | _ => true
  | _ => true

theorem fresh_of_check {s : State} {a : Action} (checked : freshCheck s a = true) : Fresh s a := by
  cases a with
  | supervisor v input =>
      intro cfg stage
      simp only [freshCheck, stage, decide_eq_true_eq] at checked
      exact .inl checked
  | _ => trivial

/-- An edit that is made while the session connects is noticed. -/
theorem outdated_session_notices_edit :
    ∃ s ses, (client sampleWorld).Reaches Fresh s ∧
      (s.supervisors 0).stage = .session .connecting ses ∧ ses.cfg ≠ s.cfg ∧
      ses.seen < s.version := by
  rcases System.exists_of_any (by decide +kernel : (System.execute
      (fun a s => if freshCheck s a then step sampleWorld a s else none)
      (startRun ++ readRun 0 ++ sessionRun 0 ++ updateRun (upstream "b"))
      (State.new (upstream "a"))).any
        (fun s => s.connectingWith (upstream "a") 0 &&
          decide (s.cfg = upstream "b" ∧ (s.updates 0).isNone = true)) = true)
    with ⟨s, done, shown⟩
  simp only [Bool.and_eq_true, decide_eq_true_eq] at shown
  rcases connectingWith_spec shown.1 with ⟨ses, stage, cfg, _⟩
  have run : (client sampleWorld).Reaches Fresh s :=
    System.reaches_of_execute
      (fun _ moved =>
        have ⟨checked, move⟩ := Option.ite_none_right_eq_some.mp moved
        ⟨fresh_of_check checked, move⟩) (.start ⟨_, rfl⟩) done
  have outdated : ses.cfg ≠ s.cfg := by
    rw [cfg, shown.2.1]
    decide
  have settled := updates_settled (fun moved => (Option.ite_none_right_eq_some.mp moved).2) done
    (by decide) shown.2.2
  exact ⟨s, ses, run, stage, outdated,
    (outdated_session_notices run stage rfl outdated settled).1⟩

/-- The supervisor reads the configuration, it is replaced and the generation sent, and only then
the supervisor marks the channel as seen: its session runs with the replaced configuration, nothing
is unseen, and no call is in progress. -/
theorem edit_lost :
    ∃ s ses, (client sampleWorld).Reachable s ∧ (∀ u, s.updates u = .none) ∧
      (s.supervisors 0).stage = .session .connecting ses ∧ ses.cfg = upstream "a" ∧
      s.cfg = upstream "b" ∧ ses.seen = s.version := by
  rcases System.exists_of_any (by decide +kernel : (System.execute (step sampleWorld)
      (startRun ++ readRun 0 ++ updateRun (upstream "b") ++ sessionRun 0)
      (State.new (upstream "a"))).any
        (fun s => s.connectingWith (upstream "a") s.version &&
          decide (s.cfg = upstream "b" ∧ (s.updates 0).isNone = true)) = true)
    with ⟨s, done, shown⟩
  simp only [Bool.and_eq_true, decide_eq_true_eq] at shown
  rcases connectingWith_spec shown.1 with ⟨ses, stage, cfg, seen⟩
  refine ⟨s, ses, ?_, ?_, stage, cfg, shown.2.1, seen⟩
  · exact System.reaches_of_execute (fun _ moved => ⟨trivial, moved⟩) (.start ⟨_, rfl⟩) done
  · exact updates_settled (fun moved => moved) done (by decide) shown.2.2

end Remgr.Frpc.Client
