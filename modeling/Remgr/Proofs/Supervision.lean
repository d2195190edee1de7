/-
Module: Remgr.Proofs.Supervision
Purpose: The steps of the frp client's supervisor, and of `start` and `stop`, as tables: from each
  stage, what a step does to the shared state and what comes next. What is proved about the client
  goes through the tables and not through the step functions.
Trusted boundary: none
Main exports: SessionTurn, Turn, superviseStep_turn, Untouched, Turn.untouched, LockTurn,
  lockStep_turn
-/
import Remgr.Frpc.Client.Step

namespace Remgr.Frpc.Client

open Remgr.Lib

/-! ## Sessions -/

/-- The steps of a session that goes on. -/
inductive SessionTurn (s : State) (ses : Session) :
    SessionPc → State → SessionPc → Session → Prop
  | loggedIn (runId : String) :
      SessionTurn s ses .connecting { s with totalLogins := s.totalLogins + 1 } (.report runId) ses
  | report (runId : String) :
      SessionTurn s ses (.report runId) (s.setConnected true runId) .snapshot ses
  | snapshot :
      SessionTurn s ses .snapshot s (.register ses.cfg.proxies) { ses with proxies := s.registry }
  | register (p : FrpcProxyConfig) (left : List FrpcProxyConfig) :
      SessionTurn s ses (.register (p :: left)) (s.setNamed ses.proxies p.name .waiting none "")
        (.sending p left) ses
  | registered : SessionTurn s ses (.register []) s .loop ses
  | sent (p : FrpcProxyConfig) (left : List FrpcProxyConfig) :
      SessionTurn s ses (.sending p left) s (.register left)
        { ses with pending := insert p.name ses.pending }
  | answered (name : String) (state : ProxyState) (remoteAddr : Option String) (error : String) :
      SessionTurn s ses .loop (s.setNamed ses.proxies name state remoteAddr error) .loop
        { ses with pending := ses.pending.erase name }
  | ignored (s₁ : State) (same : s₁ = s ∨ s₁ = { s with totalWorkConns := s.totalWorkConns + 1 }) :
      SessionTurn s ses .loop s₁ .loop ses
  | deadline (names : List String) : SessionTurn s ses .loop s (.expire names) ses
  | expire (name : String) (left : List String) :
      SessionTurn s ses (.expire (name :: left))
        (s.setNamed ses.proxies name .error none "no response from the upstream") (.expire left) ses
  | expired : SessionTurn s ses (.expire []) s .loop { ses with pending := ∅ }
  | ends (outcome : Outcome) (seen : Nat) (bound : seen ≤ max ses.seen s.version) :
      SessionTurn s ses .loop s (.closing outcome) { ses with seen := seen }
  | closing (outcome : Outcome) (stopped : Bool) :
      SessionTurn s ses (.closing outcome) s (.shut outcome stopped) ses

/-! ## The supervisor -/

/-- The stages at which a cancelled supervisor leaves its loop. -/
def Stage.cancellable : Stage → Bool
  | .top | .settled | .backoff => true
  | .session pc ses => pc.awaits ses
  | _ => false

/-- The steps of a supervisor: its stage, the shared state after the step, and its own after it. -/
inductive Turn (w : World) (s : State) (sup : Supervisor) : Stage → State → Supervisor → Prop
  | subscribe : Turn w s sup .subscribe s { sup with seen := s.version, stage := .top }
  | cancelled {stage : Stage} (isCancelled : sup.cancelled = true)
      (cancellable : stage.cancellable = true) : Turn w s sup stage s { sup with stage := .leaving }
  | top : Turn w s sup .top s { sup with stage := .read }
  | usable (valid : s.cfg.validate w = .ok ()) :
      Turn w s sup .read s { sup with reads := sup.reads + 1, stage := .idle s.cfg }
  | unusable {msg : String} (invalid : s.cfg.validate w = .error msg) :
      Turn w s sup .read s { sup with reads := sup.reads + 1, stage := .refuse msg }
  | refuse (msg : String) : Turn w s sup (.refuse msg) (s.setError msg) { sup with stage := .refused }
  | refused :
      Turn w s sup .refused { s with status := { s.status with running := false } }
        { sup with stage := .leaving }
  | idle (cfg : FrpcConfig) (ids : List RuntimeId) :
      Turn w s sup (.idle cfg) s { sup with stage := .idling cfg ids }
  | idling (cfg : FrpcConfig) (r : RuntimeId) (left : List RuntimeId) :
      Turn w s sup (.idling cfg (r :: left)) (s.setProxy r .idle none "")
        { sup with stage := .idling cfg left }
  | idled (cfg : FrpcConfig) : Turn w s sup (.idling cfg []) s { sup with stage := .disconnect cfg }
  | disconnect (cfg : FrpcConfig) :
      Turn w s sup (.disconnect cfg) (s.setConnected false "") { sup with stage := .markSeen cfg }
  | markSeen (cfg : FrpcConfig) :
      Turn w s sup (.markSeen cfg) s { sup with seen := s.version, stage := .clone cfg }
  | clone (cfg : FrpcConfig) :
      Turn w s sup (.clone cfg) s
        { sup with stage := .session .connecting { cfg := cfg, seen := sup.seen } }
  | session {pc next : SessionPc} {ses ses' : Session} {s₁ : State}
      (turn : SessionTurn s ses pc s₁ next ses') :
      Turn w s sup (.session pc ses) s₁ { sup with stage := .session next ses' }
  | loginFailed (ses : Session) (msg : String) :
      Turn w s sup (.session .connecting ses) s { sup with stage := .ended (.error msg) }
  | sendFailed (p : FrpcProxyConfig) (left : List FrpcProxyConfig) (ses : Session) (msg : String) :
      Turn w s sup (.session (.sending p left) ses) s { sup with stage := .ended (.error msg) }
  | shutStopped (outcome : Outcome) (ses : Session) :
      Turn w s sup (.session (.shut outcome true) ses) s { sup with stage := .ended outcome }
  | shut (outcome : Outcome) (ses : Session) :
      Turn w s sup (.session (.shut outcome false) ses) (s.setConnected false "")
        { sup with stage := .ended outcome }
  | endedOk : Turn w s sup (.ended (.ok ())) (s.setConnected false "") { sup with stage := .settled }
  | endedError (msg : String) :
      Turn w s sup (.ended (.error msg)) (s.setConnected false "") { sup with stage := .failing msg }
  | settled : Turn w s sup .settled s { sup with stage := .top }
  | failing (msg : String) :
      Turn w s sup (.failing msg) (s.setError msg) { sup with stage := .backoff }
  | elapsed : Turn w s sup .backoff s { sup with stage := .top }
  | changed : Turn w s sup .backoff s { sup with seen := s.version, stage := .top }
  | leavingCancelled (isCancelled : sup.cancelled = true) :
      Turn w s sup .leaving s { sup with stage := .returning }
  | leaving (notCancelled : sup.cancelled = false) :
      Turn w s sup .leaving s { sup with stage := .lastDisconnect }
  | lastDisconnect :
      Turn w s sup .lastDisconnect (s.setConnected false "") { sup with stage := .lastIdle }
  | lastIdle (ids : List RuntimeId) :
      Turn w s sup .lastIdle s { sup with stage := .lastIdling ids }
  | lastIdling (r : RuntimeId) (left : List RuntimeId) :
      Turn w s sup (.lastIdling (r :: left)) (s.setProxy r .idle none "")
        { sup with stage := .lastIdling left }
  | lastIdled : Turn w s sup (.lastIdling []) s { sup with stage := .returning }
  | returning : Turn w s sup .returning s { sup with stage := .finished }

section Table

variable {w : World} {v : SupervisorId} {s s' : State} {input : SupervisorInput}

/-- A session goes on as the table says, or it ends. -/
theorem sessionStep_turn {ses : Session} {pc : SessionPc}
    (stage : (s.supervisors v).stage = .session pc ses)
    (move : sessionStep v ses s pc input = some s') :
    ∃ s₁ sup, Turn w s (s.supervisors v) (.session pc ses) s₁ sup ∧ s' = s₁.setSupervisor v sup := by
  have goes : ∀ {s₁ : State} {next : SessionPc} {ses' : Session}, s₁.supervisors = s.supervisors →
      SessionTurn s ses pc s₁ next ses' →
      ∃ s₂ sup, Turn w s (s.supervisors v) (.session pc ses) s₂ sup ∧
        s₁.goto v (.session next ses') = s₂.setSupervisor v sup := by
    intro s₁ next ses' same turn
    refine ⟨s₁, _, .session turn, ?_⟩
    rw [State.goto, same]
  have named : ∀ name state remoteAddr error,
      (s.setNamed ses.proxies name state remoteAddr error).supervisors = s.supervisors := by
    intro name state remoteAddr error
    unfold State.setNamed
    split <;> rfl
  have ends : ∀ outcome, pc = .loop →
      ∃ s₂ sup, Turn w s (s.supervisors v) (.session pc ses) s₂ sup ∧
        s.goto v (.session (.closing outcome) ses) = s₂.setSupervisor v sup := by
    rintro outcome rfl
    exact goes rfl (.ends outcome ses.seen (le_max_left ..))
  cases pc with
  | connecting =>
      cases input <;> cases move
      · exact ⟨_, _, .loginFailed ses _, rfl⟩
      · exact goes rfl (.loggedIn _)
  | report runId =>
      cases input <;> cases move
      exact goes rfl (.report runId)
  | snapshot =>
      cases input <;> cases move
      exact goes rfl .snapshot
  | register left =>
      cases left with
      | nil =>
          cases input <;> cases move
          exact goes rfl .registered
      | cons p left =>
          cases input <;> cases move
          exact goes (named ..) (.register p left)
  | sending p left =>
      cases input <;> try cases move
      next failure =>
        cases failure with
        | none =>
            cases move
            exact goes rfl (.sent p left)
        | some failure =>
            cases move
            exact ⟨_, _, .sendFailed p left ses _, rfl⟩
  | loop =>
      cases input with
      | stopped =>
          rcases Option.ite_none_right_eq_some.mp move with ⟨_, moved⟩
          cases moved
          exact ends _ rfl
      | changed =>
          rcases Option.ite_none_right_eq_some.mp move with ⟨_, moved⟩
          cases moved
          exact goes rfl (.ends _ s.version (le_max_right ..))
      | closed =>
          cases move
          exact ends _ rfl
      | newProxyResp resp =>
          cases move
          split
          · exact goes (named ..) (.answered ..)
          · exact goes (named ..) (.answered ..)
      | reqWorkConn =>
          cases move
          refine ⟨_, _, .session (.ignored _ (.inr rfl)), ?_⟩
          rw [← stage, State.setSupervisor, Function.update_eq_self]
      | pong error =>
          simp only [sessionStep] at move
          split at move
          · cases move
            refine ⟨_, _, .session (.ignored _ (.inl rfl)), ?_⟩
            rw [← stage, State.setSupervisor, Function.update_eq_self]
          · cases move
            exact ends _ rfl
      | pingFailed msg =>
          rcases Option.ite_none_left_eq_some.mp move with ⟨_, moved⟩
          cases moved
          exact ends _ rfl
      | noPong =>
          rcases Option.ite_none_left_eq_some.mp move with ⟨_, moved⟩
          cases moved
          exact ends _ rfl
      | deadline names =>
          rcases Option.ite_none_right_eq_some.mp move with ⟨_, moved⟩
          cases moved
          exact goes rfl (.deadline names)
      | _ => cases move
  | expire left =>
      cases left with
      | nil =>
          cases input <;> cases move
          exact goes rfl .expired
      | cons name left =>
          cases input <;> cases move
          exact goes (named ..) (.expire name left)
  | closing outcome =>
      cases input <;> cases move
      exact goes rfl (.closing outcome _)
  | shut outcome stopped =>
      cases input <;> cases move
      cases stopped with
      | true => exact ⟨_, _, .shutStopped outcome ses, rfl⟩
      | false => exact ⟨_, _, .shut outcome ses, rfl⟩

/-- Every step of a supervisor is in the table. -/
theorem superviseStep_turn (move : superviseStep w v s (s.supervisors v).stage input = some s') :
    ∃ s₁ sup, Turn w s (s.supervisors v) (s.supervisors v).stage s₁ sup ∧
      s' = s₁.setSupervisor v sup := by
  have leaves : (s.supervisors v).cancelled = true →
      (s.supervisors v).stage.cancellable = true →
      ∃ s₁ sup, Turn w s (s.supervisors v) (s.supervisors v).stage s₁ sup ∧
        s.goto v .leaving = s₁.setSupervisor v sup :=
    fun isCancelled cancellable => ⟨s, _, .cancelled isCancelled cancellable, rfl⟩
  generalize stage : (s.supervisors v).stage = st at move leaves
  cases st with
  | subscribe =>
      cases input <;> cases move
      exact ⟨_, _, .subscribe, rfl⟩
  | top =>
      cases input <;> cases move
      split
      · next isCancelled => exact leaves isCancelled rfl
      · exact ⟨_, _, .top, rfl⟩
  | read =>
      cases input <;> cases move
      dsimp only
      split
      · next msg invalid => exact ⟨_, _, .unusable invalid, rfl⟩
      · next valid => exact ⟨_, _, .usable valid, rfl⟩
  | refuse msg =>
      cases input <;> cases move
      exact ⟨_, _, .refuse msg, rfl⟩
  | refused =>
      cases input <;> cases move
      exact ⟨_, _, .refused, rfl⟩
  | idle cfg =>
      cases input <;> try cases move
      rcases Option.ite_none_right_eq_some.mp move with ⟨_, moved⟩
      cases moved
      exact ⟨_, _, .idle cfg _, rfl⟩
  | idling cfg left =>
      cases left with
      | nil =>
          cases input <;> cases move
          exact ⟨_, _, .idled cfg, rfl⟩
      | cons r left =>
          cases input <;> cases move
          exact ⟨_, _, .idling cfg r left, rfl⟩
  | disconnect cfg =>
      cases input <;> cases move
      exact ⟨_, _, .disconnect cfg, rfl⟩
  | markSeen cfg =>
      cases input <;> cases move
      exact ⟨_, _, .markSeen cfg, rfl⟩
  | clone cfg =>
      cases input <;> cases move
      exact ⟨_, _, .clone cfg, rfl⟩
  | session pc ses =>
      by_cases cancelled : input = .cancelled
      · subst cancelled
        rcases Option.ite_none_right_eq_some.mp move with ⟨⟨awaits, isCancelled⟩, moved⟩
        cases moved
        exact leaves isCancelled awaits
      · have moved : sessionStep v ses s pc input = some s' := by
          unfold superviseStep at move
          cases input <;> first | exact move | exact absurd rfl cancelled
        exact sessionStep_turn stage moved
  | ended outcome =>
      cases input <;> cases move
      cases outcome with
      | ok value =>
          cases value
          exact ⟨_, _, .endedOk, rfl⟩
      | error msg => exact ⟨_, _, .endedError msg, rfl⟩
  | settled =>
      cases input <;> cases move
      split
      · next isCancelled => exact leaves isCancelled rfl
      · exact ⟨_, _, .settled, rfl⟩
  | failing msg =>
      cases input <;> cases move
      exact ⟨_, _, .failing msg, rfl⟩
  | backoff =>
      cases input <;> try cases move
      · rcases Option.ite_none_right_eq_some.mp move with ⟨_, moved⟩
        cases moved
        exact ⟨_, _, .changed, rfl⟩
      · rcases Option.ite_none_right_eq_some.mp move with ⟨isCancelled, moved⟩
        cases moved
        exact leaves isCancelled rfl
      · exact ⟨_, _, .elapsed, rfl⟩
  | leaving =>
      cases input <;> cases move
      split
      · next isCancelled => exact ⟨_, _, .leavingCancelled isCancelled, rfl⟩
      · next notCancelled =>
          exact ⟨_, _, .leaving (Bool.eq_false_of_not_eq_true notCancelled), rfl⟩
  | lastDisconnect =>
      cases input <;> cases move
      exact ⟨_, _, .lastDisconnect, rfl⟩
  | lastIdle =>
      cases input <;> try cases move
      rcases Option.ite_none_right_eq_some.mp move with ⟨_, moved⟩
      cases moved
      exact ⟨_, _, .lastIdle _, rfl⟩
  | lastIdling left =>
      cases left with
      | nil =>
          cases input <;> cases move
          exact ⟨_, _, .lastIdled, rfl⟩
      | cons r left =>
          cases input <;> cases move
          exact ⟨_, _, .lastIdling r left, rfl⟩
  | returning =>
      cases input <;> cases move
      exact ⟨_, _, .returning, rfl⟩
  | finished => cases input <;> cases move

/-- What a supervisor leaves to the callers: the configuration and the channel, the registry and the
other supervisors. -/
structure Untouched (s s₁ : State) : Prop where
  cfg : s₁.cfg = s.cfg
  version : s₁.version = s.version
  updates : s₁.updates = s.updates
  registry : s₁.registry = s.registry
  supervisors : s₁.supervisors = s.supervisors
  nextSupervisor : s₁.nextSupervisor = s.nextSupervisor
  run : s₁.run = s.run
  lock : s₁.lock = s.lock

theorem Untouched.refl (s : State) : Untouched s s := ⟨rfl, rfl, rfl, rfl, rfl, rfl, rfl, rfl⟩

theorem Untouched.setNamed (s : State) (proxies : Map String RuntimeId) (name : String)
    (state : ProxyState) (remoteAddr : Option String) (error : String) :
    Untouched s (s.setNamed proxies name state remoteAddr error) := by
  unfold State.setNamed
  split
  · exact ⟨rfl, rfl, rfl, rfl, rfl, rfl, rfl, rfl⟩
  · exact .refl s

theorem SessionTurn.untouched {ses ses' : Session} {pc next : SessionPc} {s₁ : State}
    (turn : SessionTurn s ses pc s₁ next ses') : Untouched s s₁ := by
  cases turn with
  | register p left => exact .setNamed ..
  | answered name state remoteAddr error => exact .setNamed ..
  | expire name left => exact .setNamed ..
  | ignored _ same => rcases same with rfl | rfl <;> exact ⟨rfl, rfl, rfl, rfl, rfl, rfl, rfl, rfl⟩
  | _ => exact ⟨rfl, rfl, rfl, rfl, rfl, rfl, rfl, rfl⟩

theorem Turn.untouched {sup sup' : Supervisor} {stage : Stage} {s₁ : State}
    (turn : Turn w s sup stage s₁ sup') : Untouched s s₁ := by
  cases turn with
  | session turn => exact turn.untouched
  | _ => exact ⟨rfl, rfl, rfl, rfl, rfl, rfl, rfl, rfl⟩

end Table

/-! ## Start and stop -/

/-- The steps of the call that holds the `run` lock, with the state after each. -/
inductive LockTurn (w : World) (s : State) : LockPc → LockInput → State → Prop
  | start : LockTurn w s .free .start { s with lock := .startCheck }
  | stop : LockTurn w s .free .stop { s with lock := .stopTake }
  | none (empty : s.run = none) : LockTurn w s .startCheck .go { s with lock := .startRead }
  | finished {v : SupervisorId} (held : s.run = some v)
      (done : (s.supervisors v).stage.isFinished = true) :
      LockTurn w s .startCheck .go { s with run := none, lock := .startRead }
  | alive {v : SupervisorId} (held : s.run = some v)
      (alive : (s.supervisors v).stage.isFinished = false) :
      LockTurn w s .startCheck .go { s with lock := .free }
  | invalid {msg : String} (invalid : s.cfg.validate w = .error msg) :
      LockTurn w s .startRead .go { s with lock := .free }
  | valid (valid : s.cfg.validate w = .ok ()) :
      LockTurn w s .startRead .go { s with lock := .startReset }
  | reset :
      LockTurn w s .startReset .go
        { s with
          status := { running := true, connected := false, lastError := "" }
          lock := .startIdle }
  | startIdle {ids : List RuntimeId} (lists : s.listsRegistry ids = true) :
      LockTurn w s .startIdle (.order ids) { s with lock := .startIdling ids }
  | startIdling (r : RuntimeId) (left : List RuntimeId) :
      LockTurn w s (.startIdling (r :: left)) .go
        { s.setProxy r .idle none "" with lock := .startIdling left }
  | startIdled : LockTurn w s (.startIdling []) .go { s with lock := .startSpawn }
  | spawn :
      LockTurn w s .startSpawn .go
        { s.setSupervisor s.nextSupervisor {} with
          nextSupervisor := s.nextSupervisor + 1
          run := some s.nextSupervisor
          lock := .free }
  | takeNone (empty : s.run = none) :
      LockTurn w s .stopTake .go { s with lock := .stopDisconnect }
  | take {v : SupervisorId} (held : s.run = some v) :
      LockTurn w s .stopTake .go
        { s.setSupervisor v { s.supervisors v with cancelled := true } with
          run := none
          lock := .stopWait v }
  | joined {v : SupervisorId} (done : (s.supervisors v).stage.isFinished = true) :
      LockTurn w s (.stopWait v) .go { s with lock := .stopDisconnect }
  | abandoned (v : SupervisorId) :
      LockTurn w s (.stopWait v) .timeout { s with lock := .stopDisconnect }
  | stopDisconnect :
      LockTurn w s .stopDisconnect .go { s.setConnected false "" with lock := .stopIdle }
  | stopIdle {ids : List RuntimeId} (lists : s.listsRegistry ids = true) :
      LockTurn w s .stopIdle (.order ids) { s with lock := .stopIdling ids }
  | stopIdling (r : RuntimeId) (left : List RuntimeId) :
      LockTurn w s (.stopIdling (r :: left)) .go
        { s.setProxy r .idle none "" with lock := .stopIdling left }
  | stopIdled : LockTurn w s (.stopIdling []) .go { s with lock := .stopFlags }
  | flags :
      LockTurn w s .stopFlags .go
        { s with status := { s.status with running := false, connected := false }, lock := .free }

theorem lockStep_turn {w : World} {s s' : State} {pc : LockPc} {input : LockInput}
    (move : lockStep w s pc input = some s') : LockTurn w s pc input s' := by
  cases pc with
  | free =>
      cases input <;> cases move
      · exact .start
      · exact .stop
  | startCheck =>
      cases input <;> try cases move
      simp only [lockStep] at move
      split at move
      · next empty =>
          cases move
          exact .none empty
      · next v held =>
          split at move
          · next done =>
              cases move
              exact .finished held done
          · next alive =>
              cases move
              exact .alive held (Bool.eq_false_of_not_eq_true alive)
  | startRead =>
      cases input <;> try cases move
      simp only [lockStep] at move
      split at move
      · next msg invalid =>
          cases move
          exact .invalid invalid
      · next valid =>
          cases move
          exact .valid valid
  | startReset =>
      cases input <;> cases move
      exact .reset
  | startIdle =>
      cases input <;> try cases move
      rcases Option.ite_none_right_eq_some.mp move with ⟨lists, moved⟩
      cases moved
      exact .startIdle lists
  | startIdling left =>
      cases left with
      | nil =>
          cases input <;> cases move
          exact .startIdled
      | cons r left =>
          cases input <;> cases move
          exact .startIdling r left
  | startSpawn =>
      cases input <;> cases move
      exact .spawn
  | stopTake =>
      cases input <;> try cases move
      simp only [lockStep] at move
      split at move
      · next empty =>
          cases move
          exact .takeNone empty
      · next v held =>
          cases move
          exact .take held
  | stopWait v =>
      cases input with
      | go =>
          rcases Option.ite_none_right_eq_some.mp move with ⟨done, moved⟩
          cases moved
          exact .joined done
      | timeout =>
          cases move
          exact .abandoned v
      | _ => cases move
  | stopDisconnect =>
      cases input <;> cases move
      exact .stopDisconnect
  | stopIdle =>
      cases input <;> try cases move
      rcases Option.ite_none_right_eq_some.mp move with ⟨lists, moved⟩
      cases moved
      exact .stopIdle lists
  | stopIdling left =>
      cases left with
      | nil =>
          cases input <;> cases move
          exact .stopIdled
      | cons r left =>
          cases input <;> cases move
          exact .stopIdling r left
  | stopFlags =>
      cases input <;> cases move
      exact .flags

/-! ## Updates of the tables -/

/-- Rebuilding the registry makes runtimes, and touches nothing else before it is stored. -/
theorem rebuildLoop_untouched (previous : Map String RuntimeId) (proxies : List FrpcProxyConfig)
    (s : State) (map : Map String RuntimeId) :
    Untouched s (State.rebuildLoop previous proxies s map).1 := by
  induction proxies generalizing s map with
  | nil => exact .refl s
  | cons p rest inductionHypothesis =>
      unfold State.rebuildLoop
      split
      · exact inductionHypothesis s _
      · have rest := inductionHypothesis
          { s with
            runtimes := Function.update s.runtimes s.nextRuntime { cfg := p }
            nextRuntime := s.nextRuntime + 1 } (map.insert p.name s.nextRuntime)
        exact ⟨rest.cfg, rest.version, rest.updates, rest.registry, rest.supervisors,
          rest.nextSupervisor, rest.run, rest.lock⟩

@[simp] theorem setSupervisor_self (s : State) (v : SupervisorId) (sup : Supervisor) :
    (s.setSupervisor v sup).supervisors v = sup :=
  Function.update_self ..

theorem setSupervisor_of_ne (s : State) {v d : SupervisorId} (other : d ≠ v) (sup : Supervisor) :
    (s.setSupervisor v sup).supervisors d = s.supervisors d :=
  Function.update_of_ne other ..

@[simp] theorem setUpdate_self (s : State) (u : UpdateId) (pc : UpdatePc) :
    (s.setUpdate u pc).updates u = pc :=
  Function.update_self ..

theorem setUpdate_of_ne (s : State) {u d : UpdateId} (other : d ≠ u) (pc : UpdatePc) :
    (s.setUpdate u pc).updates d = s.updates d :=
  Function.update_of_ne other ..

end Remgr.Frpc.Client
