/-
Module: Remgr.Proofs.ProxyOffers
Purpose: When a proxy that the frp client reports as waiting or running has a connection behind it.
  Nothing takes such a state back when a session ends, so it depends on what the proxies have been
  told until then: each of them has to be refused by the upstream, or to have gone without an answer
  for too long, before the session ends.
Trusted boundary: none
Main exports: News, told, onOffer, Unoffered, client_offers, client_calm, proxies_connected
-/
import Remgr.Proofs.ClientStatus

namespace Remgr.Frpc.Client

open Remgr.Lib

/-! ## What is told of a proxy -/

/-- What a proxy is told: that it is announced to the upstream, that the upstream accepts or refuses
it or has not answered in time, or that it is put back where it was before. -/
inductive News where
  | announced
  | accepted
  | refused
  | unanswered
  | putBack
deriving Repr, DecidableEq

/-- The proxy a step tells something, and what. -/
def told (s : State) : Action → Option (RuntimeId × News)
  | .supervisor v input =>
      match (s.supervisors v).stage, input with
      | .session (.register (p :: _)) ses, .go =>
          (ses.proxies.lookup p.name).map fun r => (r, .announced)
      | .session .loop ses, .newProxyResp resp =>
          (ses.proxies.lookup resp.proxyName).map fun r =>
            (r, if resp.error = "" then .accepted else .refused)
      | .session (.expire (name :: _)) ses, .go =>
          (ses.proxies.lookup name).map fun r => (r, .unanswered)
      | .idling _ (r :: _), .go => some (r, .putBack)
      | .lastIdling (r :: _), .go => some (r, .putBack)
      | _, _ => none
  | .lock .go =>
      match s.lock with
      | .startIdling (r :: _) => some (r, .putBack)
      | .stopIdling (r :: _) => some (r, .putBack)
      | _ => none
  | _ => none

/-- The proxy stands open after such news. -/
def News.opens : News → Bool
  | .announced | .accepted => true
  | _ => false

/-- The last that the proxy was told is that it is announced, or accepted. -/
def onOffer (r : RuntimeId) : List (State × Action) → Bool
  | [] => false
  | (s, a) :: past =>
      match told s a with
      | some (d, news) => if d = r then news.opens else onOffer r past
      | none => onOffer r past

/-! ## The condition on runs -/

/-- The runtimes that are reported, or will be once a change of the configuration that has read the
registry puts them back into it. -/
def State.reportable (s : State) (r : RuntimeId) : Prop :=
  (∃ name, s.registry.lookup name = some r) ∨
    ∃ u cfg previous name, s.updates u = .rebuild cfg previous ∧ previous.lookup name = some r

/-- What ends a session that has reported its login: the upstream closes or rejects a heartbeat, a
message cannot be sent, no Pong comes, or the configuration changes, or the client is stopped. -/
def SessionPc.endsAt : SessionPc → SupervisorInput → Bool
  | .sending _ _, .sent (some _) | .sending _ _, .cancelled => true
  | .loop, .cancelled | .loop, .stopped | .loop, .changed | .loop, .closed | .loop, .pingFailed _
  | .loop, .noPong => true
  | .loop, .pong error => decide (error ≠ "")
  | _, _ => false

def State.endsSession (s : State) : Action → Bool
  | .supervisor v input =>
      match (s.supervisors v).stage with
      | .session pc _ => pc.endsAt input
      | _ => false
  | _ => false

/-- The condition on a step: no `stop` gives up, and a session ends only when none of the proxies is
on offer. -/
def Unoffered (h : System.Recorded State Action) (a : Action) : Prop :=
  Joins h.1 a ∧ (h.1.endsSession a = true →
    ∀ r, h.1.reportable r → onOffer r h.2 = false)

/-! ## The states of the proxies and what they were told -/

/-- What is reported of a proxy after such news. -/
def News.state : News → ProxyState
  | .announced => .waiting
  | .accepted => .running
  | .refused | .unanswered => .error
  | .putBack => .idle

/-- The states of a proxy that speak of a session. -/
def ProxyState.live : ProxyState → Bool
  | .waiting | .running => true
  | _ => false

theorem News.live_state (news : News) : news.state.live = news.opens := by
  cases news <;> rfl

/-- The runtimes after a step that tells this. -/
def Tells (s s' : State) : Option (RuntimeId × News) → Prop
  | none => s'.runtimes = s.runtimes
  | some (r, news) =>
      (s'.runtimes r).state = news.state ∧ ∀ d, d ≠ r → s'.runtimes d = s.runtimes d

section Told

variable {w : World} {s s' : State}

theorem tells_setProxy (r : RuntimeId) (news : News) {remoteAddr : Option String} {error : String}
    (runtimes : s'.runtimes = (s.setProxy r news.state remoteAddr error).runtimes) :
    Tells s s' (some (r, news)) := by
  constructor
  · rw [runtimes]
    change (Function.update s.runtimes r _ r).state = news.state
    rw [Function.update_self]
    rfl
  · intro d other
    rw [runtimes]
    exact Function.update_of_ne other ..

theorem tells_setNamed (proxies : Map String RuntimeId) (name : String) (news : News)
    {remoteAddr : Option String} {error : String}
    (runtimes : s'.runtimes = (s.setNamed proxies name news.state remoteAddr error).runtimes) :
    Tells s s' ((proxies.lookup name).map fun r => (r, news)) := by
  unfold State.setNamed at runtimes
  cases found : proxies.lookup name with
  | none =>
      rw [found] at runtimes
      exact runtimes
  | some r =>
      rw [found] at runtimes
      exact tells_setProxy r news runtimes

theorem sessionStep_told {v : SupervisorId} {input : SupervisorInput} {pc : SessionPc}
    {ses : Session} (stage : (s.supervisors v).stage = .session pc ses)
    (move : sessionStep v ses s pc input = some s') :
    Tells s s' (told s (.supervisor v input)) := by
  simp only [told, stage]
  cases pc with
  | register left =>
      cases left with
      | nil =>
          cases input <;> cases move
          rfl
      | cons p left =>
          cases input <;> cases move
          exact tells_setNamed _ _ .announced rfl
  | expire left =>
      cases left with
      | nil =>
          cases input <;> cases move
          rfl
      | cons name left =>
          cases input <;> cases move
          exact tells_setNamed _ _ .unanswered rfl
  | sending p left =>
      cases input <;> try cases move
      next failure =>
        cases failure <;> cases move
        · rfl
        · rfl
  | loop =>
      cases input with
      | newProxyResp resp =>
          cases move
          dsimp only
          split
          · exact tells_setNamed _ _ .accepted rfl
          · exact tells_setNamed _ _ .refused rfl
      | pong error =>
          simp only [sessionStep] at move
          split at move <;> cases move
          · rfl
          · rfl
      | stopped | changed | deadline names =>
          rcases Option.ite_none_right_eq_some.mp move with ⟨_, moved⟩
          cases moved
          rfl
      | pingFailed msg | noPong =>
          rcases Option.ite_none_left_eq_some.mp move with ⟨_, moved⟩
          cases moved
          rfl
      | closed | reqWorkConn =>
          cases move
          rfl
      | _ => cases move
  | connecting =>
      cases input <;> cases move
      · rfl
      · rfl
  | shut outcome stopped =>
      cases input <;> cases move
      cases stopped <;> rfl
  | _ =>
      cases input <;> cases move
      rfl

theorem superviseStep_told {v : SupervisorId} {input : SupervisorInput}
    (move : superviseStep w v s (s.supervisors v).stage input = some s') :
    Tells s s' (told s (.supervisor v input)) := by
  cases stage : (s.supervisors v).stage with
  | session pc ses =>
      rw [stage] at move
      cases input with
      | cancelled =>
          rcases Option.ite_none_right_eq_some.mp move with ⟨_, moved⟩
          cases moved
          simp only [told, stage]
          rfl
      | _ => exact sessionStep_told stage move
  | idling cfg left =>
      rw [stage] at move
      simp only [told, stage]
      cases left with
      | nil =>
          cases input <;> cases move
          rfl
      | cons r left =>
          cases input <;> cases move
          exact tells_setProxy r .putBack rfl
  | lastIdling left =>
      rw [stage] at move
      simp only [told, stage]
      cases left with
      | nil =>
          cases input <;> cases move
          rfl
      | cons r left =>
          cases input <;> cases move
          exact tells_setProxy r .putBack rfl
  | idle cfg | lastIdle =>
      rw [stage] at move
      simp only [told, stage]
      cases input <;> try cases move
      rcases Option.ite_none_right_eq_some.mp move with ⟨_, moved⟩
      cases moved
      rfl
  | backoff =>
      rw [stage] at move
      simp only [told, stage]
      cases input <;> try cases move
      · rcases Option.ite_none_right_eq_some.mp move with ⟨_, moved⟩
        cases moved
        rfl
      · rcases Option.ite_none_right_eq_some.mp move with ⟨_, moved⟩
        cases moved
        rfl
      · rfl
  | finished =>
      rw [stage] at move
      cases input <;> cases move
  | _ =>
      rw [stage] at move
      simp only [told, stage]
      cases input <;> cases move
      rfl

theorem lockStep_told {input : LockInput} (move : lockStep w s s.lock input = some s') :
    Tells s s' (told s (.lock input)) := by
  generalize lock : s.lock = pc at move
  cases lockStep_turn move with
  | startIdling r left =>
      simp only [told, lock]
      exact tells_setProxy r .putBack rfl
  | stopIdling r left =>
      simp only [told, lock]
      exact tells_setProxy r .putBack rfl
  | _ =>
      simp only [told, lock]
      rfl

end Told

/-! ## What a step does to the reported proxies -/

/-- None of them is waiting or running. -/
def State.calm (s : State) : Prop :=
  ∀ r, s.reportable r → (s.runtimes r).state.live = false

section Rests

variable {w : World} {s s' s₁ : State} {sup sup' : Supervisor}

/-- Whatever is reportable after the step was so before it and is as it was, or is at rest. -/
def Rests (s s' : State) : Prop :=
  ∀ r, s'.reportable r →
    (s'.runtimes r).state.live = false ∨ s.reportable r ∧ s'.runtimes r = s.runtimes r

theorem State.calm.rests (calm : s.calm) (rests : Rests s s') : s'.calm := by
  intro r reported
  rcases rests r reported with idle | ⟨before, same⟩
  · exact idle
  · rw [same]
    exact calm r before

theorem reportable_congr (registry : s'.registry = s.registry) (updates : s'.updates = s.updates) :
    s'.reportable = s.reportable := by
  unfold State.reportable
  rw [registry, updates]

theorem Rests.same (registry : s'.registry = s.registry) (updates : s'.updates = s.updates)
    (runtimes : s'.runtimes = s.runtimes) : Rests s s' := by
  intro r reported
  rw [reportable_congr registry updates] at reported
  exact .inr ⟨reported, congrFun runtimes r⟩

/-- A proxy is put to rest. -/
theorem Rests.set {r : RuntimeId} {state : ProxyState} {remoteAddr : Option String} {error : String}
    (idle : state.live = false) (registry : s'.registry = s.registry)
    (updates : s'.updates = s.updates)
    (runtimes : s'.runtimes = (s.setProxy r state remoteAddr error).runtimes) : Rests s s' := by
  intro d reported
  rw [reportable_congr registry updates] at reported
  rw [runtimes]
  by_cases own : d = r
  · refine .inl ?_
    rw [own]
    change (Function.update s.runtimes r _ r).state.live = false
    rw [Function.update_self]
    exact idle
  · refine .inr ⟨reported, ?_⟩
    change Function.update s.runtimes r _ d = s.runtimes d
    rw [Function.update_of_ne own]

/-- The registry `rebuild_proxies` builds holds what the previous one held, and new runtimes; the
others it leaves alone. -/
theorem rebuildLoop_rests (previous : Map String RuntimeId) (proxies : List FrpcProxyConfig)
    (s : State) (map : Map String RuntimeId) :
    (∀ r, ((State.rebuildLoop previous proxies s map).1.runtimes r).state.live = false ∨
      (State.rebuildLoop previous proxies s map).1.runtimes r = s.runtimes r) ∧
    ∀ name r, (State.rebuildLoop previous proxies s map).2.lookup name = some r →
      ((State.rebuildLoop previous proxies s map).1.runtimes r).state.live = false ∨
        map.lookup name = some r ∨ ∃ old, previous.lookup old = some r := by
  induction proxies generalizing s map with
  | nil => exact ⟨fun _ => .inr rfl, fun _ _ found => .inr (.inl found)⟩
  | cons p rest inductionHypothesis =>
      unfold State.rebuildLoop
      split
      · next r kept =>
          rcases inductionHypothesis s (map.insert p.name r) with ⟨states, found⟩
          refine ⟨states, ?_⟩
          intro name d listed
          rcases found name d listed with idle | inMap | old
          · exact .inl idle
          · by_cases own : name = p.name
            · rw [own, Finmap.lookup_insert] at inMap
              cases inMap
              exact .inr (.inr ⟨p.name, (Option.filter_eq_some_iff.mp kept).1⟩)
            · rw [Finmap.lookup_insert_of_ne _ own] at inMap
              exact .inr (.inl inMap)
          · exact .inr (.inr old)
      · generalize fresh : ({ s with
            runtimes := Function.update s.runtimes s.nextRuntime { cfg := p }
            nextRuntime := s.nextRuntime + 1 } : State) = s₁
        have created : ∀ r, (s₁.runtimes r).state.live = false ∨ s₁.runtimes r = s.runtimes r := by
          subst fresh
          intro r
          by_cases own : r = s.nextRuntime
          · refine .inl ?_
            rw [own]
            change (Function.update s.runtimes s.nextRuntime _ s.nextRuntime).state.live = false
            rw [Function.update_self]
            rfl
          · exact .inr (Function.update_of_ne own ..)
        have createdIdle : (s₁.runtimes s.nextRuntime).state.live = false := by
          subst fresh
          change (Function.update s.runtimes s.nextRuntime _ s.nextRuntime).state.live = false
          rw [Function.update_self]
          rfl
        rcases inductionHypothesis s₁ (map.insert p.name s.nextRuntime) with ⟨states, found⟩
        constructor
        · intro r
          rcases states r with idle | same
          · exact .inl idle
          · rw [same]
            exact created r
        · intro name d listed
          rcases found name d listed with idle | inMap | old
          · exact .inl idle
          · by_cases own : name = p.name
            · rw [own, Finmap.lookup_insert] at inMap
              cases inMap
              rcases states s.nextRuntime with idle | same
              · exact .inl idle
              · rw [same]
                exact .inl createdIdle
            · rw [Finmap.lookup_insert_of_ne _ own] at inMap
              exact .inr (.inl inMap)
          · exact .inr (.inr old)

/-- A call of `update_config` moves on, and knows no runtime that was not reported. -/
theorem Rests.setUpdate {u : UpdateId} {pc : UpdatePc} (registry : s₁.registry = s.registry)
    (updates : s₁.updates = s.updates) (runtimes : s₁.runtimes = s.runtimes)
    (known : ∀ cfg previous name r, pc = .rebuild cfg previous → previous.lookup name = some r →
      s.reportable r) : Rests s (s₁.setUpdate u pc) := by
  rintro r reported
  refine .inr ⟨?_, congrFun runtimes r⟩
  rcases reported with ⟨name, listed⟩ | ⟨d, cfg, previous, name, stage, listed⟩
  · exact .inl ⟨name, registry ▸ listed⟩
  · by_cases own : d = u
    · rw [own, setUpdate_self] at stage
      exact known cfg previous name r stage listed
    · rw [setUpdate_of_ne _ own, updates] at stage
      exact .inr ⟨d, cfg, previous, name, stage, listed⟩

theorem updateStep_rests {u : UpdateId} {input : UpdateInput}
    (move : updateStep u s (s.updates u) input = some s') : Rests s s' := by
  generalize stage : s.updates u = pc at move
  cases pc with
  | compare cfg =>
      cases input <;> cases move
      refine .setUpdate rfl rfl rfl ?_
      intro _ _ _ _ becomes
      split at becomes <;> cases becomes
  | snapshot cfg =>
      cases input <;> cases move
      refine .setUpdate rfl rfl rfl ?_
      intro _ previous name r becomes listed
      cases becomes
      exact .inl ⟨name, listed⟩
  | rebuild cfg previous =>
      cases input <;> cases move
      have same := rebuildLoop_untouched previous cfg.proxies s ∅
      rcases rebuildLoop_rests previous cfg.proxies s ∅ with ⟨states, found⟩
      intro r reported
      rcases states r with idle | unchanged
      · exact .inl idle
      · rcases reported with ⟨name, listed⟩ | ⟨d, cfg', previous', name, other, listed⟩
        · rcases found name r listed with idle | inMap | ⟨old, known⟩
          · exact .inl idle
          · cases inMap
          · exact .inr ⟨.inr ⟨u, cfg, previous, old, stage, known⟩, unchanged⟩
        · by_cases own : d = u
          · rw [own, setUpdate_self] at other
            cases other
          · rw [setUpdate_of_ne _ own] at other
            change (State.rebuildLoop previous cfg.proxies s ∅).1.updates d = _ at other
            rw [same.updates] at other
            exact .inr ⟨.inr ⟨d, cfg', previous', name, other, listed⟩, unchanged⟩
  | _ =>
      cases input <;> cases move
      exact .setUpdate rfl rfl rfl nofun

theorem lockStep_rests {pc : LockPc} {input : LockInput}
    (move : lockStep w s pc input = some s') : Rests s s' := by
  cases lockStep_turn move with
  | startIdling r left => exact .set rfl rfl rfl rfl
  | stopIdling r left => exact .set rfl rfl rfl rfl
  | _ => exact .same rfl rfl rfl

/-- A new client has idle proxies. -/
theorem new_idle (cfg : FrpcConfig) (r : RuntimeId) :
    ((State.new cfg).runtimes r).state.live = false := by
  rcases (rebuildLoop_rests ∅ cfg.proxies { cfg } ∅).1 r with idle | unchanged
  · exact idle
  · change ((State.rebuildLoop ∅ cfg.proxies { cfg } ∅).1.runtimes r).state.live = false
    rw [unchanged]
    rfl

/-! ## Sessions that have reported their login -/

/-- The session has reported its login and goes on. -/
def SessionPc.up : SessionPc → Bool
  | .snapshot | .register _ | .sending _ _ | .loop | .expire _ => true
  | _ => false

def Stage.up : Stage → Bool
  | .session pc _ => pc.up
  | _ => false

theorem isFinished_of_up {stage : Stage} (up : stage.up = true) : stage.isFinished = false := by
  cases stage with
  | finished => cases up
  | _ => rfl

theorem presence_of_up {stage : Stage} (up : stage.up = true) : stage.presence = some true := by
  cases stage with
  | session pc ses =>
      cases pc with
      | connecting | report runId => cases up
      | _ => rfl
  | _ => cases up

/-- A supervisor puts proxies to rest, except in a session that has reported its login. -/
theorem Turn.rests {stage : Stage} (turn : Turn w s sup stage s₁ sup') :
    Rests s s₁ ∨ sup'.stage.up = true := by
  cases turn with
  | session turn =>
      cases turn with
      | register p left => exact .inr rfl
      | answered name state remoteAddr error => exact .inr rfl
      | expire name left => exact .inr rfl
      | ignored _ _ => exact .inr rfl
      | _ => exact .inl (.same rfl rfl rfl)
  | idling cfg r left => exact .inl (.set rfl rfl rfl rfl)
  | lastIdling r left => exact .inl (.set rfl rfl rfl rfl)
  | _ => exact .inl (.same rfl rfl rfl)

/-- Such a session stops being one only by an answer that ends it. -/
theorem session_ends {v : SupervisorId} {input : SupervisorInput} {pc : SessionPc} {ses : Session}
    (stage : (s.supervisors v).stage = .session pc ses) (up : pc.up = true)
    (move : superviseStep w v s (.session pc ses) input = some s')
    (down : (s'.supervisors v).stage.up = false) : pc.endsAt input = true := by
  have goesOn : ∀ {t : State} {next : SessionPc} {ses' : Session}, next.up = true →
      s' ≠ t.goto v (.session next ses') := by
    rintro t next ses' on rfl
    rw [State.goto, setSupervisor_self] at down
    cases on.symm.trans down
  have moves : (s'.supervisors v) ≠ s.supervisors v := by
    intro same
    rw [same, stage] at down
    cases up.symm.trans down
  cases pc with
  | connecting | report runId | closing outcome | shut outcome stopped => cases up
  | snapshot =>
      cases input <;> cases move
      exact absurd rfl (goesOn rfl)
  | register left =>
      cases left <;> cases input <;> cases move
      · exact absurd rfl (goesOn rfl)
      · exact absurd rfl (goesOn rfl)
  | expire left =>
      cases left <;> cases input <;> cases move
      · exact absurd rfl (goesOn rfl)
      · exact absurd rfl (goesOn rfl)
  | sending p left =>
      cases input with
      | sent failure =>
          cases failure with
          | none =>
              cases move
              exact absurd rfl (goesOn rfl)
          | some failure => rfl
      | cancelled => rfl
      | _ => cases move
  | loop =>
      cases input with
      | newProxyResp resp =>
          cases move
          exact absurd rfl (goesOn rfl)
      | reqWorkConn =>
          cases move
          exact absurd rfl moves
      | pong error =>
          change (if error = "" then some s else _) = some s' at move
          split at move
          · cases move
            exact absurd rfl moves
          · next rejected => exact decide_eq_true rejected
      | deadline names =>
          rcases Option.ite_none_right_eq_some.mp move with ⟨_, moved⟩
          cases moved
          exact absurd rfl (goesOn rfl)
      | cancelled | stopped | changed | closed | pingFailed msg | noPong => rfl
      | _ => cases move

theorem superviseStep_ends {v : SupervisorId} {input : SupervisorInput}
    (move : superviseStep w v s (s.supervisors v).stage input = some s')
    (up : (s.supervisors v).stage.up = true) (down : (s'.supervisors v).stage.up = false) :
    s.endsSession (.supervisor v input) = true := by
  cases stage : (s.supervisors v).stage with
  | session pc ses =>
      rw [stage] at up move
      simp only [State.endsSession, stage]
      exact session_ends stage up move down
  | _ =>
      rw [stage] at up
      cases up

/-- `start` and `stop` end no session, when they wait for their supervisor. -/
theorem lockStep_up (presence : Presence s) {input : LockInput}
    (move : lockStep w s s.lock input = some s') {v : SupervisorId}
    (up : (s.supervisors v).stage.up = true) : (s'.supervisors v).stage.up = true := by
  have alive := isFinished_of_up up
  have nobody := presence.nobody
  generalize s.lock = pc at move nobody
  cases lockStep_turn move with
  | spawn => cases (nobody rfl nofun v).symm.trans alive
  | @take d held =>
      change ((s.setSupervisor d _).supervisors v).stage.up = true
      by_cases own : v = d
      · rw [own] at up ⊢
        rw [setSupervisor_self]
        exact up
      · rw [setSupervisor_of_ne _ own]
        exact up
  | _ => exact up

end Rests

/-! ## Live proxies are on offer -/

section Offers

variable {w : World} {s s' : State} {past : List (State × Action)} {a : Action}

/-- Every proxy that is waiting or running is on offer. -/
def Offers (h : System.Recorded State Action) : Prop :=
  ∀ r, (h.1.runtimes r).state.live = true → onOffer r h.2 = true

theorem Offers.told (offers : Offers ⟨s, past⟩) (tells : Tells s s' (told s a)) :
    Offers ⟨s', (s, a) :: past⟩ := by
  intro r live
  change (s'.runtimes r).state.live = true at live
  unfold onOffer
  cases news : Client.told s a with
  | none =>
      rw [news] at tells
      rw [show s'.runtimes = s.runtimes from tells] at live
      exact offers r live
  | some entry =>
      rcases entry with ⟨d, news'⟩
      rw [news] at tells
      rcases tells with ⟨state, others⟩
      dsimp only
      split
      · next own =>
          rw [← own, state, News.live_state] at live
          exact live
      · next other =>
          rw [others r (Ne.symm other)] at live
          exact offers r live

theorem Offers.updateStep (offers : Offers ⟨s, past⟩) {u : UpdateId} {input : UpdateInput}
    (move : updateStep u s (s.updates u) input = some s') :
    Offers ⟨s', (s, .update u input) :: past⟩ := by
  intro r live
  change onOffer r past = true
  generalize s.updates u = pc at move
  cases pc with
  | rebuild cfg previous =>
      cases input <;> cases move
      rcases (rebuildLoop_rests previous cfg.proxies s ∅).1 r with idle | same
      · cases idle.symm.trans live
      · refine offers r ?_
        rw [← same]
        exact live
  | _ =>
      cases input <;> cases move
      exact offers r live

theorem client_offers {allowed : System.Recorded State Action → Action → Prop}
    {h : System.Recorded State Action} (run : (client w).recorded.Reaches allowed h) :
    Offers h := by
  refine run.invariant ?_ ?_
  · rintro ⟨s, past⟩ ⟨⟨cfg, initial⟩, _⟩ r live
    rw [show s = State.new cfg from initial] at live
    cases (new_idle cfg r).symm.trans live
  · rintro ⟨s, past⟩ a ⟨s', past'⟩ _ offers _ ⟨move, rfl⟩
    cases a with
    | supervisor v input => exact offers.told (superviseStep_told move)
    | lock input => exact offers.told (lockStep_told move)
    | update u input => exact offers.updateStep move

/-! ## Without a session the proxies are at rest -/

/-- With no session that has reported its login, no proxy is waiting or running. -/
def Quiet (s : State) : Prop :=
  (∀ v, (s.supervisors v).stage.up = false) → s.calm

theorem Quiet.step (quiet : Quiet s) (presence : Presence s) (offers : Offers ⟨s, past⟩)
    (unoffered : Unoffered ⟨s, past⟩ a) (move : step w a s = some s') : Quiet s' := by
  intro nobody
  cases a with
  | supervisor v input =>
      have down := nobody v
      rcases superviseStep_turn move with ⟨s₁, sup', turn, rfl⟩
      rw [setSupervisor_self] at down
      have rests : Rests s s₁ := turn.rests.resolve_right (by rw [down]; exact Bool.false_ne_true)
      have before : s.calm := by
        by_cases up : (s.supervisors v).stage.up = true
        · -- the session ends here, and what is on offer is what is live
          intro r reportable
          by_contra live
          have offered := offers r (Bool.eq_true_of_not_eq_false live)
          have none := unoffered.2 (superviseStep_ends move up (nobody v)) r reportable
          cases none.symm.trans offered
        · refine quiet fun d => ?_
          by_cases own : d = v
          · rw [own]
            exact Bool.eq_false_of_not_eq_true up
          · have after := nobody d
            rw [setSupervisor_of_ne _ own, turn.untouched.supervisors] at after
            exact after
      exact before.rests rests
  | lock input =>
      refine (quiet fun v => ?_).rests (lockStep_rests move)
      apply Bool.eq_false_of_not_eq_true
      intro up
      cases (nobody v).symm.trans (lockStep_up presence move up)
  | update u input =>
      have same := updateStep_supervisors move
      refine (quiet fun v => ?_).rests (updateStep_rests move)
      rw [← same.1]
      exact nobody v

theorem client_calm {h : System.Recorded State Action}
    (run : (client w).recorded.Reaches Unoffered h) : Quiet h.1 := by
  refine run.invariant (P := fun h => Quiet h.1) ?_ ?_
  · rintro h ⟨⟨cfg, initial⟩, _⟩ _ r _
    rw [initial]
    exact new_idle cfg r
  · rintro ⟨s, past⟩ a ⟨s', past'⟩ before quiet unoffered ⟨move, rfl⟩
    have presence : Presence s :=
      client_presence (fun joins => joins) (before.unrecorded fun unoffered => unoffered.1)
    exact quiet.step presence (client_offers before) unoffered move

end Offers

/-- In runs that meet the condition, a proxy that is reported waiting or running has a connection
behind it. -/
theorem proxies_connected {w : World} {h : System.Recorded State Action}
    (run : (client w).recorded.Reaches Unoffered h) {name : String} {r : RuntimeId}
    (registered : h.1.registry.lookup name = some r)
    (live : (h.1.runtimes r).state = .waiting ∨ (h.1.runtimes r).state = .running) :
    h.1.status.connected = true := by
  have presence : Presence h.1 :=
    client_presence (fun joins => joins) (run.unrecorded fun unoffered => unoffered.1)
  by_contra offline
  have nobody : ∀ v, (h.1.supervisors v).stage.up = false := by
    intro v
    apply Bool.eq_false_of_not_eq_true
    intro up
    exact offline (presence.connected (presence_of_up up))
  have idle := client_calm run nobody r (.inl ⟨name, registered⟩)
  rcases live with state | state
  · rw [state] at idle
    cases idle
  · rw [state] at idle
    cases idle

/-! ## A proxy that is refused before the session ends, and one that is not -/

theorem told_of_onOffer {r : RuntimeId} {past : List (State × Action)}
    (offered : onOffer r past = true) :
    ∃ entry ∈ past, ∃ news, told entry.1 entry.2 = some (r, news) := by
  induction past with
  | nil => cases offered
  | cons entry past inductionHypothesis =>
      have earlier : onOffer r past = true →
          ∃ e ∈ entry :: past, ∃ news, told e.1 e.2 = some (r, news) := by
        intro before
        rcases inductionHypothesis before with ⟨e, member, news, same⟩
        exact ⟨e, List.mem_cons_of_mem _ member, news, same⟩
      unfold onOffer at offered
      split at offered
      · next d news same =>
          by_cases own : d = r
          · exact ⟨entry, List.mem_cons_self .., news, own ▸ same⟩
          · rw [if_neg own] at offered
            exact earlier offered
      · exact earlier offered

/-- The condition, as it is checked of a step of one of the runs below. -/
def unofferedCheck (h : System.Recorded State Action) : Action → Bool
  | .lock .timeout => false
  | a =>
      !h.1.endsSession a ||
        h.2.all fun entry => (told entry.1 entry.2).all fun news => !onOffer news.1 h.2

theorem unoffered_of_check {h : System.Recorded State Action} {a : Action}
    (checked : unofferedCheck h a = true) : Unoffered h a := by
  constructor
  · rintro rfl
    cases checked
  · intro ends r _
    apply Bool.eq_false_of_not_eq_true
    intro offered
    rcases told_of_onOffer offered with ⟨entry, member, news, same⟩
    have withdrawn : (!h.1.endsSession a || h.2.all fun entry =>
        (told entry.1 entry.2).all fun news => !onOffer news.1 h.2) = true := by
      unfold unofferedCheck at checked
      split at checked
      · cases checked
      · exact checked
    rw [ends, Bool.not_true, Bool.false_or, List.all_eq_true] at withdrawn
    have closed := withdrawn entry member
    rw [same] at closed
    simp only [Option.all_some, offered, Bool.not_true] at closed
    cases closed

/-- A client with one proxy. -/
def oneProxy : FrpcConfig :=
  { serverAddr := "a", proxies := [{ name := "ssh", localPort := 22, remotePort := 6000 }] }

/-- `start`, the supervisor up to its first session, and the login, with the one proxy. -/
def oneProxyRun : List Action :=
  [.lock .start, .lock .go, .lock .go, .lock .go, .lock (.order [0]), .lock .go, .lock .go,
      .lock .go] ++
    readRun 0 ++
    [.supervisor 0 (.order [0]), .supervisor 0 .go, .supervisor 0 .go, .supervisor 0 .go,
      .supervisor 0 .go, .supervisor 0 .go] ++ loginRun 0

/-- The proxy is registered, and the upstream answers. -/
def answerRun (resp : Frps.NewProxyResp) : List Action :=
  [.supervisor 0 .go, .supervisor 0 .go, .supervisor 0 (.sent none), .supervisor 0 .go,
    .supervisor 0 (.newProxyResp resp)]

/-- It accepts the proxy. -/
def registerRun : List Action := answerRun { proxyName := "ssh", remoteAddr := ":6000" }

/-- The upstream closes the connection, and the supervisor ends the session and stores the error. -/
def hangUpRun : List Action :=
  [.supervisor 0 .closed, .supervisor 0 .go, .supervisor 0 .go, .supervisor 0 .go,
    .supervisor 0 .go]

/-- The backoff runs out, and the next session logs in. -/
def reconnectRun : List Action :=
  [.supervisor 0 .elapsed, .supervisor 0 .go, .supervisor 0 .go, .supervisor 0 (.order [0]),
      .supervisor 0 .go, .supervisor 0 .go, .supervisor 0 .go, .supervisor 0 .go,
      .supervisor 0 .go] ++ loginRun 0

/-- What is reported of the one proxy. -/
def State.reportedState (s : State) : Option ProxyState :=
  (s.registry.lookup "ssh").map fun r => (s.runtimes r).state

/-- The upstream refuses the proxy and hangs up. It accepts it in the next session, and the proxy is
reported as running, with a connection. -/
theorem proxies_connected_second_session :
    ∃ h r, (client sampleWorld).recorded.Reaches Unoffered h ∧
      (∃ entry ∈ h.2, entry.1.endsSession entry.2 = true) ∧
      h.1.registry.lookup "ssh" = some r ∧ (h.1.runtimes r).state = .running ∧
      h.1.status.connected = true := by
  have passed : (System.execute
      (System.guarded unofferedCheck (System.recordedStep (step sampleWorld)))
      (oneProxyRun ++ answerRun { proxyName := "ssh", error := "port taken" } ++ hangUpRun ++
        reconnectRun ++ registerRun) ⟨State.new oneProxy, []⟩).any
      (fun h => decide (h.1.reportedState = some .running) &&
        h.2.any fun entry => entry.1.endsSession entry.2) = true := by
    decide +kernel
  rcases System.exists_of_any passed with ⟨h, done, shown⟩
  simp only [Bool.and_eq_true, List.any_eq_true, decide_eq_true_eq] at shown
  have run : (client sampleWorld).recorded.Reaches Unoffered h :=
    System.recording_reaches id unoffered_of_check ⟨_, rfl⟩ done
  rcases Option.map_eq_some_iff.mp shown.1 with ⟨r, registered, running⟩
  exact ⟨h, r, run, shown.2, registered, running, proxies_connected run registered (.inr running)⟩

/-- The upstream has hung up, and through the whole backoff the proxy is reported running. -/
theorem proxy_running_disconnected :
    ∃ s r, (client sampleWorld).Reachable s ∧ (s.supervisors 0).stage = .backoff ∧
      s.registry.lookup "ssh" = some r ∧ (s.runtimes r).state = .running ∧
      s.status.connected = false := by
  rcases System.exists_of_any (by decide +kernel : (System.execute (step sampleWorld)
      (oneProxyRun ++ registerRun ++ hangUpRun) (State.new oneProxy)).any
        (fun s => (match (s.supervisors 0).stage with
            | .backoff => true
            | _ => false) &&
          decide (s.reportedState = some .running ∧ s.status.connected = false)) = true)
    with ⟨s, done, shown⟩
  simp only [Bool.and_eq_true, decide_eq_true_eq] at shown
  rcases shown with ⟨waits, running, offline⟩
  rcases Option.map_eq_some_iff.mp running with ⟨r, registered, running⟩
  refine ⟨s, r, ?_, ?_, registered, running, offline⟩
  · exact System.reaches_of_execute (fun _ moved => ⟨trivial, moved⟩) (.start ⟨_, rfl⟩) done
  · split at waits
    · assumption
    · cases waits

end Remgr.Frpc.Client
