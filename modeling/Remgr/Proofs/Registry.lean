/-
Module: Remgr.Proofs.Registry
Purpose: The registry of the frp client over the calls of `update_config`, one after another. Rebuilding
  gives each configured proxy the runtime it had, when its definition is the same, and a new one otherwise;
  nothing else touches the registry or a definition in it.
Trusted boundary: none
Main exports: Registered, Rebuilt, rebuildProxies_rebuilt, RegistryTurn, InTurn, Settled.step
-/
import Remgr.Proofs.Supervision

namespace Remgr.Frpc

/-- The names of the proxies are distinct. -/
def FrpcConfig.DistinctNames (cfg : FrpcConfig) : Prop :=
  (cfg.proxies.map FrpcProxyConfig.name).Nodup

instance (cfg : FrpcConfig) : Decidable cfg.DistinctNames :=
  inferInstanceAs (Decidable (cfg.proxies.map FrpcProxyConfig.name).Nodup)

namespace Client

open Remgr.Lib

/-- The proxy is registered with this runtime, which has this definition. -/
def State.publishes (s : State) (p : FrpcProxyConfig) (r : RuntimeId) : Prop :=
  s.registry.lookup p.name = some r ∧ (s.runtimes r).cfg = p

/-- The registry has one runtime for each proxy of the configuration, with its definition, and no
others. -/
structure Registered (s : State) (cfg : FrpcConfig) : Prop where
  complete : ∀ p ∈ cfg.proxies, ∃ r, s.publishes p r
  only : ∀ {name r}, s.registry.lookup name = some r →
    ∃ p ∈ cfg.proxies, p.name = name ∧ s.publishes p r
  apart : ∀ {name other r}, s.registry.lookup name = some r → s.registry.lookup other = some r →
    name = other

/-- The runtimes of a registry have been made, each for a proxy of its name. -/
def Known (s : State) (registry : Map String RuntimeId) : Prop :=
  ∀ {name r}, registry.lookup name = some r →
    r < s.nextRuntime ∧ (s.runtimes r).cfg.name = name

/-! ## Rebuilding -/

/-- Under one name, `rebuild_proxies` compares whole definitions. -/
theorem sameDefinition_iff {old new : FrpcProxyConfig} (name : old.name = new.name) :
    State.sameDefinition old new = true ↔ old = new := by
  cases old
  cases new
  simp only [State.sameDefinition, Bool.and_eq_true, beq_iff_eq, FrpcProxyConfig.mk.injEq] at name ⊢
  tauto

/-- What the loop makes of the registry it fills. -/
structure LoopFills (previous : Map String RuntimeId) (proxies : List FrpcProxyConfig) (s : State)
    (map : Map String RuntimeId) (s' : State) (map' : Map String RuntimeId) : Prop where
  next : s.nextRuntime ≤ s'.nextRuntime
  old : ∀ r < s.nextRuntime, s'.runtimes r = s.runtimes r
  others : ∀ name, name ∉ proxies.map FrpcProxyConfig.name → map'.lookup name = map.lookup name
  each : ∀ p ∈ proxies, ∃ r < s'.nextRuntime, map'.lookup p.name = some r ∧
    (s'.runtimes r).cfg = p ∧
    (previous.lookup p.name = some r ∨
      s.nextRuntime ≤ r ∧ ∀ d, previous.lookup p.name = some d → (s.runtimes d).cfg ≠ p)

theorem rebuildLoop_fills {previous : Map String RuntimeId} {proxies : List FrpcProxyConfig}
    (distinct : (proxies.map FrpcProxyConfig.name).Nodup) {s : State} (known : Known s previous)
    (map : Map String RuntimeId) :
    LoopFills previous proxies s map (State.rebuildLoop previous proxies s map).1
      (State.rebuildLoop previous proxies s map).2 := by
  induction proxies generalizing s map with
  | nil => exact ⟨Nat.le_refl _, fun _ _ => rfl, fun _ _ => rfl, nofun⟩
  | cons p rest inductionHypothesis =>
      obtain ⟨new, distinct⟩ := List.nodup_cons.mp distinct
      unfold State.rebuildLoop
      split
      · next r kept =>
          obtain ⟨found, same⟩ := Option.filter_eq_some_iff.mp kept
          have made := known found
          have own : (s.runtimes r).cfg = p := (sameDefinition_iff made.2).mp same
          obtain ⟨next, old, others, each⟩ :=
            inductionHypothesis distinct known (map.insert p.name r)
          refine ⟨next, old, fun name absent => ?_, fun q inside => ?_⟩
          · obtain ⟨other, absent⟩ := not_or.mp (mt List.mem_cons.mpr absent)
            rw [others name absent, Finmap.lookup_insert_of_ne _ other]
          · rcases List.mem_cons.mp inside with rfl | later
            · refine ⟨r, made.1.trans_le next, ?_, ?_, .inl found⟩
              · rw [others _ new, Finmap.lookup_insert]
              · rw [old r made.1, own]
            · exact each q later
      · next replaced =>
          generalize fresh : ({ s with
            runtimes := Function.update s.runtimes s.nextRuntime { cfg := p }
            nextRuntime := s.nextRuntime + 1 } : State) = s₁
          have before : ∀ r < s.nextRuntime, s₁.runtimes r = s.runtimes r := by
            subst fresh
            exact fun r made => Function.update_of_ne made.ne ..
          have created : (s₁.runtimes s.nextRuntime).cfg = p := by
            subst fresh
            exact congrArg ProxyRuntime.cfg (Function.update_self s.nextRuntime _ s.runtimes)
          have later : s₁.nextRuntime = s.nextRuntime + 1 := by rw [← fresh]
          have known₁ : Known s₁ previous := by
            intro name r found
            obtain ⟨made, named⟩ := known found
            exact ⟨later ▸ Nat.lt_succ_of_lt made, by rw [before r made, named]⟩
          obtain ⟨next, old, others, each⟩ :=
            inductionHypothesis distinct known₁ (map.insert p.name s.nextRuntime)
          rw [later] at next old each
          refine ⟨(Nat.le_succ _).trans next, fun r made => ?_, fun name absent => ?_,
            fun q inside => ?_⟩
          · rw [old r (Nat.lt_succ_of_lt made), before r made]
          · obtain ⟨other, absent⟩ := not_or.mp (mt List.mem_cons.mpr absent)
            rw [others name absent, Finmap.lookup_insert_of_ne _ other]
          · rcases List.mem_cons.mp inside with rfl | later
            · refine ⟨s.nextRuntime, next, ?_, ?_, .inr ⟨Nat.le_refl _, fun d found own => ?_⟩⟩
              · rw [others _ new, Finmap.lookup_insert]
              · rw [old _ (Nat.lt_succ_self _), created]
              · have kept : ((previous.lookup q.name).filter fun r =>
                    State.sameDefinition (s.runtimes r).cfg q) = some d :=
                  Option.filter_eq_some_iff.mpr ⟨found, (sameDefinition_iff (known found).2).mpr own⟩
                cases replaced.symm.trans kept
            · obtain ⟨r, made, found, own, source⟩ := each q later
              refine ⟨r, made, found, own, source.imp_right fun ⟨late, changed⟩ => ?_⟩
              refine ⟨Nat.le_of_succ_le late, fun d listed => ?_⟩
              rw [← before d (known listed).1]
              exact changed d listed

/-- From `s` to `s'` the registry has been rebuilt for a configuration. -/
structure Rebuilt (cfg : FrpcConfig) (s s' : State) : Prop where
  registered : Registered s' cfg
  kept : ∀ p ∈ cfg.proxies, ∀ r, s.publishes p r → s'.publishes p r
  fresh : ∀ p ∈ cfg.proxies, (∀ r, ¬ s.publishes p r) →
    ∃ r, s'.publishes p r ∧ s.nextRuntime ≤ r ∧ r < s'.nextRuntime
  next : s.nextRuntime ≤ s'.nextRuntime
  known : Known s' s'.registry

theorem rebuildProxies_rebuilt {s : State} {cfg : FrpcConfig} (distinct : cfg.DistinctNames)
    (known : Known s s.registry) : Rebuilt cfg s (s.rebuildProxies s.registry cfg) := by
  obtain ⟨next, old, others, each⟩ := rebuildLoop_fills distinct known ∅
  generalize built : s.rebuildProxies s.registry cfg = s'
  have runtimes : (State.rebuildLoop s.registry cfg.proxies s ∅).1.runtimes = s'.runtimes := by
    rw [← built]
    rfl
  have nextRuntime :
      (State.rebuildLoop s.registry cfg.proxies s ∅).1.nextRuntime = s'.nextRuntime := by
    rw [← built]
    rfl
  have registry : (State.rebuildLoop s.registry cfg.proxies s ∅).2 = s'.registry := by
    rw [← built]
    rfl
  rw [runtimes] at old
  rw [nextRuntime] at next
  rw [registry] at others
  rw [runtimes, nextRuntime, registry] at each
  have complete : ∀ p ∈ cfg.proxies, ∃ r, s'.publishes p r := by
    intro p inside
    obtain ⟨r, -, found, own, -⟩ := each p inside
    exact ⟨r, found, own⟩
  have only : ∀ {name r}, s'.registry.lookup name = some r →
      ∃ p ∈ cfg.proxies, p.name = name ∧ s'.publishes p r := by
    intro name r found
    have configured : name ∈ cfg.proxies.map FrpcProxyConfig.name := by
      by_contra absent
      rw [others name absent, Finmap.lookup_empty] at found
      cases found
    obtain ⟨p, inside, rfl⟩ := List.mem_map.mp configured
    obtain ⟨d, listed, own⟩ := complete p inside
    cases found.symm.trans listed
    exact ⟨p, inside, rfl, listed, own⟩
  refine ⟨⟨complete, only, fun one other => ?_⟩, fun p inside r before => ?_,
    fun p inside absent => ?_, next, fun found => ?_⟩
  · obtain ⟨p, -, rfl, -, own⟩ := only one
    obtain ⟨q, -, rfl, -, same⟩ := only other
    rw [own.symm.trans same]
  · obtain ⟨d, -, found, own, kept | ⟨-, changed⟩⟩ := each p inside
    · cases before.1.symm.trans kept
      exact ⟨found, own⟩
    · exact absurd before.2 (changed r before.1)
  · obtain ⟨r, made, found, own, kept | ⟨late, -⟩⟩ := each p inside
    · refine absurd ⟨kept, ?_⟩ (absent r)
      rw [← old r (known kept).1, own]
    · exact ⟨r, ⟨found, own⟩, late, made⟩
  · obtain ⟨p, inside, rfl, listed, own⟩ := only found
    obtain ⟨d, made, found', -⟩ := each p inside
    cases found.symm.trans found'
    exact ⟨made, congrArg FrpcProxyConfig.name own⟩

/-! ## The other steps -/

/-- The registry, its definitions and the calls of `update_config` are as they were. -/
structure SameRegistry (s s' : State) : Prop where
  registry : s'.registry = s.registry
  nextRuntime : s'.nextRuntime = s.nextRuntime
  definitions : ∀ r, (s'.runtimes r).cfg = (s.runtimes r).cfg

theorem SameRegistry.refl (s : State) : SameRegistry s s := ⟨rfl, rfl, fun _ => rfl⟩

theorem SameRegistry.setUpdate (s : State) (u : UpdateId) (pc : UpdatePc) :
    SameRegistry s (s.setUpdate u pc) := ⟨rfl, rfl, fun _ => rfl⟩

theorem SameRegistry.setProxy (s : State) (r : RuntimeId) (state : ProxyState)
    (remoteAddr : Option String) (error : String) :
    SameRegistry s (s.setProxy r state remoteAddr error) := by
  refine ⟨rfl, rfl, fun d => ?_⟩
  by_cases own : d = r
  · rw [own]
    change (Function.update s.runtimes r _ r).cfg = _
    rw [Function.update_self]
    rfl
  · exact congrArg ProxyRuntime.cfg (Function.update_of_ne own _ s.runtimes)

theorem SameRegistry.setNamed (s : State) (proxies : Map String RuntimeId) (name : String)
    (state : ProxyState) (remoteAddr : Option String) (error : String) :
    SameRegistry s (s.setNamed proxies name state remoteAddr error) := by
  unfold State.setNamed
  split
  · exact .setProxy ..
  · exact .refl s

section Steps

variable {w : World} {s s' : State}

theorem Turn.sameRegistry {sup sup' : Supervisor} {stage : Stage}
    (turn : Turn w s sup stage s' sup') : SameRegistry s s' := by
  cases turn with
  | session turn =>
      cases turn with
      | register p left => exact .setNamed ..
      | answered name state remoteAddr error => exact .setNamed ..
      | expire name left => exact .setNamed ..
      | ignored _ same => rcases same with rfl | rfl <;> exact ⟨rfl, rfl, fun _ => rfl⟩
      | _ => exact ⟨rfl, rfl, fun _ => rfl⟩
  | idling cfg r left => exact .setProxy ..
  | lastIdling r left => exact .setProxy ..
  | _ => exact ⟨rfl, rfl, fun _ => rfl⟩

theorem lockStep_sameRegistry {pc : LockPc} {input : LockInput}
    (move : lockStep w s pc input = some s') : SameRegistry s s' := by
  have idles : ∀ {r : RuntimeId} {lock : LockPc},
      SameRegistry s { s.setProxy r .idle none "" with lock } := by
    intro r lock
    have same := SameRegistry.setProxy s r .idle none ""
    exact ⟨same.registry, same.nextRuntime, same.definitions⟩
  cases lockStep_turn move with
  | startIdling r left => exact idles
  | stopIdling r left => exact idles
  | _ => exact ⟨rfl, rfl, fun _ => rfl⟩

/-- What a step means for the registry. Apart from the calls of `update_config` nothing happens to it;
a call compares, takes the registry as it is, rebuilds it, and stores the configuration. -/
inductive RegistryTurn (s : State) : Action → State → Prop
  | apart {a : Action} {s' : State} (same : SameRegistry s s') (cfg : s'.cfg = s.cfg)
      (updates : s'.updates = s.updates) (own : ∀ u input, a ≠ .update u input) :
      RegistryTurn s a s'
  | begins {u : UpdateId} (cfg : FrpcConfig) (stage : s.updates u = .none) :
      RegistryTurn s (.update u (.begin cfg)) (s.setUpdate u (.compare cfg))
  | equal {u : UpdateId} {cfg : FrpcConfig} (stage : s.updates u = .compare cfg) :
      RegistryTurn s (.update u .go) (s.setUpdate u .none)
  | differs {u : UpdateId} {cfg : FrpcConfig} (stage : s.updates u = .compare cfg) :
      RegistryTurn s (.update u .go) (s.setUpdate u (.snapshot cfg))
  | snapshot {u : UpdateId} {cfg : FrpcConfig} (stage : s.updates u = .snapshot cfg) :
      RegistryTurn s (.update u .go) (s.setUpdate u (.rebuild cfg s.registry))
  | rebuild {u : UpdateId} {cfg : FrpcConfig} {previous : Map String RuntimeId}
      (stage : s.updates u = .rebuild cfg previous) :
      RegistryTurn s (.update u .go) ((s.rebuildProxies previous cfg).setUpdate u (.write cfg))
  | write {u : UpdateId} {cfg : FrpcConfig} (stage : s.updates u = .write cfg) :
      RegistryTurn s (.update u .go) ({ s with cfg := cfg }.setUpdate u .bump)
  | bump {u : UpdateId} (stage : s.updates u = .bump) :
      RegistryTurn s (.update u .go) ({ s with cfgGen := s.cfgGen + 1 }.setUpdate u .send)
  | send {u : UpdateId} (stage : s.updates u = .send) :
      RegistryTurn s (.update u .go) ({ s with version := s.version + 1 }.setUpdate u .none)

theorem updateStep_registryTurn {u : UpdateId} {input : UpdateInput}
    (move : updateStep u s (s.updates u) input = some s') :
    RegistryTurn s (.update u input) s' := by
  generalize stage : s.updates u = pc at move
  cases pc with
  | none =>
      cases input <;> cases move
      exact .begins _ stage
  | compare cfg =>
      cases input <;> cases move
      split
      · exact .equal stage
      · exact .differs stage
  | snapshot cfg =>
      cases input <;> cases move
      exact .snapshot stage
  | rebuild cfg previous =>
      cases input <;> cases move
      exact .rebuild stage
  | write cfg =>
      cases input <;> cases move
      exact .write stage
  | bump =>
      cases input <;> cases move
      exact .bump stage
  | send =>
      cases input <;> cases move
      exact .send stage

theorem step_registryTurn {a : Action} (move : step w a s = some s') : RegistryTurn s a s' := by
  cases a with
  | supervisor v input =>
      obtain ⟨s₁, sup, turn, rfl⟩ := superviseStep_turn move
      have same := turn.sameRegistry
      have untouched := turn.untouched
      exact .apart ⟨same.registry, same.nextRuntime, same.definitions⟩ untouched.cfg
        untouched.updates nofun
  | lock input =>
      have same := lockStep_sameRegistry move
      refine .apart same ?_ ?_ nofun
      · change lockStep w s s.lock input = some s' at move
        generalize s.lock = pc at move
        cases lockStep_turn move <;> rfl
      · change lockStep w s s.lock input = some s' at move
        generalize s.lock = pc at move
        cases lockStep_turn move <;> rfl
  | update u input => exact updateStep_registryTurn move

end Steps

/-! ## One call after another -/

/-- A call of `update_config` begins when no other is in progress, and with distinct names. -/
def InTurn (s : State) : Action → Prop
  | .update _ (.begin cfg) => (∀ u, s.updates u = .none) ∧ cfg.DistinctNames
  | _ => True

/-- The configuration a call has yet to rebuild the registry for. -/
def UpdatePc.inHand : UpdatePc → Option FrpcConfig
  | .compare cfg | .snapshot cfg | .rebuild cfg _ => some cfg
  | .none | .write _ | .bump | .send => Option.none

/-- The configuration a call has rebuilt the registry for, and has yet to store. -/
def UpdatePc.unstored : UpdatePc → Option FrpcConfig
  | .write cfg => some cfg
  | .none | .compare _ | .snapshot _ | .rebuild _ _ | .bump | .send => Option.none

/-- The configuration for which the registry was built last. -/
def State.adopted (s : State) (cfg : FrpcConfig) : Prop :=
  (∃ u, (s.updates u).unstored = some cfg) ∨ (∀ u, (s.updates u).unstored = none) ∧ cfg = s.cfg

/-- At most one call is in progress. It has a configuration with distinct names in hand and the registry
that is in place, which is the one for the configuration adopted last. -/
structure Settled (s : State) : Prop where
  alone : ∀ u d, s.updates u ≠ .none → s.updates d ≠ .none → u = d
  distinct : ∀ u cfg, (s.updates u).inHand = some cfg → cfg.DistinctNames
  current : ∀ u cfg previous, s.updates u = .rebuild cfg previous → previous = s.registry
  known : Known s s.registry
  registered : ∀ cfg, s.adopted cfg → Registered s cfg

section Runs

variable {w : World} {s s' : State}

theorem SameRegistry.publishes (same : SameRegistry s s') {p : FrpcProxyConfig} {r : RuntimeId} :
    s'.publishes p r ↔ s.publishes p r := by
  rw [State.publishes, State.publishes, same.registry, same.definitions]

theorem SameRegistry.known (same : SameRegistry s s') (known : Known s s.registry) :
    Known s' s'.registry := by
  intro name r found
  rw [same.registry] at found
  rw [same.nextRuntime, same.definitions]
  exact known found

theorem SameRegistry.registered (same : SameRegistry s s') {cfg : FrpcConfig}
    (registered : Registered s cfg) : Registered s' cfg := by
  constructor
  · intro p inside
    obtain ⟨r, published⟩ := registered.complete p inside
    exact ⟨r, same.publishes.mpr published⟩
  · intro name r found
    rw [same.registry] at found
    obtain ⟨p, inside, named, published⟩ := registered.only found
    exact ⟨p, inside, named, same.publishes.mpr published⟩
  · intro name other r one two
    rw [same.registry] at one two
    exact registered.apart one two

/-- A call moves on and leaves the registry alone. -/
theorem Settled.setUpdate (settled : Settled s) (same : SameRegistry s s') {u : UpdateId}
    {pc : UpdatePc} (updates : s'.updates = s.updates)
    (alone : ∀ d, s.updates d ≠ .none → d = u)
    (distinct : ∀ cfg, pc.inHand = some cfg → cfg.DistinctNames)
    (current : ∀ cfg previous, pc = .rebuild cfg previous → previous = s.registry)
    (adopted : ∀ cfg, (s'.setUpdate u pc).adopted cfg → s.adopted cfg) :
    Settled (s'.setUpdate u pc) := by
  have others : ∀ {d}, d ≠ u → (s'.setUpdate u pc).updates d = s.updates d := by
    intro d other
    rw [setUpdate_of_ne _ other, updates]
  have onlyOwn : ∀ d, (s'.setUpdate u pc).updates d ≠ .none → d = u := by
    intro d busy
    by_contra other
    rw [others other] at busy
    exact other (alone d busy)
  have kept : SameRegistry s (s'.setUpdate u pc) :=
    ⟨same.registry, same.nextRuntime, same.definitions⟩
  refine ⟨fun d e one two => (onlyOwn d one).trans (onlyOwn e two).symm, fun d cfg hand => ?_,
    fun d cfg previous stage => ?_, kept.known settled.known,
    fun cfg built => kept.registered (settled.registered cfg (adopted cfg built))⟩
  · by_cases own : d = u
    · rw [own, setUpdate_self] at hand
      exact distinct cfg hand
    · rw [others own] at hand
      exact settled.distinct d cfg hand
  · rw [kept.registry]
    by_cases own : d = u
    · rw [own, setUpdate_self] at stage
      exact current cfg previous stage
    · rw [others own] at stage
      exact settled.current d cfg previous stage

/-- What was adopted last, after a step that neither rebuilds nor stores. -/
theorem adopted_of_setUpdate {u : UpdateId} {pc : UpdatePc} (cfg : s'.cfg = s.cfg)
    (updates : s'.updates = s.updates) (unstored : pc.unstored = (s.updates u).unstored)
    {built : FrpcConfig} (adopted : (s'.setUpdate u pc).adopted built) : s.adopted built := by
  have same : ∀ d, ((s'.setUpdate u pc).updates d).unstored = (s.updates d).unstored := by
    intro d
    by_cases own : d = u
    · rw [own, setUpdate_self, unstored]
    · rw [setUpdate_of_ne _ own, updates]
  rcases adopted with ⟨d, holds⟩ | ⟨stored, last⟩
  · exact .inl ⟨d, (same d).symm.trans holds⟩
  · exact .inr ⟨fun d => (same d).symm.trans (stored d), last.trans cfg⟩

/-- The steps of a call between its beginning and its end, but for the two that matter. -/
theorem Settled.goes (settled : Settled s) {u : UpdateId} {pc next : UpdatePc}
    (stage : s.updates u = pc) (busy : pc ≠ .none) (same : SameRegistry s s') (cfg : s'.cfg = s.cfg)
    (updates : s'.updates = s.updates) (stored : pc.unstored = none) (stores : next.unstored = none)
    (inHand : next.inHand = none ∨ next.inHand = pc.inHand)
    (current : ∀ cfg previous, next = .rebuild cfg previous → previous = s.registry) :
    Settled (s'.setUpdate u next) := by
  subst stage
  refine settled.setUpdate same updates (fun d other => settled.alone d u other busy)
    (fun built hand => ?_) current fun _ => adopted_of_setUpdate cfg updates (stores.trans stored.symm)
  rcases inHand with none | kept
  · cases none.symm.trans hand
  · exact settled.distinct u built (kept.symm.trans hand)

/-- The call that is in progress rebuilds the registry that is in place. -/
theorem Settled.rebuilt (settled : Settled s) {u : UpdateId} {cfg : FrpcConfig}
    {previous : Map String RuntimeId} (stage : s.updates u = .rebuild cfg previous) :
    Rebuilt cfg s ((s.rebuildProxies previous cfg).setUpdate u (.write cfg)) := by
  have distinct : cfg.DistinctNames := settled.distinct u cfg (by rw [stage]; rfl)
  cases settled.current u cfg previous stage
  obtain ⟨registered, kept, fresh, next, known⟩ := rebuildProxies_rebuilt distinct settled.known
  exact ⟨(SameRegistry.setUpdate _ u _).registered registered, kept, fresh, next, known⟩

theorem Settled.rebuild (settled : Settled s) {u : UpdateId} {cfg : FrpcConfig}
    {previous : Map String RuntimeId} (stage : s.updates u = .rebuild cfg previous) :
    Settled ((s.rebuildProxies previous cfg).setUpdate u (.write cfg)) := by
  have rebuilt := settled.rebuilt stage
  have updates : (s.rebuildProxies previous cfg).updates = s.updates :=
    (rebuildLoop_untouched previous cfg.proxies s ∅).updates
  generalize s.rebuildProxies previous cfg = s₁ at rebuilt updates
  have idle : ∀ {d}, d ≠ u → (s₁.setUpdate u (.write cfg)).updates d = .none := by
    intro d other
    rw [setUpdate_of_ne _ other, updates]
    by_contra busy
    exact other (settled.alone d u busy (by rw [stage]; exact UpdatePc.noConfusion))
  have inHand : ∀ d, ((s₁.setUpdate u (.write cfg)).updates d).inHand = none := by
    intro d
    by_cases own : d = u
    · rw [own, setUpdate_self]
      rfl
    · rw [idle own]
      rfl
  have onlyOwn : ∀ d, (s₁.setUpdate u (.write cfg)).updates d ≠ .none → d = u := by
    intro d busy
    by_contra other
    exact busy (idle other)
  refine ⟨fun d e one two => (onlyOwn d one).trans (onlyOwn e two).symm, fun d built hand => ?_,
    fun d built previous becomes => ?_, rebuilt.known, fun built adopted => ?_⟩
  · cases (inHand d).symm.trans hand
  · have none := inHand d
    rw [becomes] at none
    cases none
  · have last : built = cfg := by
      rcases adopted with ⟨d, holds⟩ | ⟨stored, -⟩
      · by_cases own : d = u
        · rw [own, setUpdate_self] at holds
          exact (Option.some.inj holds).symm
        · rw [idle own] at holds
          cases holds
      · have none := stored u
        rw [setUpdate_self] at none
        cases none
    rw [last]
    exact rebuilt.registered

theorem Settled.step {a : Action} (settled : Settled s) (inTurn : InTurn s a)
    (turn : RegistryTurn s a s') : Settled s' := by
  cases turn with
  | apart same cfg updates own =>
      refine ⟨?_, ?_, ?_, same.known settled.known, fun built adopted => ?_⟩
      · rw [updates]
        exact settled.alone
      · rw [updates]
        exact settled.distinct
      · rw [updates, same.registry]
        exact settled.current
      · rw [State.adopted, updates, cfg] at adopted
        exact same.registered (settled.registered built adopted)
  | @begins u cfg stage =>
      refine settled.setUpdate (.refl s) rfl (fun d busy => absurd (inTurn.1 d) busy) ?_
        (fun _ _ becomes => UpdatePc.noConfusion becomes)
        fun _ => adopted_of_setUpdate rfl rfl (by rw [stage]; rfl)
      rintro _ ⟨⟩
      exact inTurn.2
  | equal stage =>
      exact settled.goes stage UpdatePc.noConfusion (.refl s) rfl rfl rfl rfl (.inl rfl)
        fun _ _ becomes => UpdatePc.noConfusion becomes
  | differs stage =>
      exact settled.goes stage UpdatePc.noConfusion (.refl s) rfl rfl rfl rfl (.inr rfl)
        fun _ _ becomes => UpdatePc.noConfusion becomes
  | snapshot stage =>
      refine settled.goes stage UpdatePc.noConfusion (.refl s) rfl rfl rfl rfl (.inr rfl) ?_
      rintro _ _ ⟨⟩
      rfl
  | rebuild stage => exact settled.rebuild stage
  | @write u cfg stage =>
      have same : SameRegistry s { s with cfg := cfg } := ⟨rfl, rfl, fun _ => rfl⟩
      refine settled.setUpdate same rfl
        (fun d other => settled.alone d u other (by rw [stage]; exact UpdatePc.noConfusion))
        (fun _ hand => by cases hand) (fun _ _ becomes => UpdatePc.noConfusion becomes)
        fun built adopted => .inl ⟨u, ?_⟩
      rcases adopted with ⟨d, holds⟩ | ⟨-, last⟩
      · by_cases own : d = u
        · rw [own, setUpdate_self] at holds
          cases holds
        · rw [setUpdate_of_ne _ own] at holds
          have same : d = u := settled.alone d u (fun none => by rw [none] at holds; cases holds)
            (by rw [stage]; exact UpdatePc.noConfusion)
          exact absurd same own
      · rw [stage, last]
        rfl
  | bump stage =>
      exact settled.goes stage UpdatePc.noConfusion ⟨rfl, rfl, fun _ => rfl⟩ rfl rfl rfl rfl (.inl rfl)
        fun _ _ becomes => UpdatePc.noConfusion becomes
  | send stage =>
      exact settled.goes stage UpdatePc.noConfusion ⟨rfl, rfl, fun _ => rfl⟩ rfl rfl rfl rfl (.inl rfl)
        fun _ _ becomes => UpdatePc.noConfusion becomes

/-- A proxy keeps its runtime as long as every adopted configuration has it as it is. -/
theorem RegistryTurn.publishes {a : Action} (settled : Settled s) (turn : RegistryTurn s a s')
    {p : FrpcProxyConfig} {r : RuntimeId} (before : s.publishes p r)
    (keeps : ∀ u cfg previous, a = .update u .go → s.updates u = .rebuild cfg previous →
      p ∈ cfg.proxies) : s'.publishes p r := by
  cases turn with
  | apart same cfg updates own => exact same.publishes.mpr before
  | @rebuild u cfg previous stage =>
      exact (settled.rebuilt stage).kept p (keeps u cfg previous rfl stage) r before
  | _ => exact before

theorem new_settled {cfg : FrpcConfig} (distinct : cfg.DistinctNames) : Settled (State.new cfg) := by
  have rebuilt : Rebuilt cfg { cfg } (State.new cfg) :=
    rebuildProxies_rebuilt distinct fun found => by cases found
  have untouched := rebuildLoop_untouched ∅ cfg.proxies { cfg } ∅
  have idle : ∀ u, (State.new cfg).updates u = .none := fun u => congrFun untouched.updates u
  refine ⟨fun u _ busy => absurd (idle u) busy, fun u _ hand => ?_, fun u _ _ stage => ?_, rebuilt.known,
    fun built adopted => ?_⟩
  · rw [idle u] at hand
    cases hand
  · cases (idle u).symm.trans stage
  · have last : built = cfg := by
      rcases adopted with ⟨u, holds⟩ | ⟨-, last⟩
      · rw [idle u] at holds
        cases holds
      · exact last.trans untouched.cfg
    rw [last]
    exact rebuilt.registered

end Runs

end Client

end Remgr.Frpc
