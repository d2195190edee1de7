/-
Module: Remgr.Proofs.Counters
Purpose: The figures of the proxies over the calls of `update_config`. A proxy that every adopted
  configuration has as it is keeps its runtime, and with it its figures, whoever counts on it; they
  are the totals of what was counted, modulo 2^64. A proxy that is new or has changed starts from
  zero.
Trusted boundary: as in `Remgr.Frpc.WorkConns`
Main exports: CountersKept, counters_kept, counters_kept_by_old_session, figure_wraps
-/
import Remgr.Frpc.WorkConns
import Remgr.Proofs.ProxyOffers
import Remgr.Proofs.Registry

namespace Remgr.Frpc.WorkConns

open Remgr.Lib
open Remgr.Frpc.Client (RuntimeId SupervisorId UpdateId Map)

/-! ## The statement -/

/-- The calls of `update_config` come one after another, each with distinct names. -/
def InTurn (s : State) : Action → Prop
  | .client a => Client.InTurn s.client a
  | _ => True

/-- Besides, the configuration that is adopted in this step, if any, has the proxy as it is. -/
def Keeps (p : FrpcProxyConfig) (s : State) (a : Action) : Prop :=
  InTurn s a ∧ ∀ u cfg previous, a = .client (.update u .go) →
    s.client.updates u = .rebuild cfg previous → p ∈ cfg.proxies

/-- From `s` to `s'` the configuration is adopted: there is one runtime for each of its proxies, a
proxy that was published as it is keeps its figures, and the others start from zero. -/
structure Adopted (cfg : FrpcConfig) (s s' : State) : Prop where
  registered : Client.Registered s'.client cfg
  kept : ∀ p ∈ cfg.proxies, ∀ r, s.client.publishes p r →
    s'.client.publishes p r ∧ s'.reported p.name = s.reported p.name
  fresh : ∀ p ∈ cfg.proxies, (∀ r, ¬ s.client.publishes p r) →
    s'.reported p.name = some fun _ => 0

/-- From `s` to `s'` the proxy keeps its runtime, and what is reported of it is all that was counted
there, by whichever session. -/
structure Lasts (p : FrpcProxyConfig) (r : RuntimeId) (s s' : State) : Prop where
  publishes : s'.client.publishes p r
  reported : s'.reported p.name = some fun f => UInt64.ofNat (s'.counted r f)
  total : ∀ f, s.counted r f ≤ s'.counted r f
  grows : ∀ f, s'.counted r f < 2 ^ 64 → s.figures r f ≤ s'.figures r f

structure CountersKept (w : World) (s : State) : Prop where
  settled : (∀ u, s.client.updates u = .none) → Client.Registered s.client s.client.cfg
  adopted : ∀ {u cfg previous s'}, s.client.updates u = .rebuild cfg previous →
    step w (.client (.update u .go)) s = some s' → Adopted cfg s s'
  lasts : ∀ {p r s'}, s.client.publishes p r →
    ((workConns w).startedAt s).Reaches (Keeps p) s' → Lasts p r s s'

/-! ## What a step can do -/

/-- The client moves on, or something is counted on a runtime, or neither. -/
inductive FigureTurn (w : World) (s : State) (a : Action) (s' : State) : Prop
  | moves {b : Client.Action} (move : Client.step w b s.client = some s'.client)
      (own : a = .client b ∨ ∃ v, b = .supervisor v .reqWorkConn)
      (figures : s'.figures = (s.advance s'.client).figures)
      (counted : s'.counted = (s.advance s'.client).counted)
  | counts (r : RuntimeId) (f : Figure) (n : UInt64) (client : s'.client = s.client)
      (figures : s'.figures = (s.count r f n).figures)
      (counted : s'.counted = (s.count r f n).counted)
  | rests (client : s'.client = s.client) (figures : s'.figures = s.figures)
      (counted : s'.counted = s.counted)

section Steps

variable {w : World} {s s' : State}

theorem step_figureTurn {a : Action} (move : step w a s = some s') : FigureTurn w s a s' := by
  cases a with
  | client b =>
      obtain ⟨client, moved, rfl⟩ := Option.map_eq_some_iff.mp move
      exact .moves moved (.inl rfl) rfl rfl
  | reqWorkConn v =>
      simp only [step] at move
      split at move
      · obtain ⟨client, moved, same⟩ := Option.bind_eq_some_iff.mp move
        cases same
        exact .moves moved (.inr ⟨v, rfl⟩) rfl rfl
      · cases move
  | startWorkConn c proxyName =>
      simp only [step] at move
      split at move
      · split at move
        · cases move
          exact .rests rfl rfl rfl
        · next rt found =>
            cases move
            exact .counts rt .connsTotal 1 rfl rfl rfl
      · cases move
  | read c way n =>
      simp only [step] at move
      split at move
      · next rt serves =>
          cases move
          exact .counts rt way.figure n rfl rfl rfl
      · cases move
  | ends c =>
      simp only [step] at move
      split at move <;> cases move
      · exact .rests rfl rfl rfl
      · exact .rests rfl rfl rfl

/-- Every step of the client in turn is one. -/
theorem InTurn.client {a : Action} {b : Client.Action} (inTurn : InTurn s a)
    (own : a = .client b ∨ ∃ v, b = .supervisor v .reqWorkConn) : Client.InTurn s.client b := by
  rcases own with rfl | ⟨v, rfl⟩
  · exact inTurn
  · trivial

theorem settled_step {a : Action} (settled : Client.Settled s.client) (inTurn : InTurn s a)
    (turn : FigureTurn w s a s') : Client.Settled s'.client := by
  cases turn with
  | moves move own figures counted =>
      exact settled.step (inTurn.client own) (Client.step_registryTurn move)
  | counts r f n client => exact client ▸ settled
  | rests client => exact client ▸ settled

/-- Each figure shows its total. -/
def State.Shows (s : State) : Prop :=
  ∀ r f, s.figures r f = UInt64.ofNat (s.counted r f)

theorem State.Shows.count (shows : s.Shows) (r : RuntimeId) (f : Figure) (n : UInt64) :
    (s.count r f n).Shows := by
  intro d g
  by_cases own : d = r
  · subst own
    by_cases same : g = f
    · subst same
      simp only [State.count, Function.update_self, UInt64.ofNat_add, UInt64.ofNat_toNat, shows d g]
    · simp only [State.count, Function.update_self, Function.update_of_ne same, shows d g]
  · simp only [State.count, Function.update_of_ne own, shows d g]

theorem State.Shows.step {a : Action} (shows : s.Shows) (turn : FigureTurn w s a s') : s'.Shows := by
  intro r f
  cases turn with
  | moves move own figures counted =>
      rw [figures, counted]
      simp only [State.advance]
      split
      · rfl
      · exact shows r f
  | counts d g n client figures counted =>
      rw [figures, counted]
      exact shows.count d g n r f
  | rests client figures counted =>
      rw [figures, counted]
      exact shows r f

/-- A runtime that has been made keeps its figures when the client moves on. -/
theorem advance_old {client : Client.State} {r : RuntimeId} (made : r < s.client.nextRuntime) :
    (s.advance client).figures r = s.figures r ∧ (s.advance client).counted r = s.counted r := by
  have old : (decide (s.client.nextRuntime ≤ r) && decide (r < client.nextRuntime)) = false := by
    rw [decide_eq_false (Nat.not_le_of_lt made), Bool.false_and]
  simp only [State.advance, old]
  exact ⟨rfl, rfl⟩

/-- Nothing that was counted on a runtime that has been made is taken back. -/
theorem counted_le {a : Action} (turn : FigureTurn w s a s') {r : RuntimeId}
    (made : r < s.client.nextRuntime) (f : Figure) : s.counted r f ≤ s'.counted r f := by
  cases turn with
  | moves move own figures counted =>
      rw [counted, (advance_old made).2]
  | counts d g n client figures counted =>
      rw [counted]
      by_cases own : r = d
      · subst own
        by_cases same : f = g
        · subst same
          simp only [State.count, Function.update_self]
          exact Nat.le_add_right ..
        · simp only [State.count, Function.update_self, Function.update_of_ne same, le_refl]
      · simp only [State.count, Function.update_of_ne own, le_refl]
  | rests client figures counted => rw [counted]

theorem publishes_step {a : Action} {p : FrpcProxyConfig} {r : RuntimeId}
    (settled : Client.Settled s.client) (keeps : Keeps p s a) (turn : FigureTurn w s a s')
    (before : s.client.publishes p r) : s'.client.publishes p r := by
  cases turn with
  | moves move own figures counted =>
      refine (Client.step_registryTurn move).publishes settled before ?_
      rintro u cfg previous rfl stage
      rcases own with rfl | ⟨v, same⟩
      · exact keeps.2 u cfg previous rfl stage
      · cases same
  | counts r f n client => exact client ▸ before
  | rests client => exact client ▸ before

end Steps

/-! ## Runs -/

section Runs

variable {w : World} {s s' : State}

/-- What holds in every run in turn: the registry follows the configurations, and the figures the
totals. -/
theorem workConns_settled {cfg : FrpcConfig} (distinct : cfg.DistinctNames)
    (run : ((workConns w).startedAt (.new cfg)).Reaches InTurn s) :
    Client.Settled s.client ∧ s.Shows := by
  refine run.invariant (P := fun s => Client.Settled s.client ∧ s.Shows) ?_ ?_
  · rintro s rfl
    exact ⟨Client.new_settled distinct, fun _ _ => rfl⟩
  · intro s a s' _ before inTurn move
    have turn := step_figureTurn move
    exact ⟨settled_step before.1 inTurn turn, before.2.step turn⟩

theorem reported_of_publishes {p : FrpcProxyConfig} {r : RuntimeId} (published : s.client.publishes p r) :
    s.reported p.name = some (s.figures r) := by
  rw [State.reported, published.1, Option.map_some]

theorem adopted_step (settled : Client.Settled s.client) {u : UpdateId} {cfg : FrpcConfig}
    {previous : Map String RuntimeId} (stage : s.client.updates u = .rebuild cfg previous)
    (move : step w (.client (.update u .go)) s = some s') : Adopted cfg s s' := by
  have rebuilt := settled.rebuilt stage
  obtain ⟨client, moved, rfl⟩ := Option.map_eq_some_iff.mp move
  have same : client = (s.client.rebuildProxies previous cfg).setUpdate u (.write cfg) := by
    change Client.updateStep u s.client (s.client.updates u) .go = some client at moved
    rw [stage] at moved
    exact (Option.some.inj moved).symm
  rw [← same] at rebuilt
  refine ⟨rebuilt.registered, fun p inside r before => ?_, fun p inside absent => ?_⟩
  · have after := rebuilt.kept p inside r before
    refine ⟨after, ?_⟩
    rw [reported_of_publishes before, reported_of_publishes (s := s.advance client) after,
      (advance_old (settled.known before.1).1).1]
  · obtain ⟨r, published, late, made⟩ := rebuilt.fresh p inside absent
    rw [reported_of_publishes (s := s.advance client) published]
    simp only [State.advance, late, made, decide_true, Bool.and_self, if_true]

theorem lasts_run (settled : Client.Settled s.client) (shows : s.Shows) {p : FrpcProxyConfig}
    {r : RuntimeId} (published : s.client.publishes p r)
    (run : ((workConns w).startedAt s).Reaches (Keeps p) s') : Lasts p r s s' := by
  have kept : Client.Settled s'.client ∧ s'.Shows ∧ s'.client.publishes p r ∧
      ∀ f, s.counted r f ≤ s'.counted r f := by
    refine run.invariant (P := fun s' => Client.Settled s'.client ∧ s'.Shows ∧
      s'.client.publishes p r ∧ ∀ f, s.counted r f ≤ s'.counted r f) ?_ ?_
    · rintro s' rfl
      exact ⟨settled, shows, published, fun _ => Nat.le_refl _⟩
    · rintro s₁ a s₂ - ⟨settled, shows, published, total⟩ keeps move
      have turn := step_figureTurn move
      have made := (settled.known published.1).1
      exact ⟨settled_step settled keeps.1 turn, shows.step turn,
        publishes_step settled keeps turn published, fun f => (total f).trans (counted_le turn made f)⟩
  obtain ⟨-, shown, publishes, total⟩ := kept
  refine ⟨publishes, ?_, total, fun f small => ?_⟩
  · rw [reported_of_publishes publishes]
    exact congrArg some (funext (shown r))
  · rw [shows r f, shown r f, UInt64.le_iff_toNat_le, UInt64.toNat_ofNat_of_lt' small,
      UInt64.toNat_ofNat_of_lt' ((total f).trans_lt small)]
    exact total f

end Runs

/-- Whatever configurations are adopted one after another, and whatever the sessions count in the
meantime. -/
theorem counters_kept {w : World} {cfg : FrpcConfig} (distinct : cfg.DistinctNames) {s : State}
    (run : ((workConns w).startedAt (.new cfg)).Reaches InTurn s) : CountersKept w s := by
  obtain ⟨settled, shows⟩ := workConns_settled distinct run
  refine ⟨fun idle => settled.registered _ (.inr ⟨fun u => ?_, rfl⟩),
    fun stage move => adopted_step settled stage move,
    fun published later => lasts_run settled shows published later⟩
  rw [idle u]
  rfl

/-! ## A session that outlives an edit, and one that counts too far -/

open Remgr.Frpc.Client (sampleWorld oneProxy oneProxyRun registerRun updateRun)

def sshProxy : FrpcProxyConfig := { name := "ssh", localPort := 22, remotePort := 6000 }

/-- A second proxy is added, and the first one stays. -/
def twoProxies : FrpcConfig :=
  { oneProxy with
    proxies := [sshProxy, { name := "web", localPort := 80, remotePort := 6001 }] }

/-- The session counts a connection and, after the edit, some bytes. -/
def editRun : List Action :=
  (oneProxyRun ++ registerRun).map .client ++ [.reqWorkConn 0, .startWorkConn 0 "ssh"] ++
    (updateRun twoProxies).map .client ++ [.read 0 .toLocal 5]

/-- The call of `update_config` a step belongs to. -/
def Action.updater : Action → Option UpdateId
  | .client a => a.updater
  | _ => none

/-- The only call is the first one. -/
def OneCaller (s : State) : Prop := ∀ u, u ≠ 0 → s.client.updates u = .none

def inTurnCheck (s : State) : Action → Bool
  | .client (.update _ (.begin cfg)) =>
      (s.client.updates 0).isNone && decide cfg.DistinctNames
  | _ => true

section Samples

variable {w : World} {s s' : State}

theorem updates_kept {a : Action} {u : UpdateId} (move : step w a s = some s')
    (other : a.updater ≠ some u) : s'.client.updates u = s.client.updates u := by
  cases step_figureTurn move with
  | moves move own figures counted =>
      refine Client.updates_kept move ?_
      rcases own with rfl | ⟨v, rfl⟩
      · exact other
      · nofun
  | counts r f n client => rw [client]
  | rests client => rw [client]

theorem inTurn_of_check {a : Action} (oneCaller : OneCaller s) (checked : inTurnCheck s a = true) :
    InTurn s a := by
  unfold inTurnCheck at checked
  split at checked
  · obtain ⟨idle, distinct⟩ := Bool.and_eq_true_iff.mp checked
    refine ⟨fun u => ?_, of_decide_eq_true distinct⟩
    by_cases own : u = 0
    · subst own
      cases stage : s.client.updates 0 with
      | none => rfl
      | _ =>
          rw [stage] at idle
          cases idle
    · exact oneCaller u own
  · next quiet =>
      cases a with
      | client b =>
          cases b with
          | update u input =>
              cases input with
              | begin cfg => exact absurd rfl (quiet u cfg)
              | go => trivial
          | _ => trivial
      | _ => trivial

/-- Nothing is adopted by the steps of the others. -/
theorem keeps_of_updater {a : Action} (apart : a.updater = none) (p : FrpcProxyConfig) :
    Keeps p s a := by
  refine ⟨?_, ?_⟩
  · cases a with
    | client b =>
        cases b with
        | update u input => cases apart
        | _ => trivial
    | _ => trivial
  · rintro u cfg previous rfl
    cases apart

/-- A list of steps in which there is one caller is a run in turn. -/
theorem inTurn_run {cfg : FrpcConfig} {labels : List Action}
    (only : ∀ a ∈ labels, a.updater.all (· == 0) = true)
    (done : System.execute (System.guarded inTurnCheck (step w)) labels (.new cfg) = some s) :
    ((workConns w).startedAt (.new cfg)).Reaches InTurn s := by
  refine (System.reaches_of_guarded id ?_ inTurn_of_check (.start rfl) ?_ done).1
  · intro a inside s s' move oneCaller u other
    rw [updates_kept move, oneCaller u other]
    intro belongs
    have first := only a inside
    rw [belongs] at first
    exact other (beq_iff_eq.mp first)
  · exact fun u _ => congrFun (Client.rebuildLoop_untouched ∅ cfg.proxies { cfg } ∅).updates u

end Samples

/-- The old session's connection and bytes are among the figures after the edit. -/
theorem counters_kept_by_old_session :
    ∃ s, s.client.cfg = twoProxies ∧
      (s.reported "ssh").map (fun figures => (figures .connsTotal, figures .bytesIn)) = some (1, 5) ∧
      CountersKept sampleWorld s := by
  obtain ⟨s, done, shown⟩ := System.exists_of_any (by decide +kernel :
    (System.execute (System.guarded inTurnCheck (step sampleWorld)) editRun (.new oneProxy)).any
      (fun s => decide (s.client.cfg = twoProxies ∧ (s.reported "ssh").map
        (fun figures => (figures .connsTotal, figures .bytesIn)) = some (1, 5))) = true)
  obtain ⟨stored, figures⟩ := of_decide_eq_true shown
  have distinct : oneProxy.DistinctNames := List.nodup_singleton _
  exact ⟨s, stored, figures, counters_kept distinct (inTurn_run (by decide) done)⟩

/-- A session is in its control loop and knows the first runtime as that of the proxy. -/
def Serves (s : State) : Prop :=
  ∃ session, (s.client.supervisors 0).stage = .session .loop session ∧
    session.proxies.lookup "ssh" = some 0

/-- One more user connects, and leaves. -/
theorem serves_one_more {s : State} (serves : Serves s) :
    ∃ s', ((workConns sampleWorld).startedAt s).Reaches (Keeps sshProxy) s' ∧ Serves s' ∧
      s'.figures 0 .connsTotal = s.figures 0 .connsTotal + 1 := by
  obtain ⟨session, stage, known⟩ := serves
  let client : Client.State :=
    { s.client with totalWorkConns := s.client.totalWorkConns + 1 }
  let asked : State :=
    { (s.advance client).setConn s.nextConn (.waiting session.proxies) with
      nextConn := s.nextConn + 1 }
  let started := (asked.count 0 .connsTotal 1).setConn s.nextConn (.serving 0)
  have waiting : asked.conns s.nextConn = .waiting session.proxies := Function.update_self ..
  have serving : started.conns s.nextConn = .serving 0 := Function.update_self ..
  have asks : step sampleWorld (.reqWorkConn 0) s = some asked := by
    have moves : Client.step sampleWorld (.supervisor 0 .reqWorkConn) s.client = some client := by
      change Client.superviseStep _ 0 _ (s.client.supervisors 0).stage _ = _
      rw [stage]
      rfl
    simp only [step, stage, moves]
    rfl
  have starts : step sampleWorld (.startWorkConn s.nextConn "ssh") asked = some started := by
    simp only [step, waiting, known]
    rfl
  have ends : step sampleWorld (.ends s.nextConn) started =
      some (started.setConn s.nextConn .ended) := by
    simp only [step, serving]
  refine ⟨started.setConn s.nextConn .ended, ?_, ⟨session, stage, known⟩, ?_⟩
  · have opened : ((workConns sampleWorld).startedAt s).Reaches (Keeps sshProxy) asked :=
      .next (.start rfl) (keeps_of_updater rfl _) asks
    exact .next (.next opened (keeps_of_updater rfl _) starts) (keeps_of_updater rfl _) ends
  · have kept : asked.figures 0 .connsTotal = s.figures 0 .connsTotal := by
      change (s.advance client).figures 0 .connsTotal = _
      have none : (decide (s.client.nextRuntime ≤ 0) && decide (0 < client.nextRuntime)) = false := by
        by_cases empty : s.client.nextRuntime ≤ 0
        · rw [decide_eq_false (Nat.not_lt_of_le empty), Bool.and_false]
        · rw [decide_eq_false empty, Bool.false_and]
      simp only [State.advance, none]
      rfl
    change (asked.count 0 .connsTotal 1).figures 0 .connsTotal = _
    simp only [State.count, Function.update_self, kept]

theorem serves_many {s : State} (serves : Serves s) (k : Nat) :
    ∃ s', ((workConns sampleWorld).startedAt s).Reaches (Keeps sshProxy) s' ∧ Serves s' ∧
      s'.figures 0 .connsTotal = s.figures 0 .connsTotal + UInt64.ofNat k := by
  induction k with
  | zero => exact ⟨s, .start rfl, serves, (UInt64.add_zero _).symm⟩
  | succ k inductionHypothesis =>
      obtain ⟨s₁, run, serves₁, count⟩ := inductionHypothesis
      obtain ⟨s₂, onward, serves₂, more⟩ := serves_one_more serves₁
      refine ⟨s₂, run.trans onward, serves₂, ?_⟩
      rw [more, count, UInt64.ofNat_add, UInt64.add_assoc]
      rfl

/-- Whether `Serves` holds, seen by evaluation. -/
def servesCheck (s : State) : Bool :=
  match (s.client.supervisors 0).stage with
  | .session .loop session => decide (session.proxies.lookup "ssh" = some 0)
  | _ => false

theorem serves_of_check {s : State} (checked : servesCheck s = true) : Serves s := by
  unfold servesCheck at checked
  split at checked
  · next session stage => exact ⟨session, stage, of_decide_eq_true checked⟩
  · cases checked

/-- After 2^64 connections the figure is back at zero. -/
theorem figure_wraps :
    ¬ ∀ {cfg : FrpcConfig} {s : State}, cfg.DistinctNames →
      ((workConns sampleWorld).startedAt (.new cfg)).Reaches InTurn s →
      ∀ {p r s'}, s.client.publishes p r →
        ((workConns sampleWorld).startedAt s).Reaches (Keeps p) s' →
        ∀ f, s.figures r f ≤ s'.figures r f := by
  intro claim
  have distinct : oneProxy.DistinctNames := List.nodup_singleton _
  obtain ⟨s, done, shown⟩ := System.exists_of_any (by decide +kernel :
    (System.execute (System.guarded inTurnCheck (step sampleWorld))
      ((oneProxyRun ++ registerRun).map .client) (.new oneProxy)).any
      (fun s => servesCheck s && decide (s.figures 0 .connsTotal = 0 ∧
        s.client.registry.lookup "ssh" = some 0 ∧ (s.client.runtimes 0).cfg = sshProxy)) = true)
  obtain ⟨serves, shown⟩ := Bool.and_eq_true_iff.mp shown
  obtain ⟨zero, found, own⟩ := of_decide_eq_true shown
  have published : s.client.publishes sshProxy 0 := ⟨found, own⟩
  have run := inTurn_run (by decide) done
  obtain ⟨s₁, onward, serves₁, count₁⟩ := serves_many (serves_of_check serves) (2 ^ 64 - 1)
  obtain ⟨s₂, later, -, count₂⟩ := serves_one_more serves₁
  obtain ⟨settled, shows⟩ := workConns_settled distinct run
  have still := (lasts_run settled shows published onward).publishes
  have run₁ : ((workConns sampleWorld).startedAt (.new oneProxy)).Reaches InTurn s₁ :=
    run.trans (onward.weaken And.left)
  have grows := claim distinct run₁ still later .connsTotal
  rw [count₂, count₁, zero] at grows
  exact absurd grows (by decide)

end Remgr.Frpc.WorkConns
