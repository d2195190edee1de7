/-
Module: Remgr.Proofs.ConnTotals
Purpose: The `conns_total` of a proxy. No step counts in it, so it agrees with the users a tcp
  listener has accepted as long as there are none; the first one accepted goes uncounted.
Trusted boundary: as in `Remgr.Frps.Server.Stats`
Main exports: accounted, ConnsCounted, conns_total_counted, accept_goes_uncounted,
  first_user_uncounted
-/
import Remgr.Frps.Server.Stats
import Remgr.Lib.Record
import Remgr.Proofs.Calls
import Remgr.Proofs.Ports

namespace Remgr.Frps.Server

open Remgr.Lib

/-! ## What the listeners have accepted -/

/-- The users each listener has accepted so far. A registration has its listener to itself, so these
are the ones since the proxy was registered. -/
abbrev Accepts := RegId → Nat

def noteAccept (_ : State) (a : Action) (accepts : Accepts) : Accepts :=
  match a with
  | .listener r .accept => Function.update accepts r (accepts r + 1)
  | _ => accepts

/-- The server beside the count of what its listeners have accepted. -/
def accounted (w : World) : System (State × Accepts) Action :=
  (server w).recording (fun _ => 0) noteAccept

/-- The reported totals count the users: for each live tcp proxy those its listener has accepted,
and altogether no more than the server has counted. -/
structure ConnsCounted (s : State) (accepted : Accepts) : Prop where
  proxies : ∀ c name r p, (s.proxies c).lookup name = some r →
    (s.regs r).listener.published = some (.tcp, p) →
    ∀ stats ∈ s.stats, ∀ info ∈ stats.proxies, info.proxyName = name →
      info.connsTotal.toNat = accepted r
  sum : ∀ stats ∈ s.stats,
    (stats.proxies.map fun info => info.connsTotal.toNat).sum ≤ stats.totalUserConns.toNat

/-- A tcp listener accepts nobody while its proxy is in the table of its control. -/
def Unvisited (p : State × Accepts) : Action → Prop
  | .listener r .accept => ∀ c name, (p.1.proxies c).lookup name ≠ some r
  | _ => True

/-! ## The totals stay zero -/

/-- The infos that are there have counted nothing. -/
def Uncounting (infos : Map String ProxyInfo) : Prop :=
  ∀ ⦃name info⦄, infos.lookup name = some info → info.connsTotal = 0

theorem Uncounting.erase {infos : Map String ProxyInfo} (zero : Uncounting infos) (name : String) :
    Uncounting (infos.erase name) := by
  intro other info found
  rw [lookup_erase_eq] at found
  split at found
  · cases found
  · exact zero found

theorem Uncounting.insert {infos : Map String ProxyInfo} (zero : Uncounting infos)
    {info : ProxyInfo} (fresh : info.connsTotal = 0) (name : String) :
    Uncounting (infos.insert name info) := by
  intro other info' found
  rw [lookup_insert_eq] at found
  split at found
  · cases found
    exact fresh
  · exact zero found

section Infos

variable {w : World} {s s' : State}

theorem closeProxy_uncounting {x : Closer} {c : StreamId} {name : String} {returned : Bool}
    (closed : s.closeProxy x c name = some (s', returned)) (zero : Uncounting s.proxyInfos) :
    Uncounting s'.proxyInfos := by
  cases closeProxy_cases closed with
  | told _ _ => exact zero.erase name
  | _ => exact zero

theorem trySend_infos {c : StreamId} {item : Outgoing} {way : SendVia}
    (sent : s.trySend c item way = some s') : s'.proxyInfos = s.proxyInfos := by
  obtain ⟨out, rfl⟩ := trySend_eq sent
  rfl

/-- Only the entry of a proxy's info and `close_proxy` touch the infos, and the entry is a fresh
one. -/
theorem CallStep.uncounting {k : StreamId} {r : RegId} {pc : RegPc} {input : Input}
    {next : StreamPc} (call : CallStep w k r s pc input s' next) (zero : Uncounting s.proxyInfos) :
    Uncounting s'.proxyInfos := by
  cases call with
  | reply sent =>
      rw [trySend_infos sent]
      exact zero
  | undoClose closed => exact closeProxy_uncounting closed zero
  | publish kind p => exact zero.insert rfl _
  | _ => exact zero

theorem streamStep_uncounting {k : StreamId} {pc : StreamPc} {input : Input}
    (move : streamStep w k s pc input = some s') (zero : Uncounting s.proxyInfos) :
    Uncounting s'.proxyInfos := by
  cases streamStep_cases move with
  | pool sent | pong sent =>
      rw [← trySend_infos sent] at zero
      exact zero
  | registering call =>
      obtain ⟨s₁, next, step, rfl⟩ := regStep_cases call
      exact step.uncounting zero
  | closing closed =>
      have after := closeProxy_uncounting closed zero
      exact after
  | _ => exact zero

/-- No step counts in the infos. -/
theorem step_uncounting {a : Action} (move : step w a s = some s') (zero : Uncounting s.proxyInfos) :
    Uncounting s'.proxyInfos := by
  cases a with
  | server input =>
      cases serverStep_cases move <;> exact zero
  | stream k input =>
      obtain ⟨-, moved⟩ := Option.ite_none_right_eq_some.mp move
      exact streamStep_uncounting moved zero
  | sweep x input =>
      cases sweepStep_cases move with
      | call stage call =>
          cases call with
          | close closed =>
              have after := closeProxy_uncounting closed zero
              exact after
          | _ => exact zero
      | begins _ _ _ | skips _ _ _ => exact zero
  | writer c input =>
      obtain ⟨out, rfl⟩ := writerStep_aside move
      exact zero
  | listener r input =>
      rw [(listenerStep_aside move).1.infos]
      exact zero
  | bridge b input =>
      rw [(bridgeStep_aside move).1.infos]
      exact zero

end Infos

theorem server_uncounting {w : World} {allowed : State → Action → Prop} {s : State}
    (run : (server w).Reaches allowed s) : Uncounting s.proxyInfos := by
  refine run.invariant ?_ fun _ zero _ move => step_uncounting move zero
  rintro s ⟨cfg, rfl⟩ name info found
  cases (Finmap.lookup_empty name).symm.trans found

/-! ## Runs -/

section Runs

variable {w : World}

/-- A listener that has accepted somebody is started, and its proxy is in no table any more. -/
def Gone (p : State × Accepts) : Prop :=
  ∀ ⦃r⦄, 0 < p.2 r → (p.1.regs r).listener.published ≠ none ∧
    ∀ c name, (p.1.proxies c).lookup name ≠ some r

theorem Gone.step {p p' : State × Accepts} {a : Action} (gone : Gone p) (shape : Shape p.1)
    (sound : (tenancy p.1).Sound) (unvisited : Unvisited p a) (move : (accounted w).step p a p') :
    Gone p' := by
  obtain ⟨moved, noted⟩ := move
  have kept : ∀ {r}, (p.1.regs r).listener.published ≠ none →
      (p'.1.regs r).listener.published ≠ none ∧ ∀ c name,
        (p'.1.proxies c).lookup name = some r → (p.1.proxies c).lookup name = some r := by
    intro r started
    rcases step_tracks shape sound moved with same | ⟨op, -, opMove⟩
    · change (tenancy p'.1).published r ≠ none ∧ ∀ c name,
        (tenancy p'.1).entry (c, name) = some r → (tenancy p.1).entry (c, name) = some r
      rw [same]
      exact ⟨started, fun _ _ => id⟩
    · exact Tenancy.Sound.published_step sound opMove started
  have before : ∀ {r}, 0 < p'.2 r → (p.1.regs r).listener.published ≠ none ∧
      ∀ c name, (p.1.proxies c).lookup name ≠ some r := by
    intro r visited
    by_cases accepts : a = .listener r .accept
    · subst accepts
      refine ⟨?_, unvisited⟩
      intro unborn
      have idle : (p.1.regs r).listener = .unborn := by
        cases listener : (p.1.regs r).listener with
        | unborn => rfl
        | _ =>
            rw [listener] at unborn
            cases unborn
      change listenerStep r p.1 (p.1.regs r).listener .accept = some p'.1 at moved
      rw [idle] at moved
      cases moved
    · have same : p'.2 r = p.2 r := by
        rw [noted]
        unfold noteAccept
        split
        · next q =>
            have other : r ≠ q := fun same => accepts (by rw [same])
            rw [Function.update_of_ne other]
        · rfl
      exact gone (same ▸ visited)
  intro r visited
  obtain ⟨started, absent⟩ := before visited
  obtain ⟨started', back⟩ := kept started
  exact ⟨started', fun c name found => absent c name (back c name found)⟩

theorem accounted_gone {p : State × Accepts} (run : (accounted w).Reaches Unvisited p) : Gone p := by
  refine run.invariant ?_ ?_
  · rintro p ⟨-, blank⟩ r visited
    rw [blank] at visited
    cases visited
  · intro p a p' before gone unvisited move
    have whole : (server w).Reachable p.1 := before.unrecorded fun _ => trivial
    exact gone.step (server_shape whole) (server_sound whole) unvisited move

theorem mem_snapshot {s : State} {info : ProxyInfo} (listed : info ∈ s.snapshot) :
    ∃ name, s.proxyInfos.lookup name = some info := by
  obtain ⟨name, -, found⟩ := List.mem_filterMap.mp listed
  exact ⟨name, found⟩

theorem stats_eq {s : State} {stats : ServerStats} (reported : stats ∈ s.stats) :
    stats.proxies = s.snapshot ∧ stats.totalUserConns = s.totalUserConns := by
  unfold State.stats at reported
  split at reported
  · cases reported
    exact ⟨rfl, rfl⟩
  · cases reported
    exact ⟨rfl, rfl⟩
  · cases reported

/-- As long as no live tcp proxy is visited, the totals count the users. -/
theorem conns_total_counted {p : State × Accepts} (run : (accounted w).Reaches Unvisited p) :
    ConnsCounted p.1 p.2 := by
  have whole : (server w).Reachable p.1 := run.unrecorded fun _ => trivial
  have zero := server_uncounting whole
  have counts : ∀ stats ∈ p.1.stats, ∀ info ∈ stats.proxies, info.connsTotal.toNat = 0 := by
    intro stats reported info listed
    rw [(stats_eq reported).1] at listed
    obtain ⟨name, found⟩ := mem_snapshot listed
    rw [zero found]
    rfl
  constructor
  · intro c name r port stored _ stats reported info listed _
    have unvisited : p.2 r = 0 := by
      by_contra visited
      exact (accounted_gone run (Nat.pos_of_ne_zero visited)).2 c name stored
    rw [counts stats reported info listed, unvisited]
  · intro stats reported
    have nothing : (stats.proxies.map fun info => info.connsTotal.toNat).sum = 0 := by
      rw [List.sum_eq_zero_iff_forall_eq_nat]
      intro count inside
      obtain ⟨info, listed, rfl⟩ := List.mem_map.mp inside
      exact counts stats reported info listed
    rw [nothing]
    exact Nat.zero_le _

/-- A report whose info of a live tcp proxy shows another number than its listener has accepted. -/
theorem not_counted {s : State} {accepted : Accepts} {c : StreamId} {name : String} {r : RegId}
    {port : UInt16} {info : ProxyInfo} (stored : (s.proxies c).lookup name = some r)
    (published : (s.regs r).listener.published = some (.tcp, port))
    (reported : s.stats.isSome = true) (found : s.proxyInfos.lookup name = some info)
    (named : info.proxyName = name) (differs : info.connsTotal.toNat ≠ accepted r) :
    ¬ ConnsCounted s accepted := by
  intro counted
  obtain ⟨stats, isStats⟩ := Option.isSome_iff_exists.mp reported
  have listed : info ∈ stats.proxies := by
    rw [(stats_eq isStats).1]
    have key : name ∈ s.proxyInfos.keys :=
      Finmap.mem_keys.mpr (Finmap.lookup_isSome.mp (found ▸ rfl))
    exact List.mem_filterMap.mpr ⟨name, (Finset.mem_sort (· ≤ ·)).mpr key, found⟩
  exact differs (counted.proxies c name r port stored published stats isStats info listed named)

/-- The users of a live tcp proxy go uncounted, from the first one on. -/
theorem accept_goes_uncounted {p p' : State × Accepts} {c : StreamId} {name : String} {r : RegId}
    {info : ProxyInfo} (run : (accounted w).Reachable p)
    (move : (accounted w).step p (.listener r .accept) p')
    (stored : (p.1.proxies c).lookup name = some r) (reported : p'.1.stats.isSome = true)
    (found : p.1.proxyInfos.lookup name = some info) (named : info.proxyName = name) :
    ¬ ConnsCounted p'.1 p'.2 := by
  obtain ⟨moved, noted⟩ := move
  have whole : (server w).Reachable p.1 := run.unrecorded fun _ => trivial
  have zero := server_uncounting whole found
  have visited : info.connsTotal.toNat ≠ p'.2 r := by
    rw [noted, zero]
    change 0 ≠ Function.update p.2 r (p.2 r + 1) r
    rw [Function.update_self]
    exact (Nat.succ_ne_zero _).symm
  change listenerStep r p.1 (p.1.regs r).listener .accept = some p'.1 at moved
  cases listener : (p.1.regs r).listener with
  | running kind port =>
      cases kind with
      | tcp =>
          have published : (p.1.regs r).listener.published = some (.tcp, port) := by
            rw [listener]
            rfl
          rw [listener] at moved
          obtain ⟨s, accepts⟩ := p'
          cases moved
          exact not_counted stored published reported found named visited
      | udp =>
          rw [listener] at moved
          cases moved
  | _ =>
      rw [listener] at moved
      cases moved

end Runs

/-! ## A run without users, and one with -/

/-- No listener accepts in this step. -/
def acceptsNobody : Action → Bool
  | .listener _ .accept => false
  | _ => true

theorem unvisited_of_check {p : State × Accepts} {a : Action} (checked : acceptsNobody a = true) :
    Unvisited p a := by
  unfold Unvisited
  split
  · cases checked
  · trivial

/-- A proxy without users is reported as it is. -/
theorem conns_total_counted_one_proxy :
    ∃ p, (accounted sampleWorld).Reaches Unvisited p ∧ p.1.live 1 "web" .tcp 6001 ∧
      ConnsCounted p.1 p.2 := by
  obtain ⟨p, done, live⟩ := System.exists_of_any
    (by decide +kernel : (System.execute (System.guarded (fun _ => acceptsNobody)
      (System.recordingStep (step sampleWorld) noteAccept)) oneProxyRun
        (State.new {}, fun _ => 0)).any (fun p => decide (p.1.live 1 "web" .tcp 6001)) = true)
  have run : (accounted sampleWorld).Reaches Unvisited p :=
    System.recording_reaches id unvisited_of_check ⟨{}, rfl⟩ done
  exact ⟨p, run, of_decide_eq_true live, conns_total_counted run⟩

/-- One user of one proxy, and the report still says none. -/
theorem first_user_uncounted :
    ∃ p, (accounted sampleWorld).Reachable p ∧ ¬ ConnsCounted p.1 p.2 := by
  have reached : ∃ p, (accounted sampleWorld).Reachable p ∧
      decide ((p.1.proxies 1).lookup "web" = some 0 ∧
        (p.1.regs 0).listener.published = some (.tcp, 6001) ∧ p.1.stats.isSome = true ∧
        p.1.proxyInfos.lookup "web" =
          some { proxyName := "web", proxyType := .tcp, remotePort := 6001, user := "" } ∧
        p.2 0 = 1) = true :=
    System.reaches_of_any (fun _ moved => ⟨trivial, System.recording_step_of_some id moved⟩)
      (.start ⟨⟨{}, rfl⟩, rfl⟩)
      (by decide +kernel : (System.execute (System.recordingStep (step sampleWorld) noteAccept)
        (oneProxyRun ++ [.listener 0 .accept]) (State.new {}, fun _ => 0)).any _ = true)
  obtain ⟨p, run, shown⟩ := reached
  obtain ⟨stored, published, reported, found, accepted⟩ := of_decide_eq_true shown
  refine ⟨p, run, not_counted stored published reported found rfl ?_⟩
  rw [accepted]
  decide

end Remgr.Frps.Server
