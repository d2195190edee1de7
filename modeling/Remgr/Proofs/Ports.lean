/-
Module: Remgr.Proofs.Ports
Purpose: Closing a proxy gives back exactly its own port and info, and nothing is left when every
  control is gone, in the runs where no two controls use one proxy name at a time and no teardown
  closes a proxy between the late check and `set_proxy`. `proxy_infos` is keyed by the name alone,
  so two controls with one name undo each other, as the last section shows; `close_proxy` takes the
  locks of the names, the infos and the ports one after the other, so a name is in use until it is
  through.
Trusted boundary: none
Main exports: Undisturbed, closing_is_exact, shared_name_loses_port
-/
import Remgr.Proofs.Turns

namespace Remgr.Frps.Server

open Remgr.Lib

/-! ## The condition on runs -/

/-- The stages of a registration between reserving the name and giving it back or publishing it. -/
def RegPc.owns : RegPc → Bool
  | .reserve | .reply _ none | .flush none => false
  | _ => true

/-- The control has the name in its table, or a registration under way that has reserved it, or a
call of `close_proxy` under way that has taken it out. -/
def State.usesName (s : State) (d : StreamId) (name : String) : Prop :=
  name ∈ s.proxies d ∨
    (∃ r pc, (s.streams d).pc = .registering r pc ∧ pc.owns = true ∧ s.nameOf r = name) ∨
    ∃ call, s.closing d = some call ∧ call.name = name

/-- A name is reserved only while no other control uses it, and a teardown closes no name whose
registration has passed its late check and not reached `set_proxy` yet. -/
def Undisturbed (s : State) : Action → Prop
  | .stream k _ => ∀ r, (s.streams k).pc = .registering r .reserve → s.nameOf r ∉ s.proxies k →
      ∀ d, d ≠ k → ¬ s.usesName d (s.nameOf r)
  | .sweep x _ => ∀ c name rest, (s.sweeps x).current = some (c, .close (name :: rest)) →
      ∀ r kind p, (s.streams c).pc = .registering r (.publish kind p) → s.nameOf r ≠ name
  | _ => True

/-! ## The condition through the view -/

theorem flight_cases {s : State} {c : StreamId} {r : RegId} {name : String}
    {phase : Phase (ProxyType × UInt16)} (flight : (tenancy s).flight c = some ⟨r, name, phase⟩) :
    ∃ pc, (s.streams c).pc = .registering r pc ∧ pc.phase = some phase ∧ s.nameOf r = name := by
  simp only [tenancy] at flight
  cases stage : (s.streams c).pc with
  | registering q pc =>
      rw [stage] at flight
      rcases Option.map_eq_some_iff.mp flight with ⟨phase', shown, same⟩
      cases same
      exact ⟨pc, rfl, shown, rfl⟩
  | _ =>
      rw [stage] at flight
      cases flight

/-- A phase past entering belongs to a stage that owns its name. -/
theorem owns_of_phase {pc : RegPc} {phase : Phase (ProxyType × UInt16)}
    (shown : pc.phase = some phase) (named : phase ≠ .entered) : pc.owns = true := by
  cases pc with
  | reserve =>
      cases shown
      exact absurd rfl named
  | reply resp serve =>
      cases serve with
      | none => cases shown
      | some _ => rfl
  | flush serve =>
      cases serve with
      | none => cases shown
      | some _ => rfl
  | _ => rfl

theorem usesName_of_uses {s : State} {d : StreamId} {name : String}
    (uses : (tenancy s).Uses d name) : s.usesName d name := by
  rcases uses with entry | ⟨r, phase, flight, named⟩ | ⟨r, phase, removing⟩
  · exact .inl (Finmap.lookup_isSome.mp (Option.isSome_iff_ne_none.mpr entry))
  · rcases flight_cases flight with ⟨pc, stage, shown, nameEq⟩
    exact .inr (.inl ⟨r, pc, stage, owns_of_phase shown named, nameEq⟩)
  · rcases Option.map_eq_some_iff.mp removing with ⟨call, held, shown⟩
    exact .inr (.inr ⟨call, held, congrArg Removal.name shown⟩)

/-- A registration that has passed its late check is about to publish. -/
theorem publish_of_passed {pc : RegPc} {kind : ProxyType} {p : UInt16}
    (shown : pc.phase = some (.passed (kind, p))) : pc = .publish kind p := by
  cases pc with
  | publish kind' p' =>
      cases shown
      rfl
  | reply resp serve => cases serve <;> cases shown
  | flush serve => cases serve <;> cases shown
  | _ => cases shown

/-- An undisturbed step is a careful one. -/
theorem careful_of_undisturbed {s : State} {a : Action} {op : HoldingOp}
    (undisturbed : Undisturbed s a) (explained : Explains s a op) :
    (tenancy s).Careful op := by
  cases op with
  | reserve k =>
      rcases explained with ⟨input, r, rfl, stage, free⟩
      intro r' name flight d uses
      rcases flight_cases flight with ⟨pc, stage', shown, rfl⟩
      rw [stage] at stage'
      cases stage'
      by_contra other
      exact undisturbed r stage free d other (usesName_of_uses uses)
  | remove c name =>
      rintro r ⟨kind, p⟩ flight
      rcases flight_cases flight with ⟨pc, stage, shown, nameEq⟩
      cases publish_of_passed shown
      rcases explained with ⟨x, input, rest, rfl, current⟩ | ⟨input, rfl, outside⟩
      · exact undisturbed c name rest current r kind p stage nameEq
      · cases outside r _ stage
  | _ => trivial

theorem server_exclusive {w : World} {s : State} (run : (server w).Reaches Undisturbed s) :
    (tenancy s).Exclusive :=
  Tenancy.reaches_exclusive
    (server_follows_holdings Tenancy.Careful run fun _ => careful_of_undisturbed)

/-! ## The result -/

/-- The port map of a proxy type at a run of the server. -/
def State.portHolder (s : State) (e : Epoch) (kind : ProxyType) (p : UInt16) : Option String :=
  ((s.shared e).ports kind).lookup p

/-- The control has a proxy under this name, with a started listener on this port. -/
def State.live (s : State) (c : StreamId) (name : String) (kind : ProxyType) (p : UInt16) : Prop :=
  ∃ r, (s.proxies c).lookup name = some r ∧ (s.regs r).listener.published = some (kind, p)

/-- The port is held under the name on the control's run of the server, and the info under the name
is that of a proxy of this control on this port. -/
structure Owns (s : State) (c : StreamId) (name : String) (kind : ProxyType) (p : UInt16) :
    Prop where
  held : s.portHolder (s.epochOf c) kind p = some name
  told : (s.proxyInfos.lookup name).map ProxyInfo.told = some ((kind, p), (s.ctl c).user)

/-- What a call of `close_proxy` has still to take away of a proxy on this port, and what it has
taken away: first the info goes, then the port. -/
def Leaves (s : State) (c : StreamId) (name : String) (kind : ProxyType) (p : UInt16) :
    ClosePc → Prop
  | .info => Owns s c name kind p
  | .port kind' p' => (kind', p') = (kind, p) ∧
      s.portHolder (s.epochOf c) kind p = some name ∧ s.proxyInfos.lookup name = none
  | .unlock => s.portHolder (s.epochOf c) kind p ≠ some name ∧ s.proxyInfos.lookup name = none

/-- A call of `close_proxy` on the control has the name in hand, of a proxy that was started on this
port. -/
def State.takesOut (s : State) (c : StreamId) (name : String) (kind : ProxyType) (p : UInt16) :
    Prop :=
  ∃ call, s.closing c = some call ∧ call.name = name ∧
    (s.regs call.tk).listener.published = some (kind, p)

/-- What a step of `close_proxy` of a name of `c` takes away: of the ports only the one the closed
proxy was started on, of the infos only the one of that proxy; every other live proxy keeps its
own. -/
structure ClosesExactly (s s₁ : State) (c : StreamId) (name : String) : Prop where
  ports : ∀ e kind p, s₁.portHolder e kind p = s.portHolder e kind p ∨
    e = s.epochOf c ∧ s.takesOut c name kind p ∧ s.portHolder e kind p = some name ∧
      s₁.portHolder e kind p = none
  infos : ∀ m, s₁.proxyInfos.lookup m = s.proxyInfos.lookup m ∨
    m = name ∧ s₁.proxyInfos.lookup m = none ∧
      ∃ kind p, s.takesOut c name kind p ∧ Owns s c name kind p
  others : ∀ c' name' kind p, s.live c' name' kind p → (c', name') ≠ (c, name) →
    s₁.live c' name' kind p ∧ Owns s₁ c' name' kind p

section Closing

variable {s s₁ : State} {x : Closer} {c : StreamId} {name : String} {kind : ProxyType} {p : UInt16}

theorem owns_of_live (exclusive : (tenancy s).Exclusive) (live : s.live c name kind p) :
    Owns s c name kind p := by
  rcases live with ⟨r, stored, published⟩
  rcases exclusive.live stored published with ⟨told, held⟩
  exact ⟨held, told⟩

/-- A call in hand of a proxy that was started has taken away what its place says, and no more. -/
theorem leaves_of_closing (exclusive : (tenancy s).Exclusive) {call : Closing}
    (held : s.closing c = some call)
    (published : (s.regs call.tk).listener.published = some (kind, p)) :
    Leaves s c call.name kind p call.pc := by
  have removing := tenancy_removal held
  rcases call with ⟨closer, name, tk, pc⟩
  cases pc with
  | info =>
      rcases exclusive.unstruck removing published with ⟨told, owned⟩
      exact ⟨owned, told⟩
  | port kind' p' =>
      rcases exclusive.struck removing with ⟨published', struck, owned⟩
      have same : some (kind', p') = some (kind, p) := published'.symm.trans published
      cases same
      exact ⟨rfl, owned, Option.map_eq_none_iff.mp struck⟩
  | unlock =>
      rcases exclusive.freed removing published with ⟨struck, released⟩
      exact ⟨released, Option.map_eq_none_iff.mp struck⟩

/-- Every other live proxy stays live. -/
theorem closeProxy_live {returned : Bool} (closed : s.closeProxy x c name = some (s₁, returned))
    {c' : StreamId} {name' : String} (live : s.live c' name' kind p)
    (other : (c', name') ≠ (c, name)) : s₁.live c' name' kind p := by
  rcases live with ⟨r, stored, published⟩
  cases closeProxy_cases closed with
  | @removed tk free found =>
      refine ⟨r, ?_, ?_⟩
      · have dropped := tenancy_setProxies s c name none ((s.proxies c).erase name)
          (lookup_erase_eq _ name)
        have entry := congrArg (fun t : Holdings => t.entry (c', name')) dropped
        exact entry.trans ((Function.update_of_ne other ..).trans stored)
      · by_cases same : r = tk
        · subst same
          change (Function.update s.regs r _ r).listener.published = _
          rw [Function.update_self]
          exact published
        · change (Function.update s.regs tk _ r).listener.published = _
          rw [Function.update_of_ne same]
          exact published
  | _ => exact ⟨r, stored, published⟩

/-- A step of `close_proxy` is exact while names are exclusive. -/
theorem closes_exactly (sound : (tenancy s).Sound) (exclusive : (tenancy s).Exclusive)
    {returned : Bool} (closed : s.closeProxy x c name = some (s₁, returned)) :
    ClosesExactly s s₁ c name := by
  -- as long as the ports and infos stay as they are, there is nothing more to say
  have unchanged : s₁.shared = s.shared → s₁.proxyInfos = s.proxyInfos →
      ClosesExactly s s₁ c name := by
    intro shared infos
    refine ⟨fun e kind p => .inl (by rw [State.portHolder, State.portHolder, shared]),
      fun m => .inl (by rw [infos]), ?_⟩
    intro c' name' kind p live other
    rcases owns_of_live exclusive live with ⟨held, told⟩
    refine ⟨closeProxy_live closed live other, ?_, ?_⟩
    · rw [State.portHolder, shared, State.epochOf, closeProxy_ctl closed]
      exact held
    · rw [infos, closeProxy_ctl closed]
      exact told
  -- and otherwise the name is out already, and the others keep what is theirs by exclusiveness
  have others : s.closing c ≠ none → returned = false → ∀ c' name' kind p,
      s.live c' name' kind p → (c', name') ≠ (c, name) →
        s₁.live c' name' kind p ∧ Owns s₁ c' name' kind p := by
    rintro locked rfl c' name' kind p live other
    have kept := closeProxy_live closed live other
    have exclusive₁ : (tenancy s₁).Exclusive := by
      rcases closeProxy_step closed with ⟨op, ⟨_, free⟩ | rfl | rfl, move⟩
      · exact absurd free locked
      · refine exclusive.step sound ?_ move
        trivial
      · refine exclusive.step sound ?_ move
        trivial
    exact ⟨kept, owns_of_live exclusive₁ kept⟩
  cases closeProxy_cases closed with
  | absent _ _ | removed _ _ | unknown _ _ | returned _ => exact unchanged rfl rfl
  | @told tk info held found =>
      have recorded : (tenancy s).record name = some info.told := by
        simp only [tenancy, found, Option.map_some]
      have published := exclusive.recorded_removal sound (tenancy_removal held) recorded
      refine ⟨fun _ _ _ => .inl rfl, ?_, others (by rw [held]; exact Option.some_ne_none _) rfl⟩
      · intro m
        by_cases same : m = name
        · refine .inr ⟨same, ?_, info.proxyType, info.remotePort, ⟨_, held, rfl, published⟩,
            leaves_of_closing exclusive held published⟩
          exact (lookup_erase_eq _ name m).trans (if_pos same)
        · exact .inl ((lookup_erase_eq _ name m).trans (if_neg same))
  | @released tk kind p held =>
      have removing := tenancy_removal held
      rcases exclusive.struck removing with ⟨published, _, owned⟩
      refine ⟨?_, fun _ => .inl rfl, others (by rw [held]; exact Option.some_ne_none _) rfl⟩
      · intro e kind' p'
        have ports := congrArg (fun t : Holdings => t.resource (e, kind', p'))
          (tenancy_releaseProxyPort s (s.ctl c).epoch kind p name)
        dsimp only at ports
        rw [Tenancy.release_apply] at ports
        by_cases same : (e, kind', p') = ((s.ctl c).epoch, kind, p)
        · cases same
          rw [if_pos ⟨rfl, owned⟩] at ports
          exact .inr ⟨rfl, ⟨_, held, rfl, published⟩, owned, ports⟩
        · rw [if_neg fun both => same both.1] at ports
          exact .inl ports

end Closing

/-- A started proxy keeps its port, its control and its name. -/
theorem published_onward {w : World} {allowed : State → Action → Prop} {s s' : State} {r : RegId}
    {kind : ProxyType} {p : UInt16} (run : (server w).Reaches allowed s)
    (published : (s.regs r).listener.published = some (kind, p))
    (onward : ((server w).startedAt s).Reaches allowed s') :
    (s'.regs r).listener.published = some (kind, p) ∧ (tenancy s').home r = (tenancy s).home r := by
  induction onward with
  | start initial =>
      cases initial
      exact ⟨published, rfl⟩
  | @next t t' a onward permitted move inductionHypothesis =>
      rcases inductionHypothesis with ⟨published, home⟩
      have reached := run.trans onward
      have sound := server_sound reached
      rcases step_tracks (server_shape reached) sound move with same | ⟨op, _, opMove⟩
      · have publishedSame := congrArg (fun t : Holdings => t.published r) same
        have homeSame := congrArg (fun t : Holdings => t.home r) same
        exact ⟨publishedSame.trans published, homeSame.trans home⟩
      · rcases sound.published_kept opMove published with ⟨published', home'⟩
        exact ⟨published', home'.trans home⟩

/-- Every control is torn down and no reader is inside `handle_new_proxy`. -/
def State.allGone (s : State) : Prop :=
  (∀ c, (s.ctl c).created = true → s.tornDown c) ∧ ∀ c r, ¬ s.registeringOn c r

/-- In every state reached by an undisturbed run: a live proxy has its port and its info; whatever
the others do from there on, a call of `close_proxy` that has taken it out has taken away its info
and its port as far as it has got; every step of a `close_proxy` takes away nothing but that; and
when every control is torn down with no registration in flight, no port and no info is left. -/
theorem closing_is_exact {w : World} {s : State} (run : (server w).Reaches Undisturbed s) :
    (∀ c name kind p, s.live c name kind p → Owns s c name kind p) ∧
      (∀ c name r kind p, (s.proxies c).lookup name = some r →
        (s.regs r).listener.published = some (kind, p) →
        ∀ s', ((server w).startedAt s).Reaches Undisturbed s' →
          ∀ call, s'.closing c = some call → call.tk = r →
            call.name = name ∧ Leaves s' c name kind p call.pc) ∧
      (∀ x c name s₁ returned, s.closeProxy x c name = some (s₁, returned) →
        ClosesExactly s s₁ c name) ∧
      (s.allGone → (∀ e, (s.shared e).tcpPorts = ∅ ∧ (s.shared e).udpPorts = ∅) ∧
        s.proxyInfos = ∅) := by
  have sound := server_sound run
  have exclusive := server_exclusive run
  refine ⟨fun c name kind p => owns_of_live exclusive, ?_,
    fun x c name s₁ returned => closes_exactly sound exclusive, ?_⟩
  · rintro c name r kind p stored published s' onward call held rfl
    have reached := run.trans onward
    rcases published_onward run published onward with ⟨published', home⟩
    have removing := tenancy_removal held
    have named : call.name = name := by
      have removed := ((server_sound reached).removal_home removing).1
      have entered := (sound.entry_home (c := c) (n := name) stored).1
      exact congrArg Prod.snd (removed.symm.trans (home.trans entered))
    subst named
    exact ⟨rfl, leaves_of_closing (server_exclusive reached) held published'⟩
  · rintro ⟨torn, landed⟩
    have swept : ∀ c, (tenancy s).joined c = true → (tenancy s).swept c = true := by
      intro c created
      simp only [tenancy, (torn c created).2, Bool.not_false]
    have noFlight : ∀ c, (tenancy s).flight c = none := by
      intro c
      rcases flight : (tenancy s).flight c with _ | ⟨r, name, phase⟩
      · rfl
      · exact absurd (registeringOn_of_flight flight) (landed c r)
    rcases exclusive.nothing_left sound swept noFlight with ⟨_, resource, record⟩
    have noPort : ∀ e kind p, ((s.shared e).ports kind).lookup p = none :=
      fun e kind p => resource (e, kind, p)
    refine ⟨?_, ?_⟩
    · intro e
      exact ⟨Finmap.ext_lookup fun p => by rw [Finmap.lookup_empty]; exact noPort e .tcp p,
        Finmap.ext_lookup fun p => by rw [Finmap.lookup_empty]; exact noPort e .udp p⟩
    · apply Finmap.ext_lookup
      intro name
      rw [Finmap.lookup_empty]
      exact Option.map_eq_none_iff.mp (record name)

/-! ## Runs of a few clients -/

/-- Only these streams have been opened. -/
structure Only (ks : List StreamId) (s : State) : Prop where
  shape : Shape s
  sound : (tenancy s).Sound
  streams : ∀ ⦃d⦄, d ∉ ks → (s.streams d).pc = .unopened

namespace Only

variable {ks : List StreamId} {s s' : State} {w : World} {a : Action}

/-- Only a control uses a name. -/
theorem unused (only : Only ks s) {d : StreamId} (other : d ∉ ks) (name : String) :
    ¬ s.usesName d name := by
  have absent : (s.ctl d).created = false := only.shape.before (by rw [only.streams other]; rfl)
  rintro (stored | ⟨r, pc, stage, _⟩ | ⟨call, held, _⟩)
  · rcases Finmap.mem_iff.mp stored with ⟨r, found⟩
    have joined := (only.sound.entry_home (c := d) (n := name) found).2.2.2
    cases absent.symm.trans joined
  · rw [only.streams other] at stage
    cases stage
  · have joined := (only.sound.removal_home (tenancy_removal held)).2.2.2
    cases absent.symm.trans joined

theorem step (only : Only ks s) (opens : ∀ k, a.opens = some k → k ∈ ks)
    (move : step w a s = some s') : Only ks s' where
  shape := only.shape.step move
  sound := by
    rcases step_tracks only.shape only.sound move with same | ⟨op, _, opMove⟩
    · rw [same]
      exact only.sound
    · exact only.sound.step opMove
  streams d other := unopened_kept move (only.streams other) fun opened => other (opens d opened)

theorem new (ks : List StreamId) (cfg : FrpsConfig) : Only ks (State.new cfg) where
  shape := server_shape (w := sampleWorld) (.start ⟨cfg, rfl⟩ : (server sampleWorld).Reachable _)
  sound := server_sound (w := sampleWorld) (.start ⟨cfg, rfl⟩ : (server sampleWorld).Reachable _)
  streams _ _ := rfl

/-- Steps that open no other streams and pass a check make a run that meets the condition. -/
theorem reaches {sys : System State Action} {allowed : State → Action → Prop}
    {check : State → Action → Bool} {actions : List Action}
    (stepEq : ∀ {s a s'}, Server.step w a s = some s' → sys.step s a s')
    (permits : ∀ {s a}, Only ks s → check s a = true → allowed s a)
    (opened : ∀ k ∈ actions.filterMap Action.opens, k ∈ ks) (run : sys.Reaches allowed s)
    (only : Only ks s)
    (done : System.execute (System.guarded check (Server.step w)) actions s = some s') :
    sys.Reaches allowed s' ∧ Only ks s' := by
  refine System.reaches_of_guarded stepEq ?_ permits run only done
  intro a listed t t' move before
  exact before.step (fun k opens => opened k (List.mem_filterMap.mpr ⟨a, listed, opens⟩)) move

end Only

instance (s : State) (d : StreamId) (name : String) : Decidable (s.usesName d name) :=
  let flying : Bool :=
    match (s.streams d).pc with
    | .registering r pc => pc.owns && s.nameOf r == name
    | _ => false
  decidable_of_iff
    (name ∈ s.proxies d ∨ flying = true ∨ (s.closing d).any (fun call => call.name == name) = true)
    (by
      refine or_congr .rfl (or_congr ?_ ?_)
      · unfold flying
        cases stage : (s.streams d).pc with
        | registering r pc => simp [and_assoc]
        | _ => simp
      · simp [Option.any_eq_true])

/-- The condition on a step, looked up for these clients. -/
def apart (ks : List StreamId) (s : State) : Action → Bool
  | .stream k _ =>
      match (s.streams k).pc with
      | .registering r .reserve => ks.all fun d => d == k || !decide (s.usesName d (s.nameOf r))
      | _ => true
  | .sweep _ _ => false
  | _ => true

theorem undisturbed_of_apart {ks : List StreamId} {s : State} {a : Action} (only : Only ks s)
    (checked : apart ks s a = true) : Undisturbed s a := by
  cases a with
  | stream k input =>
      intro r stage _ d other uses
      simp only [apart, stage, List.all_eq_true, Bool.or_eq_true, beq_iff_eq, Bool.not_eq_true',
        decide_eq_false_iff_not] at checked
      by_cases known : d ∈ ks
      · rcases checked d known with same | unused
        · exact other same
        · exact unused uses
      · exact only.unused known _ uses
  | sweep x input => cases checked
  | _ => trivial

instance (s : State) (c : StreamId) (name : String) (kind : ProxyType) (p : UInt16) :
    Decidable (s.live c name kind p) :=
  match found : (s.proxies c).lookup name with
  | none => .isFalse (by rintro ⟨r, stored, _⟩; rw [found] at stored; cases stored)
  | some r => decidable_of_iff ((s.regs r).listener.published = some (kind, p))
      ⟨fun published => ⟨r, found, published⟩, by
        rintro ⟨r', stored, published⟩
        rw [found] at stored
        cases stored
        exact published⟩

def sampleMail : Json :=
  .obj [("proxy_name", .str "mail"), ("proxy_type", .str "tcp"), ("remote_port", .num 6002)]

/-- The sample world with a second proxy name. -/
def pairWorld : World :=
  { sampleWorld with
    fromSlice := fun body =>
      if body = sampleMail.toVec then some sampleMail else sampleWorld.fromSlice body }

/-- The client closes its proxy: the frame, and the steps of `close_proxy` as far as they go. -/
def closeRun (k : StreamId) (steps : Nat) : List Action :=
  .stream k (.frame (some (TYPE_CLOSE_PROXY, sampleClose.toVec))) ::
    List.replicate steps (.stream k .go)

/-- One client has a tcp proxy `web`, another one has logged in. -/
def pairRun : List Action := oneProxyRun ++ loginRun 2 "two"

/-- The first client closes `web`; between the locks of `close_proxy` the second client registers
`mail`. -/
def crossingRun : List Action :=
  closeRun 1 1 ++ .stream 2 (.frame (some (TYPE_NEW_PROXY, sampleMail.toVec))) ::
    (proxyRunToBind 2 6002).tail ++ proxyRunFromBind 2 ++ [.stream 1 .go, .stream 1 .go]

/-- With two clients, closing the one's proxy frees its port and takes its info, and the proxy that
the other one registers meanwhile has its own. -/
theorem closing_is_exact_two_clients :
    ∃ s s', (server pairWorld).Reaches Undisturbed s ∧ s.live 1 "web" .tcp 6001 ∧
      ((server pairWorld).startedAt s).Reaches Undisturbed s' ∧
      (s'.portHolder 0 .tcp 6001 ≠ some "web" ∧ s'.proxyInfos.lookup "web" = none) ∧
      Owns s' 2 "mail" .tcp 6002 := by
  have passed : (System.execute (System.guarded (apart [1, 2]) (step pairWorld)) pairRun
      (State.new {})).any (fun s =>
        decide ((s.proxies 1).lookup "web" = some 0 ∧
          (s.regs 0).listener.published = some (.tcp, 6001)) &&
        (System.execute (System.guarded (apart [1, 2]) (step pairWorld)) crossingRun s).any
          fun s' => decide (s'.closing 1 = some ⟨.reader, "web", 0, .unlock⟩ ∧
            s'.live 2 "mail" .tcp 6002 ∧ s'.epochOf 1 = 0)) = true := by decide +kernel
  rcases System.exists_of_any passed with ⟨s, done, shown⟩
  rw [Bool.and_eq_true, decide_eq_true_eq] at shown
  rcases shown with ⟨⟨stored, published⟩, shown⟩
  rcases System.exists_of_any shown with ⟨s', done', shown'⟩
  rcases of_decide_eq_true shown' with ⟨held, live, epoch⟩
  have ⟨run, only⟩ : (server pairWorld).Reaches Undisturbed s ∧ Only [1, 2] s :=
    Only.reaches id undisturbed_of_apart (by decide +kernel) (.start ⟨_, rfl⟩) (.new _ _) done
  have ⟨onward, _⟩ : ((server pairWorld).startedAt s).Reaches Undisturbed s' ∧ Only [1, 2] s' :=
    Only.reaches id undisturbed_of_apart (by decide +kernel) (.start rfl) only done'
  have gone := ((closing_is_exact run).2.1 1 "web" 0 .tcp 6001 stored published s' onward _ held
    rfl).2
  refine ⟨s, s', run, ⟨0, stored, published⟩, onward, ?_,
    (closing_is_exact (run.trans onward)).1 2 "mail" .tcp 6002 live⟩
  rw [← epoch]
  exact gone

/-- Two clients, each with a tcp proxy `web` of its own. -/
def twoProxiesRun : List Action :=
  pairRun ++ proxyRunToBind 2 6002 ++ proxyRunFromBind 2

/-- The info under the shared name is the second client's, so when the first client closes its
proxy, `close_proxy` removes that info, frees the second one's port and keeps the first one's
reserved. -/
theorem shared_name_loses_port :
    ∃ s s', (server sampleWorld).Reachable s ∧
      s.live 1 "web" .tcp 6001 ∧ s.live 2 "web" .tcp 6002 ∧
      s.portHolder (s.epochOf 2) .tcp 6002 = some "web" ∧
      s.proxyInfos.lookup "web" =
        some { proxyName := "web", proxyType := .tcp, remotePort := 6002, user := "" } ∧
      System.execute (step sampleWorld) (closeRun 1 4) s = some s' ∧
      s'.closing 1 = none ∧ s'.live 2 "web" .tcp 6002 ∧
      s'.portHolder (s'.epochOf 1) .tcp 6001 = some "web" ∧
      s'.portHolder (s'.epochOf 2) .tcp 6002 = none ∧ s'.proxyInfos.lookup "web" = none := by
  have passed : (System.execute (step sampleWorld) twoProxiesRun (State.new {})).any (fun s =>
      decide (s.live 1 "web" .tcp 6001 ∧ s.live 2 "web" .tcp 6002 ∧
        s.portHolder (s.epochOf 2) .tcp 6002 = some "web" ∧
        s.proxyInfos.lookup "web" =
          some { proxyName := "web", proxyType := .tcp, remotePort := 6002, user := "" }) &&
      (System.execute (step sampleWorld) (closeRun 1 4) s).any fun s' =>
        decide (s'.closing 1 = none ∧ s'.live 2 "web" .tcp 6002 ∧
          s'.portHolder (s'.epochOf 1) .tcp 6001 = some "web" ∧
          s'.portHolder (s'.epochOf 2) .tcp 6002 = none ∧
          s'.proxyInfos.lookup "web" = none)) = true := by decide +kernel
  rcases sample_reaches twoProxiesRun _ passed with ⟨s, run, shown⟩
  rw [Bool.and_eq_true, decide_eq_true_eq] at shown
  rcases shown with ⟨⟨first, second, held, told⟩, shown⟩
  rcases System.exists_of_any shown with ⟨s', done, after⟩
  exact ⟨s, s', run, first, second, held, told, done, of_decide_eq_true after⟩

/-- The second client registers `web` after `close_proxy` has taken the first one's out and before
it has come to the info: then it is the second one's info and port that go. -/
theorem name_reserved_between_locks :
    ∃ s, (server sampleWorld).Reachable s ∧ s.closing 1 = none ∧
      s.live 2 "web" .tcp 6002 ∧ s.portHolder (s.epochOf 1) .tcp 6001 = some "web" ∧
      s.portHolder (s.epochOf 2) .tcp 6002 = none ∧ s.proxyInfos.lookup "web" = none := by
  rcases sample_reaches (pairRun ++ closeRun 1 1 ++ proxyRunToBind 2 6002 ++ proxyRunFromBind 2 ++
      List.replicate 3 (.stream 1 .go))
    (fun s => decide (s.closing 1 = none ∧ s.live 2 "web" .tcp 6002 ∧
      s.portHolder (s.epochOf 1) .tcp 6001 = some "web" ∧
      s.portHolder (s.epochOf 2) .tcp 6002 = none ∧ s.proxyInfos.lookup "web" = none))
    (by decide +kernel) with ⟨s, run, shown⟩
  exact ⟨s, run, of_decide_eq_true shown⟩

end Remgr.Frps.Server
