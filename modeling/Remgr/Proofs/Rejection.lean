/-
Module: Remgr.Proofs.Rejection
Purpose: What a refused registration leaves behind. The call of `handle_new_proxy` is followed
  alone, from its entry to its return; its undo steps give back exactly what it took, except when
  the port was already held under the same name: then it took nothing and still gives the port back.
Trusted boundary: none
Main exports: Tables, Calling, rejection_changes_nothing_iff, rejection_frees_foreign_port
-/
import Remgr.Proofs.Admission
import Remgr.Proofs.Ports

namespace Remgr.Frps.Server

open Remgr.Lib

/-! ## The four maps -/

/-- The maps a registration writes to, of all controls and all runs of the server. -/
structure Tables where
  proxies : StreamId → Map String RegId
  ports : Epoch → ProxyType → Map UInt16 String
  infos : Map String ProxyInfo

def State.tables (s : State) : Tables where
  proxies := s.proxies
  ports e := (s.shared e).ports
  infos := s.proxyInfos

namespace Tables

def reserve (t : Tables) (k : StreamId) (name : String) (r : RegId) : Tables :=
  { t with proxies := Function.update t.proxies k ((t.proxies k).insert name r) }

def drop (t : Tables) (k : StreamId) (name : String) : Tables :=
  { t with proxies := Function.update t.proxies k ((t.proxies k).erase name) }

def setPorts (t : Tables) (e : Epoch) (kind : ProxyType) (ports : Map UInt16 String) : Tables :=
  { t with ports := Function.update t.ports e (Function.update (t.ports e) kind ports) }

theorem erase_insert {κ ν : Type} [DecidableEq κ] {m : Map κ ν} {key : κ} {value : ν}
    (free : m.lookup key = none) : (m.insert key value).erase key = m := by
  apply Finmap.ext_lookup
  intro other
  rw [lookup_erase_eq, lookup_insert_eq]
  by_cases same : other = key
  · rw [if_pos same, same, free]
  · rw [if_neg same, if_neg same]

/-- Dropping a name takes its reservation back. -/
theorem drop_reserve {t : Tables} {k : StreamId} {name : String} (r : RegId)
    (free : name ∉ t.proxies k) : (t.reserve k name r).drop k name = t := by
  unfold drop reserve
  simp only [Function.update_self, Function.update_idem,
    erase_insert (Finmap.lookup_eq_none.mpr free), Function.update_eq_self]

theorem setPorts_setPorts {t : Tables} {e : Epoch} {kind : ProxyType} {ports : Map UInt16 String} :
    (t.setPorts e kind ports).setPorts e kind (t.ports e kind) = t := by
  unfold setPorts
  simp only [Function.update_self, Function.update_idem, Function.update_eq_self]

end Tables

theorem tables_setPorts (s : State) (e : Epoch) (kind : ProxyType) (ports : Map UInt16 String) :
    (s.setShared e ((s.shared e).setPorts kind ports)).tables = s.tables.setPorts e kind ports := by
  have portsEq : (fun e' => ((s.setShared e ((s.shared e).setPorts kind ports)).shared e').ports) =
      Function.update (fun e' => (s.shared e').ports) e
        (Function.update (s.shared e).ports kind ports) := by
    funext e' kind'
    by_cases sameRun : e' = e
    · subst sameRun
      rw [Function.update_self]
      simp only [State.setShared, Function.update_self, Shared.ports_setPorts,
        Function.update_apply]
    · rw [Function.update_of_ne sameRun]
      simp only [State.setShared, Function.update_of_ne sameRun]
  exact congrArg (fun ports => ({ s.tables with ports := ports } : Tables)) portsEq

/-! ## One call -/

/-- The response a step of the call sends. -/
def RegPc.answer : RegPc → Option NewProxyResp
  | .reply resp _ => some resp
  | _ => none

/-- A task that writes to none of the maps. -/
def Action.isAside : Action → Bool
  | .writer _ _ | .listener _ _ | .bridge _ _ => true
  | _ => false

/-- The states a call of `handle_new_proxy` on stream `k` goes through after its entry at `s₀`, with
the response it has sent so far. The reader takes no other message before the call returns, and the
other tasks that move meanwhile do not touch the maps. -/
inductive Calling (w : World) (k : StreamId) (s₀ : State) : Option NewProxyResp → State → Prop where
  | entered {np : NewProxy} (stage : (s₀.streams k).pc = .entering np)
      (alive : s₀.tokenCancelled k = false) : Calling w k s₀ none (enterStep k np s₀)
  | own {answer : Option NewProxyResp} {s s' : State} {pc : RegPc} {input : Input}
      (call : Calling w k s₀ answer s) (stage : (s.streams k).pc = .registering s₀.nextReg pc)
      (move : step w (.stream k input) s = some s') :
      Calling w k s₀ (pc.answer.or answer) s'
  | aside {answer : Option NewProxyResp} {s s' : State} {a : Action}
      (call : Calling w k s₀ answer s) (side : a.isAside = true) (move : step w a s = some s') :
      Calling w k s₀ answer s'

/-- The checks before the port is registered. -/
structure Clears (cfg : FrpsConfig) (np : NewProxy) (kind : ProxyType) (p : UInt16) : Prop where
  useEncryption : np.useEncryption = false
  useCompression : np.useCompression = false
  proxyType : ProxyType.ofText np.proxyType = some kind
  remotePort : remotePortOf np = some p
  allowed : cfg.portAllowed p = true

/-- The message names a port that is already held under its name, by another control or by an
earlier registration, and would pass all checks before that. -/
def State.takesOver (s : State) (k : StreamId) (np : NewProxy) : Prop :=
  np.proxyName ∉ s.proxies k ∧ ∃ kind p, Clears s.cfg np kind p ∧
    s.portHolder (s.epochOf k) kind p = some np.proxyName

theorem takesOver_iff {s : State} {k : StreamId} {np : NewProxy} {kind : ProxyType} {p : UInt16}
    (free : np.proxyName ∉ s.proxies k) (clears : Clears s.cfg np kind p) :
    s.takesOver k np ↔ s.portHolder (s.epochOf k) kind p = some np.proxyName := by
  constructor
  · rintro ⟨_, kind', p', clears', held⟩
    have sameKind := clears.proxyType.symm.trans clears'.proxyType
    have samePort := clears.remotePort.symm.trans clears'.remotePort
    cases sameKind
    cases samePort
    exact held
  · intro held
    exact ⟨free, kind, p, clears, held⟩

/-! ## What each stage has done to the maps -/

section Call

variable {w : World} {s₀ s s' : State} {k : StreamId} {np : NewProxy}

/-- The maps with the name reserved by the call that starts at `s₀`. -/
def reserved (s₀ : State) (k : StreamId) (np : NewProxy) : Tables :=
  s₀.tables.reserve k np.proxyName s₀.nextReg

/-- The maps are as before the call exactly when it did not take a held port over. -/
def Settled (s₀ : State) (k : StreamId) (np : NewProxy) (s : State) : Prop :=
  s.tables = s₀.tables ↔ ¬ s₀.takesOver k np

/-- The port is registered: held under the name already, or entered by this call. -/
def Registered (s₀ : State) (k : StreamId) (np : NewProxy) (s : State) (kind : ProxyType)
    (p : UInt16) : Prop :=
  s₀.portHolder (s₀.epochOf k) kind p = some np.proxyName ∧ s.tables = reserved s₀ k np ∨
    s₀.portHolder (s₀.epochOf k) kind p = none ∧
      s.tables = (reserved s₀ k np).setPorts (s₀.epochOf k) kind
        (((s₀.shared (s₀.epochOf k)).ports kind).insert p np.proxyName)

/-- The call has only its name left, or has freed a port that it did not enter. -/
def Undone (s₀ : State) (k : StreamId) (np : NewProxy) (s : State) : Prop :=
  s.tables = reserved s₀ k np ∧ ¬ s₀.takesOver k np ∨
    s.tables.ports ≠ s₀.tables.ports ∧ s₀.takesOver k np

def Trail (s₀ : State) (k : StreamId) (np : NewProxy) (s : State) : RegPc → Prop
  | .reserve => s.tables = s₀.tables
  | .config kind => np.proxyName ∉ s₀.proxies k ∧ s.tables = reserved s₀ k np ∧
      np.useEncryption = false ∧ np.useCompression = false ∧
      ProxyType.ofText np.proxyType = some kind
  | .port kind p _ => np.proxyName ∉ s₀.proxies k ∧ s.tables = reserved s₀ k np ∧
      Clears s₀.cfg np kind p
  | .bind kind p _ _ => np.proxyName ∉ s₀.proxies k ∧ Clears s₀.cfg np kind p ∧
      Registered s₀ k np s kind p
  | .release kind p error => error ≠ "" ∧ np.proxyName ∉ s₀.proxies k ∧ Clears s₀.cfg np kind p ∧
      Registered s₀ k np s kind p
  | .drop error => error ≠ "" ∧ np.proxyName ∉ s₀.proxies k ∧ Undone s₀ k np s
  | .reply resp none => resp.error ≠ "" ∧ Settled s₀ k np s
  | .reply resp (some _) => resp.error = ""
  | .flush none => Settled s₀ k np s
  | _ => True

/-- What is known during the call. -/
structure InCall (s₀ : State) (k : StreamId) (np : NewProxy) (answer : Option NewProxyResp)
    (s : State) : Prop where
  cfg : s.cfg = s₀.cfg
  epoch : s.epochOf k = s₀.epochOf k
  message : (s.regs s₀.nextReg).np = np
  stage : ∀ pc, (s.streams k).pc = .registering s₀.nextReg pc → Trail s₀ k np s pc
  answered : ∀ resp, answer = some resp → resp.error ≠ "" → Settled s₀ k np s ∧
    ∀ pc, (s.streams k).pc = .registering s₀.nextReg pc → pc = .flush none

/-! ## Error texts are never empty -/

theorem append_ne_empty {a b : String} (first : a ≠ "") : a ++ b ≠ "" := by
  intro empty
  exact first (String.append_eq_empty_iff.mp empty).1

theorem nameInUse_ne_empty (np : NewProxy) : nameInUse np ≠ "" :=
  append_ne_empty (append_ne_empty (by decide))

theorem typeUnsupported_ne_empty (np : NewProxy) : typeUnsupported np ≠ "" :=
  append_ne_empty (append_ne_empty (by decide))

theorem portInvalid_ne_empty (np : NewProxy) : portInvalid np ≠ "" :=
  append_ne_empty (by decide)

theorem portNotAllowed_ne_empty (p : UInt16) : portNotAllowed p ≠ "" :=
  append_ne_empty (append_ne_empty (by decide))

theorem bindFailed_ne_empty (kind : ProxyType) (p : UInt16) (text : String) :
    bindFailed kind p text ≠ "" :=
  append_ne_empty (append_ne_empty (append_ne_empty (append_ne_empty (append_ne_empty
    (by decide)))))

theorem registerProxyPort_error_ne_empty {shared : Shared} {kind : ProxyType} {p : UInt16}
    {name text : String} (refused : shared.registerProxyPort kind p name = .error text) :
    text ≠ "" := by
  unfold Shared.registerProxyPort at refused
  split at refused
  · split at refused
    · cases refused
      exact append_ne_empty (append_ne_empty (append_ne_empty (by decide)))
    · cases refused
  · cases refused

/-! ## What the stages do -/

theorem not_takesOver_of_check (failed : ∀ kind p, ¬ Clears s₀.cfg np kind p) :
    ¬ s₀.takesOver k np := by
  rintro ⟨_, kind, p, clears, _⟩
  exact failed kind p clears

theorem settled_of_inUse (tables : s.tables = s₀.tables) (used : np.proxyName ∈ s.proxies k) :
    Settled s₀ k np s := by
  have proxies : s.proxies = s₀.proxies := congrArg Tables.proxies tables
  rw [proxies] at used
  constructor
  · rintro _ ⟨free, _⟩
    exact free used
  · intro _
    exact tables

theorem afterReserve_trail (free : np.proxyName ∉ s₀.proxies k)
    (tables : s.tables = reserved s₀ k np) : Trail s₀ k np s (afterReserve np) := by
  unfold afterReserve
  split
  · next options =>
      refine ⟨by decide, free, .inl ⟨tables, not_takesOver_of_check ?_⟩⟩
      intro kind p clears
      simp [clears.useEncryption, clears.useCompression] at options
  · next plain =>
      simp only [Bool.or_eq_true, not_or, Bool.not_eq_true] at plain
      split
      · next kind found => exact ⟨free, tables, plain.1, plain.2, found⟩
      · next unknown =>
          refine ⟨typeUnsupported_ne_empty np, free, .inl ⟨tables, not_takesOver_of_check ?_⟩⟩
          intro kind p clears
          rw [clears.proxyType] at unknown
          cases unknown

theorem afterConfig_trail {kind : ProxyType} (free : np.proxyName ∉ s₀.proxies k)
    (tables : s.tables = reserved s₀ k np) (noEncryption : np.useEncryption = false)
    (noCompression : np.useCompression = false)
    (typed : ProxyType.ofText np.proxyType = some kind) :
    Trail s₀ k np s (afterConfig s₀.cfg kind np) := by
  unfold afterConfig
  split
  · next bad =>
      refine ⟨portInvalid_ne_empty np, free, .inl ⟨tables, not_takesOver_of_check ?_⟩⟩
      intro kind' p clears
      rw [clears.remotePort] at bad
      cases bad
  · next p found =>
      split
      · next forbidden =>
          refine ⟨portNotAllowed_ne_empty p, free, .inl ⟨tables, not_takesOver_of_check ?_⟩⟩
          intro kind' p' clears
          have same := clears.remotePort.symm.trans found
          cases same
          rw [clears.allowed] at forbidden
          cases forbidden
      · next permitted =>
          exact ⟨free, tables, noEncryption, noCompression, typed, found, by simpa using permitted⟩

/-- Reserving a name leaves the ports as they were. -/
theorem ports_of_reserved {e : Epoch} (tables : s.tables = reserved s₀ k np) (kind : ProxyType) :
    (s.shared e).ports kind = (s₀.shared e).ports kind :=
  congrArg (fun t : Tables => t.ports e kind) tables

theorem registerProxyPort_refused {kind : ProxyType} {p : UInt16} {text : String}
    (tables : s.tables = reserved s₀ k np)
    (refused : (s.shared (s₀.epochOf k)).registerProxyPort kind p np.proxyName = .error text) :
    s₀.portHolder (s₀.epochOf k) kind p ≠ some np.proxyName := by
  unfold Shared.registerProxyPort at refused
  rw [ports_of_reserved tables] at refused
  split at refused
  · next existing held =>
      split at refused
      · next other =>
          intro own
          rw [State.portHolder, held] at own
          exact other (Option.some.inj own)
      · cases refused
  · cases refused

theorem registered_of_ok {kind : ProxyType} {p : UInt16} {shared : Shared}
    (tables : s.tables = reserved s₀ k np)
    (ok : (s.shared (s₀.epochOf k)).registerProxyPort kind p np.proxyName = .ok shared) :
    Registered s₀ k np (s.setShared (s₀.epochOf k) shared) kind p := by
  unfold Shared.registerProxyPort at ok
  have ports := ports_of_reserved (e := s₀.epochOf k) tables kind
  rw [ports] at ok
  split at ok
  · next existing held =>
      split at ok
      · cases ok
      · next same =>
          cases ok
          refine .inl ⟨?_, ?_⟩
          · rw [State.portHolder, held, not_not.mp same]
          · have unchanged : s.setShared (s₀.epochOf k) (s.shared (s₀.epochOf k)) = s := by
              simp [State.setShared]
            rw [unchanged]
            exact tables
  · next absent =>
      cases ok
      refine .inr ⟨absent, ?_⟩
      rw [tables_setPorts, tables]

theorem afterPort_trail {kind : ProxyType} {p : UInt16} {bindAddr : String}
    (free : np.proxyName ∉ s₀.proxies k) (clears : Clears s₀.cfg np kind p)
    (registered : Registered s₀ k np s kind p) :
    Trail s₀ k np s (afterPort w kind p bindAddr) := by
  unfold afterPort
  split
  · exact ⟨by decide, free, clears, registered⟩
  · exact ⟨free, clears, registered⟩

theorem afterBind_trail {kind : ProxyType} {p : UInt16} {addr : String} {attempt : Nat}
    {result : BindResult} (free : np.proxyName ∉ s₀.proxies k) (clears : Clears s₀.cfg np kind p)
    (registered : Registered s₀ k np s kind p) :
    Trail s₀ k np s (afterBind np kind p addr attempt result) := by
  cases result with
  | bound => rfl
  | failed text => exact ⟨bindFailed_ne_empty kind p text, free, clears, registered⟩
  | addrInUse text =>
      simp only [afterBind]
      split
      · exact ⟨free, clears, registered⟩
      · exact ⟨bindFailed_ne_empty kind p text, free, clears, registered⟩

/-- Releasing the port takes back what the call entered, or what another one did. -/
theorem undone_of_release {kind : ProxyType} {p : UInt16} (free : np.proxyName ∉ s₀.proxies k)
    (clears : Clears s₀.cfg np kind p) (registered : Registered s₀ k np s kind p) :
    Undone s₀ k np (s.releaseProxyPort (s₀.epochOf k) kind p np.proxyName) := by
  have takes := takesOver_iff free clears
  unfold State.releaseProxyPort Shared.releaseProxyPort
  rcases registered with ⟨held, tables⟩ | ⟨absent, tables⟩
  · have ports := ports_of_reserved (e := s₀.epochOf k) tables kind
    have entry : ((s₀.shared (s₀.epochOf k)).ports kind).lookup p = some np.proxyName := held
    refine .inr ⟨?_, takes.mpr held⟩
    rw [ports, if_pos entry, tables_setPorts]
    intro same
    have freed := congrArg (fun ports => (ports (s₀.epochOf k) kind).lookup p) same
    simp only [Tables.setPorts, Function.update_self, Finmap.lookup_erase] at freed
    have gone : ((s₀.shared (s₀.epochOf k)).ports kind).lookup p = none := freed.symm
    rw [entry] at gone
    cases gone
  · have ports : (s.shared (s₀.epochOf k)).ports kind =
        ((s₀.shared (s₀.epochOf k)).ports kind).insert p np.proxyName := by
      have entry := congrArg (fun t : Tables => t.ports (s₀.epochOf k) kind) tables
      simp only [Tables.setPorts, Function.update_self] at entry
      exact entry
    refine .inl ⟨?_, ?_⟩
    · rw [ports, if_pos (Finmap.lookup_insert _), tables_setPorts, tables,
        Tables.erase_insert absent]
      exact Tables.setPorts_setPorts
    · rw [takes, absent]
      exact nofun

/-- Dropping the name settles the account. -/
theorem settled_of_drop (free : np.proxyName ∉ s₀.proxies k) (undone : Undone s₀ k np s) :
    Settled s₀ k np (s.dropReservation k np.proxyName) := by
  have dropped : (s.dropReservation k np.proxyName).tables = s.tables.drop k np.proxyName := rfl
  rw [Settled, dropped]
  rcases undone with ⟨tables, keeps⟩ | ⟨ports, takes⟩
  · rw [tables, reserved, Tables.drop_reserve _ free]
    exact iff_of_true rfl keeps
  · refine iff_of_false ?_ (not_not.mpr takes)
    intro same
    have portsSame := congrArg Tables.ports same
    exact ports portsSame

/-! ## Steps of the call -/

/-- No error has been answered before the call gets to its answer. -/
theorem InCall.unanswered {answer : Option NewProxyResp} {pc : RegPc}
    (call : InCall s₀ k np answer s) (stage : (s.streams k).pc = .registering s₀.nextReg pc)
    (notFlush : pc ≠ .flush none) : ∀ resp, answer = some resp → resp.error = "" := by
  intro resp given
  by_contra error
  exact notFlush ((call.answered resp given error).2 pc stage)

/-- The call goes on to another stage, or returns. -/
theorem InCall.goto {answer answer' : Option NewProxyResp} {s₁ : State} {next : StreamPc}
    (call : InCall s₀ k np answer s) (cfg : s₁.cfg = s.cfg) (ctl : s₁.ctl = s.ctl)
    (message : (s₁.regs s₀.nextReg).np = (s.regs s₀.nextReg).np)
    (trail : ∀ pc, next = .registering s₀.nextReg pc → Trail s₀ k np s₁ pc)
    (answered : ∀ resp, answer' = some resp → resp.error ≠ "" → Settled s₀ k np s₁ ∧
      ∀ pc, next = .registering s₀.nextReg pc → pc = .flush none) :
    InCall s₀ k np answer' (s₁.goto k next) := by
  have at_next : ((s₁.goto k next).streams k).pc = next := by rw [goto_streams_self]
  constructor
  · exact cfg.trans call.cfg
  · have epoch := call.epoch
    rw [State.epochOf, ← ctl] at epoch
    exact epoch
  · exact message.trans call.message
  · intro pc stage
    rw [at_next] at stage
    have trail' := trail pc stage
    cases pc <;> exact trail'
  · intro resp given error
    rw [at_next]
    exact answered resp given error

/-- The call goes on before it has answered an error. -/
theorem InCall.onward {answer : Option NewProxyResp} {pc : RegPc} {s₁ : State} {next : StreamPc}
    (call : InCall s₀ k np answer s) (stage : (s.streams k).pc = .registering s₀.nextReg pc)
    (notFlush : pc ≠ .flush none) (cfg : s₁.cfg = s.cfg) (ctl : s₁.ctl = s.ctl)
    (message : (s₁.regs s₀.nextReg).np = (s.regs s₀.nextReg).np)
    (trail : ∀ pc, next = .registering s₀.nextReg pc → Trail s₀ k np s₁ pc) :
    InCall s₀ k np answer (s₁.goto k next) := by
  refine call.goto cfg ctl message trail ?_
  intro resp given error
  exact absurd (call.unanswered stage notFlush resp given) error

theorem InCall.regStep {answer : Option NewProxyResp} {pc : RegPc} {input : Input}
    (call : InCall s₀ k np answer s) (stage : (s.streams k).pc = .registering s₀.nextReg pc)
    (move : regStep w k s₀.nextReg s pc input = some s') :
    InCall s₀ k np (pc.answer.or answer) s' := by
  have trail := call.stage pc stage
  have message : (s.regs s₀.nextReg).np = np := call.message
  have named : s.nameOf s₀.nextReg = np.proxyName := congrArg NewProxy.proxyName message
  rcases regStep_cases move with ⟨s₁, next, step, rfl⟩
  cases step with
  | taken _ used =>
      refine call.onward stage nofun rfl rfl rfl ?_
      intro pc same
      cases same
      rw [message]
      rw [named] at used
      exact ⟨nameInUse_ne_empty np, settled_of_inUse trail used⟩
  | reserved _ free =>
      refine call.onward stage nofun rfl rfl rfl ?_
      intro pc same
      cases same
      have proxies : s.proxies = s₀.proxies := congrArg Tables.proxies trail
      rw [named, proxies] at free
      rw [message]
      refine afterReserve_trail free ?_
      rw [named]
      change s.tables.reserve k np.proxyName s₀.nextReg = _
      rw [trail]
      rfl
  | config kind =>
      rcases trail with ⟨free, tables, noEncryption, noCompression, typed⟩
      refine call.onward stage nofun rfl rfl ?_ ?_
      · rw [setReg_regs_self]
      · intro pc same
        cases same
        rw [call.cfg, message]
        exact afterConfig_trail free tables noEncryption noCompression typed
  | portTaken refused =>
      rcases trail with ⟨free, tables, clears⟩
      rw [call.epoch, named] at refused
      refine call.onward stage nofun rfl rfl rfl ?_
      intro pc same
      cases same
      refine ⟨registerProxyPort_error_ne_empty refused, free, .inl ⟨tables, ?_⟩⟩
      rw [takesOver_iff free clears]
      exact registerProxyPort_refused tables refused
  | portHeld ok =>
      rcases trail with ⟨free, tables, clears⟩
      rw [call.epoch, named] at ok
      rw [call.epoch]
      refine call.onward stage nofun rfl rfl rfl ?_
      intro pc same
      cases same
      exact afterPort_trail free clears (registered_of_ok tables ok)
  | bind kind p addr attempt result =>
      rcases trail with ⟨free, clears, registered⟩
      refine call.onward stage nofun rfl rfl rfl ?_
      intro pc same
      cases same
      rw [message]
      exact afterBind_trail free clears registered
  | release kind p error =>
      rcases trail with ⟨nonempty, free, clears, registered⟩
      rw [call.epoch, named]
      refine call.onward stage nofun rfl rfl rfl ?_
      intro pc same
      cases same
      exact ⟨nonempty, free, undone_of_release free clears registered⟩
  | drop _ error =>
      rcases trail with ⟨nonempty, free, undone⟩
      rw [named, message]
      refine call.onward stage nofun rfl rfl rfl ?_
      intro pc same
      cases same
      exact ⟨nonempty, settled_of_drop free undone⟩
  | @reply resp serve _ _ sent =>
      rcases trySend_eq sent with ⟨out, rfl⟩
      cases serve with
      | none =>
          refine call.goto rfl rfl rfl ?_ ?_
          · intro pc same
            split at same
            · cases same
              exact trail.2
            · cases same
          · intro resp' given error
            refine ⟨trail.2, ?_⟩
            intro pc same
            split at same
            · cases same
              rfl
            · cases same
      | some served =>
          have fine : resp.error = "" := trail
          refine call.goto rfl rfl rfl ?_ ?_
          · intro pc same
            split at same
            · cases same
              trivial
            · cases same
              trivial
          · intro resp' given error
            have same : resp = resp' := Option.some.inj given
            rw [same] at fine
            exact absurd fine error
  | @flush serve _ =>
      cases serve with
      | none =>
          refine call.goto rfl rfl rfl nofun ?_
          intro resp given error
          exact ⟨(call.answered resp given error).1, nofun⟩
      | some served =>
          refine call.onward stage nofun rfl rfl rfl ?_
          intro pc same
          cases same
          trivial
  | late kind p =>
      refine call.onward stage nofun rfl rfl rfl ?_
      intro pc same
      cases same
      split <;> trivial
  | undoRelease kind p =>
      refine call.onward stage nofun rfl rfl rfl ?_
      intro pc same
      cases same
      trivial
  | undoClose closed =>
      refine call.onward stage nofun (closeProxy_view closed State.cfg fun _ _ _ _ _ => rfl)
        (closeProxy_ctl closed) (closeProxy_regs closed _).np ?_
      intro pc same
      split at same
      · cases same
      · cases same
        trivial
  | publish kind p =>
      refine call.onward stage nofun rfl rfl ?_ nofun
      change ((s.setReg s₀.nextReg _).regs s₀.nextReg).np = _
      rw [setReg_regs_self]

/-- The other tasks that move meanwhile change nothing of it. -/
theorem InCall.aside {answer : Option NewProxyResp} (call : InCall s₀ k np answer s)
    (side : Aside s s') (message : (s'.regs s₀.nextReg).np = (s.regs s₀.nextReg).np) :
    InCall s₀ k np answer s' := by
  have tables : s'.tables = s.tables := by
    unfold State.tables
    rw [side.proxies, side.shared, side.infos]
  constructor
  · exact side.cfg.trans call.cfg
  · have epoch := call.epoch
    rw [State.epochOf, ← side.ctl] at epoch
    exact epoch
  · exact message.trans call.message
  · intro pc stage
    rw [side.streams] at stage
    have trail := call.stage pc stage
    unfold Trail Registered Undone Settled at trail ⊢
    rw [tables]
    exact trail
  · intro resp given error
    rw [side.streams, Settled, tables]
    exact call.answered resp given error

theorem InCall.asideStep {answer : Option NewProxyResp} {a : Action}
    (call : InCall s₀ k np answer s) (side : a.isAside = true) (move : step w a s = some s') :
    InCall s₀ k np answer s' := by
  cases a with
  | writer c input =>
      rcases writerStep_aside move with ⟨out, rfl⟩
      refine call.aside ?_ rfl
      exact ⟨rfl, rfl, rfl, rfl, rfl, rfl, rfl, rfl, rfl, rfl, rfl, rfl, rfl, rfl⟩
  | listener r input =>
      have same : ∀ reg : Registration, reg.np = (s.regs r).np →
          (Function.update s.regs r reg s₀.nextReg).np = (s.regs s₀.nextReg).np := by
        intro reg np
        by_cases own : s₀.nextReg = r
        · rw [own, Function.update_self, np]
        · rw [Function.update_of_ne own]
      rcases listenerStep_aside move with ⟨aside, ⟨_, _, _, _, regs⟩ | regs | ⟨_, regs⟩⟩
      · refine call.aside aside ?_
        rw [regs]
        exact same _ rfl
      · refine call.aside aside ?_
        rw [regs]
      · refine call.aside aside ?_
        rw [regs]
        exact same _ rfl
  | bridge b input =>
      rcases bridgeStep_aside move with ⟨aside, regs⟩
      refine call.aside aside ?_
      rw [regs]
  | _ => cases side

/-- What is known holds all through the call. -/
theorem Calling.inCall {answer : Option NewProxyResp} (call : Calling w k s₀ answer s)
    (message : (s₀.streams k).pc = .entering np) : InCall s₀ k np answer s := by
  induction call with
  | entered stage alive =>
      rw [message] at stage
      cases stage
      unfold enterStep
      rw [alive]
      constructor
      · rfl
      · rfl
      · exact congrArg Registration.np (setReg_regs_self s₀ s₀.nextReg _)
      · intro pc stage
        simp only [Bool.false_eq_true, if_false, goto_streams_self] at stage
        cases stage
        rfl
      · nofun
  | own call stage move inductionHypothesis =>
      rcases Option.ite_none_right_eq_some.mp move with ⟨_, moved⟩
      rw [stage] at moved
      exact inductionHypothesis.regStep stage moved
  | aside call side move inductionHypothesis => exact inductionHypothesis.asideStep side move

end Call

/-- A call of `handle_new_proxy` that answers with an error leaves all the maps as they were exactly
when its message did not name a port already held under its name. -/
theorem rejection_changes_nothing_iff {w : World} {k : StreamId} {s₀ s : State} {np : NewProxy}
    {resp : NewProxyResp} (message : (s₀.streams k).pc = .entering np)
    (call : Calling w k s₀ (some resp) s) (error : resp.error ≠ "") :
    s.tables = s₀.tables ↔ ¬ s₀.takesOver k np :=
  ((call.inCall message).answered resp rfl error).1

/-! ## Calls that can be run -/

/-- One step of the call that starts at `s₀`, or of a task on the side. -/
def callStep (w : World) (k : StreamId) (s₀ : State) (a : Action)
    (now : Option NewProxyResp × State) : Option (Option NewProxyResp × State) :=
  match a, (now.2.streams k).pc with
  | .stream d input, .registering r pc =>
      if d = k ∧ r = s₀.nextReg then
        (step w (.stream k input) now.2).map fun s => (pc.answer.or now.1, s)
      else none
  | a, _ => if a.isAside then (step w a now.2).map fun s => (now.1, s) else none

theorem calling_of_callStep {w : World} {k : StreamId} {s₀ : State} {a : Action}
    {now after : Option NewProxyResp × State} (call : Calling w k s₀ now.1 now.2)
    (moved : callStep w k s₀ a now = some after) : Calling w k s₀ after.1 after.2 := by
  unfold callStep at moved
  split at moved
  · next stage =>
      rcases Option.ite_none_right_eq_some.mp moved with ⟨⟨_, rfl⟩, inner⟩
      rcases Option.map_eq_some_iff.mp inner with ⟨s, move, rfl⟩
      exact call.own stage move
  · rcases Option.ite_none_right_eq_some.mp moved with ⟨side, inner⟩
    rcases Option.map_eq_some_iff.mp inner with ⟨s, move, rfl⟩
    exact call.aside side move

theorem calling_of_execute {w : World} {k : StreamId} {s₀ : State} {actions : List Action}
    {now after : Option NewProxyResp × State} (call : Calling w k s₀ now.1 now.2)
    (done : System.execute (callStep w k s₀) actions now = some after) :
    Calling w k s₀ after.1 after.2 := by
  induction actions generalizing now with
  | nil =>
      cases done
      exact call
  | cons a rest inductionHypothesis =>
      rcases Option.bind_eq_some_iff.mp done with ⟨middle, moved, left⟩
      exact inductionHypothesis (calling_of_callStep call moved) left

/-- A call of the sample world whose answer is an error, with what it shows before and after. -/
def rejected (k : StreamId) (np : NewProxy) (actions : List Action) (check : State → State → Bool)
    (s₀ : State) : Bool :=
  match (s₀.streams k).pc with
  | .entering np' => decide (np' = np) && !s₀.tokenCancelled k &&
      (System.execute (callStep sampleWorld k s₀) actions (none, enterStep k np s₀)).any fun after =>
        match after.1 with
        | some resp => decide (resp.error ≠ "") && check s₀ after.2
        | none => false
  | _ => false

theorem calling_of_rejected {k : StreamId} {np : NewProxy} {actions : List Action}
    {check : State → State → Bool} {s₀ : State} (shown : rejected k np actions check s₀ = true) :
    (s₀.streams k).pc = .entering np ∧ ∃ resp s, Calling sampleWorld k s₀ (some resp) s ∧
      resp.error ≠ "" ∧ check s₀ s = true := by
  unfold rejected at shown
  split at shown
  · next np' stage =>
      simp only [Bool.and_eq_true, decide_eq_true_eq, Bool.not_eq_true'] at shown
      rcases shown with ⟨⟨rfl, alive⟩, ran⟩
      refine ⟨stage, ?_⟩
      rcases (Option.any_eq_true _ _).mp ran with ⟨after, done, passed⟩
      have call := calling_of_execute (.entered stage alive) done
      split at passed
      · next resp answered =>
          simp only [Bool.and_eq_true, decide_eq_true_eq] at passed
          rw [answered] at call
          exact ⟨resp, after.2, call, passed.1, passed.2⟩
      · cases passed
  · cases shown

/-- The second registration of a live name is refused and changes nothing. -/
theorem rejection_changes_nothing_name_in_use :
    ∃ s₀ s resp, (server sampleWorld).Reachable s₀ ∧
      Calling sampleWorld 1 s₀ (some resp) s ∧ resp.error ≠ "" ∧ s.tables = s₀.tables := by
  let np : NewProxy := { proxyName := "web", proxyType := "tcp", remotePort := 6002 }
  rcases sample_reaches
    (oneProxyRun ++ [.stream 1 (.frame (some (TYPE_NEW_PROXY, (sampleProxy 6002).toVec)))])
    (rejected 1 np [.stream 1 .go, .stream 1 (.via .queued)] fun s₀ _ =>
      decide ("web" ∈ s₀.proxies 1)) (by decide +kernel) with ⟨s₀, run, shown⟩
  rcases calling_of_rejected shown with ⟨stage, resp, s, call, error, used⟩
  refine ⟨s₀, s, resp, run, call, error, (rejection_changes_nothing_iff stage call error).mpr ?_⟩
  rintro ⟨free, _⟩
  exact free (of_decide_eq_true used)

/-- A second client asks for the name and the port of the first one. Its bind fails, as the port is
in use, and the first client's reservation is gone. -/
theorem rejection_frees_foreign_port :
    ∃ s₀ s resp, (server sampleWorld).Reachable s₀ ∧
      Calling sampleWorld 2 s₀ (some resp) s ∧ resp.error ≠ "" ∧ s₀.live 1 "web" .tcp 6001 ∧
      s₀.portHolder (s₀.epochOf 1) .tcp 6001 = some "web" ∧
      s.portHolder (s₀.epochOf 1) .tcp 6001 = none := by
  let np : NewProxy := { proxyName := "web", proxyType := "tcp", remotePort := 6001 }
  let refusals : List Action :=
    List.replicate bindAttempts (.stream 2 (.bound (.addrInUse "Address already in use")))
  rcases sample_reaches (oneProxyRun ++ loginRun 2 "two" ++
      [.stream 2 (.frame (some (TYPE_NEW_PROXY, (sampleProxy 6001).toVec)))])
    (rejected 2 np ([.stream 2 .go, .stream 2 .go, .stream 2 .go] ++ refusals ++
      [.stream 2 .go, .stream 2 .go, .stream 2 (.via .queued)]) fun s₀ s =>
        decide (s₀.live 1 "web" .tcp 6001 ∧
          s₀.portHolder (s₀.epochOf 1) .tcp 6001 = some "web" ∧
          s.portHolder (s₀.epochOf 1) .tcp 6001 = none)) (by decide +kernel) with ⟨s₀, run, shown⟩
  rcases calling_of_rejected shown with ⟨_, resp, s, call, error, checked⟩
  exact ⟨s₀, s, resp, run, call, error, of_decide_eq_true checked⟩

end Remgr.Frps.Server
