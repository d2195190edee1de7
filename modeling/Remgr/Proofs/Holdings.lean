/-
Module: Remgr.Proofs.Holdings
Purpose: The server's proxies seen as tenancies: a control is a client, a registration an
  acquisition, a port of one proxy type at one run of the server a resource, `proxy_infos` the
  records, every call of `teardown` a sweeper, and a call of `close_proxy` a removal. Every step of
  the server is a step of the tenancies or leaves them as they are.
Trusted boundary: none
Main exports: tenancy, closeProxy_step, closeProxy_returns, step_tracks, server_sound
-/
import Remgr.Proofs.ServerShape
import Remgr.Lib.Tenancy

namespace Remgr.Frps.Server

open Remgr.Lib

/-! ## The view -/

/-- What a registration has got hold of at each stage. A registration that only has its error left
to report is over. -/
def RegPc.phase : RegPc → Option (Phase (ProxyType × UInt16))
  | .reserve => some .entered
  | .config _ | .port _ _ _ | .drop _ => some .named
  | .bind kind p _ _ | .release kind p _ | .late kind p => some (.held (kind, p))
  | .reply _ serve | .flush serve => serve.map .held
  | .undoRelease kind p => some (.undoing (kind, p))
  | .undoClose => some .undone
  | .publish kind p => some (.passed (kind, p))

/-- The registration a stream is in the middle of. -/
def flightOf (regs : RegId → Registration) :
    StreamPc → Option (Flight String (ProxyType × UInt16))
  | .registering r pc => pc.phase.map fun phase => ⟨r, (regs r).np.proxyName, phase⟩
  | _ => none

/-- What a listener serves or has served. -/
def Listener.published : Listener → Option (ProxyType × UInt16)
  | .unborn => none
  | .running kind port | .exited kind port => some (kind, port)

def Listener.isRunning : Listener → Bool
  | .running _ _ => true
  | _ => false

/-- What an info says about its proxy: where it listens, and for which user. -/
def ProxyInfo.told (info : ProxyInfo) : (ProxyType × UInt16) × String :=
  ((info.proxyType, info.remotePort), info.user)

/-- The names a call of `teardown` has collected and not closed yet. -/
def TeardownPc.names : TeardownPc → Option (List String)
  | .close names => some names
  | .remove | .offline => some []
  | _ => none

def sweptNames (current : Option (StreamId × TeardownPc)) : Option (StreamId × List String) :=
  current.bind fun call => call.2.names.map fun names => (call.1, names)

/-- What `close_proxy` takes out next. -/
def ClosePc.phase : ClosePc → RemovalPhase (ProxyType × UInt16)
  | .info => .record
  | .port kind p => .resource (kind, p)
  | .unlock => .over

def Closing.removal (call : Closing) : Removal String (ProxyType × UInt16) :=
  ⟨call.tk, call.name, call.pc.phase⟩

abbrev Holdings := Tenancy StreamId String (ProxyType × UInt16) Epoch String Caller

abbrev HoldingOp := Tenancy.Op StreamId String (ProxyType × UInt16) Epoch String Caller

def tenancy (s : State) : Holdings where
  next := s.nextReg
  joined c := (s.ctl c).created
  site c := (s.ctl c).epoch
  label c := (s.ctl c).user
  closed := s.tokenCancelled
  entry key := (s.proxies key.1).lookup key.2
  removal c := (s.closing c).map Closing.removal
  flight c := flightOf s.regs (s.streams c).pc
  home r := ((s.regs r).control, (s.regs r).np.proxyName)
  revoked r := (s.regs r).cancelled
  published r := (s.regs r).listener.published
  running r := (s.regs r).listener.isRunning
  resource key := ((s.shared key.1).ports key.2.1).lookup key.2.2
  record name := (s.proxyInfos.lookup name).map ProxyInfo.told
  sweeps x := sweptNames (s.sweeps x).current
  swept c := !(s.ctl c).online

/-! ## How the updates of the state look through the view -/

/-- Inserting a key, as a fact about lookups. -/
theorem lookup_insert_eq {κ ν : Type} [DecidableEq κ] (m : Map κ ν) (key : κ) (value : ν)
    (other : κ) :
    (m.insert key value).lookup other = if other = key then some value else m.lookup other := by
  by_cases same : other = key
  · subst same
    simp
  · simp [same, Finmap.lookup_insert_of_ne _ same]

/-- Erasing a key, as a fact about lookups. -/
theorem lookup_erase_eq {κ ν : Type} [DecidableEq κ] (m : Map κ ν) (key other : κ) :
    (m.erase key).lookup other = if other = key then none else m.lookup other := by
  by_cases same : other = key
  · subst same
    simp
  · simp [same, Finmap.lookup_erase_ne same]

theorem tenancy_setStream (s : State) (k : StreamId) (stream : Stream) :
    tenancy (s.setStream k stream) = { tenancy s with
      flight := Function.update (tenancy s).flight k (flightOf s.regs stream.pc) } := by
  have flights : (fun c => flightOf s.regs ((s.setStream k stream).streams c).pc) =
      Function.update (fun c => flightOf s.regs (s.streams c).pc) k (flightOf s.regs stream.pc) := by
    funext c
    by_cases same : c = k
    · subst same
      simp [State.setStream]
    · simp [State.setStream, same]
  exact congrArg (fun flight => ({ tenancy s with flight := flight } : Holdings)) flights

theorem tenancy_goto (s : State) (k : StreamId) (pc : StreamPc) :
    tenancy (s.goto k pc) = { tenancy s with
      flight := Function.update (tenancy s).flight k (flightOf s.regs pc) } :=
  tenancy_setStream s k _

theorem tenancy_setSweep (s : State) (x : Caller) (sweep : Sweep) :
    tenancy (s.setSweep x sweep) = { tenancy s with
      sweeps := Function.update (tenancy s).sweeps x (sweptNames sweep.current) } := by
  have sweeps : (fun y => sweptNames ((s.setSweep x sweep).sweeps y).current) =
      Function.update (fun y => sweptNames (s.sweeps y).current) x (sweptNames sweep.current) := by
    funext y
    by_cases same : y = x
    · subst same
      simp [State.setSweep]
    · simp [State.setSweep, same]
  exact congrArg (fun sweeps => ({ tenancy s with sweeps := sweeps } : Holdings)) sweeps

theorem tenancy_setProxies (s : State) (c : StreamId) (name : String) (value : Option RegId)
    (proxies : Map String RegId)
    (entries : ∀ m, proxies.lookup m = if m = name then value else (s.proxies c).lookup m) :
    tenancy (s.setProxies c proxies) = { tenancy s with
      entry := Function.update (tenancy s).entry (c, name) value } := by
  have entry : (fun key : StreamId × String => ((s.setProxies c proxies).proxies key.1).lookup key.2) =
      Function.update (tenancy s).entry (c, name) value := by
    funext key
    rcases key with ⟨d, m⟩
    by_cases sameControl : d = c
    · subst sameControl
      by_cases sameName : m = name
      · subst sameName
        simp [State.setProxies, entries]
      · simp [State.setProxies, entries, sameName, tenancy]
    · simp [State.setProxies, sameControl, tenancy]
  exact congrArg (fun entry => ({ tenancy s with entry := entry } : Holdings)) entry

theorem tenancy_dropReservation (s : State) (c : StreamId) (name : String) :
    tenancy (s.dropReservation c name) = { tenancy s with
      entry := Function.update (tenancy s).entry (c, name) none } :=
  tenancy_setProxies s c name none _ (lookup_erase_eq _ name)

theorem tenancy_setClosing (s : State) (c : StreamId) (closing : Option Closing) :
    tenancy (s.setClosing c closing) = { tenancy s with
      removal := Function.update (tenancy s).removal c (closing.map Closing.removal) } := by
  have removal : (fun d => ((s.setClosing c closing).closing d).map Closing.removal) =
      Function.update (tenancy s).removal c (closing.map Closing.removal) := by
    funext d
    by_cases same : d = c
    · subst same
      simp [State.setClosing]
    · simp [State.setClosing, same, tenancy]
  exact congrArg (fun removal => ({ tenancy s with removal := removal } : Holdings)) removal

/-- A registration whose message and control stay as they are: only its token and its listener can
look different. -/
theorem tenancy_setReg (s : State) (r : RegId) (reg : Registration)
    (control : reg.control = (s.regs r).control) (np : reg.np = (s.regs r).np) :
    tenancy (s.setReg r reg) = { tenancy s with
      revoked := Function.update (tenancy s).revoked r reg.cancelled
      published := Function.update (tenancy s).published r reg.listener.published
      running := Function.update (tenancy s).running r reg.listener.isRunning } := by
  have names : ∀ q, ((s.setReg r reg).regs q).np = (s.regs q).np := by
    intro q
    by_cases same : q = r
    · subst same
      simp [State.setReg, np]
    · simp [State.setReg, same]
  have controls : ∀ q, ((s.setReg r reg).regs q).control = (s.regs q).control := by
    intro q
    by_cases same : q = r
    · subst same
      simp [State.setReg, control]
    · simp [State.setReg, same]
  have field {β : Type} (get : Registration → β) :
      (fun q => get ((s.setReg r reg).regs q)) =
        Function.update (fun q => get (s.regs q)) r (get reg) := by
    funext q
    by_cases same : q = r
    · subst same
      simp [State.setReg]
    · simp [State.setReg, same]
  have flights : ∀ pc, flightOf (s.setReg r reg).regs pc = flightOf s.regs pc := by
    intro pc
    cases pc with
    | registering q pc => simp only [flightOf, names q]
    | _ => rfl
  unfold tenancy
  congr 1
  · exact funext fun c => flights _
  · exact funext fun q => by rw [controls q, names q]
  · exact field fun reg => reg.cancelled
  · exact field fun reg => reg.listener.published
  · exact field fun reg => reg.listener.isRunning

theorem tenancy_setControl (s : State) (c : StreamId) (control : Control) :
    tenancy (s.setControl c control) = { tenancy s with
      joined := Function.update (tenancy s).joined c control.created
      site := Function.update (tenancy s).site c control.epoch
      label := Function.update (tenancy s).label c control.user
      closed := Function.update (tenancy s).closed c
        (control.cancelled || (s.shared control.epoch).runCancelled)
      swept := Function.update (tenancy s).swept c (!control.online) } := by
  have field {β : Type} (get : Control → β) :
      (fun d => get ((s.setControl c control).ctl d)) =
        Function.update (fun d => get (s.ctl d)) c (get control) := by
    funext d
    by_cases same : d = c
    · subst same
      simp [State.setControl]
    · simp [State.setControl, same]
  unfold tenancy
  congr 1
  · exact field fun control => control.created
  · exact field fun control => control.epoch
  · exact field fun control => control.user
  · exact field fun control => control.cancelled || (s.shared control.epoch).runCancelled
  · exact field fun control => !control.online

theorem Shared.ports_setPorts (shared : Shared) (kind other : ProxyType) (m : Map UInt16 String) :
    (shared.setPorts kind m).ports other = if other = kind then m else shared.ports other := by
  cases kind <;> cases other <;> rfl

/-- Another `ServerShared` of a run, not cancelled otherwise than before: only ports can look
different. -/
theorem tenancy_setShared (s : State) (e : Epoch) (shared : Shared)
    (cut : shared.runCancelled = (s.shared e).runCancelled) :
    tenancy (s.setShared e shared) = { tenancy s with
      resource := fun key =>
        if key.1 = e then (shared.ports key.2.1).lookup key.2.2 else (tenancy s).resource key } := by
  have closed : (s.setShared e shared).tokenCancelled = s.tokenCancelled := by
    funext c
    by_cases same : (s.ctl c).epoch = e
    · subst same
      simp [State.tokenCancelled, State.setShared, cut]
    · simp [State.tokenCancelled, State.setShared, same]
  have resource : (tenancy (s.setShared e shared)).resource = fun key =>
      if key.1 = e then (shared.ports key.2.1).lookup key.2.2 else (tenancy s).resource key := by
    funext key
    rcases key with ⟨e', kind, port⟩
    by_cases same : e' = e
    · subst same
      simp [tenancy, State.setShared]
    · simp [tenancy, State.setShared, same]
  rw [← resource]
  unfold tenancy
  rw [closed]
  rfl

/-- The list of controls is not seen. -/
theorem tenancy_setControls (s : State) (e : Epoch) (controls : Map String StreamId) :
    tenancy (s.setShared e { s.shared e with controls := controls }) = tenancy s := by
  rw [tenancy_setShared s e { s.shared e with controls := controls } rfl]
  have resource : (fun key : Epoch × ProxyType × UInt16 => if key.1 = e then
      (({ s.shared e with controls := controls } : Shared).ports key.2.1).lookup key.2.2
      else (tenancy s).resource key) = (tenancy s).resource := by
    funext key
    rcases key with ⟨e', kind, p⟩
    by_cases same : e' = e
    · subst same
      simp only [if_true]
      cases kind <;> rfl
    · simp [same]
  rw [resource]

/-- New ports of one type at one run. -/
theorem tenancy_setPorts (s : State) (e : Epoch) (kind : ProxyType) (port : UInt16)
    (value : Option String) (ports : Map UInt16 String)
    (entries : ∀ p, ports.lookup p =
      if p = port then value else ((s.shared e).ports kind).lookup p) :
    tenancy (s.setShared e ((s.shared e).setPorts kind ports)) = { tenancy s with
      resource := Function.update (tenancy s).resource (e, kind, port) value } := by
  rw [tenancy_setShared _ _ _ (by cases kind <;> rfl)]
  refine congrArg (fun resource => ({ tenancy s with resource := resource } : Holdings)) ?_
  funext key
  rcases key with ⟨e', kind', p⟩
  by_cases sameRun : e' = e
  · subst sameRun
    by_cases sameKind : kind' = kind
    · subst sameKind
      by_cases samePort : p = port
      · subst samePort
        simp [Shared.ports_setPorts, entries]
      · simp [Shared.ports_setPorts, entries, samePort, tenancy]
    · simp [Shared.ports_setPorts, sameKind, tenancy]
  · simp [sameRun]

theorem tenancy_releaseProxyPort (s : State) (e : Epoch) (kind : ProxyType) (port : UInt16)
    (name : String) :
    tenancy (s.releaseProxyPort e kind port name) = { tenancy s with
      resource := Tenancy.release (tenancy s).resource (e, kind, port) name } := by
  unfold State.releaseProxyPort Shared.releaseProxyPort Tenancy.release
  by_cases owned : ((s.shared e).ports kind).lookup port = some name
  · have ownedView : (tenancy s).resource (e, kind, port) = some name := owned
    rw [if_pos owned, if_pos ownedView]
    exact tenancy_setPorts s e kind port none _ (lookup_erase_eq _ port)
  · have ownedView : (tenancy s).resource (e, kind, port) ≠ some name := owned
    rw [if_neg owned, if_neg ownedView]
    have unchanged : s.setShared e (s.shared e) = s := by
      simp [State.setShared]
    rw [unchanged]

theorem tenancy_revoke (s : State) (r : RegId) :
    tenancy (s.setReg r { s.regs r with cancelled := true }) = { tenancy s with
      revoked := Function.update (tenancy s).revoked r true } := by
  refine (tenancy_setReg s r { s.regs r with cancelled := true } rfl rfl).trans ?_
  refine congrArg₂ (fun published running => ({ tenancy s with
    revoked := Function.update (tenancy s).revoked r true
    published := published
    running := running } : Holdings)) ?_ ?_
  · exact Function.update_eq_self r _
  · exact Function.update_eq_self r _

/-- New records: those of one name differ. -/
theorem tenancy_setInfos (s : State) (name : String) (value : Option ProxyInfo)
    (infos : Map String ProxyInfo)
    (entries : ∀ m, infos.lookup m = if m = name then value else s.proxyInfos.lookup m) :
    tenancy { s with proxyInfos := infos } = { tenancy s with
      record := Function.update (tenancy s).record name (value.map ProxyInfo.told) } := by
  have record : (tenancy { s with proxyInfos := infos }).record =
      Function.update (tenancy s).record name (value.map ProxyInfo.told) := by
    funext m
    by_cases same : m = name
    · subst same
      simp [tenancy, entries]
    · simp [tenancy, entries, same]
  exact congrArg (fun record => ({ tenancy s with record := record } : Holdings)) record

/-- The removal the view shows for a call of `close_proxy`. -/
theorem tenancy_removal {s : State} {c : StreamId} {call : Closing}
    (held : s.closing c = some call) : (tenancy s).removal c = some call.removal := by
  simp only [tenancy, held, Option.map_some]

theorem tenancy_unlocked {s : State} {c : StreamId} (free : s.closing c = none) :
    (tenancy s).removal c = none := by
  simp only [tenancy, free, Option.map_none]

/-- A registration noted without a change to what the view shows of it. -/
theorem tenancy_setReg_same (s : State) (r : RegId) (reg : Registration)
    (control : reg.control = (s.regs r).control) (np : reg.np = (s.regs r).np)
    (cancelled : reg.cancelled = (s.regs r).cancelled)
    (listener : reg.listener = (s.regs r).listener) : tenancy (s.setReg r reg) = tenancy s := by
  rw [tenancy_setReg s r reg control np, cancelled, listener]
  have revoked : Function.update (tenancy s).revoked r (s.regs r).cancelled =
      (tenancy s).revoked := Function.update_eq_self r _
  have published : Function.update (tenancy s).published r (s.regs r).listener.published =
      (tenancy s).published := Function.update_eq_self r _
  have running : Function.update (tenancy s).running r (s.regs r).listener.isRunning =
      (tenancy s).running := Function.update_eq_self r _
  rw [revoked, published, running]

/-- The same after another update, whose own view is known. -/
theorem tenancy_goto_of {s : State} {k : StreamId} {pc : StreamPc} {t : Holdings}
    {flight : Option (Flight String (ProxyType × UInt16))} (view : tenancy s = t)
    (shown : flightOf s.regs pc = flight) :
    tenancy (s.goto k pc) = { t with flight := Function.update t.flight k flight } := by
  subst view shown
  exact tenancy_goto s k pc

/-- A stream goes on without any change to the registration it is in. -/
theorem tenancy_setStream_same (s : State) (k : StreamId) (stream : Stream)
    (same : flightOf s.regs stream.pc = flightOf s.regs (s.streams k).pc) :
    tenancy (s.setStream k stream) = tenancy s := by
  rw [tenancy_setStream, same]
  have flight : Function.update (tenancy s).flight k (flightOf s.regs (s.streams k).pc) =
      (tenancy s).flight := Function.update_eq_self k _
  rw [flight]

theorem tenancy_goto_same (s : State) (k : StreamId) (pc : StreamPc)
    (same : flightOf s.regs pc = flightOf s.regs (s.streams k).pc) :
    tenancy (s.goto k pc) = tenancy s :=
  tenancy_setStream_same s k _ same

/-- A caller of `teardown` goes on without any change to the names it has left. -/
theorem tenancy_setSweep_same (s : State) (x : Caller) (sweep : Sweep)
    (same : sweptNames sweep.current = sweptNames (s.sweeps x).current) :
    tenancy (s.setSweep x sweep) = tenancy s := by
  rw [tenancy_setSweep, same]
  have sweeps : Function.update (tenancy s).sweeps x (sweptNames (s.sweeps x).current) =
      (tenancy s).sweeps := Function.update_eq_self x _
  rw [sweeps]

/-! ## Steps -/

/-- Which action a step of the tenancies comes from, for the kinds that matter later: a control
joins with its login, a name is reserved by the first lock of `handle_new_proxy`, and it is removed
inside `teardown` or by the reader, which is then past any registration or undoes one. -/
def Explains (s : State) (a : Action) : HoldingOp → Prop
  | .settle c _ _ _ => ∃ input, a = .stream c input
  | .reserve c => ∃ input r, a = .stream c input ∧ (s.streams c).pc = .registering r .reserve ∧
      s.nameOf r ∉ s.proxies c
  | .remove c name =>
      (∃ x input rest, a = .sweep x input ∧
        (s.sweeps x).current = some (c, .close (name :: rest))) ∨
      ∃ input, a = .stream c input ∧
        ∀ r pc, (s.streams c).pc = .registering r pc → pc = .undoClose
  | _ => True

/-- A step of the server is one of the tenancies, or invisible. -/
def Tracks (s : State) (a : Action) (s' : State) : Prop :=
  tenancy s' = tenancy s ∨ ∃ op, Explains s a op ∧ Tenancy.Step (tenancy s) op (tenancy s')

/-- A step of the tenancies, recognised by the view of the state after it. -/
theorem Tracks.step {s s' : State} {a : Action} {op : HoldingOp} {t : Holdings}
    (view : tenancy s' = t) (move : Tenancy.Step (tenancy s) op t) (explained : Explains s a op) :
    Tracks s a s' := by
  subst view
  exact .inr ⟨op, explained, move⟩

/-- A step of `close_proxy` that does not return removes the name, or goes on removing it. -/
theorem closeProxy_step {s s₁ : State} {x : Closer} {c : StreamId} {name : String}
    (closed : s.closeProxy x c name = some (s₁, false)) :
    ∃ op, (op = .remove c name ∧ s.closing c = none ∨ op = .strike c ∨ op = .free c) ∧
      Tenancy.Step (tenancy s) op (tenancy s₁) := by
  cases closeProxy_cases closed with
  | @removed tk free stored =>
      have dropped := tenancy_setProxies s c name none ((s.proxies c).erase name)
        (lookup_erase_eq _ name)
      have revoked := tenancy_revoke (s.setProxies c ((s.proxies c).erase name)) tk
      rw [dropped] at revoked
      refine ⟨.remove c name, .inl ⟨rfl, free⟩, ?_⟩
      rw [tenancy_setClosing]
      change (tenancy ((s.setProxies c ((s.proxies c).erase name)).setReg tk
        { s.regs tk with cancelled := true })) = _ at revoked
      rw [revoked]
      exact .remove (tenancy_unlocked free) stored
  | @unknown tk held missing =>
      have recorded : (tenancy s).record name = none := by
        simp only [tenancy, missing, Option.map_none]
      have same : Function.update (tenancy s).record name none = (tenancy s).record :=
        Function.update_eq_self_iff.mpr recorded.symm
      have strikes := Tenancy.Step.strike (tenancy_removal held)
      rw [same, recorded] at strikes
      refine ⟨.strike c, .inr (.inl rfl), ?_⟩
      rw [tenancy_setClosing]
      exact strikes
  | @told tk info held found =>
      have recorded : (tenancy s).record name = some info.told := by
        simp only [tenancy, found, Option.map_some]
      have strikes := Tenancy.Step.strike (tenancy_removal held)
      rw [recorded] at strikes
      refine ⟨.strike c, .inr (.inl rfl), ?_⟩
      rw [tenancy_setClosing, tenancy_setInfos s name none _ (lookup_erase_eq _ name)]
      exact strikes
  | released held =>
      refine ⟨.free c, .inr (.inr rfl), ?_⟩
      rw [tenancy_setClosing, tenancy_releaseProxyPort]
      exact .free (tenancy_removal held)

/-- When `close_proxy` returns, the name is out and the removal over. -/
theorem closeProxy_returns {s s₁ : State} {x : Closer} {c : StreamId} {name : String}
    (sound : (tenancy s).Sound) (closed : s.closeProxy x c name = some (s₁, true)) :
    (tenancy s).entry (c, name) = none ∧
      (∀ ⦃r n phase⦄, (tenancy s).removal c = some ⟨r, n, phase⟩ → phase = .over) ∧
      tenancy s₁ = { tenancy s with removal := Function.update (tenancy s).removal c none } := by
  cases closeProxy_cases closed with
  | absent free missing =>
      have unlocked := tenancy_unlocked free
      refine ⟨missing, ?_, ?_⟩
      · intro r n phase removing
        rw [unlocked] at removing
        cases removing
      · rw [Function.update_eq_self_iff.mpr unlocked.symm]
  | @returned tk held =>
      have removing := tenancy_removal held
      refine ⟨sound.removal_entry removing, ?_, tenancy_setClosing s c none⟩
      intro r n phase removing'
      rw [removing] at removing'
      cases removing'
      rfl

/-- A step of `close_proxy` that does not return, whose task stays where it is. -/
theorem Tracks.close {s s₁ s' : State} {a : Action} {x : Closer} {c : StreamId} {name : String}
    (closed : s.closeProxy x c name = some (s₁, false)) (view : tenancy s' = tenancy s₁)
    (explained : Explains s a (.remove c name)) : Tracks s a s' := by
  rcases closeProxy_step closed with ⟨op, kind, move⟩
  rw [← view] at move
  refine .inr ⟨op, ?_, move⟩
  rcases kind with ⟨rfl, _⟩ | rfl | rfl
  · exact explained
  · trivial
  · trivial

/-- The flight the view shows for a registering stream. -/
theorem tenancy_flight {s : State} {k : StreamId} {r : RegId} {pc : RegPc}
    {phase : Phase (ProxyType × UInt16)} (stage : (s.streams k).pc = .registering r pc)
    (shown : pc.phase = some phase) :
    (tenancy s).flight k = some ⟨r, s.nameOf r, phase⟩ := by
  simp only [tenancy, stage, flightOf, shown, Option.map_some]
  rfl

/-- A name is reserved when no proxy of the control has it. -/
theorem reserved_tracks {s : State} {k : StreamId} {r : RegId} {input : Input}
    (stage : (s.streams k).pc = .registering r .reserve) (unlocked : s.closing k = none)
    (free : s.nameOf r ∉ s.proxies k) :
    Tracks s (.stream k input) ((s.setProxies k ((s.proxies k).insert (s.nameOf r) r)).goto k
      (.registering r (afterReserve (s.regs r).np))) := by
  have inserted := tenancy_setProxies s k (s.nameOf r) (some r)
    ((s.proxies k).insert (s.nameOf r) r) (lookup_insert_eq _ _ _)
  have named : flightOf s.regs (.registering r (afterReserve (s.regs r).np)) =
      some ⟨r, s.nameOf r, .named⟩ := by
    unfold afterReserve
    split
    · rfl
    · split <;> rfl
  exact .step (tenancy_goto_of inserted named)
    (.reserve (tenancy_flight stage rfl) (tenancy_unlocked unlocked)
      (Finmap.lookup_eq_none.mpr free))
    ⟨input, r, rfl, stage, free⟩

/-- Registering a port takes it, or finds it taken under the same name. -/
theorem portHeld_tracks {s : State} {a : Action} {w : World} {k : StreamId} {r : RegId}
    {kind : ProxyType} {p : UInt16} {bindAddr : String} {shared : Shared}
    (stage : (s.streams k).pc = .registering r (.port kind p bindAddr))
    (registered : (s.shared (s.epochOf k)).registerProxyPort kind p (s.nameOf r) = .ok shared) :
    Tracks s a ((s.setShared (s.epochOf k) shared).goto k
      (.registering r (afterPort w kind p bindAddr))) := by
  have flight := tenancy_flight stage rfl
  have held : flightOf s.regs (.registering r (afterPort w kind p bindAddr)) =
      some ⟨r, s.nameOf r, .held (kind, p)⟩ := by
    unfold afterPort
    split <;> rfl
  have shown : (tenancy s).resource ((tenancy s).site k, kind, p) =
      ((s.shared (s.epochOf k)).ports kind).lookup p := rfl
  unfold Shared.registerProxyPort at registered
  cases holder : ((s.shared (s.epochOf k)).ports kind).lookup p with
  | some existing =>
      simp only [holder] at registered
      split at registered
      · cases registered
      · next own =>
          -- nothing is inserted, but the port now counts as this registration's
          cases registered
          have own := not_not.mp own
          subst own
          have unchanged : s.setShared (s.epochOf k) (s.shared (s.epochOf k)) = s := by
            simp [State.setShared]
          have same : (tenancy s).resource =
              Function.update (tenancy s).resource ((tenancy s).site k, kind, p)
                (some (s.nameOf r)) :=
            (Function.update_eq_self_iff.mpr (shown.trans holder).symm).symm
          rw [unchanged]
          refine .step ((tenancy_goto_of rfl held).trans ?_)
            (.take flight (.inr (shown.trans holder))) trivial
          exact congrArg (fun resource => ({ tenancy s with
            resource := resource
            flight := Function.update (tenancy s).flight k
              (some ⟨r, s.nameOf r, .held (kind, p)⟩) } : Holdings)) same
  | none =>
      simp only [holder] at registered
      cases registered
      have inserted := tenancy_setPorts s (s.epochOf k) kind p (some (s.nameOf r))
        (((s.shared (s.epochOf k)).ports kind).insert p (s.nameOf r)) (lookup_insert_eq _ _ _)
      exact .step (tenancy_goto_of inserted held)
        (.take flight (.inl (shown.trans holder))) trivial

/-- `set_proxy` and the spawn publish the registration. -/
theorem publish_tracks {s : State} {a : Action} {k : StreamId} {r : RegId} {kind : ProxyType}
    {p : UInt16} (stage : (s.streams k).pc = .registering r (.publish kind p)) :
    Tracks s a (s.publish k r kind p) := by
  let info : ProxyInfo :=
    { proxyName := s.nameOf r, proxyType := kind, remotePort := p, user := (s.ctl k).user }
  have recorded : tenancy (s.setProxy info) = { tenancy s with
      record := Function.update (tenancy s).record (s.nameOf r)
        (some ((kind, p), (s.ctl k).user)) } :=
    tenancy_setInfos s (s.nameOf r) (some info) _ (lookup_insert_eq _ _ _)
  have spawned := tenancy_setReg (s.setProxy info) r
    { s.regs r with listener := .running kind p } rfl rfl
  rw [recorded] at spawned
  refine .step ((tenancy_goto_of spawned rfl).trans ?_) (.publish (tenancy_flight stage rfl)) trivial
  have revoked : Function.update (tenancy s).revoked r (s.regs r).cancelled =
      (tenancy s).revoked := Function.update_eq_self r _
  exact congrArg (fun revoked => ({ tenancy s with
    record := Function.update (tenancy s).record (s.nameOf r) (some ((kind, p), (s.ctl k).user))
    revoked := revoked
    published := Function.update (tenancy s).published r (some (kind, p))
    running := Function.update (tenancy s).running r true
    flight := Function.update (tenancy s).flight k none } : Holdings)) revoked

theorem regStep_tracks {s s' : State} {w : World} {k : StreamId} {r : RegId} {pc : RegPc}
    {input : Input} (sound : (tenancy s).Sound) (stage : (s.streams k).pc = .registering r pc)
    (move : regStep w k r s pc input = some s') : Tracks s (.stream k input) s' := by
  rcases regStep_cases move with ⟨s₁, next, call, rfl⟩
  cases call with
  | taken _ inUse =>
      refine .step (tenancy_goto s k _) (.refuse (tenancy_flight stage rfl) ?_) trivial
      exact Option.isSome_iff_ne_none.mp (Finmap.lookup_isSome.mpr inUse)
  | reserved unlocked free => exact reserved_tracks stage unlocked free
  | config kind =>
      have noted := tenancy_setReg_same s r { s.regs r with cfg := some s.cfg } rfl rfl rfl rfl
      refine .inl ((tenancy_goto_same _ k _ ?_).trans noted)
      have stage' : ((s.setReg r { s.regs r with cfg := some s.cfg }).streams k).pc =
          .registering r (.config kind) := stage
      rw [stage']
      unfold afterConfig
      split
      · rfl
      · split <;> rfl
  | portTaken refused => exact .inl (tenancy_goto_same s k _ (by rw [stage]; rfl))
  | portHeld registered => exact portHeld_tracks stage registered
  | bind kind p addr attempt result =>
      refine .inl (tenancy_goto_same s k _ ?_)
      rw [stage]
      unfold afterBind
      split
      · rfl
      · split <;> rfl
      · rfl
  | release kind p error =>
      exact .step
        (tenancy_goto_of (tenancy_releaseProxyPort s (s.epochOf k) kind p (s.nameOf r)) rfl)
        (.giveBack (tenancy_flight stage rfl)) trivial
  | drop unlocked error =>
      exact .step (tenancy_goto_of (tenancy_dropReservation s k (s.nameOf r)) rfl)
        (.drop (tenancy_flight stage rfl) (tenancy_unlocked unlocked)) trivial
  | @reply resp serve _ _ sent =>
      rcases trySend_eq sent with ⟨out, rfl⟩
      refine .inl (tenancy_goto_same (s.setOut k out) k _ ?_)
      have stage' : ((s.setOut k out).streams k).pc = .registering r (.reply resp serve) := stage
      rw [stage']
      cases serve <;> split <;> rfl
  | @flush serve _ =>
      refine .inl (tenancy_goto_same s k _ ?_)
      rw [stage]
      cases serve <;> rfl
  | late kind p =>
      have cut : s.ptkCancelled r = (tenancy s).cancelled r := rfl
      refine .step (tenancy_goto_of rfl ?_) (.check (tenancy_flight stage rfl)) trivial
      rw [cut]
      split <;> rfl
  | undoRelease kind p =>
      exact .step
        (tenancy_goto_of (tenancy_releaseProxyPort s (s.epochOf k) kind p (s.nameOf r)) rfl)
        (.undo (tenancy_flight stage rfl)) trivial
  | @undoClose _ returned closed =>
      cases returned with
      | false =>
          refine .close closed (tenancy_goto_same _ k _ ?_) (.inr ⟨.go, rfl, ?_⟩)
          · rw [closeProxy_streams closed, stage]
            rfl
          · intro q pc inside
            rw [stage] at inside
            cases inside
            rfl
      | true =>
          rcases closeProxy_returns sound closed with ⟨gone, ended, view⟩
          exact .step (tenancy_goto_of view rfl) (.land (tenancy_flight stage rfl) gone ended)
            trivial
  | publish kind p => exact publish_tracks stage

/-- A step that sends the stream on, in no registration before or after, and otherwise changes
nothing the view shows. -/
theorem goto_tracks {s s' : State} {a : Action} {k : StreamId} {pc : StreamPc}
    (unseen : tenancy s' = tenancy s) (regs : s'.regs = s.regs) (streams : s'.streams = s.streams)
    (was : flightOf s.regs (s.streams k).pc = none) (now : flightOf s.regs pc = none) :
    Tracks s a (s'.goto k pc) := by
  refine .inl ((tenancy_goto_same s' k pc ?_).trans unseen)
  rw [regs, streams, now, was]

/-- A first frame is noted, which is not seen either. -/
theorem noteFirst_tracks {s : State} {a : Action} {k : StreamId} {frame : RawMsg} {pc : StreamPc}
    (was : flightOf s.regs (s.streams k).pc = none) (now : flightOf s.regs pc = none) :
    Tracks s a ((s.setStream k { s.streams k with firstFrame := some frame }).goto k pc) := by
  have noted := tenancy_setStream_same s k { s.streams k with firstFrame := some frame } rfl
  refine .inl ((tenancy_goto_same _ k pc ?_).trans noted)
  rw [show flightOf (s.setStream k { s.streams k with firstFrame := some frame }).regs pc =
    none from now]
  simpa [State.setStream] using was.symm

/-- The new control joins. -/
theorem insertStep_tracks {s : State} {k : StreamId} {login : Login} {runId : String}
    {poolCap : Nat} {input : Input} (was : flightOf s.regs (s.streams k).pc = none)
    (new : (s.ctl k).created = false) :
    Tracks s (.stream k input) (insertStep k login runId poolCap s) := by
  let e := (s.streams k).epoch
  let control : Control :=
    { created := true, epoch := e, runId := runId, user := login.user,
      enforceIdle := clientSendsHeartbeats login.version, cancelled := false, online := true }
  let made := s.setControl k control
  let listed := made.setShared e
    { made.shared e with controls := (made.shared e).controls.insert runId k }
  have joins : tenancy made = _ := tenancy_setControl s k control
  have unseen : tenancy listed = tenancy made := tenancy_setControls made e _
  have onward := tenancy_goto_same listed k (.pool (min login.poolCount.toInt.toNat poolCap))
    was.symm
  exact .step (onward.trans (unseen.trans joins)) (.settle new) ⟨input, rfl⟩

/-- A call of `handle_new_proxy` gets its number; nothing was noted under it before. -/
theorem tenancy_enter {s : State} (sound : (tenancy s).Sound) (k : StreamId) (np : NewProxy) :
    tenancy ({ s.setReg s.nextReg { control := k, np := np } with nextReg := s.nextReg + 1 }.goto k
      (.registering s.nextReg .reserve)) = { tenancy s with
        next := s.nextReg + 1
        flight := Function.update (tenancy s).flight k (some ⟨s.nextReg, np.proxyName, .entered⟩)
        home := Function.update (tenancy s).home s.nextReg (k, np.proxyName) } := by
  have regsEq : ∀ r, r ≠ s.nextReg →
      (s.setReg s.nextReg { control := k, np := np }).regs r = s.regs r := by
    intro r other
    simp [State.setReg, other]
  have newReg : (s.setReg s.nextReg { control := k, np := np }).regs s.nextReg =
      { control := k, np := np } := by
    simp [State.setReg]
  have unused := sound.fresh (le_refl (tenancy s).next)
  have flights : ∀ c, flightOf (s.setReg s.nextReg { control := k, np := np }).regs
      (s.streams c).pc = flightOf s.regs (s.streams c).pc := by
    intro c
    cases stage : (s.streams c).pc with
    | registering r pc =>
        cases shown : pc.phase with
        | none => simp only [flightOf, shown, Option.map_none]
        | some phase =>
            have earlier : r < s.nextReg := (sound.flight_home (tenancy_flight stage shown)).2.1
            simp only [flightOf, regsEq r (Nat.ne_of_lt earlier)]
    | _ => rfl
  apply Tenancy.ext
  case flight =>
    funext c
    by_cases same : c = k
    · subst same
      simp [tenancy, State.goto, State.setStream, flightOf, RegPc.phase]
    · simp only [tenancy, State.goto, State.setStream, Function.update_of_ne same]
      exact flights c
  case home =>
    funext r
    by_cases same : r = s.nextReg
    · subst same
      simp [tenancy, State.goto, State.setStream]
    · simp [tenancy, State.goto, State.setStream, same, regsEq r same]
  case revoked =>
    funext r
    by_cases same : r = s.nextReg
    · subst same
      simpa [tenancy, State.goto, State.setStream, newReg] using unused.1.symm
    · simp [tenancy, State.goto, State.setStream, regsEq r same]
  case published =>
    funext r
    by_cases same : r = s.nextReg
    · subst same
      simpa [tenancy, State.goto, State.setStream, newReg, Listener.published] using unused.2.symm
    · simp [tenancy, State.goto, State.setStream, regsEq r same]
  case running =>
    funext r
    by_cases same : r = s.nextReg
    · subst same
      have idle : (tenancy s).running s.nextReg = false := by
        cases runs : (tenancy s).running s.nextReg with
        | false => rfl
        | true => exact absurd unused.2 (sound.running_published runs)
      simpa [tenancy, State.goto, State.setStream, newReg, Listener.isRunning] using idle.symm
    · simp [tenancy, State.goto, State.setStream, regsEq r same]
  all_goals rfl

theorem endReader_tracks {s : State} {a : Action} {k : StreamId}
    (was : flightOf s.regs (s.streams k).pc = none) : Tracks s a (endReader k s) :=
  goto_tracks (tenancy_setSweep_same s (.stream k) _ rfl) rfl rfl was rfl

/-- Every step of a stream's task. Outside a registration it only joins, enters a registration,
or closes a name; the rest is not seen. -/
theorem streamStep_tracks {s s' : State} {w : World} {k : StreamId} {pc : StreamPc} {input : Input}
    (shape : Shape s) (sound : (tenancy s).Sound) (stage : (s.streams k).pc = pc)
    (move : streamStep w k s pc input = some s') : Tracks s (.stream k input) s' := by
  have was : flightOf s.regs pc = none → flightOf s.regs (s.streams k).pc = none := by
    intro outside
    rw [stage, outside]
  cases streamStep_cases move with
  | registering call => exact regStep_tracks sound stage call
  | dropped _ | login _ _ | workConn _ _ => exact noteFirst_tracks (was rfl) rfl
  | authorized _ => exact .inl (tenancy_setStream_same s k _ (was rfl).symm)
  | lookup login _ =>
      exact goto_tracks (tenancy_setSweep_same s (.stream k) _ rfl) rfl rfl (was rfl) rfl
  | insert login runId poolCap =>
      exact insertStep_tracks (was rfl) (shape.before (by rw [stage]; rfl))
  | pool sent | pong sent =>
      rcases trySend_eq sent with ⟨out, rfl⟩
      exact goto_tracks rfl rfl rfl (was rfl) rfl
  | frameEnds _ | cancelled _ | sessionOver _ => exact endReader_tracks (was rfl)
  | frameIgnored _ => exact .inl rfl
  | entered _ =>
      have member : (s.ctl k).created = true := shape.inControl (by rw [stage]; rfl)
      exact .step (tenancy_enter sound k _) (.enter member (was rfl)) trivial
  | @closing name s₁ returned closed =>
      have unseen : ∀ pc, flightOf s₁.regs pc = none → tenancy (s₁.goto k pc) = tenancy s₁ := by
        intro pc outside
        refine tenancy_goto_same s₁ k pc ?_
        rw [outside, closeProxy_streams closed, stage]
        rfl
      cases returned with
      | false =>
          refine .close closed (unseen _ rfl) (.inr ⟨.go, rfl, ?_⟩)
          intro q pc inside
          rw [stage] at inside
          cases inside
      | true =>
          cases closeProxy_cases closed with
          | absent _ _ => exact .inl (unseen _ rfl)
          | returned held =>
              exact .step ((unseen _ rfl).trans (tenancy_setClosing s k none))
                (.close (tenancy_removal held)) trivial
  | _ => exact goto_tracks rfl rfl rfl (was rfl) rfl

/-- The view of a caller of `teardown` going on, after another update. -/
theorem tenancy_setSweep_of {s : State} {x : Caller} {sweep : Sweep} {t : Holdings}
    {names : Option (StreamId × List String)} (view : tenancy s = t)
    (shown : sweptNames sweep.current = names) :
    tenancy (s.setSweep x sweep) = { t with sweeps := Function.update t.sweeps x names } := by
  subst view shown
  exact tenancy_setSweep s x sweep

theorem tenancy_cancel (s : State) (c : StreamId) :
    tenancy (s.setControl c { s.ctl c with cancelled := true }) = { tenancy s with
      closed := Function.update (tenancy s).closed c true } := by
  rw [tenancy_setControl]
  have joined : Function.update (tenancy s).joined c (s.ctl c).created = (tenancy s).joined :=
    Function.update_eq_self c _
  have site : Function.update (tenancy s).site c (s.ctl c).epoch = (tenancy s).site :=
    Function.update_eq_self c _
  have label : Function.update (tenancy s).label c (s.ctl c).user = (tenancy s).label :=
    Function.update_eq_self c _
  have swept : Function.update (tenancy s).swept c (!(s.ctl c).online) = (tenancy s).swept :=
    Function.update_eq_self c _
  rw [joined, site, label, swept]
  rfl

/-- Taking a control off line marks it swept. -/
theorem tenancy_offline (s : State) (c : StreamId) :
    tenancy (s.setControl c { s.ctl c with online := false }) =
      { tenancy s with swept := Function.update (tenancy s).swept c true } := by
  refine (tenancy_setControl s c { s.ctl c with online := false }).trans ?_
  have joined : Function.update (tenancy s).joined c (s.ctl c).created = (tenancy s).joined :=
    Function.update_eq_self c _
  have site : Function.update (tenancy s).site c (s.ctl c).epoch = (tenancy s).site :=
    Function.update_eq_self c _
  have label : Function.update (tenancy s).label c (s.ctl c).user = (tenancy s).label :=
    Function.update_eq_self c _
  have closed : Function.update (tenancy s).closed c (s.tokenCancelled c) =
      (tenancy s).closed := Function.update_eq_self c _
  unfold State.tokenCancelled at closed
  rw [joined, site, label, closed]
  rfl

/-- A control that is off line already is marked. -/
theorem tenancy_swept {s : State} {c : StreamId} (offline : (s.ctl c).online = false) :
    { tenancy s with swept := Function.update (tenancy s).swept c true } = tenancy s := by
  have swept : Function.update (tenancy s).swept c true = (tenancy s).swept := by
    refine Function.update_eq_self_iff.mpr ?_
    simp only [tenancy, offline]
    rfl
  rw [swept]

/-- Tearing down cuts the client off, collects its names, closes them one by one and is done. -/
theorem teardownStep_tracks {s s₁ : State} {x : Caller} {c : StreamId} {pc : TeardownPc}
    {input : SweepInput} {next : Option (StreamId × TeardownPc)} (shape : Shape s)
    (sound : (tenancy s).Sound) (stage : (s.sweeps x).current = some (c, pc))
    (call : TeardownStep x c s pc input s₁ next) :
    Tracks s (.sweep x input) (s₁.setSweep x { s.sweeps x with current := next }) := by
  have member : (s.ctl c).created = true := (shape.current stage).1
  -- a stage that changes nothing the view shows, and has the same names left before and after
  have unseen : ∀ {s₁ : State} {next : Option (StreamId × TeardownPc)}, s₁.sweeps = s.sweeps →
      tenancy s₁ = tenancy s → sweptNames next = sweptNames (some (c, pc)) →
      Tracks s (.sweep x input) (s₁.setSweep x { s.sweeps x with current := next }) := by
    intro s₁ next sweeps view same
    refine .inl ((tenancy_setSweep_same s₁ x _ ?_).trans view)
    rw [sweeps, stage]
    exact same
  cases call with
  | cancel =>
      have swept : tenancy ((s.setControl c { s.ctl c with cancelled := true }).setSweep x
          { s.sweeps x with current := some (c, .drain) }) =
          tenancy (s.setControl c { s.ctl c with cancelled := true }) :=
        tenancy_setSweep_same _ x _ (by
          rw [show ((s.setControl c { s.ctl c with cancelled := true }).sweeps x).current =
            some (c, .cancel) from stage]
          rfl)
      refine .step (swept.trans (tenancy_cancel s c)) (.cut ?_) trivial
      intro d _ closed
      by_cases same : d = c
      · subst same
        simp
      · simpa [same] using closed
  | lock _ | locked _ | drain | mine _ | replaced _ | uncount => exact unseen rfl rfl rfl
  | @collect names unlocked _ listed =>
      refine .step (tenancy_setSweep s x _)
        (.collect member ?_ (tenancy_unlocked unlocked) ?_) trivial
      · have cancelled := (shape.current stage).2 nofun
        simp [tenancy, State.tokenCancelled, cancelled]
      · intro name found
        have inKeys : name ∈ (s.proxies c).keys :=
          Finmap.mem_keys.mpr (Finmap.lookup_isSome.mp (Option.isSome_iff_ne_none.mpr found))
        rw [← listed] at inKeys
        exact List.mem_toFinset.mp inKeys
  | @close name rest s₁ returned closed =>
      have left : (tenancy s).sweeps x = some (c, name :: rest) := by
        simp only [tenancy, stage, sweptNames]
        rfl
      cases returned with
      | false =>
          refine .close closed (tenancy_setSweep_same s₁ x _ ?_) (.inl ⟨x, .go, rest, rfl, stage⟩)
          rw [closeProxy_sweeps closed, stage]
          rfl
      | true =>
          rcases closeProxy_returns sound closed with ⟨gone, ended, view⟩
          exact .step (tenancy_setSweep_of view rfl) (.pass left gone ended) trivial
  | remove => exact unseen rfl (tenancy_setControls s (s.ctl c).epoch _) rfl
  | clear _ =>
      have left : (tenancy s).sweeps x = some (c, []) := by
        simp only [tenancy, stage, sweptNames]
        rfl
      exact .step (tenancy_setSweep_of (tenancy_offline s c) rfl) (.finish left) trivial
  | cleared offline =>
      have left : (tenancy s).sweeps x = some (c, []) := by
        simp only [tenancy, stage, sweptNames]
        rfl
      have marked := (tenancy_swept offline).symm
      exact .step (tenancy_setSweep_of marked rfl) (.finish left) trivial

theorem sweepStep_tracks {s s' : State} {x : Caller} {input : SweepInput} (shape : Shape s)
    (sound : (tenancy s).Sound) (move : sweepStep x input s = some s') :
    Tracks s (.sweep x input) s' := by
  cases sweepStep_cases move with
  | call stage call => exact teardownStep_tracks shape sound stage call
  | begins free _ _ => exact .inl (tenancy_setSweep_same s x _ (by rw [free]; rfl))
  | skips free _ _ => exact .inl (tenancy_setSweep_same s x _ (by rw [free]))

/-- Cancelling the run token cuts every control of that run off. -/
theorem stopCancel_tracks {s : State} {a : Action} {e : Epoch} {pc : ServerPc} :
    Tracks s a ({ s with server := pc }.setShared e { s.shared e with runCancelled := true }) := by
  let s' := { s with server := pc }.setShared e { s.shared e with runCancelled := true }
  have resource : (tenancy s').resource = (tenancy s).resource := by
    funext key
    rcases key with ⟨e', kind, p⟩
    by_cases same : e' = e
    · subst same
      simp only [s', tenancy, State.setShared, Function.update_self]
      cases kind <;> rfl
    · simp [s', tenancy, State.setShared, same]
  refine .step (t := { tenancy s with closed := s'.tokenCancelled }) ?_ (.cut ?_) trivial
  · exact congrArg (fun resource => ({ tenancy s with
      closed := s'.tokenCancelled
      resource := resource } : Holdings)) resource
  · intro c _ closed
    have wasCut : s.tokenCancelled c = true := closed
    simp only [State.tokenCancelled, Bool.or_eq_true] at wasCut ⊢
    rcases wasCut with own | run
    · exact .inl own
    · refine .inr ?_
      by_cases same : (s.ctl c).epoch = e
      · simp [s', State.setShared, same]
      · simpa [s', State.setShared, same] using run

theorem serverStep_tracks {s s' : State} {input : ServerInput}
    (move : serverStep s input = some s') : Tracks s (.server input) s' := by
  cases serverStep_cases move with
  | stopCancel running => exact stopCancel_tracks
  | stopCollect _ _ | monitorCollect _ _ => exact .inl (tenancy_setSweep_same _ _ _ rfl)
  | accept unopened _ | openStream unopened _ _ _ =>
      exact .inl (tenancy_setStream_same s _ _ (by rw [unopened]; rfl))
  | _ => exact .inl rfl

/-- The side tasks do not touch what the view shows of them beyond the registrations. -/
theorem tenancy_aside {s s' : State} (aside : Aside s s') :
    tenancy s' = tenancy { s with regs := s'.regs } := by
  rcases aside with ⟨_, streams, ctl, shared, sweeps, proxies, closing, infos, nextReg, _, _⟩
  unfold tenancy State.tokenCancelled
  simp only [streams, ctl, shared, sweeps, proxies, closing, infos, nextReg]

theorem listenerStep_tracks {s s' : State} {r : RegId} {input : ListenerInput}
    (move : listenerStep r s (s.regs r).listener input = some s') :
    Tracks s (.listener r input) s' := by
  rcases listenerStep_aside move with ⟨aside, ⟨kind, p, was, finished, regs⟩ | same | ⟨worker, regs⟩⟩
  · have view := tenancy_aside aside
    rw [regs] at view
    have exited := tenancy_setReg s r { s.regs r with listener := .exited kind p } rfl rfl
    have revoked : Function.update (tenancy s).revoked r (s.regs r).cancelled =
        (tenancy s).revoked := Function.update_eq_self r _
    have published : Function.update (tenancy s).published r (some (kind, p)) =
        (tenancy s).published := by
      refine Function.update_eq_self_iff.mpr ?_
      simp only [tenancy, was]
      rfl
    refine .step (view.trans (exited.trans ?_)) (.exit finished) trivial
    exact congrArg₂ (fun revoked published => ({ tenancy s with
      revoked := revoked
      published := published
      running := Function.update (tenancy s).running r false } : Holdings)) revoked published
  · refine .inl ((tenancy_aside aside).trans ?_)
    rw [same]
  · refine .inl ((tenancy_aside aside).trans ?_)
    rw [regs]
    exact tenancy_setReg_same s r { s.regs r with worker := worker } rfl rfl rfl rfl

/-- Every step of the server, seen as tenancies. -/
theorem step_tracks {s s' : State} {w : World} {a : Action} (shape : Shape s)
    (sound : (tenancy s).Sound) (move : step w a s = some s') : Tracks s a s' := by
  cases a with
  | server input => exact serverStep_tracks move
  | stream k input =>
      rcases Option.ite_none_right_eq_some.mp move with ⟨_, moved⟩
      exact streamStep_tracks shape sound rfl moved
  | sweep x input => exact sweepStep_tracks shape sound move
  | writer c input =>
      rcases writerStep_aside move with ⟨out, rfl⟩
      exact .inl rfl
  | listener r input => exact listenerStep_tracks move
  | bridge b input =>
      rcases bridgeStep_aside move with ⟨aside, regs⟩
      refine .inl ((tenancy_aside aside).trans ?_)
      rw [regs]

/-! ## Runs -/

theorem tenancy_new (cfg : FrpsConfig) : (tenancy (State.new cfg)).Blank := by
  constructor <;> intros <;> try rfl
  case resource key => rcases key with ⟨e, kind, p⟩; cases kind <;> rfl

abbrev holdings := Tenancy.system StreamId String (ProxyType × UInt16) Epoch String Caller

/-- A run of the server is a run of the tenancies; steps that meet a condition there are asked for
it only where it can fail. -/
theorem server_follows_holdings {w : World} {allowed : State → Action → Prop}
    (careful : Holdings → HoldingOp → Prop) {s : State} (run : (server w).Reaches allowed s)
    (condition : ∀ {s a op}, (server w).Reaches allowed s → allowed s a → Explains s a op →
      careful (tenancy s) op) : holdings.Reaches careful (tenancy s) := by
  refine run.follows ?_ ?_
  · rintro s ⟨cfg, rfl⟩
    exact tenancy_new cfg
  · intro s a s' before viewed permitted move
    rcases step_tracks (server_shape before) (Tenancy.reaches_sound viewed) move with
      same | ⟨op, explained, opMove⟩
    · exact .inl same
    · exact .inr ⟨op, condition before permitted explained, opMove⟩

/-- In every state any run reaches, the tenancies are in order. -/
theorem server_sound {w : World} {allowed : State → Action → Prop} {s : State}
    (run : (server w).Reaches allowed s) : (tenancy s).Sound :=
  Tenancy.reaches_sound (server_follows_holdings (fun _ _ => True) run fun _ _ _ => trivial)

end Remgr.Frps.Server
