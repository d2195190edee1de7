/-
Module: Remgr.Proofs.ServerSteps
Purpose: What each task of the server can do in one step, said once: the steps of the server object,
  of a call of `close_proxy`, of one of `handle_new_proxy`, of the task of a stream, of a caller of
  `teardown`, and of the writers, listeners and bridges, with what each of them has checked and the
  state after it.
Trusted boundary: none
Main exports: serverStep_cases, closeProxy_cases, regStep_cases, streamStep_cases, sweepStep_cases,
  writerStep_cases, listenerStep_cases, bridgeStep_cases
-/
import Remgr.Frps.Server.Step

namespace Remgr.Frps.Server

open Remgr.Lib

/-! ## The server object -/

/-- The steps of the server object, with the state after each. -/
inductive ServerStep (s : State) : ServerInput → State → Prop
  | updateConfig (cfg : FrpsConfig) : ServerStep s (.updateConfig cfg) { s with cfg := cfg }
  | start (idle : s.server = .idle) (port : s.cfg.serverPort ≠ 0) :
      ServerStep s .start
        ({ s with server := .running s.nextEpoch, nextEpoch := s.nextEpoch + 1 }.setLoops
          s.nextEpoch { accepting := true, monitor := .resting })
  | stopCancel {e : Epoch} (running : s.server = .running e) :
      ServerStep s .stopCancel
        ({ s with server := .stopping e false }.setShared e
          { s.shared e with runCancelled := true })
  | stopCollect {e : Epoch} {entries : List StreamId} (stopping : s.server = .stopping e false)
      (lists : listsControls (s.shared e) entries = true) :
      ServerStep s (.stopCollect entries)
        ({ s with server := .stopping e true }.setSweep (.stop e)
          { s.sweeps (.stop e) with todo := entries })
  | stopFinish {e : Epoch} (stopping : s.server = .stopping e true)
      (idle : (s.sweeps (.stop e)).idle = true) (accepting : (s.loops e).accepting = false)
      (monitor : (s.loops e).monitor = .over) :
      ServerStep s .stopFinish { s with server := .idle }
  | acceptExit {e : Epoch} (cancelled : (s.shared e).runCancelled = true) :
      ServerStep s (.acceptExit e) (s.setLoops e { s.loops e with accepting := false })
  | monitorTick {e : Epoch} (free : monitorFree s e = true) (timeout : s.cfg.heartbeatTimeout ≠ 0) :
      ServerStep s (.monitorTick e)
        (s.setLoops e { s.loops e with monitor := .ticked s.cfg.heartbeatTimeout })
  | monitorCollect {e : Epoch} {entries : List StreamId} {timeout : UInt64}
      (ticked : (s.loops e).monitor = .ticked timeout)
      (lists : listsControls (s.shared e) entries = true) :
      ServerStep s (.monitorCollect e entries)
        ((s.setLoops e { s.loops e with monitor := .sweeping timeout }).setSweep
          (.monitor e) { s.sweeps (.monitor e) with todo := entries })
  | monitorExit {e : Epoch} (cancelled : (s.shared e).runCancelled = true)
      (free : monitorFree s e = true) :
      ServerStep s (.monitorExit e) (s.setLoops e { s.loops e with monitor := .over })
  | accept {k : StreamId} {e : Epoch} (unopened : (s.streams k).pc = .unopened)
      (accepting : (s.loops e).accepting = true) :
      ServerStep s (.accept k e)
        (s.setStream k
          { role := if s.cfg.tcpMux then .muxControl else .direct, epoch := e, pc := .first })
  | openStream {k parent : StreamId} (unopened : (s.streams k).pc = .unopened)
      (opened : (s.streams parent).pc ≠ .unopened) (going : (s.streams parent).pc ≠ .done)
      (mux : (s.streams parent).role = .muxControl) :
      ServerStep s (.openStream k parent)
        (s.setStream k
          { role := .muxWork parent, epoch := (s.streams parent).epoch, pc := .first })

theorem serverStep_cases {s s' : State} {input : ServerInput}
    (move : serverStep s input = some s') : ServerStep s input s' := by
  unfold serverStep at move
  cases input with
  | updateConfig cfg =>
      cases move
      exact .updateConfig cfg
  | start =>
      rcases Option.ite_none_right_eq_some.mp move with ⟨⟨idle, port⟩, moved⟩
      cases moved
      exact .start idle port
  | stopCancel =>
      dsimp only at move
      split at move
      · next running =>
          cases move
          exact .stopCancel running
      · cases move
  | stopCollect entries =>
      dsimp only at move
      split at move
      · next stopping =>
          rcases Option.ite_none_right_eq_some.mp move with ⟨lists, moved⟩
          cases moved
          exact .stopCollect stopping lists
      · cases move
  | stopFinish =>
      dsimp only at move
      split at move
      · next stopping =>
          rcases Option.ite_none_right_eq_some.mp move with ⟨⟨idle, accepting, ended⟩, moved⟩
          cases moved
          exact .stopFinish stopping idle accepting ended
      · cases move
  | acceptExit e =>
      rcases Option.ite_none_right_eq_some.mp move with ⟨cancelled, moved⟩
      cases moved
      exact .acceptExit cancelled
  | monitorTick e =>
      rcases Option.ite_none_right_eq_some.mp move with ⟨⟨free, timeout⟩, moved⟩
      cases moved
      exact .monitorTick free timeout
  | monitorCollect e entries =>
      dsimp only at move
      split at move
      · next ticked =>
          rcases Option.ite_none_right_eq_some.mp move with ⟨lists, moved⟩
          cases moved
          exact .monitorCollect ticked lists
      · cases move
  | monitorExit e =>
      rcases Option.ite_none_right_eq_some.mp move with ⟨⟨cancelled, free⟩, moved⟩
      cases moved
      exact .monitorExit cancelled free
  | accept k e =>
      dsimp only at move
      split at move
      · next unopened =>
          rcases Option.ite_none_right_eq_some.mp move with ⟨accepting, moved⟩
          cases moved
          exact .accept unopened accepting
      · cases move
  | openStream k parent =>
      dsimp only at move
      split at move
      · cases move
      · cases move
      · next unopened opened going =>
          rcases Option.ite_none_right_eq_some.mp move with ⟨mux, moved⟩
          cases moved
          exact .openStream unopened opened going mux
      · cases move

/-! ## A call of `close_proxy` -/

/-- One step of a call of `close_proxy`: the state after it, and whether the call has returned. -/
inductive CloseStep (s : State) (x : Closer) (c : StreamId) (name : String) : State → Bool → Prop
  | absent (free : s.closing c = none) (missing : (s.proxies c).lookup name = none) :
      CloseStep s x c name s true
  | removed {tk : RegId} (free : s.closing c = none)
      (stored : (s.proxies c).lookup name = some tk) :
      CloseStep s x c name
        (((s.setProxies c ((s.proxies c).erase name)).setReg tk
          { s.regs tk with cancelled := true }).setClosing c (some ⟨x, name, tk, .info⟩)) false
  | unknown {tk : RegId} (held : s.closing c = some ⟨x, name, tk, .info⟩)
      (missing : s.proxyInfos.lookup name = none) :
      CloseStep s x c name (s.setClosing c (some ⟨x, name, tk, .unlock⟩)) false
  | told {tk : RegId} {info : ProxyInfo} (held : s.closing c = some ⟨x, name, tk, .info⟩)
      (found : s.proxyInfos.lookup name = some info) :
      CloseStep s x c name
        ({ s with proxyInfos := s.proxyInfos.erase name }.setClosing c
          (some ⟨x, name, tk, .port info.proxyType info.remotePort⟩)) false
  | released {tk : RegId} {kind : ProxyType} {p : UInt16}
      (held : s.closing c = some ⟨x, name, tk, .port kind p⟩) :
      CloseStep s x c name
        ((s.releaseProxyPort (s.ctl c).epoch kind p name).setClosing c
          (some ⟨x, name, tk, .unlock⟩)) false
  | returned {tk : RegId} (held : s.closing c = some ⟨x, name, tk, .unlock⟩) :
      CloseStep s x c name (s.setClosing c none) true

theorem closeProxy_cases {s s' : State} {x : Closer} {c : StreamId} {name : String}
    {returned : Bool}
    (move : s.closeProxy x c name = some (s', returned)) : CloseStep s x c name s' returned := by
  unfold State.closeProxy at move
  split at move
  · next free =>
      split at move
      · next missing =>
          cases move
          exact .absent free missing
      · next stored =>
          cases move
          exact .removed free stored
  · next call held =>
      rcases Option.ite_none_right_eq_some.mp move with ⟨⟨own, named⟩, moved⟩
      rcases call with ⟨closer, called, tk, pc⟩
      cases own
      cases named
      cases pc with
      | info =>
          dsimp only at moved
          split at moved
          · next missing =>
              cases moved
              exact .unknown held missing
          · next found =>
              cases moved
              exact .told held found
      | port kind p =>
          cases moved
          exact .released held
      | unlock =>
          cases moved
          exact .returned held

/-! ## A call of `handle_new_proxy` -/

/-- One step of a call of `handle_new_proxy`: the state with what the step does to the shared data,
and where the stream stands next. -/
inductive CallStep (w : World) (k : StreamId) (r : RegId) (s : State) :
    RegPc → Input → State → StreamPc → Prop
  | taken (unlocked : s.closing k = none) (inUse : s.nameOf r ∈ s.proxies k) :
      CallStep w k r s .reserve .go s
        (.registering r (.reply (proxyError (s.regs r).np (nameInUse (s.regs r).np)) none))
  | reserved (unlocked : s.closing k = none) (free : s.nameOf r ∉ s.proxies k) :
      CallStep w k r s .reserve .go (s.setProxies k ((s.proxies k).insert (s.nameOf r) r))
        (.registering r (afterReserve (s.regs r).np))
  | config (kind : ProxyType) :
      CallStep w k r s (.config kind) .go (s.setReg r { s.regs r with cfg := some s.cfg })
        (.registering r (afterConfig s.cfg kind (s.regs r).np))
  | portTaken {kind : ProxyType} {p : UInt16} {bindAddr text : String}
      (refused : (s.shared (s.epochOf k)).registerProxyPort kind p (s.nameOf r) = .error text) :
      CallStep w k r s (.port kind p bindAddr) .go s (.registering r (.drop text))
  | portHeld {kind : ProxyType} {p : UInt16} {bindAddr : String} {shared : Shared}
      (registered : (s.shared (s.epochOf k)).registerProxyPort kind p (s.nameOf r) = .ok shared) :
      CallStep w k r s (.port kind p bindAddr) .go (s.setShared (s.epochOf k) shared)
        (.registering r (afterPort w kind p bindAddr))
  | bind (kind : ProxyType) (p : UInt16) (addr : String) (attempt : Nat) (result : BindResult) :
      CallStep w k r s (.bind kind p addr attempt) (.bound result) s
        (.registering r (afterBind (s.regs r).np kind p addr attempt result))
  | release (kind : ProxyType) (p : UInt16) (error : String) :
      CallStep w k r s (.release kind p error) .go
        (s.releaseProxyPort (s.epochOf k) kind p (s.nameOf r)) (.registering r (.drop error))
  | drop (unlocked : s.closing k = none) (error : String) :
      CallStep w k r s (.drop error) .go (s.dropReservation k (s.nameOf r))
        (.registering r (.reply (proxyError (s.regs r).np error) none))
  | reply {resp : NewProxyResp} {serve : Option (ProxyType × UInt16)} {way : SendVia} {s₁ : State}
      (sent : s.trySend k (.newProxyResp resp, some r) way = some s₁) :
      CallStep w k r s (.reply resp serve) (.via way) s₁
        (if way = .queued then .registering r (.flush serve) else afterFlush r serve)
  | flush {serve : Option (ProxyType × UInt16)} (released : (s.out k).latchPending r = false) :
      CallStep w k r s (.flush serve) .go s (afterFlush r serve)
  | late (kind : ProxyType) (p : UInt16) :
      CallStep w k r s (.late kind p) .go s (.registering r
        (if s.ptkCancelled r then .undoRelease kind p else .publish kind p))
  | undoRelease (kind : ProxyType) (p : UInt16) :
      CallStep w k r s (.undoRelease kind p) .go
        (s.releaseProxyPort (s.epochOf k) kind p (s.nameOf r)) (.registering r .undoClose)
  | undoClose {s₁ : State} {returned : Bool}
      (closed : s.closeProxy .reader k (s.nameOf r) = some (s₁, returned)) :
      CallStep w k r s .undoClose .go s₁
        (if returned then .reading else .registering r .undoClose)
  | publish (kind : ProxyType) (p : UInt16) :
      CallStep w k r s (.publish kind p) .go
        ((s.setProxy
          { proxyName := s.nameOf r
            proxyType := kind
            remotePort := p
            user := (s.ctl k).user }).setReg r { s.regs r with listener := .running kind p })
        .reading

theorem regStep_cases {w : World} {k : StreamId} {r : RegId} {s s' : State} {pc : RegPc}
    {input : Input} (move : regStep w k r s pc input = some s') :
    ∃ s₁ next, CallStep w k r s pc input s₁ next ∧ s' = s₁.goto k next := by
  cases pc with
  | reserve =>
      cases input <;> try cases move
      rcases Option.ite_none_right_eq_some.mp move with ⟨unlocked, moved⟩
      cases moved
      unfold State.reserve
      dsimp only
      split
      · next inUse => exact ⟨_, _, .taken (Option.isNone_iff_eq_none.mp unlocked) inUse, rfl⟩
      · next free => exact ⟨_, _, .reserved (Option.isNone_iff_eq_none.mp unlocked) free, rfl⟩
  | config kind =>
      cases input <;> cases move
      exact ⟨_, _, .config kind, rfl⟩
  | port kind p bindAddr =>
      cases input <;> cases move
      unfold State.registerProxyPort
      split
      · next refused => exact ⟨_, _, .portTaken refused, rfl⟩
      · next registered => exact ⟨_, _, .portHeld registered, rfl⟩
  | bind kind p addr attempt =>
      cases input <;> cases move
      exact ⟨_, _, .bind kind p addr attempt _, rfl⟩
  | release kind p error =>
      cases input <;> cases move
      exact ⟨_, _, .release kind p error, rfl⟩
  | drop error =>
      cases input <;> try cases move
      rcases Option.ite_none_right_eq_some.mp move with ⟨unlocked, moved⟩
      cases moved
      exact ⟨_, _, .drop (Option.isNone_iff_eq_none.mp unlocked) error, rfl⟩
  | reply resp serve =>
      cases input <;> try cases move
      rcases Option.map_eq_some_iff.mp move with ⟨s₁, sent, rfl⟩
      exact ⟨_, _, .reply sent, rfl⟩
  | flush serve =>
      cases input <;> try cases move
      rcases Option.ite_none_left_eq_some.mp move with ⟨released, moved⟩
      cases moved
      exact ⟨_, _, .flush (by simpa using released), rfl⟩
  | late kind p =>
      cases input <;> cases move
      exact ⟨_, _, .late kind p, rfl⟩
  | undoRelease kind p =>
      cases input <;> cases move
      exact ⟨_, _, .undoRelease kind p, rfl⟩
  | undoClose =>
      cases input <;> try cases move
      rcases Option.map_eq_some_iff.mp move with ⟨⟨s₁, returned⟩, closed, rfl⟩
      exact ⟨_, _, .undoClose closed, rfl⟩
  | publish kind p =>
      cases input <;> cases move
      exact ⟨_, _, .publish kind p, rfl⟩

/-! ## The task of a stream -/

/-- The steps of the task of a stream, with the state after each. -/
inductive StreamStep (w : World) (k : StreamId) (s : State) : StreamPc → Input → State → Prop
  | closed : StreamStep w k s .first (.frame none) (s.goto k .done)
  | dropped {frame : RawMsg}
      (dropped : firstStep w k s (some frame) =
        (s.setStream k { s.streams k with firstFrame := some frame }).goto k .done) :
      StreamStep w k s .first (.frame (some frame))
        ((s.setStream k { s.streams k with firstFrame := some frame }).goto k .done)
  | login {frame : RawMsg} {login : Login} (type : frame.1 = TYPE_LOGIN)
      (decoded : (w.fromSlice frame.2).bind Login.ofJson = some login) :
      StreamStep w k s .first (.frame (some frame))
        ((s.setStream k { s.streams k with firstFrame := some frame }).goto k (.auth login))
  | workConn {frame : RawMsg} (role : (s.streams k).role ≠ .muxControl)
      (type : (s.streams k).role = .direct → frame.1 = TYPE_NEW_WORK_CONN) :
      StreamStep w k s .first (.frame (some frame))
        ((s.setStream k { s.streams k with firstFrame := some frame }).goto k (.workFrame frame))
  | authorized {login : Login}
      (right : authOk w s.cfg.token login.timestamp login.privilegeKey = true) :
      StreamStep w k s (.auth login) .go
        (s.setStream k { s.streams k with authToken := some s.cfg.token, pc := .count login })
  | refused {login : Login}
      (wrong : ¬ authOk w s.cfg.token login.timestamp login.privilegeKey = true) :
      StreamStep w k s (.auth login) .go (s.goto k .denied)
  | denied (ok : Bool) : StreamStep w k s .denied (.wrote ok) (s.goto k .done)
  | count (login : Login) :
      StreamStep w k s (.count login) .go
        ({ s with totalLogins := s.totalLogins + 1 }.goto k (.lookup login))
  | lookup (login : Login) (id : String) :
      StreamStep w k s (.lookup login) (.uuid id) (lookupStep k login id s)
  | replace {login : Login} {runId : String} (idle : (s.sweeps (.stream k)).idle = true) :
      StreamStep w k s (.replace login runId) .go
        (s.goto k (.reply login runId s.cfg.maxPoolCount.toNat))
  | replied {login : Login} {runId : String} {poolCap : Nat}
      (fit : fits (loginReply runId) = true) :
      StreamStep w k s (.reply login runId poolCap) (.wrote true)
        (s.goto k (.online login runId poolCap))
  | unreplied (login : Login) (runId : String) (poolCap : Nat) :
      StreamStep w k s (.reply login runId poolCap) (.wrote false) (s.goto k .done)
  | online (login : Login) (runId : String) (poolCap : Nat) :
      StreamStep w k s (.online login runId poolCap) .go
        ({ s with clientsOnline := s.clientsOnline + 1 }.goto k (.insert login runId poolCap))
  | insert (login : Login) (runId : String) (poolCap : Nat) :
      StreamStep w k s (.insert login runId poolCap) .go (insertStep k login runId poolCap s)
  | pooled : StreamStep w k s (.pool 0) .go (s.goto k .reading)
  | pool {left : Nat} {way : SendVia} {s₁ : State}
      (sent : s.trySend k (.reqWorkConn {}, none) way = some s₁) :
      StreamStep w k s (.pool (left + 1)) (.via way) (s₁.goto k (.pool left))
  | frameEnds {msg : Option RawMsg} (ends : frameStep w k s msg = endReader k s) :
      StreamStep w k s .reading (.frame msg) (endReader k s)
  | frameProxy {frame : RawMsg} {np : NewProxy} (type : frame.1 = TYPE_NEW_PROXY)
      (decoded : (w.fromSlice frame.2).bind NewProxy.ofJson = some np) :
      StreamStep w k s .reading (.frame (some frame)) (s.goto k (.entering np))
  | frameClose {frame : RawMsg} {cp : CloseProxy} (type : frame.1 = TYPE_CLOSE_PROXY)
      (decoded : (w.fromSlice frame.2).bind CloseProxy.ofJson = some cp) :
      StreamStep w k s .reading (.frame (some frame)) (s.goto k (.closing cp.proxyName))
  | framePing {frame : RawMsg} {ping : Ping} (type : frame.1 = TYPE_PING)
      (decoded : (w.fromSlice frame.2).bind Ping.ofJson = some ping) :
      StreamStep w k s .reading (.frame (some frame)) (s.goto k (.pinging ping))
  | frameIgnored {msg : Option RawMsg} (ignored : frameStep w k s msg = s) :
      StreamStep w k s .reading (.frame msg) s
  | cancelled (cut : s.tokenCancelled k = true) :
      StreamStep w k s .reading .cancelled (endReader k s)
  | sessionOver (mux : (s.streams k).role = .muxControl) :
      StreamStep w k s .reading .sessionOver (endReader k s)
  | notEntered {np : NewProxy} (cut : s.tokenCancelled k = true) :
      StreamStep w k s (.entering np) .go (s.goto k .reading)
  | entered {np : NewProxy} (alive : ¬ s.tokenCancelled k = true) :
      StreamStep w k s (.entering np) .go
        ({ s.setReg s.nextReg { control := k, np := np } with nextReg := s.nextReg + 1 }.goto k
          (.registering s.nextReg .reserve))
  | registering {r : RegId} {pc : RegPc} {input : Input} {s' : State}
      (call : regStep w k r s pc input = some s') :
      StreamStep w k s (.registering r pc) input s'
  | closing {name : String} {s₁ : State} {returned : Bool}
      (closed : s.closeProxy .reader k name = some (s₁, returned)) :
      StreamStep w k s (.closing name) .go
        (s₁.goto k (if returned then .reading else .closing name))
  | pinging (ping : Ping) :
      StreamStep w k s (.pinging ping) .go (s.goto k (.pong (pongError w s.cfg.token ping)))
  | pong {error : String} {way : SendVia} {s₁ : State}
      (sent : s.trySend k (.pong { error := error }, none) way = some s₁) :
      StreamStep w k s (.pong error) (.via way) (s₁.goto k .reading)
  | ending (idle : (s.sweeps (.stream k)).idle = true) :
      StreamStep w k s .ending .go (s.goto k .joining)
  | joining (ended : (s.out k).ended = true) : StreamStep w k s .joining .go (s.goto k .done)
  | workUnknown {frame : RawMsg} (unknown : workLookup w k frame s = s.goto k .workReject) :
      StreamStep w k s (.workFrame frame) .go (s.goto k .workReject)
  | workFound {frame : RawMsg} {nwc : NewWorkConn} {c : StreamId}
      (decoded : (w.fromSlice frame.2).bind NewWorkConn.ofJson = some nwc)
      (found : (s.shared (s.streams k).epoch).controls.lookup nwc.runId = some c) :
      StreamStep w k s (.workFrame frame) .go (s.goto k (.workAuth nwc c))
  | workDenied {nwc : NewWorkConn} {c : StreamId} (given : nwc.privilegeKey ≠ "")
      (wrong : authOk w s.cfg.token nwc.timestamp nwc.privilegeKey = false) :
      StreamStep w k s (.workAuth nwc c) .go (s.goto k .workReject)
  | workAdmitted {nwc : NewWorkConn} {c : StreamId}
      (right : ¬ (nwc.privilegeKey ≠ "" ∧
        authOk w s.cfg.token nwc.timestamp nwc.privilegeKey = false)) :
      StreamStep w k s (.workAuth nwc c) .go (s.goto k (.workEnqueue c))
  | workReject (ok : Bool) : StreamStep w k s .workReject (.wrote ok) (s.goto k .done)
  | workEnqueue {c : StreamId} (room : (s.pool c).conns.length < Pool.capacity) :
      StreamStep w k s (.workEnqueue c) .go
        ((s.setPool c { s.pool c with conns := (s.pool c).conns ++ [k] }).goto k .done)

section Stream

variable {w : World} {k : StreamId} {s s' : State}

theorem firstStep_cases {msg : Option RawMsg} (move : firstStep w k s msg = s') :
    StreamStep w k s .first (.frame msg) s' := by
  cases msg with
  | none =>
      cases move
      exact .closed
  | some frame =>
      have sameRole : ((s.setStream k { s.streams k with firstFrame := some frame }).streams k).role =
          (s.streams k).role := by
        simp only [State.setStream, Function.update_self]
      have shown := move
      unfold firstStep at shown
      dsimp only at shown
      rw [sameRole] at shown
      split at shown
      · next direct =>
          split at shown
          · next type =>
              split at shown <;> subst shown
              · next decoded => exact .login type decoded
              · exact .dropped move
          · split at shown <;> subst shown
            · next type => exact .workConn (by rw [direct]; nofun) fun _ => type
            · exact .dropped move
      · split at shown
        · next type =>
            split at shown <;> subst shown
            · next decoded => exact .login type decoded
            · exact .dropped move
        · subst shown
          exact .dropped move
      · next role =>
          subst shown
          exact .workConn (by rw [role]; nofun) (by rw [role]; nofun)

theorem frameStep_cases {msg : Option RawMsg} (move : frameStep w k s msg = s') :
    StreamStep w k s .reading (.frame msg) s' := by
  cases msg with
  | none =>
      cases move
      exact .frameEnds rfl
  | some frame =>
      have shown := move
      unfold frameStep at shown
      dsimp only at shown
      split at shown
      · next type =>
          split at shown <;> subst shown
          · next decoded => exact .frameProxy type decoded
          · exact .frameEnds move
      · split at shown
        · next type =>
            split at shown <;> subst shown
            · next decoded => exact .frameClose type decoded
            · exact .frameEnds move
        · split at shown
          · next type =>
              split at shown <;> subst shown
              · next decoded => exact .framePing type decoded
              · exact .frameEnds move
          · repeat' split at shown
            all_goals subst shown
            all_goals first
              | exact .frameIgnored move
              | exact .frameEnds move

theorem workLookup_cases {frame : RawMsg} (move : workLookup w k frame s = s') :
    StreamStep w k s (.workFrame frame) .go s' := by
  have shown := move
  unfold workLookup at shown
  split at shown
  · subst shown
    exact .workUnknown move
  · split at shown
    · subst shown
      exact .workUnknown move
    · next decoded =>
        split at shown <;> subst shown
        · exact .workUnknown move
        · next found => exact .workFound decoded found

theorem streamStep_cases {pc : StreamPc} {input : Input}
    (move : streamStep w k s pc input = some s') : StreamStep w k s pc input s' := by
  cases pc with
  | unopened => cases input <;> cases move
  | done => cases input <;> cases move
  | first =>
      cases input <;> cases move
      exact firstStep_cases rfl
  | auth login =>
      cases input <;> cases move
      unfold authStep
      split
      · next right => exact .authorized right
      · next wrong => exact .refused wrong
  | denied =>
      cases input <;> cases move
      exact .denied _
  | count login =>
      cases input <;> cases move
      exact .count login
  | lookup login =>
      cases input <;> cases move
      exact .lookup login _
  | replace login runId =>
      cases input <;> try cases move
      rcases Option.ite_none_right_eq_some.mp move with ⟨idle, moved⟩
      cases moved
      exact .replace idle
  | reply login runId poolCap =>
      cases input <;> try cases move
      next ok =>
        cases ok with
        | false =>
            cases move
            exact .unreplied login runId poolCap
        | true =>
            unfold streamStep at move
            dsimp only at move
            rw [if_pos rfl] at move
            rcases Option.ite_none_right_eq_some.mp move with ⟨fit, moved⟩
            cases moved
            exact .replied fit
  | online login runId poolCap =>
      cases input <;> cases move
      exact .online login runId poolCap
  | insert login runId poolCap =>
      cases input <;> cases move
      exact .insert login runId poolCap
  | pool left =>
      cases left with
      | zero =>
          cases input <;> cases move
          exact .pooled
      | succ left =>
          cases input <;> try cases move
          rcases Option.map_eq_some_iff.mp move with ⟨sent, sentEq, rfl⟩
          exact .pool sentEq
  | reading =>
      cases input <;> try cases move
      · exact frameStep_cases rfl
      · rcases Option.ite_none_right_eq_some.mp move with ⟨cut, moved⟩
        cases moved
        exact .cancelled cut
      · rcases Option.ite_none_right_eq_some.mp move with ⟨mux, moved⟩
        cases moved
        exact .sessionOver mux
  | entering np =>
      cases input <;> cases move
      unfold enterStep
      split
      · next cut => exact .notEntered cut
      · next alive => exact .entered alive
  | registering r pc => exact .registering move
  | closing name =>
      cases input <;> try cases move
      rcases Option.map_eq_some_iff.mp move with ⟨⟨s₁, returned⟩, closed, rfl⟩
      exact .closing closed
  | pinging ping =>
      cases input <;> cases move
      exact .pinging ping
  | pong error =>
      cases input <;> try cases move
      rcases Option.map_eq_some_iff.mp move with ⟨sent, sentEq, rfl⟩
      exact .pong sentEq
  | ending =>
      cases input <;> try cases move
      rcases Option.ite_none_right_eq_some.mp move with ⟨idle, moved⟩
      cases moved
      exact .ending idle
  | joining =>
      cases input <;> try cases move
      rcases Option.ite_none_right_eq_some.mp move with ⟨ended, moved⟩
      cases moved
      exact .joining ended
  | workFrame frame =>
      cases input <;> cases move
      exact workLookup_cases rfl
  | workAuth nwc c =>
      cases input <;> cases move
      unfold workAuth
      split
      · next wrong => exact .workDenied wrong.1 wrong.2
      · next right => exact .workAdmitted right
  | workReject =>
      cases input <;> cases move
      exact .workReject _
  | workEnqueue c =>
      cases input <;> try cases move
      rcases Option.ite_none_right_eq_some.mp move with ⟨room, moved⟩
      cases moved
      exact .workEnqueue room

end Stream

/-! ## Teardown -/

/-- One step of a call of `teardown` of `c`: the state with what the step does to the shared data,
and where the caller stands next. -/
inductive TeardownStep (x : Caller) (c : StreamId) (s : State) :
    TeardownPc → SweepInput → State → Option (StreamId × TeardownPc) → Prop
  | cancel :
      TeardownStep x c s .cancel .go (s.setControl c { s.ctl c with cancelled := true })
        (some (c, .drain))
  | lock (free : (s.pool c).holder = none) :
      TeardownStep x c s .drain .go
        (s.setPool c { s.pool c with holder := some (.teardown x) }) (some (c, .draining))
  | locked {holder : PoolHolder} (held : (s.pool c).holder = some holder) :
      TeardownStep x c s .drain .go s (some (c, .collect))
  | drain : TeardownStep x c s .draining .go (s.setPool c {}) (some (c, .collect))
  | collect {list : List String} (unlocked : s.closing c = none) (distinct : list.Nodup)
      (lists : list.toFinset = (s.proxies c).keys) :
      TeardownStep x c s .collect (.names list) s (some (c, .close list))
  | close {name : String} {rest : List String} {s₁ : State} {returned : Bool}
      (closed : s.closeProxy (.teardown x) c name = some (s₁, returned)) :
      TeardownStep x c s (.close (name :: rest)) .go s₁
        (some (c, .close (if returned then rest else name :: rest)))
  | mine (own : (s.shared (s.ctl c).epoch).controls.lookup (s.ctl c).runId = some c) :
      TeardownStep x c s (.close []) .go s (some (c, .remove))
  | replaced (other : (s.shared (s.ctl c).epoch).controls.lookup (s.ctl c).runId ≠ some c) :
      TeardownStep x c s (.close []) .go s (some (c, .offline))
  | remove :
      TeardownStep x c s .remove .go
        (s.setShared (s.ctl c).epoch
          { s.shared (s.ctl c).epoch with
            controls := (s.shared (s.ctl c).epoch).controls.erase (s.ctl c).runId })
        (some (c, .offline))
  | clear (online : (s.ctl c).online = true) :
      TeardownStep x c s .offline .go (s.setControl c { s.ctl c with online := false })
        (some (c, .uncount))
  | cleared (offline : (s.ctl c).online = false) : TeardownStep x c s .offline .go s none
  | uncount :
      TeardownStep x c s .uncount .go { s with clientsOnline := s.clientsOnline - 1 } none

/-- The steps of a caller of `teardown`: in a call, or to the next control of its list. -/
inductive SweepStep (x : Caller) (s : State) : SweepInput → State → Prop
  | call {c : StreamId} {pc : TeardownPc} {input : SweepInput} {s₁ : State}
      {next : Option (StreamId × TeardownPc)} (stage : (s.sweeps x).current = some (c, pc))
      (call : TeardownStep x c s pc input s₁ next) :
      SweepStep x s input (s₁.setSweep x { s.sweeps x with current := next })
  | begins {c : StreamId} {rest : List StreamId} {secs : Nat}
      (free : (s.sweeps x).current = none) (todo : (s.sweeps x).todo = c :: rest)
      (wants : wanted s x c secs = true) :
      SweepStep x s (.idle secs) (s.setSweep x { todo := rest, current := some (c, .cancel) })
  | skips {c : StreamId} {rest : List StreamId} {secs : Nat}
      (free : (s.sweeps x).current = none) (todo : (s.sweeps x).todo = c :: rest)
      (unwanted : ¬ wanted s x c secs = true) :
      SweepStep x s (.idle secs) (s.setSweep x { todo := rest, current := none })

section Teardown

variable {x : Caller} {s s' : State} {input : SweepInput}

theorem teardownStep_cases {c : StreamId} {pc : TeardownPc}
    (move : teardownStep x c s pc input = some s') :
    ∃ s₁ next, TeardownStep x c s pc input s₁ next ∧
      s' = s₁.setSweep x { s.sweeps x with current := next } := by
  cases pc with
  | cancel =>
      cases input <;> cases move
      exact ⟨_, _, .cancel, rfl⟩
  | drain =>
      cases input <;> try cases move
      unfold teardownStep at move
      dsimp only at move
      split at move
      · next free =>
          cases move
          exact ⟨_, _, .lock free, rfl⟩
      · next held =>
          cases move
          exact ⟨_, _, .locked held, rfl⟩
  | draining =>
      cases input <;> cases move
      exact ⟨_, _, .drain, rfl⟩
  | collect =>
      cases input <;> try cases move
      rcases Option.ite_none_right_eq_some.mp move with ⟨⟨unlocked, distinct, lists⟩, moved⟩
      cases moved
      exact ⟨_, _, .collect (Option.isNone_iff_eq_none.mp unlocked) distinct lists, rfl⟩
  | close names =>
      cases names with
      | nil =>
          cases input <;> cases move
          by_cases own : (s.shared (s.ctl c).epoch).controls.lookup (s.ctl c).runId = some c
          · refine ⟨_, _, .mine own, ?_⟩
            simp only [own, decide_true, if_true]
          · refine ⟨_, _, .replaced own, ?_⟩
            simp only [own, decide_false, Bool.false_eq_true, if_false]
      | cons name rest =>
          cases input <;> try cases move
          rcases Option.map_eq_some_iff.mp move with ⟨⟨s₁, returned⟩, closed, rfl⟩
          exact ⟨_, _, .close closed, rfl⟩
  | remove =>
      cases input <;> cases move
      exact ⟨_, _, .remove, rfl⟩
  | offline =>
      cases input <;> try cases move
      unfold teardownStep at move
      dsimp only at move
      split at move
      · next online =>
          cases move
          exact ⟨_, _, .clear online, rfl⟩
      · next offline =>
          cases move
          exact ⟨_, _, .cleared (Bool.eq_false_of_not_eq_true offline), rfl⟩
  | uncount =>
      cases input <;> cases move
      exact ⟨_, _, .uncount, rfl⟩

theorem sweepStep_cases (move : sweepStep x input s = some s') : SweepStep x s input s' := by
  unfold sweepStep at move
  split at move
  · next c pc stage =>
      rcases teardownStep_cases move with ⟨s₁, next, call, rfl⟩
      exact .call stage call
  · next free =>
      split at move
      · next todo =>
          split at move
          · next wants =>
              cases move
              exact .begins free todo wants
          · next unwanted =>
              cases move
              exact .skips free todo unwanted
      · cases move

end Teardown

/-! ## The tasks on the side -/

/-- The steps of the writer task of `c`, with the state after each. -/
inductive WriterStep (c : StreamId) (s : State) : Writer → WriterInput → State → Prop
  | take {item : Outgoing} {rest : List Outgoing} (created : (s.ctl c).created = true)
      (queue : (s.out c).queue = item :: rest) :
      WriterStep c s .waiting .take
        (s.setOut c { s.out c with queue := rest, writer := .writing item })
  | closed (created : (s.ctl c).created = true) (cut : s.tokenCancelled c = true) :
      WriterStep c s .waiting .cancelled (endWriter c false s)
  | abandoned {item : Outgoing} (cut : s.tokenCancelled c = true) :
      WriterStep c s (.writing item) .cancelled (endWriter c false s)
  | wrote {item : Outgoing} (fit : fits item.1 = true) :
      WriterStep c s (.writing item) (.wrote true)
        (s.setOut c
          { s.out c with writer := .waiting, written := noteWritten item (s.out c).written })
  | failed (item : Outgoing) : WriterStep c s (.writing item) (.wrote false) (endWriter c true s)

/-- The steps of the listener task of `r`, with the state after each. -/
inductive ListenerStep (r : RegId) (s : State) : Listener → ListenerInput → State → Prop
  | accept (port : UInt16) :
      ListenerStep r s (.running .tcp port) .accept
        ({ s with
          totalUserConns := s.totalUserConns + 1
          nextBridge := s.nextBridge + 1 }.setBridge s.nextBridge { reg := r, pc := .pick })
  | serve {port : UInt16} (idle : s.workerIdle r = true) (alive : s.ptkCancelled r = false) :
      ListenerStep r s (.running .udp port) .next
        ({ s.setReg r { s.regs r with worker := some s.nextBridge } with
          nextBridge := s.nextBridge + 1 }.setBridge s.nextBridge { reg := r, pc := .pick })
  | exit {kind : ProxyType} {port : UInt16} (idle : kind = .udp → s.workerIdle r = true)
      (cut : s.ptkCancelled r = true) :
      ListenerStep r s (.running kind port) .exit
        (s.setReg r { s.regs r with listener := .exited kind port })

/-- One step of the bridge `b` of a proxy of `c`: the state with what the step does to the pool and
the outbox of `c`, and where the bridge stands next. -/
inductive BridgeStep (b : BridgeId) (c : StreamId) (s : State) :
    BridgePc → BridgeInput → State → BridgePc → Prop
  | pick (free : (s.pool c).holder = none) :
      BridgeStep b c s .pick .go (s.setPool c { s.pool c with holder := some (.bridge b) }) .picking
  | empty (empty : (s.pool c).conns = []) :
      BridgeStep b c s .picking .go (s.setPool c { s.pool c with holder := none }) .request
  | picked {work : StreamId} {rest : List StreamId} (found : (s.pool c).conns = work :: rest) :
      BridgeStep b c s .picking .go (s.setPool c { conns := rest, holder := none })
        (.replenish work)
  | replenish {work : StreamId} {way : SendVia} {s₁ : State}
      (sent : s.trySend c (.reqWorkConn {}, none) way = some s₁) :
      BridgeStep b c s (.replenish work) (.via way) s₁ (.start work)
  | request {way : SendVia} {s₁ : State}
      (sent : s.trySend c (.reqWorkConn {}, none) way = some s₁) :
      BridgeStep b c s .request (.via way) s₁ .lock
  | lock (free : (s.pool c).holder = none) :
      BridgeStep b c s .lock .go (s.setPool c { s.pool c with holder := some (.bridge b) }) .wait
  | delivered {work : StreamId} {rest : List StreamId} (found : (s.pool c).conns = work :: rest) :
      BridgeStep b c s .wait .go (s.setPool c { conns := rest, holder := none }) (.start work)
  | timeout : BridgeStep b c s .wait .timeout (s.setPool c { s.pool c with holder := none }) .over
  | cancelled (cut : s.tokenCancelled c = true) :
      BridgeStep b c s .wait .cancelled (s.setPool c { s.pool c with holder := none }) .over
  | start (work : StreamId) (ok : Bool) :
      BridgeStep b c s (.start work) (.wrote ok) s (if ok then .started work else .over)
  | started (work : StreamId) : BridgeStep b c s (.started work) .go s .over

section Aside

variable {s s' : State}

theorem writerStep_cases {c : StreamId} {writer : Writer} {input : WriterInput}
    (move : writerStep c s writer input = some s') : WriterStep c s writer input s' := by
  unfold writerStep at move
  split at move
  · rcases Option.ite_none_right_eq_some.mp move with ⟨created, taken⟩
    split at taken
    · cases taken
    · next queue =>
        cases taken
        exact .take created queue
  · rcases Option.ite_none_right_eq_some.mp move with ⟨⟨created, cut⟩, moved⟩
    cases moved
    exact .closed created cut
  · rcases Option.ite_none_right_eq_some.mp move with ⟨cut, moved⟩
    cases moved
    exact .abandoned cut
  · rcases Option.ite_none_right_eq_some.mp move with ⟨fit, moved⟩
    cases moved
    exact .wrote fit
  · cases move
    exact .failed _
  · cases move

theorem listenerStep_cases {r : RegId} {listener : Listener} {input : ListenerInput}
    (move : listenerStep r s listener input = some s') : ListenerStep r s listener input s' := by
  unfold listenerStep at move
  split at move
  · cases move
    exact .accept _
  · rcases Option.ite_none_right_eq_some.mp move with ⟨⟨idle, alive⟩, moved⟩
    cases moved
    exact .serve idle alive
  · rcases Option.ite_none_right_eq_some.mp move with ⟨cut, moved⟩
    cases moved
    exact .exit nofun cut
  · rcases Option.ite_none_right_eq_some.mp move with ⟨⟨idle, cut⟩, moved⟩
    cases moved
    exact .exit (fun _ => idle) cut
  · cases move

theorem bridgeStep_cases {b : BridgeId} {c : StreamId} {pc : BridgePc} {input : BridgeInput}
    (move : bridgeStep b c s pc input = some s') :
    ∃ s₁ next, BridgeStep b c s pc input s₁ next ∧
      s' = s₁.setBridge b { s₁.bridges b with pc := next } := by
  unfold bridgeStep at move
  split at move
  · split at move
    · cases move
    · next free =>
        cases move
        exact ⟨_, _, .pick free, rfl⟩
  · split at move
    · next none =>
        cases move
        exact ⟨_, _, .empty none, rfl⟩
    · next found =>
        cases move
        exact ⟨_, _, .picked found, rfl⟩
  · rcases Option.map_eq_some_iff.mp move with ⟨s₁, sent, rfl⟩
    exact ⟨_, _, .replenish sent, rfl⟩
  · rcases Option.map_eq_some_iff.mp move with ⟨s₁, sent, rfl⟩
    exact ⟨_, _, .request sent, rfl⟩
  · split at move
    · cases move
    · next free =>
        cases move
        exact ⟨_, _, .lock free, rfl⟩
  · split at move
    · cases move
    · next found =>
        cases move
        exact ⟨_, _, .delivered found, rfl⟩
  · cases move
    exact ⟨_, _, .timeout, rfl⟩
  · rcases Option.ite_none_right_eq_some.mp move with ⟨cut, moved⟩
    cases moved
    exact ⟨_, _, .cancelled cut, rfl⟩
  · cases move
    exact ⟨_, _, .start _ _, rfl⟩
  · cases move
    exact ⟨_, _, .started _, rfl⟩
  · cases move

end Aside

end Remgr.Frps.Server
