/-
Module: Remgr.Proofs.ReplySize
Purpose: Whether the server can send what it builds for a registration. The responses repeat the
  texts of the client, so a request within the limit of `read_frame` can have an answer beyond the
  limit of `write_frame`. The condition says, branch by branch, how much room the texts leave; in
  every run that meets it everything the server builds fits.
Trusted boundary: none
Main exports: callRoom, Roomy, callRoom_iff, frames_fit, wide_name_overflows
-/
import Remgr.Proofs.Calls
import Remgr.Proofs.Listeners
import Remgr.Proofs.FrameSize

namespace Remgr.Frps.Server

open Remgr.Lib
open Remgr.Lib.Json

/-! ## The condition -/

/-- There is room for an error text of this size beside the name of the proxy. -/
def errorRoom (np : NewProxy) (text : Nat) : Bool :=
  decide (nameRoom np.proxyName + text + 12 ≤ MAX_MSG_LEN.toNat)

/-- The room the next step of a call needs, from what it is about to look at. Numbers are the sizes
of the fixed parts of the texts; only the branch that is taken counts. -/
def callRoom (w : World) (s : State) (k : StreamId) (r : RegId) : RegPc → Input → Bool
  | .reserve, _ =>
      let np := (s.regs r).np
      if np.proxyName ∈ s.proxies k then errorRoom np (textSize np.proxyName + 29)
      else if np.useEncryption || np.useCompression then errorRoom np 58
      else
        match ProxyType.ofText np.proxyType with
        | some _ => true
        | none => errorRoom np (textSize np.proxyType + 43)
  | .config _, _ =>
      let np := (s.regs r).np
      match remotePortOf np with
      | none => errorRoom np (textSize (toString np.remotePort.toInt) + 20)
      | some port =>
          if s.cfg.portAllowed port then true
          else errorRoom np (textSize (toString port.toNat) + 24)
  | .port kind port bindAddr, _ =>
      let np := (s.regs r).np
      let parsed := (w.parseAddr (bindAddr ++ ":" ++ toString port.toNat)).isSome
      match ((s.shared (s.epochOf k)).ports kind).lookup port with
      | some existing =>
          if existing ≠ np.proxyName then
            errorRoom np (textSize (toString port.toNat) + textSize existing + 35)
          else parsed || errorRoom np 48
      | none => parsed || errorRoom np 48
  | .bind kind port addr attempt, .bound result =>
      let np := (s.regs r).np
      let failed (text : String) :=
        errorRoom np (textSize (toString port.toNat) + textSize text + 18)
      match result with
      | .bound =>
          decide (nameRoom np.proxyName + addrRoom addr + 1 ≤ MAX_MSG_LEN.toNat) &&
            decide (startRoom np.proxyName kind ≤ MAX_MSG_LEN.toNat)
      | .addrInUse text => decide (attempt + 1 < bindAttempts) || failed text
      | .failed text => failed text
  | _, _ => true

/-- Every step of a call has the room it needs. -/
def Roomy (w : World) (s : State) : Action → Prop
  | .stream k input => ∀ r pc, (s.streams k).pc = .registering r pc →
      callRoom w s k r pc input = true
  | _ => True

/-! ## Where a call stands -/

/-- What a call has decided to send, and what it has promised to serve, fits. -/
def RegPc.Fits (np : NewProxy) : RegPc → Prop
  | .release _ _ error => fits (.newProxyResp (proxyError np error)) = true
  | .drop error => fits (.newProxyResp (proxyError np error)) = true
  | .reply resp serve => fits (.newProxyResp resp) = true ∧
      ∀ kind p, serve = some (kind, p) → ∀ m, Builds np.proxyName kind m → fits m = true
  | .flush serve =>
      ∀ kind p, serve = some (kind, p) → ∀ m, Builds np.proxyName kind m → fits m = true
  | .late kind _ => ∀ m, Builds np.proxyName kind m → fits m = true
  | .publish kind _ => ∀ m, Builds np.proxyName kind m → fits m = true
  | _ => True

section Branches

variable {np : NewProxy}

/-- The room for an error is exactly what its response needs. -/
theorem errorRoom_iff {error : String} {text : Nat} (size : textSize error = text)
    (filled : 0 < text) :
    errorRoom np text = true ↔ fits (.newProxyResp (proxyError np error)) = true := by
  have nonempty : error ≠ "" := by
    rintro rfl
    have empty : textSize "" = 0 := by decide
    omega
  rw [fits_proxyError np nonempty, size, errorRoom, decide_eq_true_eq]
  exact Iff.rfl

theorem nameInUse_room : errorRoom np (textSize np.proxyName + 29) = true ↔
    fits (.newProxyResp (proxyError np (nameInUse np))) = true := by
  have fixed : textSize "proxy name " = 11 ∧ textSize " is already in use" = 18 := by decide
  apply errorRoom_iff
  · rw [nameInUse, textSize_append, textSize_append, fixed.1, fixed.2]
    omega
  · omega

theorem typeUnsupported_room : errorRoom np (textSize np.proxyType + 43) = true ↔
    fits (.newProxyResp (proxyError np (typeUnsupported np))) = true := by
  have fixed : textSize "proxy type \"" = 13 ∧
      textSize "\" not supported by remgr-frps" = 30 := by decide
  apply errorRoom_iff
  · rw [typeUnsupported, textSize_append, textSize_append, fixed.1, fixed.2]
    omega
  · omega

theorem portInvalid_room : errorRoom np (textSize (toString np.remotePort.toInt) + 20) = true ↔
    fits (.newProxyResp (proxyError np (portInvalid np))) = true := by
  have fixed : textSize "invalid remote port " = 20 := by decide
  have size : ∀ digits, textSize ("invalid remote port " ++ digits) = textSize digits + 20 := by
    intro digits
    rw [textSize_append, fixed, Nat.add_comm]
  exact errorRoom_iff (size _) (Nat.succ_pos _)

theorem portNotAllowed_room (p : UInt16) :
    errorRoom np (textSize (toString p.toNat) + 24) = true ↔
      fits (.newProxyResp (proxyError np (portNotAllowed p))) = true := by
  have fixed : textSize "remote port " = 12 ∧ textSize " not allowed" = 12 := by decide
  apply errorRoom_iff
  · rw [portNotAllowed, textSize_append, textSize_append, fixed.1, fixed.2]
    omega
  · omega

theorem bindFailed_room (kind : ProxyType) (p : UInt16) (text : String) :
    errorRoom np (textSize (toString p.toNat) + textSize text + 18) = true ↔
      fits (.newProxyResp (proxyError np (bindFailed kind p text))) = true := by
  have fixed : textSize "bind " = 5 ∧ textSize " " = 1 ∧ textSize " failed: " = 9 := by decide
  have kindSize : textSize kind.text = 3 := by cases kind <;> decide
  apply errorRoom_iff
  · rw [bindFailed, textSize_append, textSize_append, textSize_append, textSize_append,
      textSize_append, fixed.1, fixed.2.1, fixed.2.2, kindSize]
    omega
  · omega

theorem portTaken_room {shared : Shared} {kind : ProxyType} {p : UInt16} {text : String}
    (refused : shared.registerProxyPort kind p np.proxyName = .error text) :
    ∃ existing, (shared.ports kind).lookup p = some existing ∧ existing ≠ np.proxyName ∧
      (errorRoom np (textSize (toString p.toNat) + textSize existing + 35) = true ↔
        fits (.newProxyResp (proxyError np text)) = true) := by
  have fixed : textSize "remote port " = 12 ∧ textSize " already used by proxy " = 23 := by decide
  unfold Shared.registerProxyPort at refused
  split at refused
  · next existing found =>
      split at refused
      · next other =>
          cases refused
          refine ⟨existing, found, other, ?_⟩
          apply errorRoom_iff
          · rw [textSize_append, textSize_append, textSize_append, fixed.1, fixed.2]
            omega
          · omega
      · cases refused
  · cases refused

theorem portHeld_free {shared after : Shared} {kind : ProxyType} {p : UInt16} {name : String}
    (registered : shared.registerProxyPort kind p name = .ok after) :
    (shared.ports kind).lookup p = some name ∨ (shared.ports kind).lookup p = none := by
  unfold Shared.registerProxyPort at registered
  split at registered
  · next existing found =>
      split at registered
      · cases registered
      · next own =>
          rw [not_not.mp own] at found
          exact .inl found
  · next none => exact .inr none

theorem bound_room (kind : ProxyType) (p : UInt16) (addr : String) :
    (decide (nameRoom np.proxyName + addrRoom addr + 1 ≤ MAX_MSG_LEN.toNat) &&
        decide (startRoom np.proxyName kind ≤ MAX_MSG_LEN.toNat)) = true ↔
      (RegPc.reply { proxyName := np.proxyName, remoteAddr := addr, error := "" }
        (some (kind, p))).Fits np := by
  have limit : MAX_MSG_LEN.toNat = 10240 := rfl
  rw [Bool.and_eq_true, decide_eq_true_eq, decide_eq_true_eq, limit, ← fits_bound,
    ← builds_fit_iff]
  constructor
  · rintro ⟨response, builds⟩
    refine ⟨response, ?_⟩
    intro kind' p' same
    cases same
    exact builds
  · rintro ⟨response, builds⟩
    exact ⟨response, builds kind p rfl⟩

end Branches

section Exact

variable {w : World} {s s₁ : State} {k : StreamId} {r : RegId} {pc : RegPc} {input : Input}

/-- The branches that go on without a decision need nothing. -/
theorem free_iff {p : Prop} (holds : p) : true = true ↔ p := ⟨fun _ => holds, fun _ => rfl⟩

theorem callRoom_reserve : callRoom w s k r .reserve input = true ↔
    if s.nameOf r ∈ s.proxies k then
      fits (.newProxyResp (proxyError (s.regs r).np (nameInUse (s.regs r).np))) = true
    else (afterReserve (s.regs r).np).Fits (s.regs r).np := by
  unfold callRoom State.nameOf
  dsimp only
  by_cases inUse : (s.regs r).np.proxyName ∈ s.proxies k
  · rw [if_pos inUse, if_pos inUse]
    exact nameInUse_room
  · rw [if_neg inUse, if_neg inUse]
    unfold afterReserve
    split
    · exact errorRoom_iff (by decide) (by decide)
    · cases ProxyType.ofText (s.regs r).np.proxyType with
      | some kind => exact free_iff trivial
      | none => exact typeUnsupported_room

theorem callRoom_config (kind : ProxyType) : callRoom w s k r (.config kind) input = true ↔
    (afterConfig s.cfg kind (s.regs r).np).Fits (s.regs r).np := by
  unfold callRoom afterConfig
  dsimp only
  cases remotePortOf (s.regs r).np with
  | none => exact portInvalid_room
  | some port =>
      dsimp only
      cases s.cfg.portAllowed port with
      | true => exact free_iff trivial
      | false => exact portNotAllowed_room port

theorem callRoom_port_taken {kind : ProxyType} {p : UInt16} {bindAddr text : String}
    (refused : (s.shared (s.epochOf k)).registerProxyPort kind p (s.nameOf r) = .error text) :
    callRoom w s k r (.port kind p bindAddr) input = true ↔
      fits (.newProxyResp (proxyError (s.regs r).np text)) = true := by
  rcases portTaken_room refused with ⟨existing, found, other, room⟩
  unfold callRoom
  dsimp only
  rw [found]
  dsimp only
  rw [if_pos other]
  exact room

theorem callRoom_port_held {kind : ProxyType} {p : UInt16} {bindAddr : String} {shared : Shared}
    (registered : (s.shared (s.epochOf k)).registerProxyPort kind p (s.nameOf r) = .ok shared) :
    callRoom w s k r (.port kind p bindAddr) input = true ↔
      (afterPort w kind p bindAddr).Fits (s.regs r).np := by
  have parsed : ((w.parseAddr (bindAddr ++ ":" ++ toString p.toNat)).isSome ||
      errorRoom (s.regs r).np 48) = true ↔ (afterPort w kind p bindAddr).Fits (s.regs r).np := by
    unfold afterPort
    cases w.parseAddr (bindAddr ++ ":" ++ toString p.toNat) with
    | none =>
        rw [Option.isSome_none, Bool.false_or]
        exact errorRoom_iff (by decide) (by decide)
    | some addr => exact free_iff trivial
  unfold callRoom
  dsimp only
  rcases portHeld_free registered with own | free
  · have mine : ¬ s.nameOf r ≠ (s.regs r).np.proxyName := not_not.mpr rfl
    rw [own]
    dsimp only
    rw [if_neg mine]
    exact parsed
  · rw [free]
    exact parsed

theorem callRoom_bind (kind : ProxyType) (p : UInt16) (addr : String) (attempt : Nat)
    (result : BindResult) :
    callRoom w s k r (.bind kind p addr attempt) (.bound result) = true ↔
      (afterBind (s.regs r).np kind p addr attempt result).Fits (s.regs r).np := by
  unfold callRoom afterBind
  dsimp only
  cases result with
  | bound => exact bound_room kind p addr
  | failed text => exact bindFailed_room kind p text
  | addrInUse text =>
      dsimp only
      by_cases again : attempt + 1 < bindAttempts
      · rw [if_pos again, decide_eq_true again, Bool.true_or]
        exact free_iff trivial
      · rw [if_neg again, decide_eq_false again, Bool.false_or]
        exact bindFailed_room kind p text

theorem afterFlush_fits {np : NewProxy} {serve : Option (ProxyType × UInt16)}
    (serves : ∀ kind p, serve = some (kind, p) → ∀ m, Builds np.proxyName kind m → fits m = true) :
    ∀ q pc', afterFlush r serve = .registering q pc' → pc'.Fits np := by
  intro q pc' same
  cases serve with
  | none => cases same
  | some served =>
      cases same
      exact serves _ _ rfl

/-- The condition is exact for one step: when what the call has decided so far fits, the step has
the room it needs if and only if what the call has decided afterwards fits as well. -/
theorem callRoom_iff {next : StreamPc} (call : CallStep w k r s pc input s₁ next)
    (fitting : pc.Fits (s.regs r).np) :
    callRoom w s k r pc input = true ↔
      ∀ q pc', next = .registering q pc' → pc'.Fits (s.regs r).np := by
  have sole : ∀ {pc' : RegPc}, (∀ q pc'', StreamPc.registering r pc' = .registering q pc'' →
      pc''.Fits (s.regs r).np) ↔ pc'.Fits (s.regs r).np := by
    intro pc'
    constructor
    · intro all
      exact all r pc' rfl
    · intro one q pc'' same
      cases same
      exact one
  cases call with
  | taken _ inUse =>
      rw [sole, callRoom_reserve, if_pos inUse]
      exact ⟨fun fine => ⟨fine, nofun⟩, fun both => both.1⟩
  | reserved _ free => rw [sole, callRoom_reserve, if_neg free]
  | config kind => rw [sole, callRoom_config]
  | portTaken refused =>
      rw [sole, callRoom_port_taken refused]
      exact Iff.rfl
  | portHeld registered => rw [sole, callRoom_port_held registered]
  | bind kind p addr attempt result => rw [sole, callRoom_bind]
  | release kind p error =>
      rw [sole]
      exact free_iff fitting
  | drop _ error =>
      rw [sole]
      exact free_iff ⟨fitting, nofun⟩
  | reply sent =>
      refine free_iff ?_
      split
      · exact sole.mpr fitting.2
      · exact afterFlush_fits fitting.2
  | flush released => exact free_iff (afterFlush_fits fitting)
  | late kind p =>
      rw [sole]
      refine free_iff ?_
      split
      · trivial
      · exact fitting
  | undoRelease kind p =>
      rw [sole]
      exact free_iff trivial
  | undoClose _ =>
      refine free_iff ?_
      split
      · nofun
      · exact sole.mpr trivial
  | publish kind p => exact free_iff nofun

end Exact

/-! ## The invariant -/

/-- Every message on its way fits, and so does everything a call or a listener is going to build. -/
structure Fitting (s : State) : Prop where
  held : ∀ ⦃c item⦄, (s.out c).Holds item → fits item.1 = true
  pongs : ∀ ⦃k error⦄, (s.streams k).pc = .pong error →
    error = "" ∨ error = "authentication failed"
  call : ∀ ⦃k r pc⦄, (s.streams k).pc = .registering r pc → pc.Fits (s.regs r).np
  served : ∀ ⦃r kind p⦄, (s.regs r).listener.published = some (kind, p) →
    ∀ m, Builds (s.nameOf r) kind m → fits m = true

namespace Fitting

variable {w : World} {sent : Outgoing → Prop} {s s' : State}

theorem of_keeps (fitting : Fitting s) (admission : Admission w s) (keeps : Keeps sent s s')
    (news : ∀ item, sent item → fits item.1 = true) : Fitting s' := by
  constructor
  · intro c item held
    rcases keeps.held c item held with before | new
    · exact fitting.held before
    · exact news item new
  · rw [keeps.streams]
    exact fitting.pongs
  · intro k r pc stage
    rw [keeps.streams] at stage
    rw [(keeps.known (admission.calls stage).known).2.1]
    exact fitting.call stage
  · intro r kind p shown
    rcases keeps.published admission shown with ⟨inRange, was⟩
    rw [State.nameOf, (keeps.known inRange).2.1]
    exact fitting.served was

/-- Requests for work connections and answers to a Ping are short. -/
theorem routine (fitting : Fitting s) (item : Outgoing) (sends : s.Routine item) :
    fits item.1 = true := by
  rcases sends with request | ⟨k, error, stage, pong⟩
  · rw [request]
    decide
  · rw [pong]
    rcases fitting.pongs stage with rfl | rfl
    · decide
    · decide

theorem setStream (fitting : Fitting s) {k : StreamId} {stream : Stream}
    (pongs : ∀ error, stream.pc = .pong error → error = "" ∨ error = "authentication failed")
    (call : ∀ r pc, stream.pc = .registering r pc → pc.Fits (s.regs r).np) :
    Fitting (s.setStream k stream) := by
  constructor
  · exact fitting.held
  · intro d error stage
    by_cases same : d = k
    · subst same
      rw [setStream_streams_self] at stage
      exact pongs error stage
    · rw [setStream_streams_of_ne _ _ same] at stage
      exact fitting.pongs stage
  · intro d r pc stage
    by_cases same : d = k
    · subst same
      rw [setStream_streams_self] at stage
      exact call r pc stage
    · rw [setStream_streams_of_ne _ _ same] at stage
      exact fitting.call stage
  · exact fitting.served

theorem of_outside (fitting : Fitting s) (admission : Admission w s) (outside : Outside s s') :
    Fitting s' := by
  induction outside with
  | keeps keeps => exact fitting.of_keeps admission keeps fitting.routine
  | stream k stream _ calls pongs inductionHypothesis =>
      apply inductionHypothesis.setStream pongs
      intro r pc stage
      rw [calls r pc stage]
      trivial
  | bridge b bridge _ _ inductionHypothesis =>
      exact ⟨inductionHypothesis.held, inductionHypothesis.pongs, inductionHypothesis.call,
        inductionHypothesis.served⟩

/-- A listener starts for a proxy whose users can be served. -/
theorem startListener (fitting : Fitting s) {r : RegId} {kind : ProxyType} {p : UInt16}
    (builds : ∀ m, Builds (s.nameOf r) kind m → fits m = true) :
    Fitting (s.setReg r { s.regs r with listener := .running kind p }) := by
  have np : ∀ q, ((s.setReg r { s.regs r with listener := .running kind p }).regs q).np =
      (s.regs q).np := by
    intro q
    by_cases same : q = r
    · subst same
      rw [setReg_regs_self]
    · rw [setReg_regs_of_ne _ _ same]
  constructor
  · exact fitting.held
  · exact fitting.pongs
  · intro k q pc stage
    rw [np]
    exact fitting.call stage
  · intro q kind' p' shown
    rw [State.nameOf, np]
    by_cases same : q = r
    · subst same
      rw [setReg_regs_self] at shown
      cases shown
      exact builds
    · rw [setReg_regs_of_ne _ _ same] at shown
      exact fitting.served shown

/-- The writer takes a message from the queue, writes it or ends: it never adds one. -/
theorem writerStep (fitting : Fitting s) {c : StreamId} {input : WriterInput}
    (move : writerStep c s (s.out c).writer input = some s') : Fitting s' := by
  have fewer : ∀ {out : Outbox}, (∀ item, out.Holds item → (s.out c).Holds item) →
      Fitting (s.setOut c out) := by
    intro out less
    refine ⟨?_, fitting.pongs, fitting.call, fitting.served⟩
    intro d item held
    by_cases same : d = c
    · subst same
      rw [show (s.setOut d out).out d = out from Function.update_self ..] at held
      exact fitting.held (less item held)
    · rw [show (s.setOut c out).out d = s.out d from Function.update_of_ne same ..] at held
      exact fitting.held held
  have ends : ∀ failed, Fitting (endWriter c failed s) := by
    intro failed
    refine fewer ?_
    rintro item (queued | writing)
    · cases queued
    · cases writing
  generalize (s.out c).writer = writer at move
  cases writerStep_cases move with
  | take _ queue =>
      refine fewer ?_
      rintro other (queued | writing)
      · left
        rw [queue]
        exact List.mem_cons_of_mem _ queued
      · cases writing
        left
        rw [queue]
        exact List.mem_cons_self ..
  | closed _ _ | abandoned _ => exact ends false
  | failed item => exact ends true
  | wrote _ =>
      refine fewer ?_
      rintro other (queued | writing)
      · exact .inl queued
      · cases writing

theorem callStep (fitting : Fitting s) (admission : Admission w s) {k : StreamId} {r : RegId}
    {pc : RegPc} {input : Input} {s₁ : State} {next : StreamPc}
    (stage : (s.streams k).pc = .registering r pc) (room : callRoom w s k r pc input = true)
    (call : CallStep w k r s pc input s₁ next) : Fitting (s₁.goto k next) := by
  have decided := (callRoom_iff call (fitting.call stage)).mp room
  have noPong : ∀ error, next ≠ .pong error := by
    cases call with
    | reply sent =>
        intro error
        unfold afterFlush
        split
        · nofun
        · split <;> nofun
    | flush released =>
        intro error
        unfold afterFlush
        split <;> nofun
    | undoClose _ =>
        intro error
        split <;> nofun
    | _ => nofun
  have reached : Fitting s₁ := by
    by_cases published : ∃ kind p, pc = .publish kind p
    · rcases published with ⟨kind, p, rfl⟩
      have builds := fitting.call stage
      cases call with
      | publish kind p =>
          have recorded : ∀ info, Fitting (s.setProxy info) := fun _ =>
            ⟨fitting.held, fitting.pongs, fitting.call, fitting.served⟩
          exact (recorded _).startListener builds
    · refine fitting.of_keeps admission (call.keeps ?_) ?_
      · intro kind p same
        exact published ⟨kind, p, same⟩
      · rintro item ⟨resp, serve, same, rfl⟩
        have response := fitting.call stage
        rw [same] at response
        exact response.1
  refine reached.setStream ?_ ?_
  · intro error same
    exact absurd same (noPong error)
  · intro q pc' same
    have sole : q = r := call.registering same
    subst sole
    rw [call.np]
    exact decided q pc' same

theorem step (fitting : Fitting s) (shape : Shape s) (admission : Admission w s) {a : Action}
    (roomy : Roomy w s a) (move : step w a s = some s') : Fitting s' := by
  rcases step_cases shape move with
    outside | ⟨k, input, r, pc, s₁, next, rfl, stage, call, rfl⟩ | ⟨c, input, rfl, moved⟩
  · exact fitting.of_outside admission outside
  · exact fitting.callStep admission stage (roomy r pc stage) call
  · exact fitting.writerStep moved

end Fitting

theorem server_fitting {w : World} {s : State} (run : (server w).Reaches (Roomy w) s) :
    Fitting s := by
  refine run.invariant ?_ ?_
  · rintro s ⟨cfg, rfl⟩
    constructor
    · rintro c item (queued | writing)
      · cases queued
      · cases writing
    · intro k error stage
      cases stage
    · intro k r pc stage
      cases stage
    · intro r kind p shown
      cases shown
  · intro s a s' before fitting roomy move
    exact fitting.step (server_shape before) (server_admission before) roomy move

/-- In every run whose calls have the room they need: every response a call is about to queue, every
message in the channel of a control or with its writer, and everything built for the users of an
accepted proxy is within the limit of `write_frame`. -/
theorem frames_fit {w : World} {s : State} (run : (server w).Reaches (Roomy w) s) :
    (∀ k r resp serve, (s.streams k).pc = .registering r (.reply resp serve) →
      fits (.newProxyResp resp) = true) ∧
    (∀ c item, (s.out c).Holds item → fits item.1 = true) ∧
    (∀ r kind p, (s.regs r).listener.published = some (kind, p) →
      ∀ m, Builds (s.nameOf r) kind m → fits m = true) := by
  have fitting := server_fitting run
  refine ⟨?_, fitting.held, fitting.served⟩
  intro k r resp serve stage
  exact (fitting.call stage).1

/-! ## A run that meets the condition, and a request whose answer cannot be sent -/

/-- The condition, checked where the stream is in a call. -/
def roomyCheck (w : World) (s : State) : Action → Bool
  | .stream k input =>
      match (s.streams k).pc with
      | .registering r pc => callRoom w s k r pc input
      | _ => true
  | _ => true

theorem roomy_of_check {w : World} {s : State} {a : Action} (checked : roomyCheck w s a = true) :
    Roomy w s a := by
  cases a with
  | stream k input =>
      intro r pc stage
      simp only [roomyCheck, stage] at checked
      exact checked
  | _ => trivial

/-- The proxy of the sample run is accepted, and all that is built for its users fits. -/
theorem frames_fit_one_proxy :
    ∃ s, (server sampleWorld).Reaches (Roomy sampleWorld) s ∧
      (s.regs 0).listener.published = some (.tcp, 6001) ∧
      ∀ m, Builds (s.nameOf 0) .tcp m → fits m = true := by
  have reached : ∃ s, (server sampleWorld).Reaches (Roomy sampleWorld) s ∧
      decide ((s.regs 0).listener.published = some (.tcp, 6001)) = true :=
    System.reaches_of_any
      (fun _ moved =>
        have ⟨checked, move⟩ := Option.ite_none_right_eq_some.mp moved
        ⟨roomy_of_check checked, move⟩) (.start ⟨_, rfl⟩)
      (by decide +kernel : (System.execute
        (fun a s => if roomyCheck sampleWorld s a then step sampleWorld a s else none)
        oneProxyRun (State.new {})).any
          (fun s => decide ((s.regs 0).listener.published = some (.tcp, 6001))) = true)
  rcases reached with ⟨s, run, shown⟩
  have published := of_decide_eq_true shown
  exact ⟨s, run, published, (frames_fit run).2.2 0 .tcp 6001 published⟩

section Refused

variable {w : World} {s : State} {k : StreamId}

theorem reachable_stream {s' : State} (run : (server w).Reachable s) (input : Input) {pc : StreamPc}
    (stage : (s.streams k).pc = pc) (fine : deliverable input = true)
    (move : streamStep w k s pc input = some s') : (server w).Reachable s' := by
  have moved : step w (.stream k input) s = some s' := by
    simp only [step]
    rw [if_pos fine, stage]
    exact move
  exact run.next trivial moved

/-- A request of a type that is not supported, under a free name: its response comes to the writer
of an idle control. -/
theorem unsupported_answered (run : (server w).Reachable s) {np : NewProxy} {body : List UInt8}
    (reading : (s.streams k).pc = .reading) (alive : s.tokenCancelled k = false)
    (created : (s.ctl k).created = true) (empty : (s.out k).queue = [])
    (waiting : (s.out k).writer = .waiting) (unlocked : s.closing k = none)
    (free : np.proxyName ∉ s.proxies k)
    (short : (body.length : Int) ≤ MAX_MSG_LEN)
    (decoded : (w.fromSlice body).bind NewProxy.ofJson = some np)
    (plain : (np.useEncryption || np.useCompression) = false)
    (unsupported : ProxyType.ofText np.proxyType = none) :
    ∃ s' r, (server w).Reachable s' ∧ (s'.out k).writer =
      .writing (.newProxyResp (proxyError np (typeUnsupported np)), some r) := by
  have refused : afterReserve np = .drop (typeUnsupported np) := by
    simp only [afterReserve, plain, unsupported, Bool.false_eq_true, if_false]
  -- the frame is read and the call begins
  have taken : (server w).Reachable (s.goto k (.entering np)) := by
    refine reachable_stream run (.frame (some (TYPE_NEW_PROXY, body))) reading
      (decide_eq_true short) ?_
    simp only [streamStep, frameStep, if_true, decoded]
  have entered : ∃ s₁ r, (server w).Reachable s₁ ∧
      (s₁.streams k).pc = .registering r .reserve ∧ (s₁.regs r).np = np ∧
      s₁.proxies = s.proxies ∧ s₁.closing = s.closing ∧ s₁.out = s.out ∧ s₁.ctl = s.ctl := by
    have moved := reachable_stream taken .go (congrArg Stream.pc (goto_streams_self ..)) rfl rfl
    have notCut : ¬ (s.goto k (.entering np)).tokenCancelled k = true := by
      rw [show (s.goto k (.entering np)).tokenCancelled k = s.tokenCancelled k from rfl, alive]
      exact Bool.false_ne_true
    rw [enterStep, if_neg notCut] at moved
    exact ⟨_, _, moved, congrArg Stream.pc (goto_streams_self ..),
      congrArg Registration.np (setReg_regs_self ..), rfl, rfl, rfl, rfl⟩
  rcases entered with ⟨s₁, r, run₁, stage₁, np₁, proxies₁, closing₁, out₁, ctl₁⟩
  -- the name is reserved, the type is refused and the reservation dropped
  have reserved : ∃ s₂, (server w).Reachable s₂ ∧
      (s₂.streams k).pc = .registering r (.drop (typeUnsupported np)) ∧ (s₂.regs r).np = np ∧
      s₂.proxiesFree k = true ∧ s₂.out = s.out ∧ s₂.ctl = s.ctl := by
    have freed : s₁.proxiesFree k = true := by
      rw [State.proxiesFree, closing₁, unlocked]
      rfl
    have moved := reachable_stream run₁ .go stage₁ rfl (if_pos freed)
    rw [State.reserve, np₁, proxies₁, if_neg free, refused] at moved
    exact ⟨_, moved, congrArg Stream.pc (goto_streams_self ..), np₁, freed, out₁, ctl₁⟩
  rcases reserved with ⟨s₂, run₂, stage₂, np₂, freed, out₂, ctl₂⟩
  have dropped : ∃ s₃, (server w).Reachable s₃ ∧ (s₃.streams k).pc =
      .registering r (.reply (proxyError np (typeUnsupported np)) none) ∧
      s₃.out = s.out ∧ s₃.ctl = s.ctl := by
    have moved := reachable_stream run₂ .go stage₂ rfl (if_pos freed)
    rw [np₂] at moved
    exact ⟨_, moved, congrArg Stream.pc (goto_streams_self ..), out₂, ctl₂⟩
  rcases dropped with ⟨s₃, run₃, stage₃, out₃, ctl₃⟩
  -- the response is queued and taken
  have queued : ∃ s₄, (server w).Reachable s₄ ∧ (s₄.out k).queue =
      [(.newProxyResp (proxyError np (typeUnsupported np)), some r)] ∧
      (s₄.out k).writer = .waiting ∧ s₄.ctl = s.ctl := by
    have room : (s₃.out k).ended = false ∧ (s₃.out k).queue.length < Outbox.capacity := by
      rw [out₃, Outbox.ended, waiting, empty]
      exact ⟨rfl, by decide⟩
    have moved := reachable_stream run₃ (.via .queued) stage₃ rfl
      (Option.map_eq_some_iff.mpr ⟨_, if_pos room, rfl⟩)
    refine ⟨_, moved, ?_, ?_, ctl₃⟩
    · simp [State.goto, State.setStream, State.setOut, out₃, empty]
    · simp [State.goto, State.setStream, State.setOut, out₃, waiting]
  rcases queued with ⟨s₄, run₄, queue₄, waiting₄, ctl₄⟩
  have take : step w (.writer k .take) s₄ = some (s₄.setOut k
      { s₄.out k with
        queue := []
        writer := .writing (.newProxyResp (proxyError np (typeUnsupported np)), some r) }) := by
    simp only [step, waiting₄, writerStep, ctl₄, created, queue₄, if_true]
  refine ⟨_, r, run₄.next trivial take, ?_⟩
  simp [State.setOut]

end Refused

/-- A request for a type that frp knows and this server does not. -/
def httpProxy (name : String) : NewProxy := { proxyName := name, proxyType := "http" }

def httpRequest (name : String) : Json :=
  .obj [("proxy_name", .str name), ("proxy_type", .str "http")]

theorem httpRequest_decoded (name : String) :
    NewProxy.ofJson (httpRequest name) = some (httpProxy name) := rfl

theorem httpRequest_length (name : String) :
    (httpRequest name).toVec.length = textSize name + 37 := by
  have keys : textSize "proxy_name" = 10 ∧ textSize "proxy_type" = 10 ∧ textSize "http" = 4 := by
    decide
  have record := size_record [("proxy_name", some (.str name)), ("proxy_type", some (.str "http"))]
  simp only [List.map_cons, List.map_nil, List.sum_cons, List.sum_nil, memberSize, size_str, keys]
    at record
  change (Json.obj (present [("proxy_name", some (.str name)),
    ("proxy_type", some (.str "http"))])).size = _
  omega

/-- The answer repeats the name and adds the type and a text. -/
theorem httpProxy_refusal {name : String} (long : 10165 < textSize name) :
    fits (.newProxyResp (proxyError (httpProxy name) (typeUnsupported (httpProxy name)))) =
      false := by
  have filled : name ≠ "" := by
    rintro rfl
    revert long
    decide
  have fixed : textSize "http" = 4 := by decide
  rw [Bool.eq_false_iff, Ne, ← typeUnsupported_room, errorRoom, decide_eq_true_eq]
  change ¬ nameRoom name + (textSize "http" + 43) + 12 ≤ 10240
  rw [nameRoom, if_neg filled, fixed]
  omega

/-- A name about as long as a request can carry. -/
def wideName : String := String.ofList (List.replicate 10200 'a')

theorem textSize_wideName : textSize wideName = 10200 := by
  have plain : ∀ c ∈ List.replicate 10200 'a', charSize c = 1 := by
    intro c inside
    rw [List.eq_of_mem_replicate inside]
    decide
  exact (textSize_of_plain plain).trans (List.length_replicate ..)

/-- The sample world, with a parser that knows one such request beside the login. -/
def httpWorld (name : String) : World :=
  { sampleWorld with
    fromSlice := fun body =>
      [sampleLogin "one", httpRequest name].find? fun value => value.toVec = body }

theorem httpWorld_decodes {name : String} (long : 100 < textSize name) :
    ((httpWorld name).fromSlice (httpRequest name).toVec).bind NewProxy.ofJson =
      some (httpProxy name) := by
  have login : (sampleLogin "one").toVec.length < 100 := by decide +kernel
  have other : (sampleLogin "one").toVec ≠ (httpRequest name).toVec := by
    intro same
    rw [same, httpRequest_length] at login
    omega
  have found : (httpWorld name).fromSlice (httpRequest name).toVec = some (httpRequest name) := by
    simp [httpWorld, List.find?, other]
  rw [found]
  exact httpRequest_decoded name

/-- The control of stream `k` has nothing to do. -/
def State.restful (s : State) (k : StreamId) : Bool :=
  (match (s.streams k).pc, (s.out k).writer with
    | .reading, .waiting => true
    | _, _ => false) &&
  !s.tokenCancelled k && (s.ctl k).created && (s.out k).queue.isEmpty && s.proxiesFree k &&
  decide (s.proxies k = ∅)

/-- A client logs in and asks for a proxy with that name: the response that comes to the writer is
larger than `write_frame` accepts, although the request was not. -/
theorem wide_name_overflows :
    ((httpRequest wideName).toVec.length : Int) ≤ MAX_MSG_LEN ∧
    ∃ s r resp, (server (httpWorld wideName)).Reachable s ∧
      (s.out 1).writer = .writing (.newProxyResp resp, some r) ∧
      fits (.newProxyResp resp) = false := by
  have short : ((httpRequest wideName).toVec.length : Int) ≤ MAX_MSG_LEN := by
    rw [httpRequest_length, textSize_wideName]
    decide
  have loggedIn : ∃ s, (server (httpWorld wideName)).Reachable s ∧ s.restful 1 = true :=
    System.reaches_of_any (fun _ moved => ⟨trivial, moved⟩) (.start ⟨_, rfl⟩)
      (by decide +kernel : (System.execute (step (httpWorld wideName))
        (.server .start :: loginRun 1 "one") (State.new {})).any (State.restful · 1) = true)
  rcases loggedIn with ⟨s, run, restful⟩
  simp only [State.restful, State.proxiesFree, Bool.and_eq_true, Bool.not_eq_true',
    List.isEmpty_iff, Option.isNone_iff_eq_none, decide_eq_true_eq] at restful
  rcases restful with ⟨⟨⟨⟨⟨stages, alive⟩, created⟩, empty⟩, unlocked⟩, none⟩
  split at stages
  · next reading waiting =>
      have free : (httpProxy wideName).proxyName ∉ s.proxies 1 := by
        rw [none]
        exact Finmap.notMem_empty
      rcases unsupported_answered run reading alive created empty waiting unlocked free short
        (httpWorld_decodes (by rw [textSize_wideName]; decide)) rfl rfl with ⟨s', r, run', writing⟩
      refine ⟨short, s', r, _, run', writing, ?_⟩
      apply httpProxy_refusal
      rw [textSize_wideName]
      decide
  · cases stages

end Remgr.Frps.Server
