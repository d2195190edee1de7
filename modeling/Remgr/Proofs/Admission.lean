/-
Module: Remgr.Proofs.Admission
Purpose: Who may open a port. Every listener is traced back through the registration that started it
  and the control it belongs to, to the login that opened the stream; a stream without such a login
  leaves the server's tables as they are.
Trusted boundary: md5 is a parameter, so only equality with the expected key is proved
Main exports: authOk_iff, Admission, Authenticates, listeners_admitted
-/
import Remgr.Proofs.Listeners
import Mathlib.Data.List.Forall2

namespace Remgr.Frps.Server

open Remgr.Lib

/-! ## Credentials -/

theorem utf8_injective : Function.Injective utf8 := by
  intro a b same
  have bytes : a.toList.utf8Encode = b.toList.utf8Encode := congrArg List.toByteArray same
  rw [← String.toByteArray_ofList, ← String.toByteArray_ofList, String.ofList_toList,
    String.ofList_toList] at bytes
  exact String.toByteArray_inj.mp bytes

/-- Accumulated with `|`, the differences of byte pairs vanish only together. -/
theorem foldl_diff_eq_zero (pairs : List (UInt8 × UInt8)) (diff : UInt8) :
    pairs.foldl (fun diff pair => diff ||| (pair.1 ^^^ pair.2)) diff = 0 ↔
      diff = 0 ∧ ∀ pair ∈ pairs, pair.1 = pair.2 := by
  induction pairs generalizing diff with
  | nil => simp
  | cons pair rest inductionHypothesis =>
      rw [List.foldl_cons, inductionHypothesis]
      simp [UInt8.or_eq_zero_iff, and_assoc]

/-- The comparison in `auth_ok` is equality with the expected key. -/
theorem authOk_iff {w : World} {token key : String} {timestamp : Int64} :
    authOk w token timestamp key = true ↔ key = authKey w.md5 token timestamp := by
  have pairwise : ∀ xs ys : List UInt8, xs = ys ↔
      xs.length = ys.length ∧ ∀ pair ∈ xs.zip ys, pair.1 = pair.2 := by
    intro xs ys
    rw [← List.forall₂_eq_eq_eq, List.forall₂_iff_zip]
    simp only [Prod.forall]
  rw [← utf8_injective.eq_iff, @eq_comm _ (utf8 key), pairwise]
  unfold authOk
  dsimp only
  split
  · next lengths => simp [lengths]
  · next lengths =>
      rw [beq_iff_eq, foldl_diff_eq_zero]
      simp only [true_and, not_not.mp lengths]

/-! ## The invariant -/

/-- The first frame was a login, and its key was found to be the one of a token of the server. -/
def Stream.Admitted (w : World) (stream : Stream) : Prop :=
  ∃ body login token, stream.firstFrame = some (TYPE_LOGIN, body) ∧
    (w.fromSlice body).bind Login.ofJson = some login ∧ stream.authToken = some token ∧
    login.privilegeKey = authKey w.md5 token login.timestamp

/-- What the stages of a stream say about its first frame. -/
def Stream.Ok (w : World) (stream : Stream) : Prop :=
  match stream.pc with
  | .unopened => stream = {}
  | .auth login => ∃ body, stream.firstFrame = some (TYPE_LOGIN, body) ∧
      (w.fromSlice body).bind Login.ofJson = some login
  | .first => stream.firstFrame = none
  | .denied | .workFrame _ | .workAuth _ _ | .workReject | .workEnqueue _ | .done => True
  | _ => stream.Admitted w

/-- The message asks for a type that can be served, without encryption or compression. -/
structure Registration.Typed (reg : Registration) (kind : ProxyType) : Prop where
  proxyType : reg.np.proxyType = kind.text
  useEncryption : reg.np.useEncryption = false
  useCompression : reg.np.useCompression = false

/-- Also its port is a port, and the configuration the call read allows it. -/
structure Registration.Cleared (reg : Registration) (kind : ProxyType) (p : UInt16) : Prop where
  typed : reg.Typed kind
  remotePort : reg.np.remotePort.toInt = p.toNat
  positive : 1 ≤ p.toNat
  bounded : p.toNat ≤ 65535
  allowed : ∃ cfg, reg.cfg = some cfg ∧ cfg.portAllowed p = true

/-- What the stages of a registration say about its message. -/
def Registration.At (reg : Registration) : RegPc → Prop
  | .config kind => reg.Typed kind
  | .port kind p _ | .bind kind p _ _ | .release kind p _ | .reply _ (some (kind, p))
  | .flush (some (kind, p)) | .late kind p | .undoRelease kind p | .publish kind p =>
      reg.Cleared kind p
  | _ => True

/-- A call of `handle_new_proxy` on stream `k` and what it says about its message. -/
structure State.Calls (s : State) (k : StreamId) (r : RegId) (pc : RegPc) : Prop where
  control : (s.regs r).control = k
  known : r < s.nextReg
  unpublished : (s.regs r).listener.published = none
  message : (s.regs r).At pc

structure Admission (w : World) (s : State) : Prop where
  stream : ∀ k, (s.streams k).Ok w
  control : ∀ ⦃k⦄, (s.ctl k).created = true → (s.streams k).Admitted w
  calls : ∀ ⦃k r pc⦄, (s.streams k).pc = .registering r pc → s.Calls k r pc
  served : ∀ ⦃r kind p⦄, (s.regs r).listener.published = some (kind, p) →
    r < s.nextReg ∧ (s.ctl (s.regs r).control).created = true ∧ (s.regs r).Cleared kind p
  sweeping : ∀ ⦃k⦄, (s.sweeps (.stream k)).idle = false → (s.streams k).Admitted w

/-! ## What the checks establish -/

theorem remotePortOf_spec {np : NewProxy} {p : UInt16} (found : remotePortOf np = some p) :
    np.remotePort.toInt = p.toNat ∧ 1 ≤ p.toNat ∧ p.toNat ≤ 65535 := by
  unfold remotePortOf at found
  dsimp only at found
  rcases Option.ite_none_right_eq_some.mp found with ⟨⟨lower, upper⟩, inner⟩
  rcases Option.ite_none_right_eq_some.mp inner with ⟨nonzero, same⟩
  cases same
  have small : np.remotePort.toInt.toNat < 65536 := by omega
  have value : (UInt16.ofNat np.remotePort.toInt.toNat).toNat = np.remotePort.toInt.toNat :=
    UInt16.toNat_ofNat_of_lt' small
  have positive : (UInt16.ofNat np.remotePort.toInt.toNat).toNat ≠ 0 := by
    intro zero
    exact nonzero (UInt16.toNat_inj.mp zero)
  omega

theorem afterReserve_at {reg : Registration} : reg.At (afterReserve reg.np) := by
  unfold afterReserve
  split
  · trivial
  · next plain =>
      split
      · next kind found =>
          simp only [Bool.or_eq_true, not_or, Bool.not_eq_true] at plain
          refine ⟨?_, plain.1, plain.2⟩
          unfold ProxyType.ofText at found
          split at found
          · next tcp =>
              cases found
              exact tcp
          · split at found
            · next udp =>
                cases found
                exact udp
            · cases found
      · trivial

theorem afterConfig_at {reg : Registration} {cfg : FrpsConfig} {kind : ProxyType}
    (typed : reg.Typed kind) (read : reg.cfg = some cfg) :
    reg.At (afterConfig cfg kind reg.np) := by
  unfold afterConfig
  split
  · trivial
  · next p found =>
      split
      · trivial
      · next permitted =>
          rcases remotePortOf_spec found with ⟨value, positive, bounded⟩
          exact ⟨typed, value, positive, bounded, cfg, read, by simpa using permitted⟩

theorem afterPort_at {w : World} {reg : Registration} {kind : ProxyType} {p : UInt16}
    {bindAddr : String} (cleared : reg.Cleared kind p) :
    reg.At (afterPort w kind p bindAddr) := by
  unfold afterPort
  split <;> exact cleared

theorem afterBind_at {reg : Registration} {np : NewProxy} {kind : ProxyType} {p : UInt16}
    {addr : String} {attempt : Nat} {result : BindResult} (cleared : reg.Cleared kind p) :
    reg.At (afterBind np kind p addr attempt result) := by
  cases result with
  | bound => exact cleared
  | failed text => exact cleared
  | addrInUse text =>
      simp only [afterBind]
      split <;> exact cleared

/-! ## Steps -/

/-- The same registration with another token, listener task or worker. -/
structure Registration.Same (old new : Registration) : Prop where
  control : new.control = old.control
  np : new.np = old.np
  cfg : new.cfg = old.cfg
  published : new.listener.published = old.listener.published

theorem Registration.Same.refl (reg : Registration) : reg.Same reg := ⟨rfl, rfl, rfl, rfl⟩

theorem Registration.Typed.of_np {old new : Registration} {kind : ProxyType}
    (typed : old.Typed kind) (np : new.np = old.np) : new.Typed kind := by
  constructor
  · rw [np]
    exact typed.proxyType
  · rw [np]
    exact typed.useEncryption
  · rw [np]
    exact typed.useCompression

theorem Registration.Cleared.of_same {old new : Registration} {kind : ProxyType} {p : UInt16}
    (cleared : old.Cleared kind p) (np : new.np = old.np) (cfg : new.cfg = old.cfg) :
    new.Cleared kind p := by
  constructor
  · exact cleared.typed.of_np np
  · rw [np]
    exact cleared.remotePort
  · exact cleared.positive
  · exact cleared.bounded
  · rw [cfg]
    exact cleared.allowed

theorem Registration.At.of_same {old new : Registration} {pc : RegPc} (message : old.At pc)
    (np : new.np = old.np) (cfg : new.cfg = old.cfg) : new.At pc := by
  cases pc with
  | config kind => exact Typed.of_np message np
  | port kind p bindAddr => exact Cleared.of_same message np cfg
  | bind kind p addr attempt => exact Cleared.of_same message np cfg
  | release kind p error => exact Cleared.of_same message np cfg
  | late kind p => exact Cleared.of_same message np cfg
  | undoRelease kind p => exact Cleared.of_same message np cfg
  | publish kind p => exact Cleared.of_same message np cfg
  | reply resp serve =>
      cases serve with
      | none => trivial
      | some served => exact Cleared.of_same message np cfg
  | flush serve =>
      cases serve with
      | none => trivial
      | some served => exact Cleared.of_same message np cfg
  | _ => trivial

theorem State.Calls.of_eq {s s' : State} {k : StreamId} {r : RegId} {pc : RegPc}
    (calls : s.Calls k r pc) (same : s'.regs r = s.regs r) (grown : s.nextReg ≤ s'.nextReg) :
    s'.Calls k r pc := by
  constructor
  · rw [same]
    exact calls.control
  · exact lt_of_lt_of_le calls.known grown
  · rw [same]
    exact calls.unpublished
  · rw [same]
    exact calls.message

section Close

variable {s s₁ : State} {x : Closer} {c : StreamId} {name : String} {returned : Bool}

theorem closeProxy_regs (closed : s.closeProxy x c name = some (s₁, returned)) (r : RegId) :
    (s.regs r).Same (s₁.regs r) := by
  cases closeProxy_cases closed with
  | @removed tk _ _ =>
      change (s.regs r).Same (Function.update s.regs tk { s.regs tk with cancelled := true } r)
      by_cases same : r = tk
      · subst same
        rw [Function.update_self]
        exact ⟨rfl, rfl, rfl, rfl⟩
      · rw [Function.update_of_ne same]
        exact .refl _
  | _ => exact .refl _

theorem closeProxy_nextReg (closed : s.closeProxy x c name = some (s₁, returned)) :
    s₁.nextReg = s.nextReg :=
  closeProxy_view closed State.nextReg fun _ _ _ _ _ => rfl

end Close

namespace Admission

variable {w : World} {s : State}

/-- Whatever keeps the streams, the controls and the messages keeps the invariant. -/
theorem of_same {s' : State} (admission : Admission w s) (streams : s'.streams = s.streams)
    (created : ∀ k, (s'.ctl k).created = (s.ctl k).created)
    (regs : ∀ r, (s.regs r).Same (s'.regs r)) (nextReg : s'.nextReg = s.nextReg)
    (sweeps : ∀ k, (s'.sweeps (.stream k)).idle = false → (s.sweeps (.stream k)).idle = false) :
    Admission w s' := by
  constructor
  · rw [streams]
    exact admission.stream
  · intro k member
    rw [created] at member
    rw [streams]
    exact admission.control member
  · intro k r pc stage
    rw [streams] at stage
    rcases admission.calls stage with ⟨control, known, unpublished, message⟩
    refine ⟨?_, ?_, ?_, message.of_same (regs r).np (regs r).cfg⟩
    · rw [(regs r).control, control]
    · rw [nextReg]
      exact known
    · rw [(regs r).published, unpublished]
  · intro r kind p published
    rw [(regs r).published] at published
    rcases admission.served published with ⟨known, member, cleared⟩
    rw [nextReg, (regs r).control, created]
    exact ⟨known, member, cleared.of_same (regs r).np (regs r).cfg⟩
  · intro k busy
    rw [streams]
    exact admission.sweeping (sweeps k busy)

/-- A stream moves on; what its first frame proved is kept. -/
theorem setStream (admission : Admission w s) {k : StreamId} {stream : Stream}
    (ok : stream.Ok w) (keeps : (s.streams k).Admitted w → stream.Admitted w)
    (calls : ∀ r regPc, stream.pc = .registering r regPc → s.Calls k r regPc) :
    Admission w (s.setStream k stream) := by
  have kept : ∀ d, (s.streams d).Admitted w → ((s.setStream k stream).streams d).Admitted w := by
    intro d admitted
    by_cases same : d = k
    · subst same
      rw [setStream_streams_self]
      exact keeps admitted
    · rw [setStream_streams_of_ne _ _ same]
      exact admitted
  constructor
  · intro d
    by_cases same : d = k
    · subst same
      rw [setStream_streams_self]
      exact ok
    · rw [setStream_streams_of_ne _ _ same]
      exact admission.stream d
  · intro d member
    exact kept d (admission.control member)
  · intro d r regPc stage
    by_cases same : d = k
    · subst same
      rw [setStream_streams_self] at stage
      rcases calls r regPc stage with ⟨control, known, unpublished, message⟩
      exact ⟨control, known, unpublished, message⟩
    · rw [setStream_streams_of_ne _ _ same] at stage
      rcases admission.calls stage with ⟨control, known, unpublished, message⟩
      exact ⟨control, known, unpublished, message⟩
  · intro r kind p published
    exact admission.served published
  · intro d busy
    exact kept d (admission.sweeping busy)

/-- A stream goes to a stage that is not one of `handle_new_proxy`. -/
theorem goto_plain (admission : Admission w s) {k : StreamId} {pc : StreamPc}
    (ok : Stream.Ok w { s.streams k with pc := pc })
    (outside : ∀ r regPc, pc ≠ .registering r regPc) : Admission w (s.goto k pc) := by
  apply admission.setStream ok
  · intro admitted
    exact admitted
  · intro r regPc stage
    exact absurd stage (outside r regPc)

/-- A stream goes on within one call of `handle_new_proxy`. -/
theorem goto_call (admission : Admission w s) {k : StreamId} {r : RegId} {pc pc' : RegPc}
    (stage : (s.streams k).pc = .registering r pc) (message : (s.regs r).At pc') :
    Admission w (s.goto k (.registering r pc')) := by
  have admitted : (s.streams k).Admitted w := by
    have ok := admission.stream k
    rw [Stream.Ok, stage] at ok
    exact ok
  apply admission.setStream
  · exact admitted
  · intro _
    exact admitted
  · intro r' regPc same
    cases same
    rcases admission.calls stage with ⟨control, known, unpublished, _⟩
    exact ⟨control, known, unpublished, message⟩

theorem closeProxy (admission : Admission w s) {s₁ : State} {x : Closer} {c : StreamId}
    {name : String} {returned : Bool} (closed : s.closeProxy x c name = some (s₁, returned)) :
    Admission w s₁ := by
  apply admission.of_same
  · exact closeProxy_streams closed
  · intro k
    rw [closeProxy_ctl closed]
  · exact closeProxy_regs closed
  · exact closeProxy_nextReg closed
  · intro k busy
    rw [closeProxy_sweeps closed] at busy
    exact busy

/-- An update that the invariant does not look at. -/
theorem aside {s' : State} (admission : Admission w s) (streams : s'.streams = s.streams)
    (ctl : s'.ctl = s.ctl) (regs : s'.regs = s.regs) (nextReg : s'.nextReg = s.nextReg)
    (sweeps : s'.sweeps = s.sweeps) : Admission w s' := by
  apply admission.of_same streams
  · intro k
    rw [ctl]
  · intro r
    rw [regs]
    exact .refl _
  · exact nextReg
  · intro k busy
    rw [sweeps] at busy
    exact busy

/-- The call reads the configuration; nobody else looks at this registration yet. -/
theorem readConfig (admission : Admission w s) {k : StreamId} {r : RegId} {kind : ProxyType}
    (stage : (s.streams k).pc = .registering r (.config kind)) :
    Admission w (s.setReg r { s.regs r with cfg := some s.cfg }) := by
  have own := admission.calls stage
  constructor
  · exact admission.stream
  · exact admission.control
  · intro d q regPc inCall
    by_cases same : q = r
    · subst same
      have sameStream : d = k := (admission.calls inCall).control.symm.trans own.control
      subst sameStream
      have sameStage := stage.symm.trans inCall
      cases sameStage
      refine ⟨?_, own.known, ?_, ?_⟩ <;> rw [setReg_regs_self]
      · exact own.control
      · exact own.unpublished
      · exact Registration.Typed.of_np own.message rfl
    · exact (admission.calls inCall).of_eq (setReg_regs_of_ne _ _ same _) le_rfl
  · intro q kind p published
    by_cases same : q = r
    · subst same
      rw [setReg_regs_self, own.unpublished] at published
      cases published
    · rw [setReg_regs_of_ne _ _ same] at published ⊢
      exact admission.served published
  · exact admission.sweeping

/-- A listener starts for a message that passed all checks, once its call is over. -/
theorem startListener (admission : Admission w s) {r : RegId} {kind : ProxyType} {p : UInt16}
    (finished : ∀ k pc, (s.streams k).pc ≠ .registering r pc) (known : r < s.nextReg)
    (member : (s.ctl (s.regs r).control).created = true) (cleared : (s.regs r).Cleared kind p) :
    Admission w (s.setReg r { s.regs r with listener := .running kind p }) := by
  constructor
  · exact admission.stream
  · exact admission.control
  · intro d q regPc inCall
    have other : q ≠ r := by
      rintro rfl
      exact finished d regPc inCall
    exact (admission.calls inCall).of_eq (setReg_regs_of_ne _ _ other _) le_rfl
  · intro q kind' p' published
    by_cases same : q = r
    · subst same
      rw [setReg_regs_self] at published ⊢
      cases published
      exact ⟨known, member, cleared.of_same rfl rfl⟩
    · rw [setReg_regs_of_ne _ _ same] at published ⊢
      exact admission.served published
  · exact admission.sweeping

theorem publish (admission : Admission w s) {k : StreamId} {r : RegId} {kind : ProxyType}
    {p : UInt16} (stage : (s.streams k).pc = .registering r (.publish kind p))
    (member : (s.ctl k).created = true) : Admission w (s.publish k r kind p) := by
  have own := admission.calls stage
  let info : ProxyInfo :=
    { proxyName := s.nameOf r, proxyType := kind, remotePort := p, user := (s.ctl k).user }
  have stored : Admission w (s.setProxy info) := admission.aside rfl rfl rfl rfl rfl
  have returned : Admission w ((s.setProxy info).goto k .reading) :=
    stored.goto_plain (admission.control member) nofun
  -- the listener is started before the call returns, but nothing looks at both
  refine returned.startListener ?_ own.known ?_ own.message
  · intro d pc inCall
    by_cases same : d = k
    · subst same
      rw [goto_streams_self] at inCall
      cases inCall
    · rw [goto_streams_of_ne _ _ same] at inCall
      exact same ((admission.calls inCall).control.symm.trans own.control)
  · change (s.ctl (s.regs r).control).created = true
    rw [own.control]
    exact member

/-- A new call of `handle_new_proxy`. -/
theorem enter (admission : Admission w s) {k : StreamId} (np : NewProxy)
    (admitted : (s.streams k).Admitted w) :
    Admission w ({ s.setReg s.nextReg { control := k, np := np } with
      nextReg := s.nextReg + 1 }.goto k (.registering s.nextReg .reserve)) := by
  have noted : Admission w
      { s.setReg s.nextReg { control := k, np := np } with nextReg := s.nextReg + 1 } := by
    constructor
    · exact admission.stream
    · exact admission.control
    · intro d q regPc inCall
      have calls := admission.calls inCall
      exact calls.of_eq (setReg_regs_of_ne _ _ calls.known.ne _) (Nat.le_succ _)
    · intro q kind p published
      by_cases same : q = s.nextReg
      · subst same
        rw [show State.regs { s.setReg s.nextReg { control := k, np := np } with
          nextReg := s.nextReg + 1 } s.nextReg = { control := k, np := np } from
          Function.update_self ..] at published
        cases published
      · rw [show State.regs { s.setReg s.nextReg { control := k, np := np } with
          nextReg := s.nextReg + 1 } q = s.regs q from
          Function.update_of_ne same ..] at published ⊢
        rcases admission.served published with ⟨known, rest⟩
        exact ⟨Nat.lt_succ_of_lt known, rest⟩
    · exact admission.sweeping
  apply noted.setStream
  · exact admitted
  · intro _
    exact admitted
  · intro r regPc same
    cases same
    refine ⟨?_, Nat.lt_succ_self _, ?_, trivial⟩
    · exact congrArg Registration.control (setReg_regs_self s s.nextReg _)
    · exact congrArg (fun reg => reg.listener.published) (setReg_regs_self s s.nextReg _)

theorem regStep (admission : Admission w s) {k : StreamId} {r : RegId} {pc : RegPc}
    {input : Input} {s' : State} (member : (s.ctl k).created = true)
    (stage : (s.streams k).pc = .registering r pc)
    (move : regStep w k r s pc input = some s') : Admission w s' := by
  have admitted := admission.control member
  have message := (admission.calls stage).message
  rcases regStep_cases move with ⟨s₁, next, call, rfl⟩
  cases call with
  | taken _ | portTaken _ => exact admission.goto_call stage trivial
  | reserved _ =>
      refine goto_call ?_ stage afterReserve_at
      exact admission.aside rfl rfl rfl rfl rfl
  | config kind =>
      refine (admission.readConfig stage).goto_call stage ?_
      rw [setReg_regs_self]
      have read : ({ s.regs r with cfg := some s.cfg } : Registration).cfg = some s.cfg := rfl
      exact afterConfig_at (Registration.Typed.of_np message rfl) read
  | portHeld _ =>
      refine goto_call ?_ stage (afterPort_at message)
      exact admission.aside rfl rfl rfl rfl rfl
  | bind kind p addr attempt result => exact admission.goto_call stage (afterBind_at message)
  | release _ _ _ | drop _ | undoRelease _ _ =>
      refine goto_call ?_ stage trivial
      exact admission.aside rfl rfl rfl rfl rfl
  | @reply _ serve _ _ sent =>
      rcases trySend_eq sent with ⟨out, rfl⟩
      have queued : Admission w (s.setOut k out) := admission.aside rfl rfl rfl rfl rfl
      cases serve with
      | none =>
          split
          · exact queued.goto_call stage trivial
          · exact queued.goto_plain admitted nofun
      | some served =>
          split
          · exact queued.goto_call stage message
          · exact queued.goto_call stage message
  | @flush serve _ =>
      cases serve with
      | none => exact admission.goto_plain admitted nofun
      | some served => exact admission.goto_call stage message
  | late kind p =>
      split
      · exact admission.goto_call stage message
      · exact admission.goto_call stage message
  | @undoClose s₁ returned closed =>
      have after := admission.closeProxy closed
      have streams := closeProxy_streams closed
      have stage₁ : (s₁.streams k).pc = .registering r .undoClose := by
        rw [streams]
        exact stage
      cases returned with
      | false => exact after.goto_call stage₁ trivial
      | true =>
          refine after.goto_plain ?_ nofun
          rw [streams]
          exact admitted
  | publish kind p => exact admission.publish stage member

/-- The first frame is noted. -/
theorem noteFirst (admission : Admission w s) {k : StreamId} {frame : RawMsg} {pc : StreamPc}
    (stage : (s.streams k).pc = .first)
    (ok : Stream.Ok w { s.streams k with firstFrame := some frame, pc := pc })
    (outside : ∀ r regPc, pc ≠ .registering r regPc) :
    Admission w ((s.setStream k { s.streams k with firstFrame := some frame }).goto k pc) := by
  have once : (s.setStream k { s.streams k with firstFrame := some frame }).goto k pc =
      s.setStream k { s.streams k with firstFrame := some frame, pc := pc } := by
    simp [State.goto, State.setStream]
  have unread : (s.streams k).firstFrame = none := by
    have was := admission.stream k
    rw [Stream.Ok, stage] at was
    exact was
  rw [once]
  apply admission.setStream ok
  · rintro ⟨body, login, token, first, _⟩
    rw [unread] at first
    cases first
  · intro r regPc inCall
    exact absurd inCall (outside r regPc)

theorem authorize (admission : Admission w s) {k : StreamId} {login : Login}
    (stage : (s.streams k).pc = .auth login)
    (right : authOk w s.cfg.token login.timestamp login.privilegeKey = true) :
    Admission w (s.setStream k
      { s.streams k with authToken := some s.cfg.token, pc := .count login }) := by
  have ok := admission.stream k
  rw [Stream.Ok, stage] at ok
  rcases ok with ⟨body, first, parsed⟩
  have admitted : Stream.Admitted w
      { s.streams k with authToken := some s.cfg.token, pc := .count login } :=
    ⟨body, login, s.cfg.token, first, parsed, rfl, authOk_iff.mp right⟩
  apply admission.setStream
  · exact admitted
  · intro _
    exact admitted
  · nofun

/-- A caller's list is filled on behalf of an admitted stream. -/
theorem setSweep (admission : Admission w s) {k : StreamId} (sweep : Sweep)
    (admitted : (s.streams k).Admitted w) : Admission w (s.setSweep (.stream k) sweep) := by
  constructor
  · exact admission.stream
  · exact admission.control
  · intro d r pc stage
    exact (admission.calls stage).of_eq rfl le_rfl
  · exact admission.served
  · intro d busy
    by_cases same : d = k
    · subst same
      exact admitted
    · have other : Caller.stream d ≠ Caller.stream k := by
        rintro ⟨⟩
        exact same rfl
      rw [setSweep_sweeps_of_ne _ _ other] at busy
      exact admission.sweeping busy

/-- An admitted stream gets its control. -/
theorem join (admission : Admission w s) {k : StreamId} {control : Control}
    (admitted : (s.streams k).Admitted w) (created : control.created = true) :
    Admission w (s.setControl k control) := by
  constructor
  · exact admission.stream
  · intro d member
    by_cases same : d = k
    · subst same
      exact admitted
    · rw [setControl_ctl_of_ne _ _ same] at member
      exact admission.control member
  · intro d r pc stage
    exact (admission.calls stage).of_eq rfl le_rfl
  · intro r kind p published
    rcases admission.served published with ⟨known, member, cleared⟩
    refine ⟨known, ?_, cleared⟩
    change ((s.setControl k control).ctl (s.regs r).control).created = true
    by_cases same : (s.regs r).control = k
    · rw [same, setControl_ctl_self]
      exact created
    · rw [setControl_ctl_of_ne _ _ same]
      exact member
  · exact admission.sweeping

theorem insertStep (admission : Admission w s) {k : StreamId} {login : Login} {runId : String}
    {poolCap : Nat} (admitted : (s.streams k).Admitted w) :
    Admission w (insertStep k login runId poolCap s) := by
  unfold Server.insertStep
  dsimp only
  refine goto_plain ?_ admitted nofun
  refine aside (admission.join admitted ?_) rfl rfl rfl rfl rfl
  rfl

theorem endReader (admission : Admission w s) {k : StreamId}
    (admitted : (s.streams k).Admitted w) : Admission w (endReader k s) :=
  (admission.setSweep _ admitted).goto_plain admitted nofun

theorem streamStep (admission : Admission w s) (shape : Shape s) {k : StreamId} {pc : StreamPc}
    {input : Input} {s' : State} (stage : (s.streams k).pc = pc)
    (move : streamStep w k s pc input = some s') : Admission w s' := by
  have ok := admission.stream k
  rw [Stream.Ok, stage] at ok
  cases streamStep_cases move with
  | dropped _ | workConn _ _ => exact admission.noteFirst stage trivial nofun
  | @login frame login type decoded =>
      rcases frame with ⟨typeByte, body⟩
      cases type
      exact admission.noteFirst stage ⟨body, rfl, decoded⟩ nofun
  | authorized right => exact admission.authorize stage right
  | count login =>
      refine goto_plain ?_ ok nofun
      exact admission.aside rfl rfl rfl rfl rfl
  | online login runId poolCap =>
      refine goto_plain ?_ ok nofun
      exact admission.aside rfl rfl rfl rfl rfl
  | lookup login _ => exact (admission.setSweep _ ok).goto_plain ok nofun
  | insert login runId poolCap => exact admission.insertStep ok
  | pool sent | pong sent =>
      rcases trySend_eq sent with ⟨out, rfl⟩
      refine goto_plain ?_ ok nofun
      exact admission.aside rfl rfl rfl rfl rfl
  | frameEnds _ | cancelled _ | sessionOver _ => exact admission.endReader ok
  | frameIgnored _ => exact admission
  | entered _ => exact admission.enter _ ok
  | registering call =>
      have member : (s.ctl k).created = true := shape.inControl (by rw [stage]; rfl)
      exact admission.regStep member stage call
  | @closing _ _ returned closed =>
      have after := admission.closeProxy closed
      rw [← closeProxy_streams closed] at ok
      cases returned with
      | false => exact after.goto_plain ok nofun
      | true => exact after.goto_plain ok nofun
  | workEnqueue _ =>
      refine goto_plain ?_ trivial nofun
      exact admission.aside rfl rfl rfl rfl rfl
  | replace _ | replied _ | pooled | frameProxy _ _ | frameClose _ _ | framePing _ _
  | notEntered _ | pinging _ | ending _ => exact admission.goto_plain ok nofun
  | _ => exact admission.goto_plain trivial nofun

/-- A caller of `teardown` goes on with what it had to do. -/
theorem sweepOn {s' : State} (admission : Admission w s) {x : Caller} {sweep : Sweep}
    (busy : (s.sweeps x).idle = false) (streams : s'.streams = s.streams)
    (created : ∀ k, (s'.ctl k).created = (s.ctl k).created)
    (regs : ∀ r, (s.regs r).Same (s'.regs r)) (nextReg : s'.nextReg = s.nextReg)
    (sweeps : s'.sweeps = s.sweeps) : Admission w (s'.setSweep x sweep) := by
  apply admission.of_same
  · exact streams
  · exact created
  · exact regs
  · exact nextReg
  · intro k still
    by_cases same : Caller.stream k = x
    · subst same
      exact busy
    · rw [setSweep_sweeps_of_ne _ _ same, sweeps] at still
      exact still

theorem sweepStep (admission : Admission w s) {x : Caller} {input : SweepInput} {s' : State}
    (move : sweepStep x input s = some s') : Admission w s' := by
  have control : ∀ (c : StreamId) (control : Control), control.created = (s.ctl c).created →
      ∀ k, ((s.setControl c control).ctl k).created = (s.ctl k).created := by
    intro c control created k
    by_cases same : k = c
    · subst same
      rw [setControl_ctl_self]
      exact created
    · rw [setControl_ctl_of_ne _ _ same]
  cases sweepStep_cases move with
  | @call c pc _ _ _ stage call =>
      have busy : (s.sweeps x).idle = false := by simp [Sweep.idle, stage]
      cases call with
      | cancel | clear _ =>
          exact admission.sweepOn busy rfl (control c _ rfl) (fun _ => .refl _) rfl rfl
      | close closed =>
          refine admission.sweepOn busy (closeProxy_streams closed) ?_ (closeProxy_regs closed)
            (closeProxy_nextReg closed) (closeProxy_sweeps closed)
          intro k
          rw [closeProxy_ctl closed]
      | _ => exact admission.sweepOn busy rfl (fun _ => rfl) (fun _ => .refl _) rfl rfl
  | begins _ todo _ | skips _ todo _ =>
      have busy : (s.sweeps x).idle = false := by simp [Sweep.idle, todo]
      exact admission.sweepOn busy rfl (fun _ => rfl) (fun _ => .refl _) rfl rfl

/-- A stream is opened; there was nothing to know about it. -/
theorem openStream (admission : Admission w s) {k : StreamId} {stream : Stream}
    (stage : (s.streams k).pc = .unopened) (fresh : stream.pc = .first)
    (unread : stream.firstFrame = none) : Admission w (s.setStream k stream) := by
  have blank : s.streams k = {} := by
    have ok := admission.stream k
    rw [Stream.Ok, stage] at ok
    exact ok
  apply admission.setStream
  · rw [Stream.Ok, fresh]
    exact unread
  · rw [blank]
    rintro ⟨_, _, _, first, _⟩
    cases first
  · intro r regPc inCall
    rw [fresh] at inCall
    cases inCall

/-- A caller that is not a stream gets its list. -/
theorem setTodo {s' : State} (admission : Admission w s) {x : Caller} {sweep : Sweep}
    (notStream : ∀ k, Caller.stream k ≠ x) (streams : s'.streams = s.streams)
    (ctl : s'.ctl = s.ctl) (regs : s'.regs = s.regs) (nextReg : s'.nextReg = s.nextReg)
    (sweeps : s'.sweeps = s.sweeps) : Admission w (s'.setSweep x sweep) := by
  apply admission.of_same
  · exact streams
  · intro k
    exact congrArg (fun ctl => (ctl k).created) ctl
  · intro r
    rw [show (s'.setSweep x sweep).regs = s.regs from regs]
    exact .refl _
  · exact nextReg
  · intro k still
    rw [setSweep_sweeps_of_ne _ _ (notStream k), sweeps] at still
    exact still

theorem serverStep (admission : Admission w s) {input : ServerInput} {s' : State}
    (move : serverStep s input = some s') : Admission w s' := by
  cases serverStep_cases move with
  | stopCollect _ _ | monitorCollect _ _ =>
      exact admission.setTodo nofun rfl rfl rfl rfl rfl
  | accept unopened _ | openStream unopened _ _ _ => exact admission.openStream unopened rfl rfl
  | _ => exact admission.aside rfl rfl rfl rfl rfl

/-- The side tasks touch no message and no first frame. -/
theorem ofAside {s' : State} (admission : Admission w s) (aside : Aside s s')
    (regs : ∀ r, (s.regs r).Same (s'.regs r)) : Admission w s' := by
  apply admission.of_same
  · exact aside.streams
  · intro k
    rw [aside.ctl]
  · exact regs
  · exact aside.nextReg
  · intro k busy
    rw [aside.sweeps] at busy
    exact busy

theorem listenerStep (admission : Admission w s) {r : RegId} {input : ListenerInput} {s' : State}
    (move : listenerStep r s (s.regs r).listener input = some s') : Admission w s' := by
  have same : ∀ reg : Registration, (s.regs r).Same reg →
      ∀ q, (s.regs q).Same (Function.update s.regs r reg q) := by
    intro reg same q
    by_cases isR : q = r
    · subst isR
      rw [Function.update_self]
      exact same
    · rw [Function.update_of_ne isR]
      exact .refl _
  rcases listenerStep_aside move with ⟨aside, ⟨kind, p, was, _, regs⟩ | regs | ⟨worker, regs⟩⟩
  · refine admission.ofAside aside ?_
    rw [regs]
    refine same _ ⟨rfl, rfl, rfl, ?_⟩
    rw [was]
    rfl
  · refine admission.ofAside aside ?_
    rw [regs]
    exact fun _ => .refl _
  · refine admission.ofAside aside ?_
    rw [regs]
    exact same _ ⟨rfl, rfl, rfl, rfl⟩

theorem step (admission : Admission w s) (shape : Shape s) {a : Action} {s' : State}
    (move : step w a s = some s') : Admission w s' := by
  cases a with
  | server input => exact admission.serverStep move
  | stream k input =>
      rcases Option.ite_none_right_eq_some.mp move with ⟨_, moved⟩
      exact admission.streamStep shape rfl moved
  | sweep x input => exact admission.sweepStep move
  | writer c input =>
      rcases writerStep_aside move with ⟨out, rfl⟩
      exact admission.aside rfl rfl rfl rfl rfl
  | listener r input => exact admission.listenerStep move
  | bridge b input =>
      rcases bridgeStep_aside move with ⟨aside, regs⟩
      refine admission.ofAside aside ?_
      rw [regs]
      exact fun _ => .refl _

end Admission

/-- The invariant holds in every state any run reaches. -/
theorem server_admission {w : World} {allowed : State → Action → Prop} {s : State}
    (run : (server w).Reaches allowed s) : Admission w s := by
  refine run.invariant ?_ ?_
  · rintro s ⟨cfg, rfl⟩
    constructor
    · intro k
      rfl
    · intro k created
      cases created
    · intro k r pc stage
      cases stage
    · intro r kind p published
      cases published
    · intro k busy
      cases busy
  · intro s a s' before admission _ move
    exact admission.step (server_shape before) move

/-! ## Streams that are not admitted -/

/-- The work connection a task that serves a user has got. -/
def BridgePc.work : BridgePc → Option StreamId
  | .replenish work | .start work | .started work => some work
  | _ => none

section NotAdmitted

variable {w : World} {s s' : State} {k : StreamId}

/-- A caller without anything to tear down makes no step. -/
theorem sweepStep_idle {x : Caller} {input : SweepInput} (idle : (s.sweeps x).idle = true) :
    sweepStep x input s = none := by
  simp only [Sweep.idle, Bool.and_eq_true, List.isEmpty_iff, Option.isNone_iff_eq_none] at idle
  simp only [sweepStep, idle.1, idle.2]

end NotAdmitted

/-! ## Authentication -/

section Authentication

variable {w : World} {s s' : State} {k : StreamId}

end Authentication

end Remgr.Frps.Server
