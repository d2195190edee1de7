/-
Module: Remgr.Proofs.Calls
Purpose: What one step of the server can do to its outboxes and to the calls of `handle_new_proxy`.
  A step is a step inside such a call, a step of a writer task, or one that only sends routine
  messages and moves a stream or a bridge outside the calls.
Trusted boundary: none
Main exports: Outbox.Holds, Outbox.Onward, Keeps, Outside, step_cases
-/
import Remgr.Proofs.Admission

namespace Remgr.Frps.Server

open Remgr.Lib

/-! ## Outboxes -/

namespace Outbox

/-- The message is in the channel or with the writer. -/
def Holds (out : Outbox) (item : Outgoing) : Prop := item ∈ out.queue ∨ out.writer = .writing item

/-- The same outbox later: nothing written is forgotten, and a latched message stays until it is
written or the writer ends. -/
structure Onward (old new : Outbox) : Prop where
  written : ∀ entry ∈ old.written, entry ∈ new.written
  latched : ∀ m r, old.Holds (m, some r) →
    new.Holds (m, some r) ∨ (r, m) ∈ new.written ∨ new.ended = true
  closed : ∀ failed, old.writer = .ended failed → new.writer = .ended failed

theorem Onward.refl (out : Outbox) : out.Onward out :=
  ⟨fun _ inside => inside, fun _ _ held => .inl held, fun _ finished => finished⟩

theorem ended_iff {out : Outbox} : out.ended = true ↔ ∃ failed, out.writer = .ended failed := by
  unfold ended
  split
  · next failed finished => simp [finished]
  · next other =>
      simp only [Bool.false_eq_true, false_iff, not_exists]
      exact other

theorem Onward.ended {old new : Outbox} (onward : old.Onward new) (finished : old.ended = true) :
    new.ended = true := by
  rcases ended_iff.mp finished with ⟨failed, writer⟩
  exact ended_iff.mpr ⟨failed, onward.closed failed writer⟩

theorem onward_append (out : Outbox) (item : Outgoing) :
    out.Onward { out with queue := out.queue ++ [item] } := by
  refine ⟨fun _ inside => inside, ?_, fun _ finished => finished⟩
  rintro m r (queued | writing)
  · exact .inl (.inl (List.mem_append_left _ queued))
  · exact .inl (.inr writing)

theorem holds_append {out : Outbox} {item other : Outgoing}
    (held : Holds { out with queue := out.queue ++ [item] } other) :
    out.Holds other ∨ other = item := by
  rcases held with queued | writing
  · rcases List.mem_append.mp queued with before | last
    · exact .inl (.inl before)
    · exact .inr (List.mem_singleton.mp last)
  · exact .inl (.inr writing)

end Outbox

/-! ## What most steps keep -/

/-- What a step leaves as it is when it sends nothing but the messages described. A registration
that is not known yet may be anything without a listener. -/
structure Keeps (sent : Outgoing → Prop) (s s' : State) : Prop where
  streams : s'.streams = s.streams
  out : ∀ c, (s.out c).Onward (s'.out c)
  held : ∀ c item, (s'.out c).Holds item → (s.out c).Holds item ∨ sent item
  writer : ∀ c, (s'.out c).writer = (s.out c).writer
  created : ∀ c, (s.ctl c).created = true → (s'.ctl c).created = true
  cut : ∀ c, (s.ctl c).created = true → s.tokenCancelled c = true → s'.tokenCancelled c = true
  regs : ∀ r, (s'.regs r).control = (s.regs r).control ∧ (s'.regs r).np = (s.regs r).np ∧
      (s'.regs r).listener.published = (s.regs r).listener.published ∨
    s.nextReg ≤ r ∧ (s'.regs r).listener.published = none
  bridges : s'.bridges = s.bridges

namespace Keeps

variable {sent : Outgoing → Prop} {s s' : State}

/-- A step that leaves the outboxes alone. -/
theorem of_out (streams : s'.streams = s.streams) (out : s'.out = s.out)
    (created : ∀ c, (s.ctl c).created = true → (s'.ctl c).created = true)
    (cut : ∀ c, (s.ctl c).created = true → s.tokenCancelled c = true → s'.tokenCancelled c = true)
    (regs : ∀ r, (s'.regs r).control = (s.regs r).control ∧ (s'.regs r).np = (s.regs r).np ∧
        (s'.regs r).listener.published = (s.regs r).listener.published ∨
      s.nextReg ≤ r ∧ (s'.regs r).listener.published = none)
    (bridges : s'.bridges = s.bridges) : Keeps sent s s' := by
  constructor
  · exact streams
  · intro c
    rw [out]
    exact .refl _
  · intro c item held
    rw [out] at held
    exact .inl held
  · intro c
    rw [out]
  · exact created
  · exact cut
  · exact regs
  · exact bridges

/-- An update that touches neither outboxes nor controls nor bridges. -/
theorem of_same (streams : s'.streams = s.streams) (out : s'.out = s.out) (ctl : s'.ctl = s.ctl)
    (cut : ∀ e, (s'.shared e).runCancelled = (s.shared e).runCancelled)
    (regs : ∀ r, (s'.regs r).control = (s.regs r).control ∧ (s'.regs r).np = (s.regs r).np ∧
      (s'.regs r).listener.published = (s.regs r).listener.published)
    (bridges : s'.bridges = s.bridges) : Keeps sent s s' := by
  apply of_out streams out
  · intro c created
    rw [ctl]
    exact created
  · intro c _ isCut
    rw [State.tokenCancelled, ctl, cut]
    exact isCut
  · exact fun r => .inl (regs r)
  · exact bridges

/-- A registration that is known stays as it is. -/
theorem known (keeps : Keeps sent s s') {r : RegId} (inRange : r < s.nextReg) :
    (s'.regs r).control = (s.regs r).control ∧ (s'.regs r).np = (s.regs r).np ∧
      (s'.regs r).listener.published = (s.regs r).listener.published := by
  rcases keeps.regs r with same | ⟨beyond, _⟩
  · exact same
  · exact absurd inRange (Nat.not_lt.mpr beyond)

/-- No listener starts. -/
theorem published {w : World} (keeps : Keeps sent s s') (admission : Admission w s) {r : RegId}
    {kind : ProxyType} {p : UInt16} (shown : (s'.regs r).listener.published = some (kind, p)) :
    r < s.nextReg ∧ (s.regs r).listener.published = some (kind, p) := by
  rcases keeps.regs r with ⟨_, _, same⟩ | ⟨_, none⟩
  · rw [same] at shown
    exact ⟨(admission.served shown).1, shown⟩
  · rw [none] at shown
    cases shown

theorem refl (s : State) : Keeps sent s s :=
  of_same rfl rfl rfl (fun _ => rfl) (fun _ => ⟨rfl, rfl, rfl⟩) rfl

theorem closeProxy {x : Closer} {c : StreamId} {name : String} {returned : Bool}
    (closed : s.closeProxy x c name = some (s', returned)) : Keeps sent s s' := by
  have bridges : s'.bridges = s.bridges :=
    closeProxy_view closed State.bridges fun _ _ _ _ _ => rfl
  refine of_same (closeProxy_streams closed) (closeProxy_out closed) (closeProxy_ctl closed)
    (closeProxy_runCancelled closed) ?_ bridges
  intro r
  have same := closeProxy_regs closed r
  exact ⟨same.control, same.np, same.published⟩

theorem releaseProxyPort (s : State) (e : Epoch) (kind : ProxyType) (p : UInt16) (name : String) :
    Keeps sent s (s.releaseProxyPort e kind p name) :=
  of_same rfl rfl rfl (fun e' => releaseProxyPort_runCancelled s name e e' kind p)
    (fun _ => ⟨rfl, rfl, rfl⟩) rfl

/-- Updates of a sweep are not looked at. -/
theorem setSweep (keeps : Keeps sent s s') (x : Caller) (sweep : Sweep) :
    Keeps sent s (s'.setSweep x sweep) :=
  ⟨keeps.streams, keeps.out, keeps.held, keeps.writer, keeps.created, keeps.cut, keeps.regs,
    keeps.bridges⟩

/-- Sending appends to one queue, or leaves everything as it is. -/
theorem trySend {c : StreamId} {item : Outgoing} {way : SendVia} (allowed : sent item)
    (sending : s.trySend c item way = some s') : Keeps sent s s' := by
  cases way with
  | cancelled =>
      rcases Option.ite_none_right_eq_some.mp sending with ⟨_, same⟩
      cases same
      exact refl s
  | closed =>
      rcases Option.ite_none_right_eq_some.mp sending with ⟨_, same⟩
      cases same
      exact refl s
  | queued =>
      rcases Option.ite_none_right_eq_some.mp sending with ⟨_, same⟩
      cases same
      constructor
      · rfl
      · intro d
        by_cases same : d = c
        · subst same
          simp only [State.setOut, Function.update_self]
          exact Outbox.onward_append _ item
        · simp only [State.setOut, Function.update_of_ne same]
          exact .refl _
      · intro d other held
        by_cases same : d = c
        · subst same
          simp only [State.setOut, Function.update_self] at held
          rcases Outbox.holds_append held with before | rfl
          · exact .inl before
          · exact .inr allowed
        · simp only [State.setOut, Function.update_of_ne same] at held
          exact .inl held
      · intro d
        by_cases same : d = c
        · subst same
          simp only [State.setOut, Function.update_self]
        · simp only [State.setOut, Function.update_of_ne same]
      · exact fun _ created => created
      · exact fun _ _ isCut => isCut
      · exact fun _ => .inl ⟨rfl, rfl, rfl⟩
      · rfl

/-- A control is changed without being taken back or revived. -/
theorem setControl {c : StreamId} {control : Control}
    (created : control.created = (s.ctl c).created) (epoch : control.epoch = (s.ctl c).epoch)
    (stays : (s.ctl c).cancelled = true → control.cancelled = true) :
    Keeps sent s (s.setControl c control) := by
  refine of_out rfl rfl ?_ ?_ (fun _ => .inl ⟨rfl, rfl, rfl⟩) rfl
  · intro d member
    by_cases same : d = c
    · subst same
      rw [setControl_ctl_self, created]
      exact member
    · rw [setControl_ctl_of_ne _ _ same]
      exact member
  · intro d _ isCut
    unfold State.tokenCancelled at isCut ⊢
    by_cases same : d = c
    · subst same
      rw [setControl_ctl_self, epoch]
      rcases Bool.or_eq_true_iff.mp isCut with own | run
      · exact Bool.or_eq_true_iff.mpr (.inl (stays own))
      · exact Bool.or_eq_true_iff.mpr (.inr run)
    · rw [setControl_ctl_of_ne _ _ same]
      exact isCut

/-- A registration is changed in what it remembers beside its control, message and listener. -/
theorem setReg {r : RegId} {reg : Registration} (streams : s'.streams = s.streams)
    (out : s'.out = s.out) (ctl : s'.ctl = s.ctl) (shared : s'.shared = s.shared)
    (regs : s'.regs = Function.update s.regs r reg) (bridges : s'.bridges = s.bridges)
    (control : reg.control = (s.regs r).control) (np : reg.np = (s.regs r).np)
    (published : reg.listener.published = (s.regs r).listener.published) : Keeps sent s s' := by
  refine of_same streams out ctl (fun e => by rw [shared]) ?_ bridges
  intro q
  rw [regs]
  by_cases same : q = r
  · subst same
    rw [Function.update_self]
    exact ⟨control, np, published⟩
  · rw [Function.update_of_ne same]
    exact ⟨rfl, rfl, rfl⟩

end Keeps

/-! ## Steps outside the calls -/

/-- The messages sent outside of `handle_new_proxy`: requests for work connections, and the answer
to a Ping. -/
def State.Routine (s : State) (item : Outgoing) : Prop :=
  item.1 = .reqWorkConn {} ∨
    ∃ k error, (s.streams k).pc = .pong error ∧ item.1 = .pong { error := error }

/-- What a step outside the calls does: it keeps what is shared, and then streams and bridges move
on. A stream gets into a call only at its beginning, and a bridge serves a listener that is
started. -/
inductive Outside (s : State) : State → Prop
  | keeps {s' : State} (keeps : Keeps s.Routine s s') : Outside s s'
  | stream {s₁ : State} (k : StreamId) (stream : Stream) (before : Outside s s₁)
      (calls : ∀ r pc, stream.pc = .registering r pc → pc = .reserve)
      (pongs : ∀ error, stream.pc = .pong error → error = "" ∨ error = "authentication failed") :
      Outside s (s₁.setStream k stream)
  | bridge {s₁ : State} (b : BridgeId) (bridge : Bridge) (before : Outside s s₁)
      (serves : (s₁.regs bridge.reg).listener.published ≠ none ∨
        (s₁.bridges b).pc ≠ .unborn ∧ bridge.reg = (s₁.bridges b).reg) :
      Outside s (s₁.setBridge b bridge)

namespace Outside

variable {w : World} {s s₁ : State}

theorem goto {k : StreamId} {pc : StreamPc} (before : Outside s s₁)
    (calls : ∀ r stage, pc = .registering r stage → stage = .reserve)
    (pongs : ∀ error, pc = .pong error → error = "" ∨ error = "authentication failed") :
    Outside s (s₁.goto k pc) :=
  .stream k _ before calls pongs

theorem refl (s : State) : Outside s s := .keeps (.refl s)

/-- Nothing that matters here has changed. -/
theorem same {s' : State} (streams : s'.streams = s.streams) (out : s'.out = s.out)
    (ctl : s'.ctl = s.ctl) (shared : s'.shared = s.shared) (regs : s'.regs = s.regs)
    (bridges : s'.bridges = s.bridges) : Outside s s' := by
  refine .keeps (.of_same streams out ctl (fun e => by rw [shared]) ?_ bridges)
  rw [regs]
  exact fun _ => ⟨rfl, rfl, rfl⟩

end Outside

section Steps

variable {w : World} {s s' : State} {k : StreamId}

theorem TeardownStep.keeps {sent : Outgoing → Prop} {x : Caller} {c : StreamId} {pc : TeardownPc}
    {input : SweepInput} {s₁ : State} {next : Option (StreamId × TeardownPc)}
    (call : TeardownStep x c s pc input s₁ next) : Keeps sent s s₁ := by
  cases call with
  | cancel => exact .setControl rfl rfl fun _ => rfl
  | clear _ => exact .setControl rfl rfl fun cancelled => cancelled
  | close closed => exact .closeProxy closed
  | remove =>
      refine .of_same rfl rfl rfl ?_ (fun _ => ⟨rfl, rfl, rfl⟩) rfl
      exact setShared_view s Shared.runCancelled rfl
  | _ => exact .of_same rfl rfl rfl (fun _ => rfl) (fun _ => ⟨rfl, rfl, rfl⟩) rfl

theorem sweepStep_keeps {sent : Outgoing → Prop} {x : Caller} {input : SweepInput}
    (move : sweepStep x input s = some s') : Keeps sent s s' := by
  cases sweepStep_cases move with
  | call stage call => exact call.keeps.setSweep ..
  | begins _ _ _ | skips _ _ _ => exact (Keeps.refl s).setSweep ..

theorem serverStep_outside {input : ServerInput} (move : serverStep s input = some s') :
    Outside s s' := by
  cases serverStep_cases move with
  | @stopCancel e running =>
      refine .keeps (.of_out rfl rfl (fun _ created => created) ?_
        (fun _ => .inl ⟨rfl, rfl, rfl⟩) rfl)
      intro c _ isCut
      unfold State.tokenCancelled at isCut ⊢
      unfold State.setShared
      simp only [Bool.or_eq_true] at isCut ⊢
      by_cases same : (s.ctl c).epoch = e
      · rw [same, Function.update_self]
        exact .inr rfl
      · rw [Function.update_of_ne same]
        exact isCut
  | accept _ _ | openStream _ _ _ _ => exact .stream _ _ (.refl s) nofun nofun
  | _ => exact .same rfl rfl rfl rfl rfl rfl

theorem insertStep_outside {login : Login} {runId : String} {poolCap : Nat}
    (absent : (s.ctl k).created = false) : Outside s (insertStep k login runId poolCap s) := by
  unfold insertStep
  dsimp only
  refine .goto (.keeps ?_) nofun nofun
  refine .of_out rfl rfl ?_ ?_ (fun _ => .inl ⟨rfl, rfl, rfl⟩) rfl
  · intro c created
    by_cases same : c = k
    · subst same
      rw [absent] at created
      cases created
    · exact (congrArg Control.created (setControl_ctl_of_ne s k same _)).trans created
  · intro c created isCut
    have other : c ≠ k := by
      rintro rfl
      rw [absent] at created
      cases created
    simp only [State.tokenCancelled, State.setShared, State.setControl,
      Function.update_of_ne other] at isCut ⊢
    by_cases same : (s.ctl c).epoch = (s.streams k).epoch
    · rw [same] at isCut ⊢
      rw [Function.update_self]
      exact isCut
    · rw [Function.update_of_ne same]
      exact isCut

/-- A call begins with a registration of its own. -/
theorem enter_outside (np : NewProxy) :
    Outside s ({ s.setReg s.nextReg { control := k, np := np } with
      nextReg := s.nextReg + 1 }.goto k (.registering s.nextReg .reserve)) := by
  refine .goto (.keeps ?_) ?_ nofun
  · refine .of_out rfl rfl (fun _ created => created) (fun _ _ isCut => isCut) ?_ rfl
    intro r
    by_cases same : r = s.nextReg
    · subst same
      refine .inr ⟨le_rfl, ?_⟩
      exact congrArg (fun reg => reg.listener.published) (setReg_regs_self s s.nextReg _)
    · refine .inl ?_
      rw [show State.regs { s.setReg s.nextReg _ with nextReg := _ } r = s.regs r from
        setReg_regs_of_ne s s.nextReg same _]
      exact ⟨rfl, rfl, rfl⟩
  · intro r stage same
    cases same
    rfl

/-- A step of a stream that is not in a call. -/
theorem streamStep_outside (shape : Shape s) {pc : StreamPc} {input : Input}
    (stage : (s.streams k).pc = pc) (outside : ∀ r stage, pc ≠ .registering r stage)
    (move : streamStep w k s pc input = some s') : Outside s s' := by
  cases streamStep_cases move with
  | registering call => exact absurd rfl (outside _ _)
  | dropped _ | login _ _ | workConn _ _ =>
      refine .goto (.stream k _ (.refl s) ?_ ?_) nofun nofun
      · rw [stage]
        nofun
      · rw [stage]
        nofun
  | authorized _ => exact .stream k _ (.refl s) nofun nofun
  | insert login runId poolCap => exact insertStep_outside (shape.before (by rw [stage]; rfl))
  | pool sent => exact .goto (.keeps (.trySend (.inl rfl) sent)) nofun nofun
  | frameIgnored _ => exact .refl s
  | entered _ => exact enter_outside _
  | @closing _ _ returned closed =>
      cases returned with
      | false => exact .goto (.keeps (.closeProxy closed)) nofun nofun
      | true => exact .goto (.keeps (.closeProxy closed)) nofun nofun
  | pinging ping =>
      refine .goto (.refl s) nofun ?_
      intro error same
      cases same
      unfold pongError
      split
      · exact .inl rfl
      · exact .inr rfl
  | @pong error _ _ sent =>
      exact .goto (.keeps (.trySend (.inr ⟨k, error, stage, rfl⟩) sent)) nofun nofun
  | _ => exact .goto (.same rfl rfl rfl rfl rfl rfl) nofun nofun

theorem bridgeStep_outside {b : BridgeId} {c : StreamId} {input : BridgeInput}
    (move : bridgeStep b c s (s.bridges b).pc input = some s') : Outside s s' := by
  have born : (s.bridges b).pc ≠ .unborn := by
    intro unborn
    rw [unborn] at move
    cases input <;> cases move
  have moves : ∀ bridge, bridge.reg = (s.bridges b).reg → Outside s (s.setBridge b bridge) :=
    fun bridge reg => .bridge b bridge (.refl s) (.inr ⟨born, reg⟩)
  have pooled : ∀ pool bridge, bridge.reg = (s.bridges b).reg →
      Outside s ((s.setPool c pool).setBridge b bridge) :=
    fun pool bridge reg => .bridge b bridge (.same rfl rfl rfl rfl rfl rfl) (.inr ⟨born, reg⟩)
  have sends : ∀ {way sent pc}, s.trySend c (.reqWorkConn {}, none) way = some sent →
      Outside s (sent.setBridge b { sent.bridges b with pc := pc }) := by
    intro way sent pc sentEq
    have kept : Keeps s.Routine s sent := .trySend (.inl rfl) sentEq
    refine .bridge b _ (.keeps kept) (.inr ⟨?_, rfl⟩)
    rw [kept.bridges]
    exact born
  rcases bridgeStep_cases move with ⟨s₁, next, step, rfl⟩
  generalize (s.bridges b).pc = pc at step
  cases step with
  | replenish sent | request sent => exact sends sent
  | start _ _ | started _ => exact moves _ rfl
  | _ => exact pooled _ _ rfl

theorem listenerStep_outside {r : RegId} {input : ListenerInput}
    (move : listenerStep r s (s.regs r).listener input = some s') : Outside s s' := by
  have started : (s.regs r).listener.published ≠ none := by
    cases listener : (s.regs r).listener with
    | running kind p => nofun
    | _ =>
        rw [listener] at move
        cases listenerStep_cases move
  generalize listener : (s.regs r).listener = was at move
  cases listenerStep_cases move with
  | accept port => exact .bridge _ _ (.same rfl rfl rfl rfl rfl rfl) (.inl started)
  | serve _ _ =>
      refine .bridge _ _ (.keeps (.setReg rfl rfl rfl rfl rfl rfl rfl rfl rfl)) (.inl ?_)
      change ((s.setReg r _).regs r).listener.published ≠ none
      rw [setReg_regs_self]
      exact started
  | exit _ _ =>
      refine .keeps (.setReg rfl rfl rfl rfl rfl rfl rfl rfl ?_)
      rw [listener]
      rfl

end Steps

/-! ## Steps inside a call -/

section Calls

variable {w : World} {k : StreamId} {r : RegId} {s s' s₁ : State} {pc : RegPc} {input : Input}

/-- Only the start of the listener changes more than the tables, and the only message sent is the
response. -/
theorem CallStep.keeps {next : StreamPc} (call : CallStep w k r s pc input s₁ next)
    (unpublished : ∀ kind p, pc ≠ .publish kind p) :
    Keeps (fun item => ∃ resp serve, pc = .reply resp serve ∧
      item = (.newProxyResp resp, some r)) s s₁ := by
  cases call with
  | reserved _ _ => exact .of_same rfl rfl rfl (fun _ => rfl) (fun _ => ⟨rfl, rfl, rfl⟩) rfl
  | config kind => exact .setReg rfl rfl rfl rfl rfl rfl rfl rfl rfl
  | portHeld registered =>
      refine .of_same rfl rfl rfl ?_ (fun _ => ⟨rfl, rfl, rfl⟩) rfl
      exact setShared_view s Shared.runCancelled (registerProxyPort_runCancelled _ registered)
  | release kind p error => exact .releaseProxyPort ..
  | drop _ _ => exact .of_same rfl rfl rfl (fun _ => rfl) (fun _ => ⟨rfl, rfl, rfl⟩) rfl
  | reply sent => exact .trySend ⟨_, _, rfl, rfl⟩ sent
  | undoRelease kind p => exact .releaseProxyPort ..
  | undoClose closed => exact .closeProxy closed
  | publish kind p => exact absurd rfl (unpublished kind p)
  | _ => exact .refl s

/-- A call stays with its registration. -/
theorem CallStep.registering {next : StreamPc} (call : CallStep w k r s pc input s₁ next)
    {q : RegId} {pc' : RegPc} (stage : next = .registering q pc') : q = r := by
  have flushed : ∀ serve, afterFlush r serve = .registering q pc' → q = r := by
    intro serve same
    cases serve with
    | none => cases same
    | some served =>
        cases same
        rfl
  cases call with
  | reply sent =>
      split at stage
      · cases stage
        rfl
      · exact flushed _ stage
  | flush released => exact flushed _ stage
  | undoClose closed =>
      split at stage
      · cases stage
      · cases stage
        rfl
  | publish kind p => cases stage
  | _ =>
      cases stage
      rfl

/-- What was asked for stays as it is. -/
theorem CallStep.np {next : StreamPc} (call : CallStep w k r s pc input s₁ next) :
    (s₁.regs r).np = (s.regs r).np := by
  cases call with
  | config kind => rw [setReg_regs_self]
  | reply sent =>
      rcases trySend_eq sent with ⟨out, rfl⟩
      rfl
  | undoClose closed => exact (closeProxy_regs closed r).np
  | publish kind p => rw [setReg_regs_self]
  | _ => rfl

/-- Every step of the server is a step of a call, a step of a writer task, or outside of both. -/
theorem step_cases (shape : Shape s) {a : Action} (move : step w a s = some s') :
    Outside s s' ∨
    (∃ k input r pc s₁ next, a = .stream k input ∧ (s.streams k).pc = .registering r pc ∧
      CallStep w k r s pc input s₁ next ∧ s' = s₁.goto k next) ∨
    ∃ c input, a = .writer c input ∧ writerStep c s (s.out c).writer input = some s' := by
  cases a with
  | server input => exact .inl (serverStep_outside move)
  | stream k input =>
      rcases Option.ite_none_right_eq_some.mp move with ⟨_, moved⟩
      by_cases inCall : ∃ r pc, (s.streams k).pc = .registering r pc
      · rcases inCall with ⟨r, pc, stage⟩
        rw [stage] at moved
        rcases regStep_cases moved with ⟨s₁, next, call, same⟩
        exact .inr (.inl ⟨k, input, r, pc, s₁, next, rfl, stage, call, same⟩)
      · refine .inl (streamStep_outside shape rfl ?_ moved)
        intro r pc stage
        exact inCall ⟨r, pc, stage⟩
  | sweep x input => exact .inl (.keeps (sweepStep_keeps move))
  | writer c input => exact .inr (.inr ⟨c, input, rfl, move⟩)
  | listener r input => exact .inl (listenerStep_outside move)
  | bridge b input => exact .inl (bridgeStep_outside move)

end Calls

end Remgr.Frps.Server
