/-
Module: Remgr.Proofs.Handover
Purpose: A work connection is handed to a proxy only after the client has been told that the proxy
  is up. The latch of `send_and_flush` is followed from the queue through the writer task to the
  late check. It is released as well when the writer gives up, and only a cancelled token stops the
  registration then: after a failed write the proxy starts untold, as the last section shows.
Trusted boundary: none
Main exports: Delivered, start_after_response, start_without_response
-/
import Remgr.Proofs.Calls

namespace Remgr.Frps.Server

open Remgr.Lib

/-! ## Announcements -/

namespace Outbox

/-- The response that the proxy of this name is up is on its way, with the latch of `r`. -/
def Announcing (out : Outbox) (r : RegId) (name : String) : Prop :=
  ∃ resp : NewProxyResp, resp.proxyName = name ∧ resp.error = "" ∧
    out.Holds (.newProxyResp resp, some r)

/-- The response that the proxy of this name is up has been written completely. -/
def Announced (out : Outbox) (r : RegId) (name : String) : Prop :=
  ∃ resp : NewProxyResp, resp.proxyName = name ∧ resp.error = "" ∧
    (r, .newProxyResp resp) ∈ out.written

theorem Onward.announced {old new : Outbox} (onward : old.Onward new) {r : RegId} {name : String}
    (announced : old.Announced r name) : new.Announced r name := by
  rcases announced with ⟨resp, named, fine, inside⟩
  exact ⟨resp, named, fine, onward.written _ inside⟩

/-- A message whose latch is not pending is not held. -/
theorem not_holds_of_latch {out : Outbox} {r : RegId} (released : out.latchPending r = false)
    (m : Message) : ¬ out.Holds (m, some r) := by
  unfold latchPending at released
  simp only [Bool.or_eq_false_iff, List.any_eq_false] at released
  rintro (queued | writing)
  · have other := released.1 _ queued
    simp at other
  · rw [writing] at released
    simp at released

end Outbox

/-! ## The invariant -/

/-- What the stages of a registration know about its response. -/
def Delivering (out : Outbox) (cut : Bool) (r : RegId) (name : String) : RegPc → Prop
  | .reply resp (some _) => resp.proxyName = name ∧ resp.error = ""
  | .flush (some _) => out.Announcing r name ∨ out.Announced r name ∨ out.ended = true
  | .late _ _ => out.Announced r name ∨ cut = true ∨ out.writer = .ended true
  | .publish _ _ => out.Announced r name
  | _ => True

theorem Delivering.onward {old new : Outbox} {cut cut' : Bool} {r : RegId} {name : String}
    {pc : RegPc} (delivering : Delivering old cut r name pc) (onward : old.Onward new)
    (stays : cut = true → cut' = true) : Delivering new cut' r name pc := by
  cases pc with
  | reply resp serve =>
      cases serve with
      | none => trivial
      | some served => exact delivering
  | flush serve =>
      cases serve with
      | none => trivial
      | some served =>
          rcases delivering with ⟨resp, named, fine, held⟩ | announced | finished
          · rcases onward.latched _ _ held with held' | written | finished
            · exact .inl ⟨resp, named, fine, held'⟩
            · exact .inr (.inl ⟨resp, named, fine, written⟩)
            · exact .inr (.inr finished)
          · exact .inr (.inl (onward.announced announced))
          · exact .inr (.inr (onward.ended finished))
  | late kind p =>
      rcases delivering with announced | isCut | finished
      · exact .inl (onward.announced announced)
      · exact .inr (.inl (stays isCut))
      · exact .inr (.inr (onward.closed true finished))
  | publish kind p => exact onward.announced delivering
  | _ => trivial

structure Handover (s : State) : Prop where
  created : ∀ ⦃c⦄, (s.out c).writer ≠ .waiting → (s.ctl c).created = true
  cancelled : ∀ ⦃c⦄, (s.out c).writer = .ended false → s.tokenCancelled c = true
  call : ∀ ⦃k r pc⦄, (s.streams k).pc = .registering r pc →
    Delivering (s.out k) (s.tokenCancelled k) r (s.nameOf r) pc
  served : ∀ ⦃r⦄, (s.regs r).listener.published ≠ none →
    (s.out (s.regs r).control).Announced r (s.nameOf r)
  bridges : ∀ ⦃b⦄, (s.bridges b).pc ≠ .unborn →
    (s.regs (s.bridges b).reg).listener.published ≠ none

namespace Handover

variable {w : World} {sent : Outgoing → Prop} {s s' : State}

theorem of_keeps (handover : Handover s) (shape : Shape s) (admission : Admission w s)
    (keeps : Keeps sent s s') : Handover s' := by
  constructor
  · intro c busy
    rw [keeps.writer] at busy
    exact keeps.created c (handover.created busy)
  · intro c finished
    rw [keeps.writer] at finished
    have member := handover.created (c := c) (by rw [finished]; nofun)
    exact keeps.cut c member (handover.cancelled finished)
  · intro k r pc stage
    rw [keeps.streams] at stage
    have member : (s.ctl k).created = true := shape.inControl (by rw [stage]; rfl)
    have name : s'.nameOf r = s.nameOf r :=
      congrArg NewProxy.proxyName (keeps.known (admission.calls stage).known).2.1
    rw [name]
    exact (handover.call stage).onward (keeps.out k) (keeps.cut k member)
  · intro r some
    rcases Option.ne_none_iff_exists'.mp some with ⟨⟨kind, p⟩, shown⟩
    rcases keeps.published admission shown with ⟨inRange, was⟩
    rcases keeps.known inRange with ⟨control, np, _⟩
    have name : s'.nameOf r = s.nameOf r := congrArg NewProxy.proxyName np
    rw [control, name]
    exact (keeps.out _).announced (handover.served (by rw [was]; nofun))
  · intro b born
    rw [keeps.bridges] at born ⊢
    have was := handover.bridges born
    rcases Option.ne_none_iff_exists'.mp was with ⟨⟨kind, p⟩, shown⟩
    rw [(keeps.known (admission.served shown).1).2.2]
    exact was

/-- A stream moves on. -/
theorem setStream (handover : Handover s) {k : StreamId} {stream : Stream}
    (call : ∀ r pc, stream.pc = .registering r pc →
      Delivering (s.out k) (s.tokenCancelled k) r (s.nameOf r) pc) :
    Handover (s.setStream k stream) := by
  constructor
  · exact handover.created
  · exact handover.cancelled
  · intro d r pc stage
    by_cases same : d = k
    · subst same
      rw [setStream_streams_self] at stage
      exact call r pc stage
    · rw [setStream_streams_of_ne _ _ same] at stage
      exact handover.call stage
  · exact handover.served
  · exact handover.bridges

theorem goto (handover : Handover s) {k : StreamId} {next : StreamPc}
    (call : ∀ r pc, next = .registering r pc →
      Delivering (s.out k) (s.tokenCancelled k) r (s.nameOf r) pc) : Handover (s.goto k next) :=
  handover.setStream call

/-- A listener starts for a proxy that has been announced. -/
theorem startListener (handover : Handover s) {r : RegId} {kind : ProxyType} {p : UInt16}
    (announced : (s.out (s.regs r).control).Announced r (s.nameOf r)) :
    Handover (s.setReg r { s.regs r with listener := .running kind p }) := by
  have np : ∀ q, (s.setReg r { s.regs r with listener := .running kind p }).nameOf q =
      s.nameOf q := by
    intro q
    by_cases same : q = r
    · subst same
      rw [State.nameOf, setReg_regs_self]
      rfl
    · rw [State.nameOf, setReg_regs_of_ne _ _ same]
      rfl
  have stays : ∀ q, (s.regs q).listener.published ≠ none →
      ((s.setReg r { s.regs r with listener := .running kind p }).regs q).listener.published ≠
        none := by
    intro q some
    by_cases same : q = r
    · subst same
      rw [setReg_regs_self]
      nofun
    · rw [setReg_regs_of_ne _ _ same]
      exact some
  constructor
  · exact handover.created
  · intro c finished
    have cut := handover.cancelled finished
    exact cut
  · intro k q pc stage
    rw [np]
    exact handover.call stage
  · intro q some
    rw [np]
    by_cases same : q = r
    · subst same
      rw [setReg_regs_self]
      exact announced
    · rw [setReg_regs_of_ne _ _ same] at some ⊢
      exact handover.served some
  · intro b born
    exact stays _ (handover.bridges born)

/-- A user of a started listener is served. -/
theorem setBridge (handover : Handover s) {b : BridgeId} {bridge : Bridge}
    (published : (s.regs bridge.reg).listener.published ≠ none) :
    Handover (s.setBridge b bridge) := by
  constructor
  · exact handover.created
  · exact handover.cancelled
  · exact handover.call
  · exact handover.served
  · intro d born
    by_cases same : d = b
    · subst same
      rw [show (s.setBridge d bridge).bridges d = bridge from Function.update_self ..]
      exact published
    · rw [show (s.setBridge b bridge).bridges d = s.bridges d from
        Function.update_of_ne same ..] at born ⊢
      exact handover.bridges born

/-- A step outside the calls. -/
theorem of_outside (handover : Handover s) (shape : Shape s) (admission : Admission w s)
    (outside : Outside s s') : Handover s' := by
  induction outside with
  | keeps keeps => exact handover.of_keeps shape admission keeps
  | stream k stream _ calls _ inductionHypothesis =>
      apply inductionHypothesis.setStream
      intro r pc stage
      rw [calls r pc stage]
      trivial
  | bridge b bridge _ serves inductionHypothesis =>
      apply inductionHypothesis.setBridge
      rcases serves with published | ⟨born, reg⟩
      · exact published
      · rw [reg]
        exact inductionHypothesis.bridges born

end Handover

/-! ## Steps -/

section Delivering

variable {out : Outbox} {cut : Bool} {r : RegId} {name : String}

theorem afterReserve_delivering (np : NewProxy) : Delivering out cut r name (afterReserve np) := by
  unfold afterReserve
  split
  · trivial
  · split <;> trivial

theorem afterConfig_delivering (cfg : FrpsConfig) (kind : ProxyType) (np : NewProxy) :
    Delivering out cut r name (afterConfig cfg kind np) := by
  unfold afterConfig
  split
  · trivial
  · split <;> trivial

theorem afterPort_delivering {w : World} (kind : ProxyType) (p : UInt16) (bindAddr : String) :
    Delivering out cut r name (afterPort w kind p bindAddr) := by
  unfold afterPort
  split <;> trivial

theorem afterBind_delivering {np : NewProxy} {kind : ProxyType} {p : UInt16} {addr : String}
    {attempt : Nat} {result : BindResult} (named : np.proxyName = name) :
    Delivering out cut r name (afterBind np kind p addr attempt result) := by
  cases result with
  | bound => exact ⟨named, rfl⟩
  | failed text => trivial
  | addrInUse text =>
      simp only [afterBind]
      split <;> trivial

end Delivering

/-- A registration passes its late check only when its response was written, in case the writer of
its control has ended on a failed write. -/
def Delivered (s : State) : Action → Prop
  | .stream k _ => ∀ r kind p, (s.streams k).pc = .registering r (.late kind p) →
      s.ptkCancelled r = false → (s.out k).writer = .ended true →
      (s.out k).Announced r (s.nameOf r)
  | _ => True

namespace Handover

variable {w : World} {s s' : State} {k : StreamId}

/-- What is known once the latch of a success response is released, or the response could not be
queued at all. -/
theorem late_of_ended (handover : Handover s) {r : RegId} {kind : ProxyType} {p : UInt16}
    (finished : (s.out k).ended = true) :
    Delivering (s.out k) (s.tokenCancelled k) r (s.nameOf r) (.late kind p) := by
  rcases Outbox.ended_iff.mp finished with ⟨failed, writer⟩
  cases failed with
  | true => exact .inr (.inr writer)
  | false => exact .inr (.inl (handover.cancelled writer))

theorem reply (handover : Handover s) {r : RegId} {resp : NewProxyResp}
    {serve : Option (ProxyType × UInt16)} {way : SendVia} {sent : State}
    (stage : (s.streams k).pc = .registering r (.reply resp serve))
    (sentEq : s.trySend k (.newProxyResp resp, some r) way = some sent) (kept : Handover sent) :
    Handover (sent.goto k
      (if way = .queued then .registering r (.flush serve) else afterFlush r serve)) := by
  refine kept.goto ?_
  cases serve with
  | none =>
      intro q pc same
      split at same <;> cases same
      trivial
  | some served =>
      rcases handover.call stage with ⟨named, fine⟩
      intro q pc same
      cases way with
      | queued =>
          rcases Option.ite_none_right_eq_some.mp sentEq with ⟨_, queued⟩
          cases queued
          cases same
          refine .inl ⟨resp, named, fine, .inl ?_⟩
          simp [State.setOut]
      | cancelled =>
          rcases Option.ite_none_right_eq_some.mp sentEq with ⟨cut, unchanged⟩
          cases unchanged
          cases same
          exact .inr (.inl cut)
      | closed =>
          rcases Option.ite_none_right_eq_some.mp sentEq with ⟨finished, unchanged⟩
          cases unchanged
          cases same
          exact handover.late_of_ended finished

theorem flush (handover : Handover s) {r : RegId} {serve : Option (ProxyType × UInt16)}
    (stage : (s.streams k).pc = .registering r (.flush serve))
    (released : (s.out k).latchPending r = false) : Handover (s.goto k (afterFlush r serve)) := by
  refine handover.goto ?_
  cases serve with
  | none => nofun
  | some served =>
      intro q pc same
      cases same
      rcases handover.call stage with ⟨resp, _, _, held⟩ | announced | finished
      · exact absurd held (Outbox.not_holds_of_latch released _)
      · exact .inl announced
      · exact handover.late_of_ended finished

theorem late (handover : Handover s) (admission : Admission w s) {r : RegId} {kind : ProxyType}
    {p : UInt16} {input : Input} (delivered : Delivered s (.stream k input))
    (stage : (s.streams k).pc = .registering r (.late kind p)) :
    Handover (s.goto k (.registering r
      (if s.ptkCancelled r then .undoRelease kind p else .publish kind p))) := by
  refine handover.goto ?_
  intro q pc same
  cases same
  split
  · trivial
  · next alive =>
      have notCancelled : s.ptkCancelled r = false := by simpa using alive
      have notCut : s.tokenCancelled k = false := by
        rw [State.ptkCancelled, (admission.calls stage).control, Bool.or_eq_false_iff]
          at notCancelled
        exact notCancelled.2
      rcases handover.call stage with announced | cut | failed
      · exact announced
      · rw [notCut] at cut
        cases cut
      · exact delivered r kind p stage notCancelled failed
theorem callStep (handover : Handover s) (shape : Shape s) (admission : Admission w s) {r : RegId}
    {pc : RegPc} {input : Input} {s₁ : State} {next : StreamPc}
    (delivered : Delivered s (.stream k input)) (stage : (s.streams k).pc = .registering r pc)
    (call : CallStep w k r s pc input s₁ next) : Handover (s₁.goto k next) := by
  have kept : (∀ kind p, pc ≠ .publish kind p) → Handover s₁ := fun unpublished =>
    handover.of_keeps shape admission (call.keeps unpublished)
  cases call with
  | taken inUse =>
      refine (kept nofun).goto ?_
      intro q pc same
      cases same
      trivial
  | reserved free =>
      refine (kept nofun).goto ?_
      intro q pc same
      cases same
      exact afterReserve_delivering _
  | config kind =>
      refine (kept nofun).goto ?_
      intro q pc same
      cases same
      exact afterConfig_delivering _ _ _
  | portTaken refused =>
      refine (kept nofun).goto ?_
      intro q pc same
      cases same
      trivial
  | portHeld registered =>
      refine (kept nofun).goto ?_
      intro q pc same
      cases same
      exact afterPort_delivering _ _ _
  | bind kind p addr attempt result =>
      refine (kept nofun).goto ?_
      intro q pc same
      cases same
      exact afterBind_delivering rfl
  | release kind p error =>
      refine (kept nofun).goto ?_
      intro q pc same
      cases same
      trivial
  | drop error =>
      refine (kept nofun).goto ?_
      intro q pc same
      cases same
      trivial
  | reply sent => exact handover.reply stage sent (kept nofun)
  | flush released => exact handover.flush stage released
  | late kind p => exact handover.late admission delivered stage
  | undoRelease kind p =>
      refine (kept nofun).goto ?_
      intro q pc same
      cases same
      trivial
  | undoClose _ =>
      refine (kept nofun).goto ?_
      intro q pc same
      split at same
      · cases same
      · cases same
        trivial
  | publish kind p =>
      have announced : (s.out k).Announced r (s.nameOf r) := handover.call stage
      rw [← (admission.calls stage).control] at announced
      have recorded : ∀ info, Handover (s.setProxy info) := fun _ =>
        handover.of_outside shape admission (.same rfl rfl rfl rfl rfl rfl)
      exact goto ((recorded _).startListener announced) nofun

/-- The writer task moves on. -/
theorem setOut (handover : Handover s) {c : StreamId} {out : Outbox}
    (onward : (s.out c).Onward out) (created : (s.ctl c).created = true)
    (cancelled : out.writer = .ended false → s.tokenCancelled c = true) :
    Handover (s.setOut c out) := by
  have later : ∀ d, (s.out d).Onward ((s.setOut c out).out d) := by
    intro d
    by_cases same : d = c
    · subst same
      rw [show (s.setOut d out).out d = out from Function.update_self ..]
      exact onward
    · rw [show (s.setOut c out).out d = s.out d from Function.update_of_ne same ..]
      exact .refl _
  constructor
  · intro d busy
    by_cases same : d = c
    · subst same
      exact created
    · rw [show (s.setOut c out).out d = s.out d from Function.update_of_ne same ..] at busy
      exact handover.created busy
  · intro d finished
    by_cases same : d = c
    · subst same
      rw [show (s.setOut d out).out d = out from Function.update_self ..] at finished
      exact cancelled finished
    · rw [show (s.setOut c out).out d = s.out d from Function.update_of_ne same ..] at finished
      exact handover.cancelled finished
  · intro k r pc stage
    exact (handover.call stage).onward (later k) fun isCut => isCut
  · intro r published
    exact (later _).announced (handover.served published)
  · exact handover.bridges

/-- When the writer ends, what it held is dropped. -/
theorem endWriter (handover : Handover s) {c : StreamId} {failed : Bool}
    (created : (s.ctl c).created = true) (busy : ∀ was, (s.out c).writer ≠ .ended was)
    (cancelled : failed = false → s.tokenCancelled c = true) :
    Handover (endWriter c failed s) := by
  refine handover.setOut ⟨fun _ inside => inside, ?_, ?_⟩ created ?_
  · intro m r _
    exact .inr (.inr rfl)
  · intro was finished
    exact absurd finished (busy was)
  · intro finished
    cases finished
    exact cancelled rfl

theorem writerStep (handover : Handover s) {c : StreamId} {input : WriterInput}
    (move : writerStep c s (s.out c).writer input = some s') : Handover s' := by
  generalize stage : (s.out c).writer = writer at move
  have busy : (∀ was, writer ≠ .ended was) → ∀ was, (s.out c).writer ≠ .ended was := by
    rw [stage]
    exact id
  cases writerStep_cases move with
  | @take item rest created queue =>
      refine handover.setOut ⟨fun _ inside => inside, ?_, ?_⟩ created nofun
      · rintro m r (queued | writing)
        · rw [queue] at queued
          rcases List.mem_cons.mp queued with first | later
          · exact .inl (.inr (by rw [first]))
          · exact .inl (.inl later)
        · rw [stage] at writing
          cases writing
      · intro failed finished
        rw [stage] at finished
        cases finished
  | closed created cut => exact handover.endWriter created (busy nofun) fun _ => cut
  | abandoned cut =>
      have created : (s.ctl c).created = true := handover.created (by rw [stage]; nofun)
      exact handover.endWriter created (busy nofun) fun _ => cut
  | wrote _ =>
      have created : (s.ctl c).created = true := handover.created (by rw [stage]; nofun)
      refine handover.setOut ⟨?_, ?_, ?_⟩ created nofun
      · intro entry inside
        unfold noteWritten
        split
        · exact List.mem_cons_of_mem _ inside
        · exact inside
      · rintro m r (queued | writing)
        · exact .inl (.inl queued)
        · rw [stage] at writing
          cases writing
          exact .inr (.inl (List.mem_cons_self ..))
      · intro failed finished
        rw [stage] at finished
        cases finished
  | failed item =>
      have created : (s.ctl c).created = true := handover.created (by rw [stage]; nofun)
      exact handover.endWriter created (busy nofun) nofun

theorem step (handover : Handover s) (shape : Shape s) (admission : Admission w s) {a : Action}
    (delivered : Delivered s a) (move : step w a s = some s') : Handover s' := by
  rcases step_cases shape move with
    outside | ⟨k, input, r, pc, s₁, next, rfl, stage, call, rfl⟩ | ⟨c, input, rfl, moved⟩
  · exact handover.of_outside shape admission outside
  · exact handover.callStep shape admission delivered stage call
  · exact handover.writerStep moved

end Handover

theorem server_handover {w : World} {s : State} (run : (server w).Reaches Delivered s) :
    Handover s := by
  refine run.invariant ?_ ?_
  · rintro s ⟨cfg, rfl⟩
    constructor
    · intro c busy
      exact absurd rfl busy
    · intro c finished
      cases finished
    · intro k r pc stage
      cases stage
    · intro r some
      exact absurd rfl some
    · intro b born
      exact absurd rfl born
  · intro s a s' before handover delivered move
    exact handover.step (server_shape before) (server_admission before) delivered move

/-- In every run that meets the condition, a task that serves a user of a proxy is about to write
StartWorkConn, or has written it, only when the response that this proxy is up has been written
completely to its control. -/
theorem start_after_response {w : World} {s : State} (run : (server w).Reaches Delivered s)
    {b : BridgeId} {work : StreamId}
    (starts : (s.bridges b).pc = .start work ∨ (s.bridges b).pc = .started work) :
    (s.out (s.regs (s.bridges b).reg).control).Announced (s.bridges b).reg
      (s.nameOf (s.bridges b).reg) := by
  have handover := server_handover run
  apply handover.served
  apply handover.bridges
  rcases starts with start | started
  · rw [start]
    nofun
  · rw [started]
    nofun

/-! ## A run that meets the condition, and one that does not -/

/-- A client with a work connection in its pool registers a proxy, up to the waiting for its
response. -/
def pooledProxyRun : List Action :=
  .server .start :: (loginRun 1 "one" ++
    [.server (.openStream 2 1),
      .stream 2 (.frame (some (TYPE_NEW_WORK_CONN, (sampleLogin "one").toVec))),
      .stream 2 .go, .stream 2 .go, .stream 2 .go] ++
    proxyRunToBind 1 6001 ++
    [.stream 1 (.bound .bound), .stream 1 (.via .queued), .writer 1 .take])

/-- The registration goes on, and a user comes who is served from the pool. -/
def userRun (way : SendVia) : List Action :=
  [.stream 1 .go, .stream 1 .go, .stream 1 .go, .listener 0 .accept, .bridge 0 .go, .bridge 0 .go,
    .bridge 0 (.via way), .bridge 0 (.wrote true)]

/-- The condition, checked at the stage where it matters. -/
def deliveredCheck (s : State) : Action → Bool
  | .stream k _ =>
      match (s.streams k).pc, (s.out k).writer with
      | .registering _ (.late _ _), .ended true => false
      | _, _ => true
  | _ => true

theorem delivered_of_check {s : State} {a : Action} (checked : deliveredCheck s a = true) :
    Delivered s a := by
  cases a with
  | stream k input =>
      intro r kind p stage _ failed
      simp only [deliveredCheck, stage, failed] at checked
      cases checked
  | _ => trivial

/-- With the response written, the user's work connection is started. -/
theorem start_after_response_pooled :
    ∃ s, (server sampleWorld).Reaches Delivered s ∧ (s.bridges 0).pc = .started 2 ∧
      (s.out (s.regs (s.bridges 0).reg).control).Announced (s.bridges 0).reg
        (s.nameOf (s.bridges 0).reg) := by
  have reached : ∃ s, (server sampleWorld).Reaches Delivered s ∧
      decide ((s.bridges 0).pc = .started 2) = true :=
    System.reaches_of_any
      (fun _ moved =>
        have ⟨checked, move⟩ := Option.ite_none_right_eq_some.mp moved
        ⟨delivered_of_check checked, move⟩) (.start ⟨_, rfl⟩)
      (by decide +kernel : (System.execute
        (fun a s => if deliveredCheck s a then step sampleWorld a s else none)
        (pooledProxyRun ++ .writer 1 (.wrote true) :: userRun .queued) (State.new {})).any
          (fun s => decide ((s.bridges 0).pc = .started 2)) = true)
  rcases reached with ⟨s, run, shown⟩
  have started := of_decide_eq_true shown
  exact ⟨s, run, started, start_after_response run (.inr started)⟩

/-- When the write of the response fails, the latch is released, the registration goes on and the
user's work connection is started although the client was never told. -/
theorem start_without_response :
    ∃ s, (server sampleWorld).Reachable s ∧ (s.bridges 0).pc = .started 2 ∧
      (s.bridges 0).reg = 0 ∧ (s.regs 0).control = 1 ∧ (s.out 1).written = [] := by
  rcases sample_reaches (pooledProxyRun ++ .writer 1 (.wrote false) :: userRun .closed)
    (fun s => decide ((s.bridges 0).pc = .started 2 ∧ (s.bridges 0).reg = 0 ∧
      (s.regs 0).control = 1) && (s.out 1).written.isEmpty) (by decide +kernel)
    with ⟨s, run, shown⟩
  simp only [Bool.and_eq_true, decide_eq_true_eq, List.isEmpty_iff] at shown
  exact ⟨s, run, shown.1.1, shown.1.2.1, shown.1.2.2, shown.2⟩

end Remgr.Frps.Server
