/-
Module: Remgr.Proofs.Replies
Purpose: Every NewProxy that the reader of a control has taken is answered once, and in the order in
  which the messages were taken, as long as the control is not cut off and its writer goes on.
Trusted boundary: none
Main exports: Outbox.latched, LatchTurn, step_latched, Replies, server_replies, replies_in_order
-/
import Remgr.Proofs.ServerOnward

namespace Remgr.Frps.Server

open Remgr.Lib

/-! ## Answers on their way -/

/-- The registration that waits for a message, with the message. -/
def latchOf (item : Outgoing) : Option (RegId × Message) := item.2.map fun r => (r, item.1)

namespace Outbox

/-- The message that is being written. -/
def inHand (out : Outbox) : List Outgoing :=
  match out.writer with
  | .writing item => [item]
  | _ => []

/-- The answers to registrations in the order in which they were sent: those that are written, the
one that is being written, and those in the channel. -/
def latched (out : Outbox) : List (RegId × Message) :=
  out.written.reverse ++ (out.inHand ++ out.queue).filterMap latchOf

theorem latched_send (out : Outbox) (item : Outgoing) :
    latched { out with queue := out.queue ++ [item] } = out.latched ++ (latchOf item).toList := by
  unfold latched
  change out.written.reverse ++ (out.inHand ++ (out.queue ++ [item])).filterMap latchOf = _
  rw [← List.append_assoc, List.filterMap_append, ← List.append_assoc]
  cases latch : latchOf item with
  | none => rw [List.filterMap_cons_none latch, List.filterMap_nil, Option.toList_none]
  | some entry => rw [List.filterMap_cons_some latch, List.filterMap_nil, Option.toList_some]

theorem latched_take {out : Outbox} {item : Outgoing} {rest : List Outgoing}
    (waiting : out.writer = .waiting) (queue : out.queue = item :: rest) :
    latched { out with queue := rest, writer := .writing item } = out.latched := by
  unfold latched inHand
  rw [waiting, queue]
  rfl

theorem latched_wrote {out : Outbox} {item : Outgoing} (writing : out.writer = .writing item) :
    latched { out with writer := .waiting, written := noteWritten item out.written } =
      out.latched := by
  unfold latched inHand
  rw [writing]
  rcases item with ⟨m, latch⟩
  cases latch with
  | none => rfl
  | some r =>
      change ((r, m) :: out.written).reverse ++ _ = _
      rw [List.reverse_cons, List.append_assoc]
      rfl

/-- A writer that ends drops what it had not written. -/
theorem latched_ended (out : Outbox) (failed : Bool) :
    latched { out with queue := [], writer := .ended failed } <+: out.latched := by
  unfold latched
  change out.written.reverse ++ [] <+: _
  rw [List.append_nil]
  exact List.prefix_append ..

end Outbox

/-- What a step does to the answers of a control: nothing, the reader sends the next one, or the
writer ends and drops what is left. -/
inductive LatchTurn (s s' : State) (c : StreamId) : Prop
  | same (same : (s'.out c).latched = (s.out c).latched)
      (ended : (s'.out c).ended = (s.out c).ended)
  | answers {r : RegId} {resp : NewProxyResp} {serve : Option (ProxyType × UInt16)}
      (stage : (s.streams c).pc = .registering r (.reply resp serve))
      (next : (s'.streams c).pc = .registering r (.flush serve))
      (sent : (s'.out c).latched = (s.out c).latched ++ [(r, .newProxyResp resp)])
      (ended : (s'.out c).ended = (s.out c).ended)
  | drops (left : (s'.out c).latched <+: (s.out c).latched) (ended : (s'.out c).ended = true)

section Steps

variable {w : World} {s s' : State} {a : Action}

theorem LatchTurn.of_out (c : StreamId) (out : s'.out = s.out) : LatchTurn s s' c := by
  refine .same ?_ ?_ <;> rw [out]

/-- Sending a message that nobody waits for. -/
theorem LatchTurn.trySend {d : StreamId} {m : Message} {way : SendVia} {s₁ : State}
    (sent : s.trySend d (m, none) way = some s₁) (after : s'.out = s₁.out) (c : StreamId) :
    LatchTurn s s' c := by
  cases way with
  | cancelled | closed =>
      rcases Option.ite_none_right_eq_some.mp sent with ⟨_, same⟩
      cases same
      exact .of_out c after
  | queued =>
      rcases Option.ite_none_right_eq_some.mp sent with ⟨_, same⟩
      cases same
      refine .same ?_ ?_ <;> rw [after]
      · change (Function.update s.out d _ c).latched = _
        by_cases own : c = d
        · subst own
          rw [Function.update_self, Outbox.latched_send]
          exact List.append_nil _
        · rw [Function.update_of_ne own]
      · change (Function.update s.out d _ c).ended = _
        by_cases own : c = d
        · subst own
          rw [Function.update_self]
          rfl
        · rw [Function.update_of_ne own]

theorem streamStep_latched {k : StreamId} {input : Input}
    (move : streamStep w k s (s.streams k).pc input = some s') (c : StreamId) :
    LatchTurn s s' c := by
  generalize stage : (s.streams k).pc = pc at move
  cases streamStep_cases move with
  | pool sent | pong sent =>
      refine .trySend sent ?_ c
      rfl
  | registering call =>
      rcases regStep_cases call with ⟨s₁, next, step, rfl⟩
      cases step with
      | @reply resp serve way _ sent =>
          cases way with
          | cancelled | closed =>
              rcases Option.ite_none_right_eq_some.mp sent with ⟨_, same⟩
              cases same
              exact .of_out c rfl
          | queued =>
              rcases Option.ite_none_right_eq_some.mp sent with ⟨_, same⟩
              cases same
              by_cases own : c = k
              · subst own
                refine .answers stage ?_ ?_ ?_
                · rw [goto_streams_self, if_pos rfl]
                · change (Function.update s.out c _ c).latched = _
                  rw [Function.update_self, Outbox.latched_send]
                  rfl
                · change (Function.update s.out c _ c).ended = _
                  rw [Function.update_self]
                  rfl
              · have other : ∀ out, (s.setOut k out).out c = s.out c :=
                  fun out => Function.update_of_ne own ..
                refine .same ?_ ?_
                · exact congrArg Outbox.latched (other _)
                · exact congrArg Outbox.ended (other _)
      | undoClose closed =>
          have kept := closeProxy_out closed
          exact .of_out c kept
      | _ => exact .of_out c rfl
  | closing closed =>
      have kept := closeProxy_out closed
      exact .of_out c kept
  | _ => exact .of_out c rfl

theorem writerStep_latched {d : StreamId} {input : WriterInput}
    (move : writerStep d s (s.out d).writer input = some s') (c : StreamId) : LatchTurn s s' c := by
  have others : ∀ out, c ≠ d → s' = s.setOut d out → LatchTurn s s' c := by
    rintro out other rfl
    have same : (s.setOut d out).out c = s.out c := Function.update_of_ne other ..
    exact .same (by rw [same]) (by rw [same])
  rcases writerStep_aside move with ⟨out, after⟩
  by_cases own : c = d
  · subst own
    have self : ∀ out, (s.setOut c out).out c = out := fun out => Function.update_self ..
    generalize writer : (s.out c).writer = was at move
    cases writerStep_cases move with
    | take created queue =>
        refine .same ?_ ?_ <;> rw [self]
        · exact Outbox.latched_take writer queue
        · unfold Outbox.ended
          rw [writer]
    | wrote fit =>
        refine .same ?_ ?_ <;> rw [self]
        · exact Outbox.latched_wrote writer
        · unfold Outbox.ended
          rw [writer]
    | closed _ _ | abandoned _ =>
        refine .drops ?_ ?_ <;> unfold endWriter <;> rw [self]
        · exact Outbox.latched_ended ..
        · rfl
    | failed item =>
        refine .drops ?_ ?_ <;> unfold endWriter <;> rw [self]
        · exact Outbox.latched_ended ..
        · rfl
  · exact others out own after

theorem step_latched (move : step w a s = some s') (c : StreamId) : LatchTurn s s' c := by
  cases a with
  | server input => cases serverStep_cases move <;> exact .of_out c rfl
  | stream k input =>
      rcases Option.ite_none_right_eq_some.mp move with ⟨_, moved⟩
      exact streamStep_latched moved c
  | sweep x input =>
      cases sweepStep_cases move with
      | @call d _ _ _ _ stage call =>
          cases call with
          | close closed =>
              have kept := closeProxy_out closed
              exact .of_out c kept
          | _ => exact .of_out c rfl
      | begins _ _ _ | skips _ _ _ => exact .of_out c rfl
  | writer d input => exact writerStep_latched move c
  | listener r input =>
      have turn : ListenerStep r s (s.regs r).listener input s' := listenerStep_cases move
      generalize (s.regs r).listener = listener at turn
      cases turn <;> exact .of_out c rfl
  | bridge b input =>
      rcases bridgeStep_cases move with ⟨s₁, next, step, rfl⟩
      generalize (s.bridges b).pc = pc at step
      cases step with
      | replenish sent | request sent =>
          refine .trySend sent ?_ c
          rfl
      | _ => exact .of_out c rfl

end Steps

/-! ## Calls -/

/-- The call has not sent its answer yet. -/
def RegPc.unanswered : RegPc → Bool
  | .reserve | .config _ | .port _ _ _ | .bind _ _ _ _ | .release _ _ _ | .drop _ | .reply _ _ => true
  | _ => false

theorem afterReserve_unanswered (np : NewProxy) : (afterReserve np).unanswered = true := by
  unfold afterReserve
  split
  · rfl
  · split <;> rfl

theorem afterConfig_unanswered (cfg : FrpsConfig) (kind : ProxyType) (np : NewProxy) :
    (afterConfig cfg kind np).unanswered = true := by
  unfold afterConfig
  split
  · rfl
  · split <;> rfl

theorem afterPort_unanswered (w : World) (kind : ProxyType) (p : UInt16) (bindAddr : String) :
    (afterPort w kind p bindAddr).unanswered = true := by
  unfold afterPort
  split <;> rfl

theorem afterBind_unanswered (np : NewProxy) (kind : ProxyType) (p : UInt16) (addr : String)
    (attempt : Nat) (result : BindResult) :
    (afterBind np kind p addr attempt result).unanswered = true := by
  cases result with
  | bound => rfl
  | failed text => rfl
  | addrInUse text =>
      unfold afterBind
      dsimp only
      split <;> rfl

section Calls

variable {w : World} {k : StreamId} {r : RegId} {s s₁ : State} {pc : RegPc} {input : Input}
  {next : StreamPc}

/-- A call goes on unanswered until it has tried to send its answer. -/
theorem CallStep.goes_on (call : CallStep w k r s pc input s₁ next) (before : pc.unanswered = true) :
    (∃ pc', next = .registering r pc' ∧ pc'.unanswered = true) ∨
      ∃ resp serve way, pc = .reply resp serve ∧
        s.trySend k (.newProxyResp resp, some r) way = some s₁ := by
  cases call with
  | reply sent => exact .inr ⟨_, _, _, rfl, sent⟩
  | reserved free => exact .inl ⟨_, rfl, afterReserve_unanswered _⟩
  | config kind => exact .inl ⟨_, rfl, afterConfig_unanswered ..⟩
  | portHeld registered => exact .inl ⟨_, rfl, afterPort_unanswered ..⟩
  | bind kind p addr attempt result => exact .inl ⟨_, rfl, afterBind_unanswered ..⟩
  | flush _ | late _ _ | undoRelease _ _ | undoClose _ | publish _ _ => cases before
  | _ => exact .inl ⟨_, rfl, rfl⟩

/-- A call that is unanswered after a step of it was so before. -/
theorem CallStep.was_unanswered (call : CallStep w k r s pc input s₁ next) {pc' : RegPc}
    (stage : next = .registering r pc') (after : pc'.unanswered = true) : pc.unanswered = true := by
  have flushed : ∀ serve, afterFlush r serve = .registering r pc' → pc'.unanswered = false := by
    intro serve same
    cases serve with
    | none => cases same
    | some served =>
        cases same
        rfl
  cases call with
  | flush released => cases (flushed _ stage).symm.trans after
  | late kind p =>
      cases stage
      split at after <;> cases after
  | undoRelease kind p =>
      cases stage
      cases after
  | undoClose _ =>
      split at stage
      · cases stage
      · cases stage
        cases after
  | publish _ _ => cases stage
  | _ => rfl

/-- The answer names the proxy that was asked for. -/
theorem CallStep.names (call : CallStep w k r s pc input s₁ next) {resp : NewProxyResp}
    {serve : Option (ProxyType × UInt16)} (stage : next = .registering r (.reply resp serve)) :
    resp.proxyName = s.nameOf r := by
  have flushed : ∀ serve', afterFlush r serve' ≠ .registering r (.reply resp serve) := by
    intro serve' same
    cases serve' <;> cases same
  cases call with
  | taken _ | drop _ =>
      cases stage
      rfl
  | reserved free =>
      injection stage with _ same
      unfold afterReserve at same
      split at same
      · cases same
      · split at same <;> cases same
  | config kind =>
      injection stage with _ same
      unfold afterConfig at same
      split at same
      · cases same
      · split at same <;> cases same
  | portHeld registered =>
      injection stage with _ same
      unfold afterPort at same
      split at same <;> cases same
  | bind kind p addr attempt result =>
      injection stage with _ same
      cases result with
      | bound =>
          cases same
          rfl
      | failed text => cases same
      | addrInUse text =>
          unfold afterBind at same
          dsimp only at same
          split at same <;> cases same
  | reply sent =>
      split at stage
      · cases stage
      · exact absurd stage (flushed _)
  | flush released => exact absurd stage (flushed _)
  | late kind p =>
      injection stage with _ same
      split at same <;> cases same
  | undoClose _ => split at stage <;> cases stage
  | _ => cases stage

end Calls

/-! ## Runs -/

/-- The message answers the registration, which is one of this control. -/
structure State.Answers (s : State) (c : StreamId) (r : RegId) (m : Message) : Prop where
  known : r < s.nextReg
  control : (s.regs r).control = c
  names : ∃ resp, m = .newProxyResp resp ∧ resp.proxyName = s.nameOf r

/-- How it stands with the answer to a registration of control `c`: the call goes on, the answer is
on its way or written, or the control cannot be told any more. -/
inductive State.Settled (s : State) (c : StreamId) (r : RegId) : Prop
  | calling {pc : RegPc} (stage : (s.streams c).pc = .registering r pc)
      (unanswered : pc.unanswered = true)
  | sent {m : Message} (member : (r, m) ∈ (s.out c).latched)
  | cut (cut : s.tokenCancelled c = true)
  | closed (ended : (s.out c).ended = true)

structure Replies (s : State) : Prop where
  born : ∀ ⦃r⦄, r < s.nextReg → (s.ctl (s.regs r).control).created = true
  order : ∀ c, ((s.out c).latched.map Prod.fst).Pairwise (· < ·)
  answers : ∀ ⦃c r m⦄, (r, m) ∈ (s.out c).latched → s.Answers c r m
  ahead : ∀ ⦃c r pc⦄, (s.streams c).pc = .registering r pc → pc.unanswered = true →
    ∀ q ∈ (s.out c).latched.map Prod.fst, q < r
  named : ∀ ⦃c r resp serve⦄, (s.streams c).pc = .registering r (.reply resp serve) →
    resp.proxyName = s.nameOf r
  settled : ∀ ⦃r⦄, r < s.nextReg → s.Settled (s.regs r).control r

section Runs

variable {w : World} {s s' : State} {a : Action}

theorem step_name (move : step w a s = some s') {r : RegId} (known : r < s.nextReg) :
    s'.nameOf r = s.nameOf r :=
  congrArg NewProxy.proxyName (step_np move known)

theorem State.Answers.kept {c : StreamId} {r : RegId} {m : Message} (answers : s.Answers c r m)
    (move : step w a s = some s') : s'.Answers c r m := by
  have homes := step_homes move
  constructor
  · exact answers.known.trans_le homes.nextReg
  · rw [homes.control r answers.known]
    exact answers.control
  · rw [step_name move answers.known]
    exact answers.names

/-- A call that is unanswered after a step was so before, or has just begun. -/
theorem step_unanswered (move : step w a s = some s') {c : StreamId} {r : RegId} {pc' : RegPc}
    (stage : (s'.streams c).pc = .registering r pc') (unanswered : pc'.unanswered = true) :
    (∃ pc, (s.streams c).pc = .registering r pc ∧ pc.unanswered = true) ∨ r = s.nextReg := by
  rcases step_stage move c with same | ⟨_, opened⟩ | ⟨input, rfl, moved⟩
  · exact .inl ⟨pc', same.symm.trans stage, unanswered⟩
  · cases opened.symm.trans stage
  · have goes : ∀ {s₁ : State} {pc : StreamPc}, ((s₁.goto c pc).streams c).pc = .registering r pc' →
        pc = .registering r pc' := by
      intro s₁ pc stage
      rw [goto_streams_self] at stage
      exact stage
    generalize current : (s.streams c).pc = pc at moved ⊢
    cases streamStep_cases moved with
    | entered _ =>
        cases goes stage
        exact .inr rfl
    | authorized _ =>
        rw [setStream_streams_self] at stage
        cases stage
    | frameIgnored _ => cases current.symm.trans stage
    | registering call =>
        rcases regStep_cases call with ⟨s₁, next, step, rfl⟩
        have after := goes stage
        cases step.registering after
        exact .inl ⟨_, rfl, step.was_unanswered after unanswered⟩
    | closing _ =>
        have after := goes stage
        split at after <;> cases after
    | _ => cases goes stage

/-- A response that is about to be sent names the proxy of its registration. -/
theorem Replies.step_named (replies : Replies s) (admission : Admission w s)
    (move : Server.step w a s = some s') {c : StreamId} {r : RegId} {resp : NewProxyResp}
    {serve : Option (ProxyType × UInt16)}
    (stage : (s'.streams c).pc = .registering r (.reply resp serve)) :
    resp.proxyName = s'.nameOf r := by
  rcases step_stage move c with same | ⟨_, opened⟩ | ⟨input, rfl, moved⟩
  · have before := same.symm.trans stage
    rw [step_name move (admission.calls before).known]
    exact replies.named before
  · cases opened.symm.trans stage
  · have goes : ∀ {s₁ : State} {pc : StreamPc},
        ((s₁.goto c pc).streams c).pc = .registering r (.reply resp serve) →
        pc = .registering r (.reply resp serve) := by
      intro s₁ pc stage
      rw [goto_streams_self] at stage
      exact stage
    generalize current : (s.streams c).pc = pc at moved
    cases streamStep_cases moved with
    | authorized _ =>
        rw [setStream_streams_self] at stage
        cases stage
    | frameIgnored _ => cases current.symm.trans stage
    | registering call =>
        rcases regStep_cases call with ⟨s₁, next, step, rfl⟩
        have after := goes stage
        cases step.registering after
        rw [step_name move (admission.calls current).known]
        exact step.names after
    | closing _ =>
        have after := goes stage
        split at after <;> cases after
    | _ => cases goes stage

/-- An answer that was owed before a step is owed, on its way or given up after it. -/
theorem State.Settled.step {c : StreamId} {r : RegId} (settled : s.Settled c r) (shape : Shape s)
    (created : (s.ctl c).created = true) (move : Server.step w a s = some s') :
    s'.Settled c r := by
  have ended : (s.out c).ended = true → (s'.out c).ended = true := by
    intro before
    cases step_latched move c with
    | same _ ended | answers _ _ _ ended =>
        rw [ended]
        exact before
    | drops _ ended => exact ended
  cases settled with
  | calling stage unanswered =>
      rcases step_stage move c with same | ⟨unopened, _⟩ | ⟨input, rfl, moved⟩
      · exact .calling (same.trans stage) unanswered
      · cases stage.symm.trans unopened
      · rw [stage] at moved
        rcases regStep_cases moved with ⟨s₁, next, call, rfl⟩
        rcases call.goes_on unanswered with ⟨pc', rfl, still⟩ | ⟨resp, serve, way, rfl, sent⟩
        · refine .calling ?_ still
          rw [goto_streams_self]
        · cases way with
          | cancelled =>
              rcases Option.ite_none_right_eq_some.mp sent with ⟨cut, same⟩
              exact .cut (cut_kept shape move created cut)
          | closed =>
              rcases Option.ite_none_right_eq_some.mp sent with ⟨done, same⟩
              exact .closed (ended done)
          | queued =>
              rcases Option.ite_none_right_eq_some.mp sent with ⟨_, same⟩
              cases same
              refine .sent (m := .newProxyResp resp) ?_
              change _ ∈ (Function.update s.out c _ c).latched
              rw [Function.update_self, Outbox.latched_send]
              exact List.mem_append_right _ (List.mem_singleton_self _)
  | @sent m member =>
      cases step_latched move c with
      | same same _ =>
          refine .sent (m := m) ?_
          rw [same]
          exact member
      | answers _ _ sent _ =>
          refine .sent (m := m) ?_
          rw [sent]
          exact List.mem_append_left _ member
      | drops _ ended => exact .closed ended
  | cut cut => exact .cut (cut_kept shape move created cut)
  | closed done => exact .closed (ended done)

theorem Replies.step (replies : Replies s) (shape : Shape s) (admission : Admission w s)
    (move : Server.step w a s = some s') : Replies s' := by
  have homes := step_homes move
  -- what is new after the step is the call that has just begun
  have fresh : ∀ {r}, r < s'.nextReg → r < s.nextReg ∨ ∃ k np, r = s.nextReg ∧
      (s.ctl k).created = true ∧ (s.streams k).pc = .entering np ∧ (s'.regs r).control = k ∧
      (s'.streams k).pc = .registering r .reserve := by
    intro r known
    rcases step_registers move with same | ⟨k, np, entering, _, rfl⟩
    · rw [same] at known
      exact .inl known
    · rcases Nat.lt_succ_iff_lt_or_eq.mp known with before | rfl
      · exact .inl before
      · refine .inr ⟨k, np, rfl, shape.inControl (by rw [entering]; rfl), entering, ?_, ?_⟩
        · exact congrArg Registration.control (setReg_regs_self s s.nextReg _)
        · rw [goto_streams_self]
  constructor
  · intro r known
    rcases fresh known with before | ⟨k, np, rfl, created, _, control, _⟩
    · rw [homes.control r before, (step_later shape move (replies.born before)).created]
      exact replies.born before
    · rw [control, (step_later shape move created).created]
      exact created
  · intro c
    cases step_latched move c with
    | same same _ =>
        rw [same]
        exact replies.order c
    | answers stage _ sent _ =>
        rw [sent, List.map_append, List.pairwise_append]
        refine ⟨replies.order c, List.pairwise_singleton .., ?_⟩
        intro q member last isLast
        cases List.mem_singleton.mp isLast
        exact replies.ahead stage rfl q member
    | drops left _ => exact (replies.order c).sublist (left.sublist.map _)
  · intro c r m member
    have old : (r, m) ∈ (s.out c).latched → s'.Answers c r m :=
      fun before => (replies.answers before).kept move
    cases step_latched move c with
    | same same _ => exact old (same ▸ member)
    | drops left _ => exact old (left.subset member)
    | @answers q resp serve stage _ sent _ =>
        rw [sent, List.mem_append, List.mem_singleton] at member
        rcases member with before | last
        · exact old before
        · cases last
          have call := admission.calls stage
          have now := State.Answers.mk call.known call.control ⟨resp, rfl, replies.named stage⟩
          exact now.kept move
  · intro c r pc stage unanswered q member
    have before : q ∈ (s.out c).latched.map Prod.fst := by
      cases step_latched move c with
      | same same _ => exact same ▸ member
      | drops left _ => exact (left.sublist.map _).subset member
      | answers _ next _ _ =>
          cases next.symm.trans stage
          cases unanswered
    rcases step_unanswered move stage unanswered with ⟨pc', was, still⟩ | rfl
    · exact replies.ahead was still q before
    · rcases List.mem_map.mp before with ⟨⟨r, m⟩, inside, rfl⟩
      exact (replies.answers inside).known
  · intro c r resp serve stage
    exact replies.step_named admission move stage
  · intro r known
    rcases fresh known with before | ⟨k, np, rfl, _, _, control, stage⟩
    · rw [homes.control r before]
      exact (replies.settled before).step shape (replies.born before) move
    · rw [control]
      exact .calling stage rfl

end Runs

theorem server_replies {w : World} {allowed : State → Action → Prop} {s : State}
    (run : (server w).Reaches allowed s) : Replies s := by
  refine run.invariant ?_ ?_
  · rintro s ⟨cfg, rfl⟩
    constructor
    · intro r known
      cases known
    · intro c
      exact List.Pairwise.nil
    · intro c r m member
      cases member
    · intro c r pc stage
      cases stage
    · intro c r resp serve stage
      cases stage
    · intro r known
      cases known
  · intro s a s' before replies _ move
    exact replies.step (server_shape before) (server_admission before) move

/-- In every reachable state: the answers that a control has sent are in the order in which its
reader took the messages, none twice, and each names the proxy that was asked for; and a message
that was taken is still being handled, or its answer is among them, unless the control is cut off or
its writer has ended. -/
theorem replies_in_order {w : World} {s : State} (run : (server w).Reachable s) :
    (∀ c, ((s.out c).latched.map Prod.fst).Pairwise (· < ·) ∧
      ∀ r m, (r, m) ∈ (s.out c).latched → s.Answers c r m) ∧
    ∀ r, r < s.nextReg → s.Settled (s.regs r).control r := by
  have replies := server_replies run
  refine ⟨?_, ?_⟩
  · intro c
    exact ⟨replies.order c, fun r m member => replies.answers member⟩
  · intro r known
    exact replies.settled known

/-- A client registers its proxy, and then asks for the name again: it is answered twice, in that
order, and nothing is left to answer. -/
theorem replies_in_order_asked_twice :
    ∃ s, (server sampleWorld).Reachable s ∧ (s.out 1).latched.map Prod.fst = [0, 1] ∧
      (∀ r m, (r, m) ∈ (s.out 1).latched → s.Answers 1 r m) ∧
      ∀ r ∈ [0, 1], s.Settled (s.regs r).control r := by
  rcases sample_reaches
    (oneProxyRun ++ (proxyRunToBind 1 6002).take 3 ++ [.stream 1 (.via .queued)])
    (fun s => decide ((s.out 1).latched.map Prod.fst = [0, 1] ∧ s.nextReg = 2)) (by decide +kernel)
    with ⟨s, run, shown⟩
  rcases of_decide_eq_true shown with ⟨answered, known⟩
  have ⟨order, settled⟩ := replies_in_order run
  refine ⟨s, run, answered, (order 1).2, fun r asked => settled r ?_⟩
  rw [known]
  simp only [List.mem_cons, List.not_mem_nil, or_false] at asked
  rcases asked with rfl | rfl <;> decide

end Remgr.Frps.Server
