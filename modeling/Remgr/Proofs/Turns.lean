/-
Module: Remgr.Proofs.Turns
Purpose: What one step of the server does to the controls, to the calls of `teardown`, to the online
  counter and to the pools of work connections. Most steps leave all of them alone; the few that do
  not are listed, for the task of a stream and for the other tasks.
Trusted boundary: none
Main exports: Quiet, StreamTurn, streamStep_turn, serverStep_quiet, Action.opens, unopened_kept
-/
import Remgr.Proofs.Calls

namespace Remgr.Frps.Server

open Remgr.Lib

/-- The login has raised the online counter and has not created its control yet. -/
def StreamPc.counts : StreamPc → Bool
  | .insert _ _ _ => true
  | _ => false

/-- The registrations that are known stay with their controls. -/
structure SameHomes (s s' : State) : Prop where
  nextReg : s.nextReg ≤ s'.nextReg
  control : ∀ r, r < s.nextReg → (s'.regs r).control = (s.regs r).control

theorem SameHomes.of_regs {s s' : State} (regs : s'.regs = s.regs) (nextReg : s'.nextReg = s.nextReg) :
    SameHomes s s' where
  nextReg := nextReg.ge
  control r _ := by rw [regs]

/-- One registration is told more. -/
theorem SameHomes.setReg {s s' : State} {r : RegId} {reg : Registration}
    (regs : s'.regs = Function.update s.regs r reg) (nextReg : s'.nextReg = s.nextReg)
    (home : reg.control = (s.regs r).control) : SameHomes s s' where
  nextReg := nextReg.ge
  control q _ := by
    rw [regs]
    by_cases same : q = r
    · subst same
      rw [Function.update_self]
      exact home
    · rw [Function.update_of_ne same]

theorem SameHomes.closeProxy {s s₁ : State} {x : Closer} {c : StreamId} {name : String}
    {returned : Bool} (closed : s.closeProxy x c name = some (s₁, returned)) : SameHomes s s₁ where
  nextReg := (closeProxy_nextReg closed).ge
  control r _ := (closeProxy_regs closed r).control

/-- The controls, the calls of `teardown`, the online counter, the pools and the users that are
served are as they were. -/
structure Quiet (s s' : State) : Prop where
  clientsOnline : s'.clientsOnline = s.clientsOnline
  ctl : s'.ctl = s.ctl
  current : ∀ x, (s'.sweeps x).current = (s.sweeps x).current
  pool : s'.pool = s.pool
  bridges : s'.bridges = s.bridges
  homes : SameHomes s s'

namespace Quiet

variable {s s₁ : State}

/-- Nothing of it has changed. -/
theorem of_same {s' : State} (clientsOnline : s'.clientsOnline = s.clientsOnline)
    (ctl : s'.ctl = s.ctl) (sweeps : s'.sweeps = s.sweeps) (pool : s'.pool = s.pool)
    (bridges : s'.bridges = s.bridges) (homes : SameHomes s s') : Quiet s s' :=
  ⟨clientsOnline, ctl, fun x => by rw [sweeps], pool, bridges, homes⟩

theorem refl (s : State) : Quiet s s := of_same rfl rfl rfl rfl rfl (.of_regs rfl rfl)

theorem setStream (quiet : Quiet s s₁) (k : StreamId) (stream : Stream) :
    Quiet s (s₁.setStream k stream) :=
  ⟨quiet.clientsOnline, quiet.ctl, quiet.current, quiet.pool, quiet.bridges, quiet.homes.nextReg,
    quiet.homes.control⟩

theorem goto (quiet : Quiet s s₁) (k : StreamId) (pc : StreamPc) : Quiet s (s₁.goto k pc) :=
  quiet.setStream k _

/-- A caller of `teardown` gets more to do. -/
theorem setTodo (s : State) (x : Caller) (todo : List StreamId) :
    Quiet s (s.setSweep x { s.sweeps x with todo := todo }) where
  clientsOnline := rfl
  ctl := rfl
  current y := by
    by_cases same : y = x
    · subst same
      rw [setSweep_sweeps_self]
    · rw [setSweep_sweeps_of_ne _ _ same]
  pool := rfl
  bridges := rfl
  homes := .of_regs rfl rfl

theorem closeProxy {x : Closer} {c : StreamId} {name : String} {returned : Bool}
    (closed : s.closeProxy x c name = some (s₁, returned)) : Quiet s s₁ := by
  apply of_same
  · exact closeProxy_view closed State.clientsOnline fun _ _ _ _ _ => rfl
  · exact closeProxy_ctl closed
  · exact closeProxy_sweeps closed
  · exact closeProxy_view closed State.pool fun _ _ _ _ _ => rfl
  · exact closeProxy_view closed State.bridges fun _ _ _ _ _ => rfl
  · exact .closeProxy closed

theorem trySend {c : StreamId} {item : Outgoing} {way : SendVia}
    (sent : s.trySend c item way = some s₁) : Quiet s s₁ := by
  rcases trySend_eq sent with ⟨out, rfl⟩
  exact of_same rfl rfl rfl rfl rfl (.of_regs rfl rfl)

theorem call {w : World} {k : StreamId} {r : RegId} {pc : RegPc} {input : Input} {next : StreamPc}
    (call : CallStep w k r s pc input s₁ next) : Quiet s s₁ := by
  cases call with
  | reply sent => exact trySend sent
  | undoClose closed => exact closeProxy closed
  | config kind => exact of_same rfl rfl rfl rfl rfl (.setReg rfl rfl rfl)
  | publish kind p => exact of_same rfl rfl rfl rfl rfl (.setReg rfl rfl rfl)
  | _ => exact of_same rfl rfl rfl rfl rfl (.of_regs rfl rfl)

end Quiet

/-! ## The task of a stream -/

/-- What a step of stream `k` can be: one that is quiet and has nothing to do with the counting, the
raising of the counter, the creation of the control, or the delivery of a work connection. -/
inductive StreamTurn (k : StreamId) (s s' : State) : Prop
  | moves (quiet : Quiet s s') (was : (s.streams k).pc.counts = false)
      (next : (s'.streams k).pc.counts = false)
  | counts {s₁ : State} {login : Login} {runId : String} {poolCap : Nat}
      (was : (s.streams k).pc = .online login runId poolCap)
      (raised : s₁ = { s with clientsOnline := s.clientsOnline + 1 })
      (same : s' = s₁.goto k (.insert login runId poolCap))
  | creates {login : Login} {runId : String} {poolCap : Nat}
      (was : (s.streams k).pc = .insert login runId poolCap)
      (same : s' = insertStep k login runId poolCap s)
  | delivers {c : StreamId} (was : (s.streams k).pc = .workEnqueue c)
      (same : s' = (s.setPool c { s.pool c with conns := (s.pool c).conns ++ [k] }).goto k .done)

section Stream

variable {w : World} {k : StreamId} {s s' : State}

/-- A step of a call ends outside the counting. -/
theorem CallStep.counts {r : RegId} {pc : RegPc} {input : Input} {s₁ : State} {next : StreamPc}
    (call : CallStep w k r s pc input s₁ next) : next.counts = false := by
  have flushed : ∀ serve, (afterFlush r serve).counts = false := by
    intro serve
    cases serve <;> rfl
  cases call with
  | reply sent =>
      split
      · rfl
      · exact flushed _
  | flush released => exact flushed _
  | undoClose _ => split <;> rfl
  | _ => rfl

theorem streamStep_turn {input : Input}
    (move : streamStep w k s (s.streams k).pc input = some s') : StreamTurn k s s' := by
  have moves : ∀ {s₁ : State} {pc : StreamPc}, (s.streams k).pc.counts = false → Quiet s s₁ →
      pc.counts = false → StreamTurn k s (s₁.goto k pc) := by
    intro s₁ pc was quiet next
    refine .moves (quiet.goto k pc) was ?_
    rw [goto_streams_self]
    exact next
  generalize stage : (s.streams k).pc = pc at move moves
  have was : pc.counts = false → (s.streams k).pc.counts = false := by
    intro outside
    rw [stage, outside]
  cases streamStep_cases move with
  | dropped _ | login _ _ | workConn _ _ => exact moves rfl ((Quiet.refl s).setStream _ _) rfl
  | authorized _ =>
      refine .moves ((Quiet.refl s).setStream _ _) (was rfl) ?_
      rw [setStream_streams_self]
      rfl
  | online login runId poolCap => exact .counts stage rfl rfl
  | insert login runId poolCap => exact .creates stage rfl
  | pool sent | pong sent => exact moves rfl (.trySend sent) rfl
  | lookup _ _ | frameEnds _ | cancelled _ | sessionOver _ => exact moves rfl (.setTodo ..) rfl
  | frameIgnored _ => exact .moves (.refl s) (was rfl) (was rfl)
  | entered _ =>
      refine moves rfl (.of_same rfl rfl rfl rfl rfl ?_) rfl
      exact ⟨Nat.le_succ _, fun r known => congrArg _ (setReg_regs_of_ne _ _ known.ne _)⟩
  | registering call =>
      rcases regStep_cases call with ⟨s₁, next, step, rfl⟩
      exact moves rfl (.call step) step.counts
  | closing closed =>
      refine moves rfl (.closeProxy closed) ?_
      split <;> rfl
  | workEnqueue _ => exact .delivers stage rfl
  | _ => exact moves rfl (.of_same rfl rfl rfl rfl rfl (.of_regs rfl rfl)) rfl

end Stream

/-! ## The server object -/

/-- The stream that a step opens. -/
def Action.opens : Action → Option StreamId
  | .server (.accept k _) => some k
  | .server (.openStream k _) => some k
  | _ => none

/-- The server object is quiet, and all it does to the streams is to open one. -/
theorem serverStep_quiet {s s' : State} {input : ServerInput} (move : serverStep s input = some s') :
    Quiet s s' ∧ (s'.streams = s.streams ∨
      ∃ k stream, (Action.server input).opens = some k ∧ (s.streams k).pc = .unopened ∧
        stream.pc = .first ∧ s' = s.setStream k stream) := by
  cases serverStep_cases move with
  | @stopCollect e entries _ _ =>
      have more := Quiet.setTodo s (.stop e) entries
      exact ⟨⟨rfl, rfl, more.current, rfl, rfl, .of_regs rfl rfl⟩, .inl rfl⟩
  | @monitorCollect e entries _ _ _ =>
      have more := Quiet.setTodo s (.monitor e) entries
      exact ⟨⟨rfl, rfl, more.current, rfl, rfl, .of_regs rfl rfl⟩, .inl rfl⟩
  | accept unopened _ | openStream unopened _ _ _ =>
      exact ⟨(Quiet.refl s).setStream _ _, .inr ⟨_, _, rfl, unopened, rfl, rfl⟩⟩
  | _ => exact ⟨.of_same rfl rfl rfl rfl rfl (.of_regs rfl rfl), .inl rfl⟩

/-! ## Streams that are never opened -/

/-- A stream gets out of its first stage only by being opened. -/
theorem unopened_kept {w : World} {s s' : State} {a : Action} {k : StreamId}
    (move : step w a s = some s') (closed : (s.streams k).pc = .unopened)
    (other : a.opens ≠ some k) : (s'.streams k).pc = .unopened := by
  cases a with
  | server input =>
      rcases (serverStep_quiet move).2 with same | ⟨d, stream, opens, _, _, rfl⟩
      · rw [same]
        exact closed
      · have different : k ≠ d := by
          rintro rfl
          exact other opens
        rw [setStream_streams_of_ne _ _ different]
        exact closed
  | stream d input =>
      rcases Option.ite_none_right_eq_some.mp move with ⟨_, moved⟩
      have different : k ≠ d := by
        rintro rfl
        rw [closed] at moved
        cases input <;> cases moved
      rw [(OwnMove.streamStep moved).others k different]
      exact closed
  | sweep x input =>
      have kept : Keeps (fun _ => True) s s' := sweepStep_keeps move
      rw [kept.streams]
      exact closed
  | writer c input =>
      rcases writerStep_aside move with ⟨out, rfl⟩
      exact closed
  | listener r input =>
      rw [(listenerStep_aside move).1.streams]
      exact closed
  | bridge b input =>
      rw [(bridgeStep_aside move).1.streams]
      exact closed

/-- A run in the sample world opens the streams it names, and no others. -/
theorem sample_reaches_opening (actions : List Action) (check : State → Bool)
    (passed : (System.execute (step sampleWorld) actions (State.new {})).any check = true) :
    ∃ s, (server sampleWorld).Reachable s ∧ check s = true ∧
      ∀ k, k ∉ actions.filterMap Action.opens → (s.streams k).pc = .unopened := by
  rcases System.exists_of_any passed with ⟨s, done, checked⟩
  refine ⟨s, System.reaches_of_execute (fun _ moved => ⟨trivial, moved⟩) (.start ⟨_, rfl⟩) done,
    checked, ?_⟩
  intro k others
  refine System.execute_keeps (P := fun s => (s.streams k).pc = .unopened) ?_ done rfl
  intro a inside s s' moved closed
  refine unopened_kept moved closed ?_
  intro opens
  exact others (List.mem_filterMap.mpr ⟨a, inside, opens⟩)

end Remgr.Frps.Server
