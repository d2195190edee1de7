/-
Module: Remgr.Proofs.Sessions
Purpose: One session for one run id. A login takes its run id over from the control that has it; the
  logins and teardowns of the server are seen as a succession of controls under (run of the server,
  run id). In the runs where the logins with one run id come one after the other, every live control
  is the entry of `controls`; two logins at a time undo this, as the last section shows.
Trusted boundary: none
Main exports: succession, Sequenced, live_controls_listed, overlapping_logins
-/
import Remgr.Proofs.Ports
import Remgr.Lib.Succession

namespace Remgr.Frps.Server

open Remgr.Lib

/-! ## The view -/

/-- The run id a login is about to take over or has taken over, until its control is entered. -/
def claimOf (stream : Stream) : Option ((Epoch × String) × Bool) :=
  match stream.pc with
  | .replace _ runId => some ((stream.epoch, runId), false)
  | .reply _ runId _ | .online _ runId _ | .insert _ runId _ => some ((stream.epoch, runId), true)
  | _ => none

/-- The controls a caller of `teardown` has still to cancel. -/
def Sweep.ending (sweep : Sweep) : List StreamId :=
  match sweep.current with
  | some (c, .cancel) => c :: sweep.todo
  | _ => sweep.todo

/-- The control whose entry the caller found to be its own and is about to remove. -/
def Sweep.removing (sweep : Sweep) : Option StreamId :=
  match sweep.current with
  | some (c, .remove) => some c
  | _ => none

def State.keyOf (s : State) (c : StreamId) : Epoch × String := ((s.ctl c).epoch, (s.ctl c).runId)

/-- The login of the control is finished and its token is not cancelled. -/
def State.liveControl (s : State) (c : StreamId) : Bool :=
  (s.ctl c).created && !s.tokenCancelled c

abbrev Controls := Succession StreamId (Epoch × String) Caller

abbrev ControlOp := Succession.Op StreamId (Epoch × String) Caller

def succession (s : State) : Controls where
  key := s.keyOf
  live := s.liveControl
  table key := (s.shared key.1).controls.lookup key.2
  claim k := claimOf (s.streams k)
  ending x := (s.sweeps x).ending
  removing x := (s.sweeps x).removing

/-! ## How the updates of the state look through the view -/

/-- Updates of everything else are not seen. -/
theorem succession_congr {s s' : State} (ctl : ∀ c, s'.keyOf c = s.keyOf c)
    (live : s'.liveControl = s.liveControl)
    (controls : ∀ e, (s'.shared e).controls = (s.shared e).controls)
    (claims : ∀ k, claimOf (s'.streams k) = claimOf (s.streams k))
    (sweeps : ∀ x, (s'.sweeps x).ending = (s.sweeps x).ending ∧
      (s'.sweeps x).removing = (s.sweeps x).removing) : succession s' = succession s := by
  unfold succession
  congr 1
  · exact funext ctl
  · funext key
    rw [controls]
  · exact funext claims
  · exact funext fun x => (sweeps x).1
  · exact funext fun x => (sweeps x).2

theorem liveControl_congr {s s' : State} (ctl : s'.ctl = s.ctl)
    (cut : ∀ e, (s'.shared e).runCancelled = (s.shared e).runCancelled) :
    s'.liveControl = s.liveControl := by
  funext c
  simp only [State.liveControl, State.tokenCancelled, ctl, cut]

/-- Updates of proxies, ports, queues and the like. -/
theorem succession_aside {s s' : State} (ctl : s'.ctl = s.ctl)
    (controls : ∀ e, (s'.shared e).controls = (s.shared e).controls)
    (cut : ∀ e, (s'.shared e).runCancelled = (s.shared e).runCancelled)
    (streams : s'.streams = s.streams) (sweeps : s'.sweeps = s.sweeps) :
    succession s' = succession s := by
  apply succession_congr
  · intro c
    simp only [State.keyOf, ctl]
  · exact liveControl_congr ctl cut
  · exact controls
  · intro k
    rw [streams]
  · intro x
    rw [sweeps]
    exact ⟨rfl, rfl⟩

theorem succession_setStream (s : State) (k : StreamId) (stream : Stream) :
    succession (s.setStream k stream) = { succession s with
      claim := Function.update (succession s).claim k (claimOf stream) } := by
  have claims : (fun d => claimOf ((s.setStream k stream).streams d)) =
      Function.update (succession s).claim k (claimOf stream) := by
    funext d
    by_cases same : d = k
    · subst same
      rw [setStream_streams_self, Function.update_self]
    · rw [setStream_streams_of_ne _ _ same, Function.update_of_ne same]
      rfl
  exact congrArg (fun claim => ({ succession s with claim := claim } : Controls)) claims

/-- A stream goes on after another update, with the claim it had. -/
theorem succession_setStream_of {s s₁ : State} {k : StreamId} {stream : Stream}
    (view : succession s₁ = succession s) (same : claimOf stream = claimOf (s.streams k)) :
    succession (s₁.setStream k stream) = succession s := by
  rw [succession_setStream, view, same]
  have claim : Function.update (succession s).claim k (claimOf (s.streams k)) =
      (succession s).claim := Function.update_eq_self k _
  rw [claim]

/-- A caller of `teardown` goes on. -/
theorem succession_setSweep (s : State) (x : Caller) (sweep : Sweep) :
    succession (s.setSweep x sweep) = { succession s with
      ending := Function.update (succession s).ending x sweep.ending
      removing := Function.update (succession s).removing x sweep.removing } := by
  have field {β : Type} (get : Sweep → β) : (fun y => get ((s.setSweep x sweep).sweeps y)) =
      Function.update (fun y => get (s.sweeps y)) x (get sweep) := by
    funext y
    by_cases same : y = x
    · subst same
      rw [setSweep_sweeps_self, Function.update_self]
    · rw [setSweep_sweeps_of_ne _ _ same, Function.update_of_ne same]
  exact congrArg₂ (fun ending removing => ({ succession s with
    ending := ending
    removing := removing } : Controls)) (field Sweep.ending) (field Sweep.removing)

/-- The same, when its removal is as before. -/
theorem succession_setSweep_ending {s : State} {x : Caller} {sweep : Sweep}
    (removing : sweep.removing = (s.sweeps x).removing) :
    succession (s.setSweep x sweep) = { succession s with
      ending := Function.update (succession s).ending x sweep.ending } := by
  rw [succession_setSweep, removing]
  have same : Function.update (succession s).removing x (s.sweeps x).removing =
      (succession s).removing := Function.update_eq_self x _
  rw [same]

theorem succession_setSweep_removing {s : State} {x : Caller} {sweep : Sweep}
    (ending : sweep.ending = (s.sweeps x).ending) :
    succession (s.setSweep x sweep) = { succession s with
      removing := Function.update (succession s).removing x sweep.removing } := by
  rw [succession_setSweep, ending]
  have same : Function.update (succession s).ending x (s.sweeps x).ending =
      (succession s).ending := Function.update_eq_self x _
  rw [same]

theorem succession_setSweep_same {s : State} {x : Caller} {sweep : Sweep}
    (ending : sweep.ending = (s.sweeps x).ending)
    (removing : sweep.removing = (s.sweeps x).removing) :
    succession (s.setSweep x sweep) = succession s := by
  rw [succession_setSweep_removing ending, removing]
  have same : Function.update (succession s).removing x (s.sweeps x).removing =
      (succession s).removing := Function.update_eq_self x _
  rw [same]

theorem succession_setControl (s : State) (c : StreamId) (control : Control) :
    succession (s.setControl c control) = { succession s with
      key := Function.update (succession s).key c (control.epoch, control.runId)
      live := Function.update (succession s).live c
        (control.created && !(control.cancelled || (s.shared control.epoch).runCancelled)) } := by
  have field {β : Type} (get : Control → β) : (fun d => get ((s.setControl c control).ctl d)) =
      Function.update (fun d => get (s.ctl d)) c (get control) := by
    funext d
    by_cases same : d = c
    · subst same
      rw [setControl_ctl_self, Function.update_self]
    · rw [setControl_ctl_of_ne _ _ same, Function.update_of_ne same]
  exact congrArg₂ (fun key live => ({ succession s with key := key, live := live } : Controls))
    (field fun control => (control.epoch, control.runId))
    (field fun control => control.created &&
      !(control.cancelled || (s.shared control.epoch).runCancelled))

theorem succession_cancel (s : State) (c : StreamId) :
    succession (s.setControl c { s.ctl c with cancelled := true }) = { succession s with
      live := Function.update (succession s).live c false } := by
  refine (succession_setControl s c { s.ctl c with cancelled := true }).trans ?_
  have key : Function.update (succession s).key c ((s.ctl c).epoch, (s.ctl c).runId) =
      (succession s).key := Function.update_eq_self c _
  have finished :
      ((s.ctl c).created && !(true || (s.shared (s.ctl c).epoch).runCancelled)) = false := by
    simp
  exact congrArg₂ (fun key live => ({ succession s with
    key := key
    live := Function.update (succession s).live c live } : Controls)) key finished

/-- The online flag is not seen. -/
theorem succession_offline (s : State) (c : StreamId) (online : Bool) :
    succession (s.setControl c { s.ctl c with online := online }) = succession s := by
  refine (succession_setControl s c { s.ctl c with online := online }).trans ?_
  have key : Function.update (succession s).key c ((s.ctl c).epoch, (s.ctl c).runId) =
      (succession s).key := Function.update_eq_self c _
  have live : Function.update (succession s).live c (s.liveControl c) = (succession s).live :=
    Function.update_eq_self c _
  exact congrArg₂ (fun key live => ({ succession s with key := key, live := live } : Controls))
    key live

/-- New entries in `controls`: the one of one run id differs. -/
theorem succession_setControls (s : State) (e : Epoch) (runId : String) (value : Option StreamId)
    (controls : Map String StreamId)
    (entries : ∀ r, controls.lookup r =
      if r = runId then value else (s.shared e).controls.lookup r) :
    succession (s.setShared e { s.shared e with controls := controls }) = { succession s with
      table := Function.update (succession s).table (e, runId) value } := by
  have live : (s.setShared e { s.shared e with controls := controls }).liveControl =
      s.liveControl := by
    refine liveControl_congr rfl ?_
    intro e'
    by_cases same : e' = e
    · subst same
      simp [State.setShared]
    · simp [State.setShared, same]
  have table : (succession (s.setShared e { s.shared e with controls := controls })).table =
      Function.update (succession s).table (e, runId) value := by
    funext key
    rcases key with ⟨e', r⟩
    by_cases sameRun : e' = e
    · subst sameRun
      by_cases sameId : r = runId
      · subst sameId
        simp [succession, State.setShared, entries]
      · simp [succession, State.setShared, entries, sameId]
    · simp [succession, State.setShared, sameRun]
  exact congrArg₂ (fun live table => ({ succession s with live := live, table := table } :
    Controls)) live table

theorem succession_closeProxy {s₁ : State} {x : Closer} {c : StreamId} {name : String}
    {returned : Bool} (closed : s.closeProxy x c name = some (s₁, returned)) :
    succession s₁ = succession s :=
  succession_aside (closeProxy_ctl closed) (closeProxy_controls closed)
    (closeProxy_runCancelled closed) (closeProxy_streams closed) (closeProxy_sweeps closed)

theorem succession_releaseProxyPort (s : State) (e : Epoch) (kind : ProxyType) (p : UInt16)
    (name : String) : succession (s.releaseProxyPort e kind p name) = succession s :=
  succession_aside rfl (fun e' => releaseProxyPort_controls s name e e' kind p)
    (fun e' => releaseProxyPort_runCancelled s name e e' kind p) rfl rfl

/-! ## Steps -/

/-- The run id `run_control_with_login` settles on. -/
def runIdOf (login : Login) (uuid : String) : String :=
  if login.runId = "" then uuid else login.runId

/-- Which action a step of the succession comes from, for the kinds that matter later. -/
def Because (s : State) (a : Action) : ControlOp → Prop
  | .claim k key => ∃ login uuid, a = .stream k (.uuid uuid) ∧
      (s.streams k).pc = .lookup login ∧ key = ((s.streams k).epoch, runIdOf login uuid)
  | .enter k key => ∃ login runId poolCap, a = .stream k .go ∧
      (s.streams k).pc = .insert login runId poolCap ∧ key = ((s.streams k).epoch, runId)
  | .startRemoval x => ∃ input, a = .sweep x input
  | _ => True

/-- A step of the server is one of the succession, or invisible. -/
def Succeeds (s : State) (a : Action) (s' : State) : Prop :=
  succession s' = succession s ∨
    ∃ op, Because s a op ∧ Succession.Step Caller.stream (succession s) op (succession s')

theorem Succeeds.step {s s' : State} {a : Action} {op : ControlOp} {t : Controls}
    (view : succession s' = t) (move : Succession.Step Caller.stream (succession s) op t)
    (because : Because s a op) : Succeeds s a s' := by
  subst view
  exact .inr ⟨op, because, move⟩

section Steps

variable {w : World} {s s' : State} {a : Action} {k : StreamId}

/-- A stream goes on after an update that is not seen, with the claim it had. -/
theorem goto_succeeds {s₁ : State} {pc : StreamPc} (view : succession s₁ = succession s)
    (same : claimOf { s₁.streams k with pc := pc } = claimOf (s.streams k)) :
    Succeeds s a (s₁.goto k pc) :=
  .inl (succession_setStream_of view same)

/-- The same, from a stage without a claim to another one. -/
theorem goto_unclaimed {s₁ : State} {pc : StreamPc} (view : succession s₁ = succession s)
    (was : claimOf (s.streams k) = none)
    (next : ∀ stream : Stream, claimOf { stream with pc := pc } = none) :
    Succeeds s a (s₁.goto k pc) :=
  goto_succeeds view (by rw [was, next])

theorem sendGoto_unclaimed {item : Outgoing} {way : SendVia} {pc : StreamPc} {sent : State}
    (sentEq : s.trySend k item way = some sent) (was : claimOf (s.streams k) = none)
    (next : ∀ stream : Stream, claimOf { stream with pc := pc } = none) :
    Succeeds s a (sent.goto k pc) := by
  rcases trySend_eq sentEq with ⟨out, rfl⟩
  refine goto_unclaimed ?_ was next
  exact succession_aside rfl (fun _ => rfl) (fun _ => rfl) rfl rfl

theorem regStep_succeeds {r : RegId} {pc : RegPc} {input : Input}
    (was : claimOf (s.streams k) = none) (move : regStep w k r s pc input = some s') :
    Succeeds s a s' := by
  rcases regStep_cases move with ⟨s₁, next, call, rfl⟩
  cases call with
  | portHeld registered =>
      refine goto_unclaimed ?_ was fun _ => rfl
      refine succession_aside rfl ?_ ?_ rfl rfl
      · exact setShared_view s Shared.controls (registerProxyPort_controls _ registered)
      · exact setShared_view s Shared.runCancelled (registerProxyPort_runCancelled _ registered)
  | release _ _ _ | undoRelease _ _ =>
      exact goto_unclaimed (succession_releaseProxyPort ..) was fun _ => rfl
  | @reply _ serve _ _ sent =>
      refine sendGoto_unclaimed sent was ?_
      intro stream
      cases serve <;> split <;> rfl
  | @flush serve _ =>
      refine goto_unclaimed rfl was ?_
      intro stream
      cases serve <;> rfl
  | undoClose closed =>
      refine goto_unclaimed (succession_closeProxy closed) was ?_
      intro stream
      split <;> rfl
  | _ =>
      refine goto_unclaimed ?_ was fun _ => rfl
      exact succession_aside rfl (fun _ => rfl) (fun _ => rfl) rfl rfl

/-- The reader of a control ends: it has no claim, so its list of controls can be replaced. -/
theorem endReader_succeeds (was : claimOf (s.streams k) = none) :
    Succeeds s a (endReader k s) := by
  have view : succession (endReader k s) = { succession s with
      ending := Function.update (succession s).ending (.stream k)
        ({ s.sweeps (.stream k) with todo := [k] } : Sweep).ending } := by
    refine (succession_setStream_of rfl ?_).trans (succession_setSweep_ending rfl)
    exact was.symm
  refine .step view (.advance (fun _ live => live) (.inr ?_)) trivial
  intro c key same
  cases same
  intro claimed
  rw [show (succession s).claim k = none from was] at claimed
  cases claimed

/-- A login looks up the control it replaces. -/
theorem lookupStep_succeeds {login : Login} {uuid : String}
    (stage : (s.streams k).pc = .lookup login) :
    Succeeds s (.stream k (.uuid uuid)) (lookupStep k login uuid s) := by
  let runId := runIdOf login uuid
  let old := (s.shared (s.streams k).epoch).controls.lookup runId
  let sweep : Sweep := { s.sweeps (.stream k) with todo := old.toList }
  have view : succession (lookupStep k login uuid s) = { succession s with
      claim := Function.update (succession s).claim k (some (((s.streams k).epoch, runId), false))
      ending := Function.update (succession s).ending (.stream k) sweep.ending } := by
    have listed : succession (s.setSweep (.stream k) sweep) = { succession s with
        ending := Function.update (succession s).ending (.stream k) sweep.ending } :=
      succession_setSweep_ending rfl
    exact (succession_setStream (s.setSweep (.stream k) sweep) k _).trans
      (congrArg (fun t : Controls => ({ t with
        claim := Function.update t.claim k (some (((s.streams k).epoch, runId), false)) } :
          Controls)) listed)
  refine .step view (.claim ?_) ⟨login, uuid, rfl, stage, rfl⟩
  intro d found
  have listed : d ∈ old.toList := Option.mem_toList.mpr found
  simp only [sweep, Sweep.ending]
  split
  · exact List.mem_cons_of_mem _ listed
  · exact listed

theorem ending_eq_nil {sweep : Sweep} (idle : sweep.idle = true) : sweep.ending = [] := by
  simp only [Sweep.idle, Bool.and_eq_true, List.isEmpty_iff, Option.isNone_iff_eq_none] at idle
  simp only [Sweep.ending, idle.1, idle.2]

/-- Nobody is about to remove a control that does not exist yet. -/
theorem removing_created (shape : Shape s) {x : Caller} {c : StreamId}
    (stage : (s.sweeps x).removing = some c) :
    (s.sweeps x).current = some (c, .remove) ∧ (s.ctl c).created = true := by
  unfold Sweep.removing at stage
  split at stage
  · next current =>
      cases stage
      exact ⟨current, (shape.current current).1⟩
  · cases stage

/-- The control is created and entered. -/
theorem insertStep_succeeds (shape : Shape s) {login : Login} {runId : String} {poolCap : Nat}
    (stage : (s.streams k).pc = .insert login runId poolCap) :
    Succeeds s (.stream k .go) (insertStep k login runId poolCap s) := by
  let e := (s.streams k).epoch
  have absent : (s.ctl k).created = false := shape.before (by rw [stage]; rfl)
  have view : succession (insertStep k login runId poolCap s) = { succession s with
      claim := Function.update (succession s).claim k none
      key := Function.update (succession s).key k (e, runId)
      live := Function.update (succession s).live k (!(s.shared e).runCancelled)
      table := Function.update (succession s).table (e, runId) (some k) } := by
    have joined := succession_setControl s k
      { created := true, epoch := e, runId := runId, user := login.user,
        enforceIdle := clientSendsHeartbeats login.version, cancelled := false, online := true }
    have entered := succession_setControls (s.setControl k
      { created := true, epoch := e, runId := runId, user := login.user,
        enforceIdle := clientSendsHeartbeats login.version, cancelled := false, online := true })
      e runId (some k) ((s.shared e).controls.insert runId k) (lookup_insert_eq _ runId k)
    rw [joined] at entered
    exact (succession_setStream _ k _).trans (congrArg (fun t : Controls => ({ t with
      claim := Function.update t.claim k none } : Controls)) entered)
  refine .step view (.enter ?_ ?_ ?_) ⟨login, runId, poolCap, rfl, stage, rfl⟩
  · simp only [succession, claimOf, stage]
    rfl
  · simp only [succession, State.liveControl, absent, Bool.false_and]
  · intro x stageX
    have created := (removing_created shape stageX).2
    rw [absent] at created
    cases created

theorem streamStep_succeeds (shape : Shape s) {pc : StreamPc} {input : Input}
    (stage : (s.streams k).pc = pc) (move : streamStep w k s pc input = some s') :
    Succeeds s (.stream k input) s' := by
  have unseen : ∀ s₁ : State, s₁.ctl = s.ctl → s₁.shared = s.shared → s₁.streams = s.streams →
      s₁.sweeps = s.sweeps → succession s₁ = succession s := by
    intro s₁ ctl shared streams sweeps
    exact succession_aside ctl (fun e => by rw [shared]) (fun e => by rw [shared]) streams sweeps
  have was : claimOf { s.streams k with pc := pc } = none → claimOf (s.streams k) = none := by
    intro unclaimed
    rwa [← stage] at unclaimed
  cases streamStep_cases move with
  | lookup login _ => exact lookupStep_succeeds stage
  | replace idle =>
      refine .step (succession_setStream s k _) (.ready ?_ (ending_eq_nil idle)) trivial
      simp only [succession, claimOf, stage]
  | replied _ =>
      refine goto_succeeds rfl ?_
      simp only [claimOf, stage]
  | unreplied login runId poolCap => exact .step (succession_setStream s k _) .leave trivial
  | online login runId poolCap =>
      refine goto_succeeds (unseen _ rfl rfl rfl rfl) ?_
      simp only [claimOf, stage]
  | insert login runId poolCap => exact insertStep_succeeds shape stage
  | dropped _ | login _ _ | workConn _ _ =>
      exact goto_unclaimed (succession_setStream_of rfl rfl) (was rfl) fun _ => rfl
  | authorized _ => exact .inl (succession_setStream_of rfl (was rfl).symm)
  | pool sent | pong sent => exact sendGoto_unclaimed sent (was rfl) fun _ => rfl
  | frameEnds _ | cancelled _ | sessionOver _ => exact endReader_succeeds (was rfl)
  | frameIgnored _ => exact .inl rfl
  | registering call => exact regStep_succeeds (was rfl) call
  | closing closed =>
      refine goto_unclaimed (succession_closeProxy closed) (was rfl) ?_
      intro stream
      split <;> rfl
  | count _ | entered _ | workEnqueue _ =>
      exact goto_unclaimed (unseen _ rfl rfl rfl rfl) (was rfl) fun _ => rfl
  | _ => exact goto_unclaimed rfl (was rfl) fun _ => rfl

/-- A stage that neither ends the control nor removes its entry. -/
def TeardownPc.passes : TeardownPc → Bool
  | .cancel => false
  | .remove => false
  | _ => true

/-- Tearing a control down ends it first; its entry is removed only when it is found to be its
own. -/
theorem teardownStep_succeeds (shape : Shape s) {x : Caller} {c : StreamId} {pc : TeardownPc}
    {input : SweepInput} {s₁ : State} {next : Option (StreamId × TeardownPc)}
    (stage : (s.sweeps x).current = some (c, pc)) (call : TeardownStep x c s pc input s₁ next) :
    Succeeds s (.sweep x input) (s₁.setSweep x { s.sweeps x with current := next }) := by
  -- a stage other than the first and the last but one shows the rest of the list and no removal
  have plain : ∀ s₁ : State, s₁.sweeps = s.sweeps → succession s₁ = succession s → ∀ next,
      pc.passes = true → next.passes = true →
      succession (s₁.setSweep x { s.sweeps x with current := some (c, next) }) = succession s := by
    intro s₁ sweeps view next wasPassing isPassing
    refine (succession_setSweep_same ?_ ?_).trans view
    · rw [sweeps]
      simp only [Sweep.ending, stage]
      cases pc <;> cases next <;> first | rfl | (cases wasPassing; done) | cases isPassing
    · rw [sweeps]
      simp only [Sweep.removing, stage]
      cases pc <;> cases next <;> first | rfl | (cases wasPassing; done) | cases isPassing
  cases call with
  | cancel =>
      have view := succession_cancel s c
      have swept : succession ((s.setControl c { s.ctl c with cancelled := true }).setSweep x
          { s.sweeps x with current := some (c, .drain) }) =
          { succession s with
            live := Function.update (succession s).live c false
            ending := Function.update (succession s).ending x (s.sweeps x).todo } := by
        refine (succession_setSweep_ending ?_).trans (congrArg (fun t : Controls => ({ t with
          ending := Function.update t.ending x (s.sweeps x).todo } : Controls)) view)
        rw [show (s.setControl c _).sweeps = s.sweeps from rfl]
        simp only [Sweep.removing, stage]
      refine .step swept (.advance ?_ (.inl ?_)) trivial
      · intro d live
        by_cases same : d = c
        · subst same
          rw [Function.update_self] at live
          cases live
        · rw [Function.update_of_ne same] at live
          exact live
      · intro d inList live
        have other : d ≠ c := by
          rintro rfl
          rw [Function.update_self] at live
          cases live
        have listed : (succession s).ending x = c :: (s.sweeps x).todo := by
          simp only [succession, Sweep.ending, stage]
        rw [listed] at inList
        exact List.mem_of_ne_of_mem other inList
  | lock _ | drain =>
      refine .inl (plain (s.setPool c _) rfl ?_ _ rfl rfl)
      exact succession_aside rfl (fun _ => rfl) (fun _ => rfl) rfl rfl
  | locked _ | collect _ _ _ | replaced _ => exact .inl (plain s rfl rfl _ rfl rfl)
  | close closed =>
      exact .inl (plain _ (closeProxy_sweeps closed) (succession_closeProxy closed) (.close _) rfl
        rfl)
  | mine own =>
      have cancelled : (s.ctl c).cancelled = true := (shape.current stage).2 (by rintro ⟨⟩)
      have view : succession (s.setSweep x
          { s.sweeps x with current := some (c, .remove) }) = { succession s with
          removing := Function.update (succession s).removing x (some c) } := by
        apply succession_setSweep_removing
        simp only [Sweep.ending, stage]
      refine .step view (.startRemoval ?_ own) ⟨_, rfl⟩
      simp [succession, State.liveControl, State.tokenCancelled, cancelled]
  | remove =>
      let e := (s.ctl c).epoch
      have erased := succession_setControls s e (s.ctl c).runId none
        ((s.shared e).controls.erase (s.ctl c).runId) (lookup_erase_eq _ _)
      have view : succession ((s.setShared e { s.shared e with
          controls := (s.shared e).controls.erase (s.ctl c).runId }).setSweep x
          { s.sweeps x with current := some (c, .offline) }) = { succession s with
          table := Function.update (succession s).table ((succession s).key c) none
          removing := Function.update (succession s).removing x none } := by
        refine (succession_setSweep_removing ?_).trans (congrArg (fun t : Controls => ({ t with
          removing := Function.update t.removing x none } : Controls)) erased)
        rw [show (s.setShared e _).sweeps = s.sweeps from rfl]
        simp only [Sweep.ending, stage]
      refine .step view (.remove ?_) trivial
      simp only [succession, Sweep.removing, stage]
  | clear _ =>
      refine .inl ((succession_setSweep_same ?_ ?_).trans (succession_offline s c false))
      · rw [show (s.setControl c _).sweeps = s.sweeps from rfl]
        simp only [Sweep.ending, stage]
      · rw [show (s.setControl c _).sweeps = s.sweeps from rfl]
        simp only [Sweep.removing, stage]
  | cleared _ =>
      refine .inl (succession_setSweep_same ?_ ?_)
      · simp only [Sweep.ending, stage]
      · simp only [Sweep.removing, stage]
  | uncount =>
      refine .inl ((succession_setSweep_same ?_ ?_).trans
        (succession_aside rfl (fun _ => rfl) (fun _ => rfl) rfl rfl))
      · rw [show State.sweeps { s with clientsOnline := _ } = s.sweeps from rfl]
        simp only [Sweep.ending, stage]
      · rw [show State.sweeps { s with clientsOnline := _ } = s.sweeps from rfl]
        simp only [Sweep.removing, stage]

theorem sweepStep_succeeds (shape : Shape s) {x : Caller} {input : SweepInput}
    (move : sweepStep x input s = some s') : Succeeds s (.sweep x input) s' := by
  cases sweepStep_cases move with
  | call stage call => exact teardownStep_succeeds shape stage call
  | begins free todo _ =>
      refine .inl (succession_setSweep_same ?_ ?_)
      · simp only [Sweep.ending, free, todo]
      · simp only [Sweep.removing, free]
  | @skips c rest _ free todo unwanted =>
      have view : succession (s.setSweep x { todo := rest, current := none }) =
          { succession s with
            ending := Function.update (succession s).ending x rest } := by
        apply succession_setSweep_ending
        simp only [Sweep.removing, free]
      refine .step view (.advance (fun _ live => live) (.inr ?_)) trivial
      -- only the monitor leaves a control alone
      rintro d key rfl
      exact absurd rfl unwanted

/-- Cancelling the run token ends every control of that run. -/
theorem stopCancel_succeeds {e : Epoch} {pc : ServerPc} :
    Succeeds s a ({ s with server := pc }.setShared e { s.shared e with runCancelled := true }) := by
  let s₁ := { s with server := pc }.setShared e { s.shared e with runCancelled := true }
  have table : (succession s₁).table = (succession s).table := by
    funext key
    rcases key with ⟨e', runId⟩
    by_cases same : e' = e
    · subst same
      simp [s₁, succession, State.setShared]
    · simp [s₁, succession, State.setShared, same]
  have view : succession s₁ = { succession s with live := s₁.liveControl } :=
    congrArg (fun table => ({ succession s with live := s₁.liveControl, table := table } :
      Controls)) table
  refine .step view (.expire ?_) trivial
  intro c live
  change s.liveControl c = true
  simp only [s₁, State.liveControl, State.tokenCancelled, State.setShared, Bool.and_eq_true,
    Bool.not_eq_true', Bool.or_eq_false_iff] at live ⊢
  refine ⟨live.1, live.2.1, ?_⟩
  by_cases same : (s.ctl c).epoch = e
  · rw [same, Function.update_self] at live
    cases live.2.2
  · rw [Function.update_of_ne same] at live
    exact live.2.2

/-- A caller that is no stream gets its list. -/
theorem setTodo_succeeds {s₁ : State} {x : Caller} {todo : List StreamId}
    (notStream : ∀ k, Caller.stream k ≠ x) (view : succession s₁ = succession s)
    (sweeps : s₁.sweeps = s.sweeps) :
    Succeeds s a (s₁.setSweep x { s.sweeps x with todo := todo }) := by
  have swept : succession (s₁.setSweep x { s.sweeps x with todo := todo }) = { succession s with
      ending := Function.update (succession s).ending x
        ({ s.sweeps x with todo := todo } : Sweep).ending } := by
    refine (succession_setSweep_ending ?_).trans (congrArg (fun t : Controls => ({ t with
      ending := Function.update t.ending x
        ({ s.sweeps x with todo := todo } : Sweep).ending } : Controls)) view)
    rw [sweeps]
    rfl
  refine .step swept (.advance (fun _ live => live) (.inr ?_)) trivial
  intro c key same
  exact absurd same (notStream c)

theorem serverStep_succeeds {input : ServerInput} (move : serverStep s input = some s') :
    Succeeds s (.server input) s' := by
  cases serverStep_cases move with
  | stopCancel running => exact stopCancel_succeeds
  | stopCollect _ _ | monitorCollect _ _ => exact setTodo_succeeds nofun rfl rfl
  | accept unopened _ | openStream unopened _ _ _ =>
      refine .inl (succession_setStream_of rfl ?_)
      simp only [claimOf, unopened]
  | _ => exact .inl rfl

/-- Every step of the server, seen as a succession. -/
theorem step_succeeds (shape : Shape s) (move : step w a s = some s') : Succeeds s a s' := by
  have side : Aside s s' → Succeeds s a s' := fun aside =>
    .inl (succession_aside aside.ctl (fun e => by rw [aside.shared])
      (fun e => by rw [aside.shared]) aside.streams aside.sweeps)
  cases a with
  | server input => exact serverStep_succeeds move
  | stream k input =>
      rcases Option.ite_none_right_eq_some.mp move with ⟨_, moved⟩
      exact streamStep_succeeds shape rfl moved
  | sweep x input => exact sweepStep_succeeds shape move
  | writer c input =>
      rcases writerStep_aside move with ⟨out, rfl⟩
      exact .inl rfl
  | listener r input => exact side (listenerStep_aside move).1
  | bridge b input => exact side (bridgeStep_aside move).1

end Steps

/-! ## Runs of the server

Only the last run's token can be uncancelled, so controls of different runs are never live
together. -/

structure Epochs (s : State) : Prop where
  accepting : ∀ ⦃e⦄, (s.loops e).accepting = true → e < s.nextEpoch
  opened : ∀ ⦃k⦄, (s.streams k).pc ≠ .unopened → (s.streams k).epoch < s.nextEpoch
  created : ∀ ⦃c⦄, (s.ctl c).created = true → (s.ctl c).epoch < s.nextEpoch
  current : ∀ ⦃e⦄, e < s.nextEpoch → (s.shared e).runCancelled = false → s.server = .running e

namespace Epochs

variable {s s' : State}

/-- Whatever keeps the server object, the run tokens and the epochs. -/
theorem of_same (epochs : Epochs s) (server : s'.server = s.server)
    (nextEpoch : s'.nextEpoch = s.nextEpoch)
    (loops : ∀ e, (s'.loops e).accepting = true → (s.loops e).accepting = true)
    (cut : ∀ e, (s'.shared e).runCancelled = false → (s.shared e).runCancelled = false)
    (streams : s'.streams = s.streams)
    (ctl : ∀ c, (s'.ctl c).created = true →
      (s.ctl c).created = true ∧ (s'.ctl c).epoch = (s.ctl c).epoch) : Epochs s' := by
  constructor
  · intro e accepting
    rw [nextEpoch]
    exact epochs.accepting (loops e accepting)
  · rw [streams, nextEpoch]
    exact epochs.opened
  · intro c created
    rw [nextEpoch, (ctl c created).2]
    exact epochs.created (ctl c created).1
  · intro e known notCut
    rw [server]
    rw [nextEpoch] at known
    exact epochs.current known (cut e notCut)

theorem aside (epochs : Epochs s) (server : s'.server = s.server)
    (nextEpoch : s'.nextEpoch = s.nextEpoch) (loops : s'.loops = s.loops)
    (cut : ∀ e, (s'.shared e).runCancelled = (s.shared e).runCancelled)
    (streams : s'.streams = s.streams) (ctl : s'.ctl = s.ctl) : Epochs s' := by
  apply epochs.of_same server nextEpoch
  · rw [loops]
    exact fun _ accepting => accepting
  · intro e notCut
    rw [← cut]
    exact notCut
  · exact streams
  · rw [ctl]
    exact fun _ created => ⟨created, rfl⟩

/-- The task of a stream keeps its epoch, and gives it to its control. -/
theorem ownMove (epochs : Epochs s) {k : StreamId} (moved : OwnMove k s s')
    (opened : (s.streams k).pc ≠ .unopened) : Epochs s' := by
  have own := epochs.opened opened
  constructor
  · rw [moved.loops, moved.nextEpoch]
    exact epochs.accepting
  · intro d openedD
    rw [moved.nextEpoch]
    by_cases same : d = k
    · subst same
      rw [moved.epoch]
      exact own
    · rw [moved.others d same] at openedD ⊢
      exact epochs.opened openedD
  · intro c created
    rw [moved.nextEpoch]
    rcases moved.ctl with ctl | ⟨control, ctl, epoch⟩
    · rw [ctl] at created ⊢
      exact epochs.created created
    · by_cases same : c = k
      · subst same
        rw [ctl, Function.update_self, epoch]
        exact own
      · rw [ctl, Function.update_of_ne same] at created ⊢
        exact epochs.created created
  · intro e known notCut
    rw [moved.nextEpoch] at known
    rw [moved.cut] at notCut
    rw [moved.server]
    exact epochs.current known notCut

theorem openStream (epochs : Epochs s) {k : StreamId} {stream : Stream}
    (known : stream.epoch < s.nextEpoch) : Epochs (s.setStream k stream) := by
  constructor
  · exact epochs.accepting
  · intro d opened
    by_cases same : d = k
    · subst same
      rw [setStream_streams_self]
      exact known
    · rw [setStream_streams_of_ne _ _ same] at opened ⊢
      exact epochs.opened opened
  · exact epochs.created
  · exact epochs.current

theorem start (epochs : Epochs s) (idle : s.server = .idle) :
    Epochs ({ s with server := .running s.nextEpoch, nextEpoch := s.nextEpoch + 1 }.setLoops
      s.nextEpoch { accepting := true, monitor := .resting }) := by
  constructor
  · intro e accepting
    by_cases same : e = s.nextEpoch
    · subst same
      exact Nat.lt_succ_self _
    · have before : (s.loops e).accepting = true := by
        simpa [State.setLoops, same] using accepting
      exact Nat.lt_succ_of_lt (epochs.accepting before)
  · intro k opened
    exact Nat.lt_succ_of_lt (epochs.opened opened)
  · intro c created
    exact Nat.lt_succ_of_lt (epochs.created created)
  · intro e known notCut
    rcases Nat.lt_succ_iff_lt_or_eq.mp known with earlier | rfl
    · have running := epochs.current earlier notCut
      rw [idle] at running
      cases running
    · rfl

theorem stopCancel (epochs : Epochs s) {e : Epoch} (running : s.server = .running e) :
    Epochs ({ s with server := .stopping e false }.setShared e
      { s.shared e with runCancelled := true }) := by
  constructor
  · exact epochs.accepting
  · exact epochs.opened
  · exact epochs.created
  · intro e' known notCut
    have other : e' ≠ e := by
      rintro rfl
      simp [State.setShared] at notCut
    have before : (s.shared e').runCancelled = false := by
      simpa [State.setShared, other] using notCut
    have same := epochs.current known before
    rw [running] at same
    cases same
    exact absurd rfl other

/-- The loops that no longer accept. -/
theorem setLoops (epochs : Epochs s) {e : Epoch} {loops : Loops}
    (still : loops.accepting = true → (s.loops e).accepting = true) :
    Epochs (s.setLoops e loops) := by
  refine epochs.of_same rfl rfl ?_ (fun _ notCut => notCut) rfl fun _ created => ⟨created, rfl⟩
  intro e' accepting
  by_cases same : e' = e
  · subst same
    exact still (by simpa [State.setLoops] using accepting)
  · simpa [State.setLoops, same] using accepting

theorem serverStep (epochs : Epochs s) {input : ServerInput}
    (move : serverStep s input = some s') : Epochs s' := by
  cases serverStep_cases move with
  | updateConfig cfg => exact epochs.aside rfl rfl rfl (fun _ => rfl) rfl rfl
  | start idle _ => exact epochs.start idle
  | stopCancel running => exact epochs.stopCancel running
  | stopCollect stopping _ | stopFinish stopping _ _ _ =>
      refine ⟨epochs.accepting, epochs.opened, epochs.created, ?_⟩
      intro e' known notCut
      have running := epochs.current known notCut
      rw [stopping] at running
      cases running
  | acceptExit cancelled => exact epochs.setLoops nofun
  | monitorTick _ _ | monitorExit _ _ => exact epochs.setLoops fun accepting => accepting
  | monitorCollect _ _ =>
      refine aside (epochs.setLoops ?_) rfl rfl rfl (fun _ => rfl) rfl rfl
      exact fun accepting => accepting
  | accept _ accepting => exact epochs.openStream (epochs.accepting accepting)
  | openStream _ opened _ _ => exact epochs.openStream (epochs.opened opened)

theorem sweepStep (epochs : Epochs s) {x : Caller} {input : SweepInput}
    (move : sweepStep x input s = some s') : Epochs s' := by
  have sameControl : ∀ (c : StreamId) (control : Control),
      control.created = (s.ctl c).created → control.epoch = (s.ctl c).epoch →
      Epochs (s.setControl c control) := by
    intro c control created epoch
    refine epochs.of_same rfl rfl (fun _ accepting => accepting) (fun _ notCut => notCut) rfl ?_
    intro d member
    by_cases same : d = c
    · subst same
      rw [setControl_ctl_self] at member ⊢
      exact ⟨created.symm.trans member, epoch⟩
    · rw [setControl_ctl_of_ne _ _ same] at member ⊢
      exact ⟨member, rfl⟩
  cases sweepStep_cases move with
  | @call c _ _ _ _ stage call =>
      cases call with
      | cancel =>
          exact aside (sameControl c { s.ctl c with cancelled := true } rfl rfl) rfl rfl rfl
            (fun _ => rfl) rfl rfl
      | clear _ =>
          exact aside (sameControl c { s.ctl c with online := false } rfl rfl) rfl rfl rfl
            (fun _ => rfl) rfl rfl
      | close closed =>
          have own := OwnMove.closeProxy (k := c) closed
          have streams := closeProxy_streams closed
          have ctl := closeProxy_ctl closed
          exact epochs.aside own.server own.nextEpoch own.loops own.cut streams ctl
      | remove =>
          exact epochs.aside rfl rfl rfl (setShared_view s Shared.runCancelled rfl) rfl rfl
      | _ => exact epochs.aside rfl rfl rfl (fun _ => rfl) rfl rfl
  | begins _ _ _ | skips _ _ _ => exact epochs.aside rfl rfl rfl (fun _ => rfl) rfl rfl

theorem ofAside (epochs : Epochs s) (side : Aside s s') : Epochs s' :=
  epochs.aside side.server side.nextEpoch side.loops (fun e => by rw [side.shared]) side.streams
    side.ctl

theorem step (epochs : Epochs s) {w : World} {a : Action} (move : step w a s = some s') :
    Epochs s' := by
  cases a with
  | server input => exact epochs.serverStep move
  | stream k input =>
      rcases Option.ite_none_right_eq_some.mp move with ⟨_, moved⟩
      refine epochs.ownMove (.streamStep moved) ?_
      intro unopened
      rw [unopened] at moved
      cases input <;> cases moved
  | sweep x input => exact epochs.sweepStep move
  | writer c input =>
      rcases writerStep_aside move with ⟨out, rfl⟩
      exact epochs.aside rfl rfl rfl (fun _ => rfl) rfl rfl
  | listener r input => exact epochs.ofAside (listenerStep_aside move).1
  | bridge b input => exact epochs.ofAside (bridgeStep_aside move).1

end Epochs

theorem server_epochs {w : World} {allowed : State → Action → Prop} {s : State}
    (run : (server w).Reaches allowed s) : Epochs s := by
  refine run.invariant ?_ ?_
  · rintro s ⟨cfg, rfl⟩
    constructor
    · intro e accepting
      cases accepting
    · intro k opened
      exact absurd rfl opened
    · intro c created
      cases created
    · intro e known
      exact absurd known (Nat.not_lt_zero e)
  · intro s a s' _ epochs _ move
    exact epochs.step move

/-! ## The result -/

/-- A login with this run id is between its look at `controls` and its own entry there. -/
def State.loggingIn (s : State) (k : StreamId) (key : Epoch × String) : Prop :=
  ∃ replaced, claimOf (s.streams k) = some (key, replaced)

/-- A login looks its run id up while no other login with it is under way, and enters it while no
teardown is about to remove an entry under it. -/
def Sequenced (s : State) : Action → Prop
  | .stream k input =>
      (∀ login uuid, (s.streams k).pc = .lookup login → input = .uuid uuid → ∀ d, d ≠ k →
        ¬ s.loggingIn d ((s.streams k).epoch, runIdOf login uuid)) ∧
      ∀ login runId poolCap, (s.streams k).pc = .insert login runId poolCap → ∀ x c,
        (s.sweeps x).current = some (c, .remove) → s.keyOf c ≠ ((s.streams k).epoch, runId)
  | _ => True

theorem careful_of_sequenced {s : State} {a : Action} {op : ControlOp} (shape : Shape s)
    (sequenced : Sequenced s a) (because : Because s a op) : (succession s).Careful op := by
  cases op with
  | claim k key =>
      rcases because with ⟨login, uuid, rfl, stage, rfl⟩
      intro d replaced claimed
      by_contra other
      exact sequenced.1 login uuid stage rfl d other ⟨replaced, claimed⟩
  | enter k key =>
      rcases because with ⟨login, runId, poolCap, rfl, stage, rfl⟩
      intro x c removing
      exact sequenced.2 login runId poolCap stage x c (removing_created shape removing).1
  | _ => trivial

theorem caller_injective : Function.Injective Caller.stream := by
  rintro k d ⟨⟩
  rfl

/-- A run of the server is a run of the succession. -/
theorem server_orderly {w : World} {s : State} (run : (server w).Reaches Sequenced s) :
    (succession s).Orderly Caller.stream := by
  refine Succession.reaches_orderly caller_injective (run.follows ?_ ?_)
  · rintro s ⟨cfg, rfl⟩
    exact ⟨fun _ => rfl, fun _ => rfl, fun _ => rfl⟩
  · intro s a s' before _ sequenced move
    have shape := server_shape before
    rcases step_succeeds shape move with same | ⟨op, because, opMove⟩
    · exact .inl same
    · exact .inr ⟨op, careful_of_sequenced shape sequenced because, opMove⟩

/-- When logins with one run id come one after the other, at most one control with a run id is live,
and every live control is the entry of `controls` under its run id. -/
theorem live_controls_listed {w : World} {s : State} (run : (server w).Reaches Sequenced s) :
    (∀ c d, s.liveControl c = true → s.liveControl d = true →
      (s.ctl c).runId = (s.ctl d).runId → c = d) ∧
    ∀ c, s.liveControl c = true →
      (s.shared (s.ctl c).epoch).controls.lookup (s.ctl c).runId = some c := by
  have orderly := server_orderly run
  have epochs := server_epochs run
  have running : ∀ c, s.liveControl c = true → s.server = .running (s.ctl c).epoch := by
    intro c live
    simp only [State.liveControl, State.tokenCancelled, Bool.and_eq_true, Bool.not_eq_true',
      Bool.or_eq_false_iff] at live
    exact epochs.current (epochs.created live.1) live.2.2
  constructor
  · intro c d liveC liveD sameId
    have sameRun := (running c liveC).symm.trans (running d liveD)
    refine orderly.live_unique liveC liveD (Prod.ext ?_ sameId)
    exact ServerPc.running.inj sameRun
  · intro c live
    exact orderly.listed live

/-! ## A run that meets the condition, and one that does not -/

/-- The condition on a step, looked up for these clients. -/
def inSequence (ks : List StreamId) (s : State) : Action → Bool
  | .stream k input =>
      match (s.streams k).pc, input with
      | .lookup login, .uuid uuid => ks.all fun d => d == k ||
          (claimOf (s.streams d)).all fun claim =>
            decide (claim.1 ≠ ((s.streams k).epoch, runIdOf login uuid))
      | .insert _ runId _, _ => ks.all fun d =>
          ((s.sweeps (.stream d)).removing).all fun c =>
            decide (s.keyOf c ≠ ((s.streams k).epoch, runId))
      | _, _ => true
  | _ => true

/-- The caller of `teardown` that moves. -/
def Action.caller : Action → Option Caller
  | .sweep x _ => some x
  | _ => none

/-- Only these streams have been opened, and nobody else is in a call of `teardown`. -/
def OnlyTheirs (ks : List StreamId) (s : State) : Prop :=
  Only ks s ∧ ∀ x, (∀ k ∈ ks, x ≠ .stream k) → (s.sweeps x).removing = none

theorem sequenced_of_inSequence {ks : List StreamId} {s : State} {a : Action}
    (only : OnlyTheirs ks s) (checked : inSequence ks s a = true) : Sequenced s a := by
  rcases only with ⟨only, idle⟩
  cases a with
  | stream k input =>
      constructor
      · rintro login uuid stage rfl d other ⟨replaced, claimed⟩
        by_cases known : d ∈ ks
        · simp only [inSequence, stage, List.all_eq_true] at checked
          have apart := checked d known
          rw [claimed, Option.all_some, Bool.or_eq_true, beq_iff_eq, decide_eq_true_eq] at apart
          rcases apart with same | differs
          · exact other same
          · exact differs rfl
        · have unclaimed : claimOf (s.streams d) = none := by
            simp only [claimOf, only.streams known]
          cases unclaimed.symm.trans claimed
      · intro login runId poolCap stage x c current
        have removing : (s.sweeps x).removing = some c := by
          simp only [Sweep.removing, current]
        by_cases theirs : ∃ d ∈ ks, x = .stream d
        · rcases theirs with ⟨d, known, rfl⟩
          simp only [inSequence, stage, List.all_eq_true] at checked
          have apart := checked d known
          rw [removing, Option.all_some, decide_eq_true_eq] at apart
          exact apart
        · have free := idle x fun k known same => theirs ⟨k, known, same⟩
          cases free.symm.trans removing
  | _ => trivial

theorem OnlyTheirs.step {ks : List StreamId} {s s' : State} {w : World} {a : Action}
    (only : OnlyTheirs ks s) (opens : ∀ k, a.opens = some k → k ∈ ks)
    (calls : ∀ x, a.caller = some x → ∃ k ∈ ks, x = .stream k)
    (move : step w a s = some s') : OnlyTheirs ks s' := by
  refine ⟨only.1.step opens move, ?_⟩
  intro x others
  have before : (succession s).removing x = none := only.2 x others
  rcases step_succeeds only.1.shape move with same | ⟨op, because, opMove⟩
  · exact (congrFun (congrArg Succession.removing same) x).trans before
  · refine opMove.removing_eq_none before ?_
    rintro rfl
    rcases because with ⟨input, rfl⟩
    rcases calls x rfl with ⟨k, known, rfl⟩
    exact others k known rfl

/-- A client logs in, and another connection with its run id replaces it. -/
def replacingRun : List Action :=
  .server .start :: (loginRun 1 "one" ++ (loginRun 2 "one").take 5 ++
    [.sweep (.stream 2) (.idle 0), .sweep (.stream 2) .go, .sweep (.stream 2) .go,
      .sweep (.stream 2) .go, .sweep (.stream 2) (.names [])] ++
    List.replicate 4 (.sweep (.stream 2) .go) ++ (loginRun 2 "one").drop 5)

/-- Then the second control is the entry, and the first one is not live any more. -/
theorem live_controls_listed_replaced :
    ∃ s, (server sampleWorld).Reaches Sequenced s ∧ (s.ctl 1).created = true ∧
      (s.ctl 1).runId = (s.ctl 2).runId ∧ s.liveControl 1 = false ∧ s.liveControl 2 = true ∧
      (s.shared (s.ctl 2).epoch).controls.lookup (s.ctl 2).runId = some 2 := by
  have passed : (System.execute (System.guarded (inSequence [1, 2]) (step sampleWorld)) replacingRun
      (State.new {})).any (fun s => decide ((s.ctl 1).created = true ∧
        (s.ctl 1).runId = (s.ctl 2).runId ∧ s.liveControl 2 = true)) = true := by decide +kernel
  rcases System.exists_of_any passed with ⟨s, done, shown⟩
  rcases of_decide_eq_true shown with ⟨created, sameId, live⟩
  have opened : ∀ k ∈ replacingRun.filterMap Action.opens, k ∈ [1, 2] := by decide +kernel
  have called : ∀ x ∈ replacingRun.filterMap Action.caller, ∃ k ∈ [1, 2], x = .stream k := by
    decide +kernel
  have ⟨run, _⟩ : (server sampleWorld).Reaches Sequenced s ∧ OnlyTheirs [1, 2] s := by
    refine System.reaches_of_guarded id ?_ sequenced_of_inSequence (.start ⟨_, rfl⟩)
      ⟨.new _ _, fun _ _ => rfl⟩ done
    intro a listed t t' move only
    refine only.step ?_ ?_ move
    · exact fun k opens => opened k (List.mem_filterMap.mpr ⟨a, listed, opens⟩)
    · exact fun x calls => called x (List.mem_filterMap.mpr ⟨a, listed, calls⟩)
  have theorems := live_controls_listed run
  refine ⟨s, run, created, sameId, ?_, live, theorems.2 2 live⟩
  by_contra alive
  have same := theorems.1 1 2 (Bool.eq_true_of_not_eq_false alive) live sameId
  cases same

/-- Two connections log in with one run id at the same time: both look it up before either has
entered its control. -/
def overlappingRun : List Action :=
  .server .start :: ((loginRun 1 "one").take 5 ++ (loginRun 2 "one").take 5 ++
    (loginRun 1 "one").drop 5 ++ (loginRun 2 "one").drop 5)

/-- Then both controls are live, and only the later one is the entry. -/
theorem overlapping_logins :
    ∃ s, (server sampleWorld).Reachable s ∧ s.liveControl 1 = true ∧ s.liveControl 2 = true ∧
      (s.ctl 1).runId = (s.ctl 2).runId ∧
      (s.shared (s.ctl 1).epoch).controls.lookup (s.ctl 1).runId = some 2 := by
  rcases sample_reaches overlappingRun (fun s => decide (s.liveControl 1 = true ∧
      s.liveControl 2 = true ∧ (s.ctl 1).runId = (s.ctl 2).runId ∧
      (s.shared (s.ctl 1).epoch).controls.lookup (s.ctl 1).runId = some 2)) (by decide +kernel)
    with ⟨s, run, shown⟩
  exact ⟨s, run, of_decide_eq_true shown⟩

end Remgr.Frps.Server
