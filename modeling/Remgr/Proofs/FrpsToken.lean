/-
Module: Remgr.Proofs.FrpsToken
Purpose: The token of frps in the shared configuration and the one its server asks clients for. They
  agree when all calls have returned, and a generated token replaces only an empty one, as long as
  the token in memory does not change under a start that has read it.
Trusted boundary: as in `Remgr.Modules.Step`
Main exports: Steady, Current, Synced, Sound, token_agrees
-/
import Remgr.Proofs.ModuleTurns
import Remgr.Proofs.ConfigParts
import Remgr.Proofs.ConsoleShape

namespace Remgr.Modules

open Remgr.Lib
open Remgr.Console

/-! ## Starts that have read their configuration -/

namespace Pc

/-- A start of frps that has read its configuration and has not returned. -/
def handing : Pc → Bool
  | storing call .start _ | check call _ | pin call _ _ | pinning call _ | update call _
  | launch call _ => call.service = .frps
  | _ => false

/-- A call that will stop the server, or give it the token of the configuration. -/
def due : Pc → Bool
  | reading call .status _ | storing call .status _ | fallback call .status | look call
  | stopping call | pinning call _ | update call _ => call.service = .frps
  | _ => false

/-- Before a generated token is written. -/
def pins : Pc → Bool
  | pin _ _ _ => true
  | _ => false

theorem eq_of_pins {pc : Pc} (pins : pc.pins = true) : ∃ call cfg token, pc = .pin call cfg token := by
  cases pc with
  | pin call cfg token => exact ⟨call, cfg, token, rfl⟩
  | _ => cases pins

/-- Before the first step of a call, or after the last. -/
def resting : Pc → Bool
  | idle | returned _ => true
  | _ => false

end Pc

/-- The token in memory does not change while another start has read it and not returned, and a
start does not fall back to a snapshot with another token. -/
def Steady (s : State) : Action → Prop
  | .step t .go =>
      match s.pcs t with
      | .saving _ staged =>
          staged.frps.token ≠ s.mem.frps.token → ∀ u, u ≠ t → (s.pcs u).handing = false
      | .pin _ _ _ => ∀ u, u ≠ t → (s.pcs u).handing = false
      | .fallback call .start => call.service = .frps → s.snapshot.frps.token = s.mem.frps.token
      | _ => True
  | _ => True

/-! ## What a place says -/

/-- A change of another module's section keeps the token, and only frps makes tokens. -/
def Placed (w : World) : Pc → Prop
  | .edit call edit => call.service ≠ .frps → ∀ mem staged, edit.apply w mem = .ok staged →
      staged.frps.token = mem.frps.token
  | .pin call _ _ | .pinning call _ => call.service = .frps
  | _ => True

/-- A task that saves holds the write lock. -/
def Saves (s : State) (t : TaskId) : Pc → Prop
  | .saving call staged => s.lock.writer = some t ∧
      (call.service ≠ .frps → staged.frps.token = s.mem.frps.token)
  | _ => True

/-- What a start has read is what memory holds, and so is what it has given to the server. -/
def Current (memory server : String) : Pc → Prop
  | .storing call .start cfg | .check call cfg | .pinning call cfg | .update call cfg =>
      call.service = .frps → cfg.frps.token = memory
  | .pin call _ _ => call.service = .frps → memory = ""
  | .launch call _ => call.service = .frps → server = memory
  | _ => True

/-- The server does not run, or asks for the token of the configuration, or somebody will see to
it. -/
def Synced (s : State) : Prop :=
  s.handles .frps = none ∨ s.server.token = s.mem.frps.token ∨ ∃ t, (s.pcs t).due = true

structure Sound (w : World) (s : State) : Prop where
  placed : ∀ t, Placed w (s.pcs t)
  saves : ∀ t, Saves s t (s.pcs t)
  current : ∀ t, Current s.mem.frps.token s.server.token (s.pcs t)
  synced : Synced s

variable {w : World} {s s' base : State} {t u : TaskId} {pc pc' : Pc} {m : Service}

/-! ### Changes that keep the token -/

theorem Service.name_ne_frps (other : m ≠ .frps) : m.name ≠ "frps" := by
  cases m <;> first | decide | exact absurd rfl other

theorem service_keeps_token {name : String} {value : Json} {mem staged : Config}
    (other : name ≠ "frps") (applied : (Edit.service name value).apply w mem = .ok staged) :
    staged.frps.token = mem.frps.token := by
  obtain ⟨write, writes, rfl⟩ := Edit.apply_writes applied
  generalize asked : Op.edit (.service name value) = op at writes
  cases writes <;> cases asked <;> first | rfl | exact absurd rfl other

theorem cert_keeps_token {name certPath keyPath : String} {mem staged : Config}
    (applied : (Edit.cert name certPath keyPath).apply w mem = .ok staged) :
    staged.frps.token = mem.frps.token := by
  obtain ⟨write, writes, rfl⟩ := Edit.apply_writes applied
  generalize asked : Op.edit (.cert name certPath keyPath) = op at writes
  cases writes <;> cases asked <;> rfl

theorem putConfig_service {value : Json} {edit : Edit} (asked : putConfig w m.name value = .ok edit) :
    edit = .service m.name value := by
  have known : m.name ≠ "console" ∧ m.name ∈ moduleNames := by
    cases m <;> decide
  unfold putConfig at asked
  split at asked
  · cases asked
  · rw [if_neg known.1, if_pos known.2] at asked
    cases asked
    rfl

theorem begin_placed (request : Request) : Placed w (begin w request) := by
  cases request with
  | boot m => cases m <;> trivial
  | action m action => cases action <;> cases m <;> trivial
  | put m value =>
      unfold begin
      dsimp only
      split
      · trivial
      · next edit asked =>
          intro other mem staged applied
          rw [putConfig_service asked] at applied
          exact service_keeps_token (Service.name_ne_frps other) applied
  | cert m certPath keyPath =>
      unfold begin
      dsimp only
      split
      · trivial
      · exact fun _ _ _ applied => cert_keeps_token applied

/-! ### The mover -/

/-- Places that ask for nothing. -/
def Pc.plain : Pc → Bool
  | edit _ _ | saving _ _ | pin _ _ _ | pinning _ _ => false
  | storing _ .start _ | check _ _ | update _ _ | launch _ _ => false
  | _ => true

theorem Placed.of_plain (plain : pc.plain = true) : Placed w pc := by
  cases pc <;> trivial

theorem Saves.of_plain (plain : pc.plain = true) : Saves s t pc := by
  cases pc <;> trivial

theorem Current.of_plain {memory server : String} (plain : pc.plain = true) :
    Current memory server pc := by
  cases pc with
  | storing call use cfg => cases use <;> trivial
  | check | pin | pinning | update | launch => cases plain
  | _ => trivial

theorem plain_entry (call : Call) (entry : Entry) : (entry.pc call).plain = true := by
  rcases call with ⟨service, caller⟩
  cases entry <;> cases service <;> rfl

theorem plain_enter (call : Call) (entry : Entry) : (enter call entry).plain = true := by
  unfold enter
  split
  · rfl
  · exact plain_entry call entry

theorem plain_afterStart (call : Call) (result : Except String Unit) :
    (call.afterStart result).plain = true := by
  unfold Call.afterStart
  split <;> rfl

theorem plain_afterStop (call : Call) : call.afterStop.plain = true := by
  unfold Call.afterStop
  split <;> first | rfl | exact plain_entry .. | exact plain_enter ..

theorem plain_next (call : Call) (phase : Phase) : (phase.next call).plain = true := by
  cases phase with
  | before => exact plain_enter ..
  | after => rfl

theorem resume_cases (call : Call) (use : Use) (cfg : Config) :
    (use.resume call cfg).plain = true ∨
      use = .start ∧ (use.resume call cfg = .check call cfg ∨
        use.resume call cfg = .update call cfg ∧ call.service ≠ .frps) := by
  cases use with
  | status | adopt => exact .inl rfl
  | start =>
      unfold Use.resume
      dsimp only
      split
      · next frpc => exact .inr ⟨rfl, .inr ⟨rfl, by rw [frpc]; nofun⟩⟩
      · exact .inr ⟨rfl, .inl rfl⟩

theorem Placed.resume (call : Call) (use : Use) (cfg : Config) : Placed w (use.resume call cfg) := by
  rcases resume_cases call use cfg with plain | ⟨_, check | ⟨update, _⟩⟩
  · exact .of_plain plain
  · rw [check]
    trivial
  · rw [update]
    trivial

theorem Saves.resume (call : Call) (use : Use) (cfg : Config) : Saves s t (use.resume call cfg) := by
  rcases resume_cases call use cfg with plain | ⟨_, check | ⟨update, _⟩⟩
  · exact .of_plain plain
  · rw [check]
    trivial
  · rw [update]
    trivial

theorem Placed.turn (turn : Turn w s t pc base pc') (placed : Placed w pc) : Placed w pc' := by
  cases turn with
  | generated _ _ frps => exact frps
  | pinned => exact placed
  | committed => exact .of_plain (plain_enter ..)
  | saved => exact .of_plain (plain_next ..)
  | entered | restarts => exact .of_plain (plain_entry ..)
  | stopped => exact .of_plain (plain_afterStop _)
  | already | disabled | noop | launched | failed => exact .of_plain (plain_afterStart ..)
  | stored | fellBack => exact .resume ..
  | _ => trivial

theorem Saves.turn (turn : Turn w s t pc base pc') (placed : Placed w pc) : Saves base t pc' := by
  cases turn with
  | edited taken applied =>
      have ⟨_, writer, _⟩ := RwLock.write_eq_some taken
      exact ⟨writer, fun other => placed other _ _ applied⟩
  | committed => exact .of_plain (plain_enter ..)
  | saved => exact .of_plain (plain_next ..)
  | entered | restarts => exact .of_plain (plain_entry ..)
  | stopped => exact .of_plain (plain_afterStop _)
  | already | disabled | noop | launched | failed => exact .of_plain (plain_afterStart ..)
  | stored | fellBack => exact .resume ..
  | _ => trivial

/-- A start that reads an outdated snapshot is left out by the condition. -/
theorem Current.turn (turn : Turn w s t pc base pc')
    (current : Current s.mem.frps.token s.server.token pc)
    (snapshot : ∀ call, pc = .fallback call .start → call.service = .frps →
      s.snapshot.frps.token = s.mem.frps.token) :
    Current base.mem.frps.token base.server.token pc' := by
  cases turn with
  | committed => exact .of_plain (plain_enter ..)
  | saved => exact .of_plain (plain_next ..)
  | entered | restarts => exact .of_plain (plain_entry ..)
  | stopped => exact .of_plain (plain_afterStop _)
  | already | disabled | noop | launched | failed => exact .of_plain (plain_afterStart ..)
  | @read call use tries free => cases use <;> first | trivial | exact fun _ => rfl
  | @stored call use cfg =>
      rcases resume_cases call use cfg with plain | ⟨rfl, check | ⟨update, other⟩⟩
      · exact .of_plain plain
      · rw [check]
        exact current
      · rw [update]
        exact fun frps => absurd frps other
  | @fellBack call use =>
      rcases resume_cases call use s.snapshot with plain | ⟨rfl, check | ⟨update, other⟩⟩
      · exact .of_plain plain
      · rw [check]
        exact snapshot call rfl
      · rw [update]
        exact fun frps => absurd frps other
  | secured => exact current
  | passed _ other => exact fun frps => absurd frps other
  | generated _ _ frps empty =>
      intro _
      rw [← current frps, empty]
  | pinned => exact fun _ => rfl
  | kept => exact current
  | served => exact current
  | handed other => exact fun frps => absurd frps other
  | _ => trivial

/-! ### The others -/

/-- Nobody else touches memory or the lock while a task saves. -/
theorem Saves.other {pcu : Pc} (turn : Turn w s t pc base pc') (mover : Saves s t pc)
    (saves : Saves s u pcu) (other : u ≠ t) : Saves base u pcu := by
  cases pcu with
  | saving call staged =>
      obtain ⟨writer, token⟩ := saves
      have taken : ∀ {lock : RwLock TaskId}, s.lock.write t = some lock → False := by
        intro lock taken
        have ⟨free, _⟩ := RwLock.write_eq_some taken
        rw [RwLock.holders_of_writer writer] at free
        cases free
      have alone : s.lock.writer = some t → False := by
        intro mine
        exact other (Option.some.inj (writer.symm.trans mine))
      cases turn with
      | edited lockTaken | pinned lockTaken => exact (taken lockTaken).elim
      | flagged free => exact (taken free).elim
      | committed | unsaved => exact (alone mover.1).elim
      | saves lockTaken =>
          have ⟨free, _⟩ := RwLock.read_eq_some lockTaken
          cases free.symm.trans writer
      | saved | kept => exact ⟨(RwLock.writer_unlock other).mpr writer, token⟩
      | rests | stopped | already | disabled | noop | launched | failed =>
          simp only [Saves, leave_lock, leave_mem, State.setHandle]
          exact ⟨writer, token⟩
      | _ => exact ⟨writer, token⟩
  | _ => trivial

theorem Current.of_not_handing {memory server : String} {pcu : Pc} (not : pcu.handing = false) :
    Current memory server pcu := by
  have different : ∀ {call : Call}, decide (call.service = .frps) = false → call.service ≠ .frps :=
    of_decide_eq_false
  cases pcu with
  | storing call use cfg =>
      cases use with
      | start => exact fun frps => absurd frps (different not)
      | status | adopt => trivial
  | check | pin | pinning | update | launch => exact fun frps => absurd frps (different not)
  | _ => trivial

/-- Only a start of frps gives the server a configuration. -/
theorem Turn.serves (turn : Turn w s t pc base pc') :
    base.server = s.server ∨
      ∃ call cfg, pc = .update call cfg ∧ call.service = .frps ∧ base.server = cfg.frps := by
  cases turn with
  | served frps => exact .inr ⟨_, _, rfl, frps, rfl⟩
  | rests | stopped | already | disabled | noop | launched | failed => exact .inl (leave_server _)
  | _ => exact .inl rfl

theorem Current.other {pcu : Pc} (turn : Turn w s t pc base pc')
    (mover : Current s.mem.frps.token s.server.token pc)
    (current : Current s.mem.frps.token s.server.token pcu)
    (change : base.mem.frps.token ≠ s.mem.frps.token → pcu.handing = false) :
    Current base.mem.frps.token base.server.token pcu := by
  by_cases same : base.mem.frps.token = s.mem.frps.token
  · rcases turn.serves with server | ⟨call, cfg, rfl, frps, server⟩
    · rwa [same, server]
    · -- the server is given the token of memory
      rw [same, server, mover frps]
      cases pcu with
      | launch => exact fun _ => rfl
      | storing call use cfg => cases use <;> exact current
      | _ => exact current
  · exact .of_not_handing (change same)

/-! ### The two tokens -/

/-- A step that changes neither the server nor the tokens, of a task that still has to see to it if
it had to before. -/
theorem Synced.keep (synced : Synced s) (here : s.pcs t = pc) (pcs : base.pcs = s.pcs)
    (handles : base.handles .frps = s.handles .frps) (server : base.server = s.server)
    (token : base.mem.frps.token = s.mem.frps.token) (due : pc.due = true → pc'.due = true) :
    Synced (base.goto t pc') := by
  rcases synced with still | agree | ⟨u, owes⟩
  · exact .inl (handles.trans still)
  · refine .inr (.inl ?_)
    change base.server.token = base.mem.frps.token
    rw [server, token, agree]
  · refine .inr (.inr ⟨u, ?_⟩)
    by_cases mover : u = t
    · subst mover
      rw [goto_pcs_self]
      exact due (here ▸ owes)
    · rwa [goto_pcs_of_ne mover, pcs]

theorem Synced.owes (due : pc'.due = true) : Synced (base.goto t pc') :=
  .inr (.inr ⟨t, by rwa [goto_pcs_self]⟩)

theorem due_apply {call : Call} (frps : call.service = .frps) : (enter call .apply).due = true := by
  rcases call with ⟨service, caller⟩
  cases frps
  rfl

theorem not_due {call : Call} (other : call.service ≠ .frps)
    (due : decide (call.service = .frps) = true) : pc'.due = true :=
  absurd (of_decide_eq_true due) other

/-- The handle of another module. -/
theorem update_frps {handles : Service → Option Bool} {m : Service} {handle : Option Bool}
    (other : m ≠ .frps) : Function.update handles m handle .frps = handles .frps :=
  Function.update_of_ne other.symm _ _

theorem Synced.turn (synced : Synced s) (here : s.pcs t = pc) (turn : Turn w s t pc base pc')
    (placed : Placed w pc) (saves : Saves s t pc)
    (current : Current s.mem.frps.token s.server.token pc) : Synced (base.goto t pc') := by
  have pcs := turn.pcs
  cases turn with
  | @committed call staged =>
      by_cases frps : call.service = .frps
      · exact .owes (due_apply frps)
      · exact synced.keep here pcs rfl rfl (saves.2 frps) fun due => by cases due
  | flagged _ token => exact synced.keep here pcs rfl rfl token fun due => by cases due
  | pinned => exact .owes (decide_eq_true placed)
  | served frps => exact .inr (.inl (current frps))
  | @read call use _ _ | @blocked call use _ | @gaveUp call use _ | @stored call use _
  | @fellBack call use =>
      refine synced.keep here pcs rfl rfl rfl ?_
      cases use with
      | status => exact id
      | adopt | start => exact fun due => by cases due
  | runs => exact synced.keep here pcs rfl rfl rfl id
  | kept => exact synced.keep here pcs rfl rfl rfl id
  | @rests call still =>
      by_cases frps : call.service = .frps
      · refine .inl ?_
        change (s.leave call).handles .frps = none
        rw [leave_handles]
        rw [frps] at still
        simpa [Service.running] using still
      · exact synced.keep here pcs (congrFun (leave_handles _) _) (leave_server _) (by rw [leave_mem])
          (not_due frps)
  | @restarts call | @stopped call =>
      by_cases frps : call.service = .frps
      · refine .inl ?_
        simp only [State.goto, leave_handles, State.setHandle, frps, Function.update_self]
      · refine synced.keep here pcs ?_ ?_ ?_ (not_due frps)
        · simp only [leave_handles, State.setHandle, update_frps frps]
        · simp only [leave_server, State.setHandle]
        · simp only [leave_mem, State.setHandle]
  | @begun call =>
      by_cases frps : call.service = .frps
      · refine .inl ?_
        simp only [State.goto, State.setHandle, frps, Function.update_self]
      · exact synced.keep here pcs (update_frps frps) rfl rfl fun due => by cases due
  | @launched call cfg =>
      by_cases frps : call.service = .frps
      · refine .inr (.inl ?_)
        change ((State.leave _ call).server).token = (State.leave _ call).mem.frps.token
        rw [leave_server, leave_mem]
        exact current frps
      · refine synced.keep here pcs ?_ (leave_server _) (by rw [leave_mem]) fun due => by cases due
        rw [leave_handles]
        exact update_frps frps
  | already | disabled | noop | failed =>
      exact synced.keep here pcs (congrFun (leave_handles _) _) (leave_server _) (by rw [leave_mem])
        fun due => by cases due
  | handed other => exact synced.keep here pcs rfl rfl rfl (not_due other)
  | _ => exact synced.keep here pcs rfl rfl rfl fun due => by cases due

/-! ### Runs -/

/-- A step on anything but `go` leaves memory, and is none of a reader that has given up. -/
theorem taskStep_not_go {input : Input} (moves : taskStep w s t input pc = some s')
    (other : input ≠ .go) : s'.mem = s.mem ∧ ∀ call use, pc ≠ .fallback call use := by
  have ends : ∀ {call : Call} {result : Except String Unit}, (s.endStart t call result).mem = s.mem :=
    leave_mem _
  cases input with
  | go => exact absurd rfl other
  | fails error =>
      cases pc with
      | saving | enableSaving | pinning =>
          cases moves
          exact ⟨rfl, nofun⟩
      | launch =>
          obtain ⟨_, same⟩ := Option.ite_none_left_eq_some.mp moves
          cases same
          exact ⟨ends, nofun⟩
      | _ => cases moves
  | blockedBy u =>
      cases pc with
      | reading =>
          obtain ⟨_, same⟩ := Option.ite_none_right_eq_some.mp moves
          cases same
          exact ⟨rfl, nofun⟩
      | _ => cases moves
  | random bytes =>
      cases pc with
      | check =>
          obtain ⟨_, same⟩ := Option.ite_none_right_eq_some.mp moves
          cases same
          exact ⟨rfl, nofun⟩
      | _ => cases moves

/-- Under the condition, the token changes only when no other start has read it. -/
theorem Steady.change {input : Input} (steady : Steady s (.step t input))
    (moves : taskStep w s t input (s.pcs t) = some (base.goto t pc'))
    (turn : Turn w s t (s.pcs t) base pc') (changed : base.mem.frps.token ≠ s.mem.frps.token) :
    ∀ u, u ≠ t → (s.pcs u).handing = false := by
  by_cases go : input = .go
  · subst go
    unfold Steady at steady
    dsimp only at steady
    generalize s.pcs t = pc at turn steady
    cases turn with
    | committed => exact steady changed
    | pinned => exact steady
    | flagged _ token => exact absurd token changed
    | rests | stopped | already | disabled | noop | launched | failed =>
        simp only [leave_mem, State.setHandle] at changed
        exact absurd rfl changed
    | _ => exact absurd rfl changed
  · obtain ⟨same, _⟩ := taskStep_not_go moves go
    exact absurd (congrArg (·.frps.token) same) changed

theorem Steady.fallback {input : Input} {call : Call} (steady : Steady s (.step t input))
    (moves : taskStep w s t input (s.pcs t) = some s') (here : s.pcs t = .fallback call .start)
    (frps : call.service = .frps) : s.snapshot.frps.token = s.mem.frps.token := by
  by_cases go : input = .go
  · subst go
    unfold Steady at steady
    dsimp only at steady
    rw [here] at steady
    exact steady frps
  · have ⟨_, reads⟩ := taskStep_not_go moves go
    exact absurd here (reads call .start)

theorem Sound.starts (starts : Starts s) : Sound w s where
  placed t := by
    rw [starts.idle]
    trivial
  saves t := by
    rw [starts.idle]
    trivial
  current t := by
    rw [starts.idle]
    trivial
  synced := .inl (starts.stopped _)

theorem begin_saves (request : Request) : Saves s t (begin w request) := by
  cases request with
  | boot m => cases m <;> trivial
  | action m action => cases action <;> cases m <;> trivial
  | put | cert =>
      unfold begin
      dsimp only
      split <;> trivial

theorem begin_current {memory server : String} (request : Request) :
    Current memory server (begin w request) := by
  cases request with
  | boot m => cases m <;> trivial
  | action m action => cases action <;> cases m <;> trivial
  | put | cert =>
      unfold begin
      dsimp only
      split <;> trivial

theorem Sound.request (sound : Sound w s) (idle : s.pcs t = .idle) (request : Request) :
    Sound w (s.goto t (begin w request)) := by
  refine ⟨?_, ?_, ?_, ?_⟩
  · intro u
    by_cases mover : u = t
    · rw [mover, goto_pcs_self]
      exact begin_placed request
    · rw [goto_pcs_of_ne mover]
      exact sound.placed u
  · intro u
    by_cases mover : u = t
    · rw [mover, goto_pcs_self]
      exact begin_saves request
    · rw [goto_pcs_of_ne mover]
      exact sound.saves u
  · intro u
    by_cases mover : u = t
    · rw [mover, goto_pcs_self]
      exact begin_current request
    · rw [goto_pcs_of_ne mover]
      exact sound.current u
  · exact sound.synced.keep idle rfl rfl rfl rfl fun due => by cases due

theorem Sound.turn {input : Input} (sound : Sound w s) (steady : Steady s (.step t input))
    (moves : taskStep w s t input (s.pcs t) = some (base.goto t pc'))
    (turn : Turn w s t (s.pcs t) base pc') : Sound w (base.goto t pc') := by
  have pcs := turn.pcs
  refine ⟨?_, ?_, ?_, ?_⟩
  · intro u
    by_cases mover : u = t
    · rw [mover, goto_pcs_self]
      exact (sound.placed t).turn turn
    · rw [goto_pcs_of_ne mover, pcs]
      exact sound.placed u
  · intro u
    by_cases mover : u = t
    · have saves := Saves.turn turn (sound.placed t)
      rw [mover, goto_pcs_self]
      exact saves
    · have saves := Saves.other turn (sound.saves t) (sound.saves u) mover
      rw [goto_pcs_of_ne mover, pcs]
      exact saves
  · intro u
    by_cases mover : u = t
    · have current := (sound.current t).turn turn fun call here => steady.fallback moves here
      rw [mover, goto_pcs_self]
      exact current
    · have current := Current.other turn (sound.current t) (sound.current u)
        fun changed => steady.change moves turn changed u mover
      rw [goto_pcs_of_ne mover, pcs]
      exact current
  · exact sound.synced.turn rfl turn (sound.placed t) (sound.saves t) (sound.current t)

theorem Sound.step {a : Action} (sound : Sound w s) (steady : Steady s a)
    (moves : step w s a = some s') : Sound w s' := by
  cases a with
  | request t request =>
      unfold Modules.step at moves
      dsimp only at moves
      split at moves
      · next idle =>
          cases moves
          exact sound.request idle request
      · cases moves
  | step t input =>
      obtain ⟨base, pc', turn, rfl⟩ := taskStep_turn moves
      exact sound.turn steady moves turn
  | died m =>
      obtain ⟨alive, same⟩ := Option.ite_none_right_eq_some.mp moves
      cases same
      refine ⟨sound.placed, sound.saves, sound.current, sound.synced.imp_left fun still => ?_⟩
      have different : m ≠ .frps := by
        rintro rfl
        rw [still] at alive
        cases alive
      exact (update_frps different).trans still

theorem not_due_of_resting (resting : pc.resting = true) : ¬pc.due = true := by
  cases pc with
  | idle | returned => exact fun due => by cases due
  | _ => cases resting

/-! ## Two starts to look at -/

/-- The task that moves, if it is one. -/
def Action.task : Action → Option TaskId
  | request t _ | step t _ => some t
  | died _ => none

theorem step_pcs {a : Action} (moves : step w s a = some s') (other : a.task ≠ some u) :
    s'.pcs u = s.pcs u := by
  cases a with
  | request t request =>
      unfold Modules.step at moves
      dsimp only at moves
      split at moves
      · cases moves
        exact goto_pcs_of_ne fun same => other (congrArg some same.symm)
      · cases moves
  | step t input =>
      obtain ⟨base, pc', turn, rfl⟩ := taskStep_turn moves
      rw [goto_pcs_of_ne fun same => other (congrArg some same.symm), turn.pcs]
  | died m =>
      obtain ⟨_, same⟩ := Option.ite_none_right_eq_some.mp moves
      cases same
      rfl

/-- Tasks from the bound on have not begun. -/
def Below (bound : TaskId) (s : State) : Prop := ∀ u, bound ≤ u → s.pcs u = .idle

/-- A run of tasks below the bound, whose condition is checked for these. -/
theorem listed_run {allowed : State → Action → Prop} {check : State → Action → Bool} {bound : TaskId}
    {labels : List Action} (listed : ∀ a ∈ labels, a.task.all (· < bound) = true)
    (implies : ∀ {s a}, Below bound s → check s a = true → allowed s a)
    (run : (modules w).Reaches allowed s) (below : Below bound s)
    (done : System.execute (System.guarded check fun a s => step w s a) labels s = some s') :
    (modules w).Reaches allowed s' ∧ Below bound s' := by
  refine System.reaches_of_guarded id ?_ implies run below done
  intro a inside s s' moves below u above
  have other : a.task ≠ some u := by
    intro same
    have small := listed a inside
    rw [same] at small
    exact absurd (of_decide_eq_true small) (Nat.not_lt.mpr above)
  rw [step_pcs moves other]
  exact below u above

/-- frps without a token, before `main` starts it. -/
def freshState : State where
  mem := sampleConfig
  snapshot := sampleConfig
  handles _ := none

theorem freshState_starts : Starts freshState where
  unlocked := rfl
  snapshot := rfl
  stopped _ := rfl
  runs _ := rfl
  ops := rfl
  server := rfl
  idle _ := rfl

/-- A start of frps up to its look at the flag. -/
def readRun (t : TaskId) : List Action := [.request t (.boot .frps), .step t .go, .step t .go]

/-- It makes a token of one byte, sixteen times, and goes on to `update_config`. -/
def pinRun (t : TaskId) (byte : UInt8) : List Action :=
  [.step t (.random (List.replicate 16 byte)), .step t .go, .step t .go]

def serveRun (t : TaskId) : List Action := [.step t .go, .step t .go]

/-- The tasks below the bound have returned, and the server runs. -/
def restCheck (bound : TaskId) (s : State) : Bool :=
  (List.range bound).all (fun t => (s.pcs t).resting) && (s.handles .frps).isSome

theorem rest_of_check {bound : TaskId} (below : Below bound s) (checked : restCheck bound s = true) :
    (∀ t, (s.pcs t).resting = true) ∧ s.handles .frps ≠ none := by
  obtain ⟨listed, running⟩ := Bool.and_eq_true_iff.mp checked
  refine ⟨?_, Option.ne_none_iff_isSome.mpr running⟩
  intro t
  by_cases inside : t < bound
  · exact List.all_eq_true.mp listed t (List.mem_range.mpr inside)
  · rw [below t (Nat.le_of_not_lt inside)]
    rfl

/-- No other task below the bound has a start that has read its configuration. -/
def quietBut (bound : TaskId) (t : TaskId) (s : State) : Bool :=
  (List.range bound).all fun u => u == t || !(s.pcs u).handing

theorem handing_of_quietBut {bound t : TaskId} (below : Below bound s)
    (quiet : quietBut bound t s = true) (u : TaskId) (other : u ≠ t) :
    (s.pcs u).handing = false := by
  by_cases inside : u < bound
  · have listed := List.all_eq_true.mp quiet u (List.mem_range.mpr inside)
    rw [beq_false_of_ne other, Bool.false_or, Bool.not_eq_true'] at listed
    exact listed
  · rw [below u (Nat.le_of_not_lt inside)]
    rfl

/-- The condition, as it is checked of the tasks below a bound; nobody falls back to the snapshot.
-/
def steadyCheck (bound : TaskId) (s : State) : Action → Bool
  | .step t .go =>
      match s.pcs t with
      | .saving _ staged => staged.frps.token == s.mem.frps.token || quietBut bound t s
      | .pin _ _ _ => quietBut bound t s
      | .fallback _ _ => false
      | _ => true
  | _ => true

theorem steady_of_check {bound : TaskId} {a : Action} (below : Below bound s)
    (checked : steadyCheck bound s a = true) : Steady s a := by
  unfold Steady
  split
  · next t =>
      split
      · next call staged here =>
          intro differs
          simp only [steadyCheck, here, Bool.or_eq_true, beq_iff_eq] at checked
          exact handing_of_quietBut below (checked.resolve_left differs)
      · next here =>
          simp only [steadyCheck, here] at checked
          exact handing_of_quietBut below checked
      · next here =>
          simp only [steadyCheck, here] at checked
          cases checked
      · trivial
  · trivial

/-- A generated token replaces only an empty one, and when all calls have returned, a server that
runs asks for the token of the configuration. -/
theorem token_agrees (w : World) (s : State) (run : (modules w).Reaches Steady s) :
    (∀ t call cfg token, s.pcs t = .pin call cfg token → s.mem.frps.token = "") ∧
      ((∀ t, (s.pcs t).resting = true) → s.handles .frps ≠ none →
        s.server.token = s.mem.frps.token) := by
  have sound : Sound w s := by
    refine run.invariant (P := Sound w) ?_ ?_
    · exact Sound.starts
    · intro s a s' _ sound steady move
      exact sound.step steady move
  constructor
  · intro t call cfg token here
    have placed := sound.placed t
    have current := sound.current t
    rw [here] at placed current
    exact current placed
  · intro rest running
    rcases sound.synced with still | agree | ⟨t, due⟩
    · exact absurd still running
    · exact agree
    · exact absurd due (not_due_of_resting (rest t))

/-- A section of frps with nothing but a token is read. -/
def tokenWorld : World :=
  { sampleWorld with
    frpsFromValue := fun value =>
      match value with
      | .obj [("token", .str token)] => .ok { token := token }
      | _ => .error "invalid type" }

/-- The section is saved with another token, and the module is told of it and starts again, while a
further start, which began before the save, reads the configuration after it. -/
def editRun : List Action :=
  [.request 1 (.put .frps (.obj [("token", .str "secret")])), .step 1 .go,
      .request 2 (.boot .frps)] ++
    List.replicate 5 (.step 1 .go) ++ List.replicate 4 (.step 2 .go) ++
    List.replicate 5 (.step 1 .go) ++ [.step 2 .go]

/-- A start makes a token and serves with it. Then the section is edited and the module started
again, by the edit and by another call; all of them return, and the server asks for the new token.
-/
theorem token_agrees_edited : ∃ s : State, (modules tokenWorld).Reaches Steady s ∧
    (∀ t, (s.pcs t).resting = true) ∧ s.handles .frps ≠ none ∧
    s.server.token = s.mem.frps.token ∧ s.mem.frps.token = "secret" := by
  have passed : (System.execute (System.guarded (steadyCheck 3) fun a s => step tokenWorld s a)
      (readRun 0 ++ pinRun 0 10 ++ serveRun 0 ++ editRun) freshState).any (fun s => restCheck 3 s &&
        s.mem.frps.token = "secret") = true := by
    decide +kernel
  obtain ⟨s, done, checked⟩ := System.exists_of_any passed
  obtain ⟨rest, token⟩ := Bool.and_eq_true_iff.mp checked
  have ⟨run, below⟩ := listed_run (by decide) steady_of_check (.start freshState_starts)
    (fun _ _ => rfl) done
  obtain ⟨rest, running⟩ := rest_of_check below rest
  exact ⟨s, run, rest, running, (token_agrees tokenWorld s run).2 rest running,
    of_decide_eq_true token⟩

/-- Both starts find no token. The second replaces the token of the first, which is then given to
the server. -/
theorem tokens_apart :
    (∃ s t call cfg token, (modules sampleWorld).Reachable s ∧ s.pcs t = .pin call cfg token ∧
      s.mem.frps.token ≠ "") ∧
    ∃ s, (modules sampleWorld).Reachable s ∧ (∀ t, (s.pcs t).resting = true) ∧
      s.handles .frps ≠ none ∧ s.server.token ≠ s.mem.frps.token := by
  let first := readRun 0 ++ readRun 1 ++ pinRun 0 10
  have fresh : Below 2 freshState := fun _ _ => rfl
  constructor
  · have passed : (System.execute (System.guarded (fun _ _ => true) fun a s => step sampleWorld s a)
        (first ++ (pinRun 1 11).take 1) freshState).any (fun s => (s.pcs 1).pins &&
          s.mem.frps.token ≠ "") = true := by
      decide +kernel
    obtain ⟨s, done, checked⟩ := System.exists_of_any passed
    obtain ⟨pins, token⟩ := Bool.and_eq_true_iff.mp checked
    have ⟨run, _⟩ := listed_run (by decide) (fun _ _ => trivial) (.start freshState_starts) fresh done
    obtain ⟨call, cfg, generated, here⟩ := Pc.eq_of_pins pins
    exact ⟨s, 1, call, cfg, generated, run, here, of_decide_eq_true token⟩
  · have passed : (System.execute (System.guarded (fun _ _ => true) fun a s => step sampleWorld s a)
        (first ++ pinRun 1 11 ++ serveRun 1 ++ serveRun 0) freshState).any (fun s => restCheck 2 s &&
          s.server.token ≠ s.mem.frps.token) = true := by
      decide +kernel
    obtain ⟨s, done, checked⟩ := System.exists_of_any passed
    obtain ⟨rest, apart⟩ := Bool.and_eq_true_iff.mp checked
    have ⟨run, below⟩ :=
      listed_run (by decide) (fun _ _ => trivial) (.start freshState_starts) fresh done
    obtain ⟨rest, running⟩ := rest_of_check below rest
    exact ⟨s, run, rest, running, of_decide_eq_true apart⟩

end Remgr.Modules
