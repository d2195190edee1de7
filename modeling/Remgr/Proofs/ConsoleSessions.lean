/-
Module: Remgr.Proofs.ConsoleSessions
Purpose: Which logins the sessions come from after a password change. `change_password` installs the
  new hash and then ends the other sessions; a login takes the hash at its start and inserts its session
  at its end, so that one that is under way at the change adds a session of the old password.
Trusted boundary: none
Main exports: InstallsSound, SessionsSound, Timely, sessions_renewed, late_session
-/
import Remgr.Proofs.ConfigEdits
import Remgr.Proofs.ConsoleReads

namespace Remgr.Console

open Remgr.Lib

/-! ## The password hashes memory has had -/

def Editor.isPassword : Editor → Bool
  | password _ => true
  | _ => false

/-- `change_password` is the only one that edits the hash. -/
def Pc.editsOwn : Pc → Prop
  | edit editor change => editor.isPassword = false → ∀ newHash, change ≠ .password newHash
  | _ => True

/-- The hash of a version is the one that was installed last by then. -/
def Installed (installs : List Install) (version : Nat) (hash : String) : Prop :=
  ∃ install ∈ installs, install.hash = hash ∧
    ∀ other ∈ installs, other.version ≤ version → other.version ≤ install.version

/-- Which hash each version of the configuration has, and that only `change_password` stages another
one. -/
structure InstallsSound (s : State) : Prop where
  bound : ∀ install ∈ s.installs, install.version ≤ s.store.version
  hashes : ∀ {version cfg}, Had s.store version cfg →
    Installed s.installs version cfg.console.passwordHash
  edits : ∀ t, (s.pcs t).editsOwn
  staged : ∀ {t editor staged pc}, s.pcs t = .saving (.edit editor staged) pc →
    editor.isPassword = false → staged.console.passwordHash = s.store.mem.console.passwordHash

section Hash

variable {w : World} {s s' : State} {a : Action} {cfg cfg' : Config}

/-- An operation other than that of `change_password` keeps the hash. -/
theorem Op.apply_hash {op : Op} (applied : op.apply w cfg = some cfg')
    (other : ∀ newHash, op ≠ .edit (.password newHash)) :
    cfg'.console.passwordHash = cfg.console.passwordHash := by
  rcases op.apply_writes applied with ⟨write, writes, rfl⟩
  have outside : Field.passwordHash ∉ op.fields := by
    intro inside
    rcases passwordHash_fields inside with ⟨newHash, same⟩
    exact other newHash same
  exact (writes.other cfg outside).symm

theorem putConfig_edit {service : String} {value : Json} {edit : Edit}
    (asked : putConfig w service value = .ok edit) (newHash : String) : edit ≠ .password newHash := by
  unfold putConfig at asked
  split at asked
  · cases asked
  · split at asked
    · split at asked
      · cases asked
      · next console _ =>
          cases checked : checkConsole w console with
          | error e =>
              rw [checked] at asked
              cases asked
          | ok =>
              rw [checked] at asked
              cases asked
              exact fun same => by cases same
    · split at asked <;> cases asked
      exact fun same => by cases same

end Hash

/-! ## What a step does to the sessions -/

/-- The logins that were accepted and have no session yet. -/
def Caller.logins : Caller → List (LoginReq × Seen)
  | session req seen => [(req, seen)]
  | _ => []

def Pc.logins : Pc → List (LoginReq × Seen)
  | reading _ caller => caller.logins
  | storing _ caller => caller.logins
  | fallback caller => caller.logins
  | clear req seen => [(req, seen)]
  | insert req seen _ => [(req, seen)]
  | _ => []

/-- What comes with the place a step leads to. -/
structure PlaceTurn (w : World) (s : State) (t : TaskId) (s' : State) : Prop where
  logins : ∀ {req seen}, (req, seen) ∈ (s'.pcs t).logins →
    (req, seen) ∈ (s.pcs t).logins ∨ accepts w req seen.config.console = true
  edits : (s'.pcs t).editsOwn
  endings : ∀ {version keep}, s'.pcs t = .endSessions version keep →
    ∃ install ∈ s'.installs, install.version = version

/-- The step of `change_password` that puts a new hash into memory. -/
def Installs (s s' : State) (t : TaskId) : Prop :=
  ∃ keep staged pc, s.pcs t = .saving (.edit (.password keep) staged) pc ∧ s'.store.mem = staged ∧
    s'.store.history = s.store.history ++ [staged] ∧
    s'.installs = s.installs ++ [⟨s'.store.version, staged.console.passwordHash⟩]

/-- What a step does to the tables. -/
structure TableTurn (s : State) (t : TaskId) (s' : State) : Prop where
  sessions : ∀ session ∈ s'.sessions, session ∈ s.sessions ∨
    ∃ req ttl, s.pcs t = .insert req session.seen ttl ∧ session.password = req.password
  returned : s'.returned = s.returned ∨ ∃ version keep, s.pcs t = .endSessions version keep ∧
    s'.returned = s.returned ++ [⟨version, keep⟩] ∧
    ∀ session ∈ s'.sessions, some session.token = keep
  installs : s'.installs = s.installs ∧ (∀ {keep staged pc},
      s.pcs t = .saving (.edit (.password keep) staged) pc → s'.store.history = s.store.history) ∨
    Installs s s' t

section Steps

variable {w : World} {s s' : State} {t : TaskId} {input : Input} {pc' : Pc}

/-- Neither before an edit nor before the end of a password change. -/
def Pc.plain : Pc → Bool
  | edit _ _ => false
  | endSessions _ _ => false
  | _ => true

/-- A step to a place without an edit takes at most its logins along. -/
theorem PlaceTurn.plain (stands : s'.pcs t = pc') (plain : pc'.plain = true)
    (logins : ∀ {req seen}, (req, seen) ∈ pc'.logins →
      (req, seen) ∈ (s.pcs t).logins ∨ accepts w req seen.config.console = true) :
    PlaceTurn w s t s' := by
  subst stands
  refine ⟨logins, ?_, ?_⟩
  · cases stands : s'.pcs t with
    | edit =>
        rw [stands] at plain
        cases plain
    | _ => trivial
  · intro version keep ends
    rw [ends] at plain
    cases plain

theorem PlaceTurn.bare (stands : s'.pcs t = pc') (plain : pc'.plain = true)
    (none : pc'.logins = []) : PlaceTurn w s t s' := by
  refine .plain stands plain ?_
  intro req seen inside
  rw [none] at inside
  cases inside

/-- The tables stay as they are. -/
theorem TableTurn.same (sessions : s'.sessions = s.sessions) (returned : s'.returned = s.returned)
    (installs : s'.installs = s.installs)
    (history : ∀ {keep staged pc}, s.pcs t = .saving (.edit (.password keep) staged) pc →
      s'.store.history = s.store.history) : TableTurn s t s' := by
  refine ⟨?_, .inl returned, .inl ⟨installs, history⟩⟩
  intro session inside
  rw [sessions] at inside
  exact .inl inside

theorem saveFails_places {saver : Saver} {error : String} :
    PlaceTurn w s t (s.saveFails t saver error) := by
  unfold State.saveFails
  split <;> exact .bare goto_pcs rfl rfl

theorem saveFails_tables {saver : Saver} {error : String} :
    TableTurn s t (s.saveFails t saver error) := by
  unfold State.saveFails
  split <;> exact .same rfl rfl rfl fun _ => rfl

theorem saveDone_places {saver : Saver} {files : Files FileName} :
    PlaceTurn w s t (s.saveDone t saver files) := by
  unfold State.saveDone
  split
  · split
    · exact .bare goto_pcs rfl rfl
    · exact .bare goto_pcs rfl rfl
    · exact .bare goto_pcs rfl rfl
    · refine ⟨?_, ?_, ?_⟩
      · intro req seen inside
        simp only [goto_pcs] at inside
        cases inside
      · simp only [goto_pcs]
        trivial
      · intro version keep ends
        simp only [goto_pcs] at ends
        cases ends
        exact ⟨_, List.mem_append_right _ (List.mem_singleton_self _), rfl⟩
  · exact .bare goto_pcs rfl rfl
  · exact .bare goto_pcs rfl rfl

theorem saveDone_tables {saver : Saver} {files : Files FileName} {pc : SavePc}
    (stands : s.pcs t = .saving saver pc) : TableTurn s t (s.saveDone t saver files) := by
  have same : ∀ {s' : State}, s'.sessions = s.sessions → s'.returned = s.returned →
      s'.installs = s.installs → (∀ keep staged, saver ≠ .edit (.password keep) staged) →
      TableTurn s t s' := by
    intro s' sessions returned installs other
    refine .same sessions returned installs ?_
    intro keep staged pc stood
    rw [stands] at stood
    cases stood
    exact absurd rfl (other keep staged)
  unfold State.saveDone
  cases saver with
  | edit editor staged =>
      cases editor with
      | putConsole => exact same rfl rfl rfl fun _ _ other => by cases other
      | putService => exact same rfl rfl rfl fun _ _ other => by cases other
      | cert service => exact same rfl rfl rfl fun _ _ other => by cases other
      | password keep =>
          exact ⟨fun session inside => .inl inside, .inl rfl,
            .inr ⟨keep, staged, pc, stands, rfl, rfl, rfl⟩⟩
  | pin found left => exact same rfl rfl rfl fun _ _ other => by cases other
  | enable found left => exact same rfl rfl rfl fun _ _ other => by cases other

/-- Both tables of a step. -/
def SessionTurn (w : World) (s : State) (t : TaskId) (s' : State) : Prop :=
  PlaceTurn w s t s' ∧ TableTurn s t s'

theorem saveStep_sessions {saver : Saver} {pc : SavePc} (stands : s.pcs t = .saving saver pc)
    (move : saveStep w s t saver pc input = some s') : SessionTurn w s t s' := by
  have goes : ∀ {files : Files FileName} {next : SavePc}, SessionTurn w s t
      ({ s with store := { s.store with files } }.goto t (.saving saver next)) :=
    ⟨.bare goto_pcs rfl rfl, .same rfl rfl rfl fun _ => rfl⟩
  have stays : ∀ {next : SavePc}, SessionTurn w s t (s.goto t (.saving saver next)) := goes
  have fails : ∀ {error : String}, SessionTurn w s t (s.saveFails t saver error) :=
    ⟨saveFails_places, saveFails_tables⟩
  unfold saveStep at move
  split at move
  · split at move <;> cases move
    · exact stays
    · exact fails
  · cases move
    exact goes
  · rcases Option.ite_none_right_eq_some.mp move with ⟨_, same⟩
    cases same
    exact goes
  · rcases Option.ite_none_right_eq_some.mp move with ⟨_, same⟩
    cases same
    exact stays
  · cases move
    exact stays
  · split at move <;> cases move
    · exact ⟨saveDone_places, saveDone_tables stands⟩
    · exact fails
  · cases move
    exact fails
  · cases move

theorem mem_resume_logins {caller : Caller} {new seen : Seen} {req : LoginReq}
    (inside : (req, seen) ∈ (caller.resume new).logins) : (req, seen) ∈ caller.logins := by
  cases caller with
  | session req before => exact inside
  | login | change | other => cases inside

theorem resume_plain (new : Seen) (caller : Caller) : (caller.resume new).plain = true := by
  cases caller <;> rfl

theorem editStep_sessions {editor : Editor} {edit : Edit}
    (move : editStep w s t editor edit input = some s') : SessionTurn w s t s' := by
  cases input <;> try cases move
  simp only [editStep] at move
  split at move
  · cases move
  · split at move <;> cases move
    · exact ⟨.bare goto_pcs rfl rfl, .same rfl rfl rfl fun _ => rfl⟩
    · exact ⟨saveFails_places, saveFails_tables⟩

/-- A task that does not stand before a save cannot be one of `change_password` that installs a
hash. -/
theorem not_saving (elsewhere : (s.pcs t).pending = false) {keep : Option String} {staged : Config}
    {pc : SavePc} : s.pcs t ≠ .saving (.edit (.password keep) staged) pc := by
  intro saving
  rw [saving] at elsewhere
  cases elsewhere

theorem enableStep_sessions {service : String} {enabled : Bool}
    (elsewhere : (s.pcs t).pending = false)
    (move : enableStep s t service enabled input = some s') : SessionTurn w s t s' := by
  cases input <;> try cases move
  simp only [enableStep] at move
  split at move
  · cases move
  · split at move <;> cases move <;>
      exact ⟨.bare goto_pcs rfl rfl, .same rfl rfl rfl fun saving =>
        absurd saving (not_saving elsewhere)⟩

theorem pinStep_sessions {token : String} (elsewhere : (s.pcs t).pending = false)
    (move : pinStep s t token input = some s') : SessionTurn w s t s' := by
  cases input <;> try cases move
  rcases Option.map_eq_some_iff.mp move with ⟨lock, _, done⟩
  cases done
  exact ⟨.bare goto_pcs rfl rfl, .same rfl rfl rfl fun saving =>
    absurd saving (not_saving elsewhere)⟩

theorem readStep_sessions {tries : Nat} {caller : Caller} (stands : s.pcs t = .reading tries caller)
    (move : readStep s t tries caller input = some s') : SessionTurn w s t s' := by
  have kept : ∀ {req seen}, (req, seen) ∈ caller.logins →
      (req, seen) ∈ (s.pcs t).logins ∨ accepts w req seen.config.console = true := by
    intro req seen inside
    rw [stands]
    exact .inl inside
  cases input <;> try cases move
  · rcases Option.ite_none_right_eq_some.mp move with ⟨_, done⟩
    cases done
    exact ⟨.plain goto_pcs rfl kept, .same rfl rfl rfl fun _ => rfl⟩
  · rcases Option.ite_none_right_eq_some.mp move with ⟨_, done⟩
    cases done
    refine ⟨?_, .same rfl rfl rfl fun _ => rfl⟩
    split
    · exact .plain goto_pcs rfl kept
    · exact .plain goto_pcs rfl kept

/-- A task that has its configuration goes on. -/
theorem resume_sessions {new : Seen} {caller : Caller} {snapshot : Seen}
    (logins : caller.logins ⊆ (s.pcs t).logins) :
    SessionTurn w s t ({ s with snapshot }.goto t (caller.resume new)) := by
  refine ⟨.plain goto_pcs (resume_plain new caller) ?_, .same rfl rfl rfl fun _ => rfl⟩
  exact fun inside => .inl (logins (mem_resume_logins inside))

theorem permitStep_sessions {check : Check} {seen : Seen}
    (move : permitStep s t check seen input = some s') : SessionTurn w s t s' := by
  cases input <;> try cases move
  · rcases Option.ite_none_right_eq_some.mp move with ⟨_, done⟩
    cases done
    exact ⟨.bare goto_pcs rfl rfl, .same rfl rfl rfl fun _ => rfl⟩
  · cases check <;> cases move <;>
      exact ⟨.bare goto_pcs rfl rfl, .same rfl rfl rfl fun _ => rfl⟩

theorem verifyStep_sessions {check : Check} {seen : Seen}
    (move : verifyStep w s t seen check = some s') : SessionTurn w s t s' := by
  cases check with
  | login req =>
      simp only [verifyStep] at move
      split at move
      · next accepted =>
          cases move
          refine ⟨.plain goto_pcs rfl ?_, .same rfl rfl rfl fun _ => rfl⟩
          intro req seen inside
          cases List.mem_singleton.mp inside
          exact .inr accepted
      · cases move
        exact ⟨.bare goto_pcs rfl rfl, .same rfl rfl rfl fun _ => rfl⟩
  | change req keep =>
      simp only [verifyStep] at move
      split at move <;> cases move <;>
        exact ⟨.bare goto_pcs rfl rfl, .same rfl rfl rfl fun _ => rfl⟩

theorem hashStep_sessions {req : PasswordChange} {keep : Option String}
    {result : Except String String} : SessionTurn w s t (hashStep s t req keep result) := by
  unfold hashStep
  split
  · exact ⟨.bare goto_pcs rfl rfl, .same rfl rfl rfl fun _ => rfl⟩
  · split
    · exact ⟨.bare goto_pcs rfl rfl, .same rfl rfl rfl fun _ => rfl⟩
    · refine ⟨⟨?_, ?_, ?_⟩, .same rfl rfl rfl fun _ => rfl⟩
      · intro req seen inside
        rw [goto_pcs] at inside
        cases inside
      · rw [goto_pcs]
        exact fun other => by cases other
      · intro version keep ends
        rw [goto_pcs] at ends
        cases ends

/-- A step of a task that does not save. -/
theorem otherStep_sessions {pc : Pc} (stands : s.pcs t = pc) (elsewhere : pc.pending = false)
    (move : taskStep w s t input pc = some s') : SessionTurn w s t s' := by
  cases pc with
  | idle => cases move
  | enableSave | saving => cases elsewhere
  | edit editor edit => exact editStep_sessions move
  | enable service enabled => exact enableStep_sessions (stands ▸ rfl) move
  | pin token => exact pinStep_sessions (stands ▸ rfl) move
  | endSessions version keep =>
      cases input <;> cases move
      refine ⟨.bare goto_pcs rfl rfl, ?_, ?_, .inl ⟨rfl, fun _ => rfl⟩⟩
      · intro session inside
        exact .inl (List.mem_filter.mp inside).1
      · refine .inr ⟨version, keep, stands, rfl, ?_⟩
        intro session inside
        exact of_decide_eq_true (List.mem_filter.mp inside).2
  | reading tries caller => exact readStep_sessions stands move
  | storing seen caller =>
      cases input <;> cases move
      refine resume_sessions ?_
      rw [stands]
      exact fun _ inside => inside
  | fallback caller =>
      cases input <;> cases move
      refine resume_sessions ?_
      rw [stands]
      exact fun _ inside => inside
  | permit check seen => exact permitStep_sessions move
  | verify check seen =>
      cases input <;> try cases move
      exact verifyStep_sessions move
  | failed =>
      cases input <;> cases move
      exact ⟨.bare goto_pcs rfl rfl, .same rfl rfl rfl fun _ => rfl⟩
  | throttle =>
      cases input <;> cases move
      simp only [throttleStep]
      split <;> exact ⟨.bare goto_pcs rfl rfl, .same rfl rfl rfl fun _ => rfl⟩
  | clear req seen =>
      cases input <;> cases move
      refine ⟨.plain goto_pcs rfl ?_, .same rfl rfl rfl fun _ => rfl⟩
      intro req seen inside
      rw [stands]
      exact .inl inside
  | insert req seen ttl =>
      cases input <;> cases move
      refine ⟨.bare goto_pcs rfl rfl, ?_, .inl rfl, .inl ⟨rfl, fun _ => rfl⟩⟩
      intro session inside
      rcases List.mem_append.mp inside with old | new
      · exact .inl (List.mem_filter.mp (List.mem_filter.mp old).1).1
      · cases List.mem_singleton.mp new
        exact .inr ⟨req, ttl, stands, rfl⟩
  | hash req keep =>
      cases input with
      | hashed result =>
          rw [← Option.some.inj move]
          exact hashStep_sessions
      | _ => cases move

/-- A handler begins: the sessions can only become fewer, and an edit of the password hash does not
come from a request. -/
theorem begin_sessions (w : World) (s : State) (t : TaskId) (headers : Headers) (request : Request) :
    (∀ session ∈ (begin w s t headers request).sessions, session ∈ s.sessions) ∧
      (begin w s t headers request).returned = s.returned ∧
      (begin w s t headers request).installs = s.installs ∧
      (((begin w s t headers request).pcs t).logins = []) ∧
      ((begin w s t headers request).pcs t).editsOwn ∧
      ∀ version keep, (begin w s t headers request).pcs t ≠ .endSessions version keep := by
  have answers : ∀ {s : State} {reply : Reply}, ((s.answer t reply).pcs t).logins = [] ∧
      ((s.answer t reply).pcs t).editsOwn ∧
      ∀ version keep, (s.answer t reply).pcs t ≠ .endSessions version keep := by
    intro s reply
    have idle : (s.answer t reply).pcs t = .idle := goto_pcs
    rw [idle]
    exact ⟨rfl, trivial, fun _ _ same => by cases same⟩
  have goes : ∀ {pc : Pc}, pc.logins = [] → pc.editsOwn →
      (∀ version keep, pc ≠ .endSessions version keep) → ((s.goto t pc).pcs t).logins = [] ∧
      ((s.goto t pc).pcs t).editsOwn ∧
      ∀ version keep, (s.goto t pc).pcs t ≠ .endSessions version keep := by
    intro pc logins edits ends
    rw [goto_pcs]
    exact ⟨logins, edits, ends⟩
  cases request with
  | put service value =>
      simp only [begin]
      cases asked : putConfig w service value with
      | error e => exact ⟨fun _ inside => inside, rfl, rfl, answers⟩
      | ok edit =>
          refine ⟨fun _ inside => inside, rfl, rfl, goes rfl ?_ fun _ _ same => by cases same⟩
          exact fun _ newHash => putConfig_edit asked newHash
  | cert service certPath keyPath =>
      simp only [begin]
      split
      · exact ⟨fun _ inside => inside, rfl, rfl, answers⟩
      · refine ⟨fun _ inside => inside, rfl, rfl, goes rfl ?_ fun _ _ same => by cases same⟩
        exact fun _ newHash same => by cases same
  | enable service enabled =>
      simp only [begin]
      split
      · exact ⟨fun _ inside => inside, rfl, rfl, goes rfl trivial fun _ _ same => by cases same⟩
      · exact ⟨fun _ inside => inside, rfl, rfl, answers⟩
  | pin token =>
      exact ⟨fun _ inside => inside, rfl, rfl, goes rfl trivial fun _ _ same => by cases same⟩
  | login req =>
      exact ⟨fun _ inside => inside, rfl, rfl, goes rfl trivial fun _ _ same => by cases same⟩
  | logout => exact ⟨fun _ inside => (List.mem_filter.mp inside).1, rfl, rfl, answers⟩
  | change req =>
      exact ⟨fun _ inside => inside, rfl, rfl, goes rfl trivial fun _ _ same => by cases same⟩
  | look =>
      exact ⟨fun _ inside => inside, rfl, rfl, goes rfl trivial fun _ _ same => by cases same⟩

theorem authorize_sessions (s : State) (headers : Headers) :
    ∀ session ∈ (authorize s headers).2, session ∈ s.sessions := by
  intro session inside
  unfold authorize at inside
  split at inside
  · exact inside
  · split at inside
    · split at inside <;> exact inside
    · exact (List.mem_filter.mp inside).1

theorem requestStep_sessions {headers : Headers} {request : Request} (stands : s.pcs t = .idle) :
    SessionTurn w s t (requestStep w s t headers request) := by
  have history : ∀ {s' : State} {keep staged now},
      s.pcs t = .saving (.edit (.password keep) staged) now →
      s'.store.history = s.store.history := by
    intro s' keep staged now saving
    rw [stands] at saving
    cases saving
  have begins : ∀ {sessions : List Session}, (∀ session ∈ sessions, session ∈ s.sessions) →
      SessionTurn w s t (begin w { s with sessions } t headers request) := by
    intro sessions fewer
    rcases begin_sessions w { s with sessions } t headers request with
      ⟨kept, returned, installs, logins, edits, ends⟩
    refine ⟨⟨?_, edits, fun same => absurd same (ends _ _)⟩, ?_, .inl returned,
      .inl ⟨installs, history⟩⟩
    · intro req seen inside
      rw [logins] at inside
      cases inside
    · exact fun session inside => .inl (fewer session (kept session inside))
  unfold requestStep
  split
  · exact begins fun _ inside => inside
  · have fewer := authorize_sessions s headers
    split
    · next refused sessions found =>
        rw [found] at fewer
        exact ⟨.bare goto_pcs rfl rfl, fun session inside => .inl (fewer session inside), .inl rfl,
          .inl ⟨rfl, history⟩⟩
    · next sessions found =>
        rw [found] at fewer
        exact begins fewer

theorem step_sessions {a : Action} (move : step w a s = some s') : SessionTurn w s a.task s' := by
  rcases Option.map_eq_some_iff.mp move with ⟨r, acted, same⟩
  subst same
  have turn : SessionTurn w s a.task r := by
    cases a with
    | request t headers request =>
        simp only [act] at acted
        split at acted
        · next stands =>
            cases acted
            exact requestStep_sessions stands
        · cases acted
    | step t input =>
        simp only [act] at acted
        cases stands : s.pcs t with
        | saving saver pc =>
            rw [stands] at acted
            exact saveStep_sessions stands acted
        | enableSave found left =>
            rw [stands] at acted
            cases input <;> try cases acted
            rcases Option.map_eq_some_iff.mp acted with ⟨lock, _, done⟩
            cases done
            exact ⟨.bare goto_pcs rfl rfl, .same rfl rfl rfl fun _ => rfl⟩
        | _ =>
            rw [stands] at acted
            exact otherStep_sessions stands rfl acted
  exact ⟨⟨turn.1.logins, turn.1.edits, turn.1.endings⟩, turn.2.sessions, turn.2.returned,
    turn.2.installs⟩

end Steps

/-! ## Invariants -/

section Invariants

variable {w : World} {s s' : State} {a : Action}

/-- A configuration memory has had after a step, it had before or has now. -/
theorem Had.cases {store store' : Store} {pc pc' : Pc} {version : Nat} {cfg : Config}
    (had : Had store' version cfg) (turn : StoreTurn w store a pc store' pc') :
    Had store version cfg ∨ store'.history = store.history ++ [store'.mem] ∧
      version = store'.version ∧ cfg = store'.mem := by
  rcases turn.versions with ⟨same, _⟩ | grown
  · refine .inl ⟨had.1, ?_⟩
    rw [← same]
    exact had.2
  · have inside := had.2
    have positive := had.1
    rw [grown] at inside
    rcases Nat.lt_or_ge (version - 1) store.history.length with old | new
    · rw [List.getElem?_append_left old] at inside
      exact .inl ⟨positive, inside⟩
    · have bound : version - 1 < (store.history ++ [store'.mem]).length :=
        (List.getElem?_eq_some_iff.mp inside).1
      rw [List.length_append, List.length_singleton] at bound
      have last : version - 1 = store.history.length := by omega
      rw [last, List.getElem?_concat_length] at inside
      cases inside
      refine .inr ⟨grown, ?_, rfl⟩
      rw [Store.version, grown, List.length_append, List.length_singleton]
      omega

/-- A hash is the last one installed by a version also after a later one was installed. -/
theorem Installed.append {installs : List Install} {version : Nat} {hash : String} {new : Install}
    (installed : Installed installs version hash) (later : version < new.version) :
    Installed (installs ++ [new]) version hash := by
  rcases installed with ⟨install, inside, same, last⟩
  refine ⟨install, List.mem_append_left _ inside, same, ?_⟩
  intro other there before
  rcases List.mem_append.mp there with old | added
  · exact last other old before
  · cases List.mem_singleton.mp added
    exact absurd later (Nat.not_lt_of_le before)

theorem InstallsSound.step (sound : InstallsSound s) (current : Had s.store s.store.version s.store.mem)
    (locked : Locked s) (move : step w a s = some s') : InstallsSound s' := by
  rcases step_turn move with ⟨pc', turn, pcs, _⟩
  have ⟨places, tables⟩ := step_sessions move
  have moved : s'.pcs a.task = pc' := by
    rw [pcs, Function.update_self]
  refine ⟨?_, ?_, ?_, ?_⟩
  · intro install inside
    rcases tables.installs with ⟨same, _⟩ | ⟨keep, staged, now, _, _, _, grown⟩
    · rw [same] at inside
      exact Nat.le_trans (sound.bound install inside) turn.version_le
    · rw [grown] at inside
      rcases List.mem_append.mp inside with old | new
      · exact Nat.le_trans (sound.bound install old) turn.version_le
      · cases List.mem_singleton.mp new
        exact Nat.le_refl _
  · intro version cfg had
    rcases had.cases turn with before | ⟨grown, isLast, isMem⟩
    · have installed := sound.hashes before
      rcases tables.installs with ⟨same, _⟩ | ⟨keep, staged, now, _, _, grown, added⟩
      · rw [same]
        exact installed
      · rw [added]
        refine installed.append ?_
        have old := before.le
        unfold Store.version at old ⊢
        rw [grown, List.length_append, List.length_singleton]
        exact Nat.lt_succ_of_le old
    · subst isLast isMem
      rcases tables.installs with ⟨same, unchanged⟩ | ⟨keep, staged, now, _, committed, _, added⟩
      · have replaced : s'.store.history ≠ s.store.history := by
          intro same
          rw [grown, List.append_right_eq_self] at same
          cases same
        have kept : s'.store.mem.console.passwordHash = s.store.mem.console.passwordHash := by
          rcases turn.replaces with ⟨stays, _⟩ | ⟨_, ⟨op, _, applied, _, other⟩ | ⟨editor, now, stands⟩⟩
          · exact absurd stays replaced
          · exact Op.apply_hash applied fun _ => other _
          · cases editor with
            | password keep => exact absurd (unchanged stands) replaced
            | putConsole => exact sound.staged stands rfl
            | putService => exact sound.staged stands rfl
            | cert service => exact sound.staged stands rfl
        rcases sound.hashes current with ⟨install, inside, hash, last⟩
        rw [same, kept]
        refine ⟨install, inside, hash, ?_⟩
        intro other there _
        exact last other there (sound.bound other there)
      · rw [added, committed]
        refine ⟨_, List.mem_append_right _ (List.mem_singleton_self _), rfl, ?_⟩
        exact fun other _ before => before
  · intro t
    by_cases moves : t = a.task
    · rw [moves]
      exact places.edits
    · rw [pcs, Function.update_of_ne moves]
      exact sound.edits t
  · intro t editor staged now stands other
    by_cases moves : t = a.task
    · subst moves
      rw [moved] at stands
      subst stands
      rcases turn.stages with ⟨same, ⟨before, stood⟩ | ⟨edit, stood, applied⟩⟩
      · rw [same]
        exact sound.staged stood other
      · have own := sound.edits a.task
        rw [stood] at own
        have accepted : (Op.edit edit).apply w s.store.mem = some staged := by
          rw [Op.apply, applied]
          rfl
        rw [same]
        refine Op.apply_hash accepted ?_
        intro newHash same
        cases same
        exact own other newHash rfl
    · rw [pcs, Function.update_of_ne moves] at stands
      rw [turn.mem_eq (locked stands) (@locked a.task) moves]
      exact sound.staged stands other

theorem InstallsSound.start (starts : Starts w s) : InstallsSound s := by
  refine ⟨?_, ?_, ?_, ?_⟩
  · intro install inside
    rw [starts.installs] at inside
    cases List.mem_singleton.mp inside
    exact Nat.le_refl _
  · intro version cfg had
    have inside := had.2
    rw [starts.history] at inside
    have first : version - 1 = 0 := by
      have bound : version - 1 < 1 := (List.getElem?_eq_some_iff.mp inside).1
      omega
    rw [first] at inside
    cases inside
    rw [starts.installs]
    refine ⟨_, List.mem_singleton_self _, rfl, ?_⟩
    intro other there _
    cases List.mem_singleton.mp there
    exact Nat.le_refl _
  · intro t
    rw [starts.idle]
    trivial
  · intro t editor staged now stands
    rw [starts.idle] at stands
    cases stands

theorem reachable_installsSound {allowed : State → Action → Prop}
    (run : (console w).Reaches allowed s) : InstallsSound s := by
  refine run.invariant (P := InstallsSound) InstallsSound.start ?_
  intro s a s' run sound _ move
  exact sound.step (reachable_readsSound run).current (reachable_locked run) move

/-- Every session comes from a login that was verified against a configuration memory has had, and
every password change has installed a hash. -/
structure SessionsSound (w : World) (s : State) : Prop where
  logins : ∀ {t req seen}, (req, seen) ∈ (s.pcs t).logins →
    accepts w req seen.config.console = true
  sessions : ∀ session ∈ s.sessions, Had s.store session.seen.version session.seen.config ∧
    w.verifyPassword session.password session.seen.config.console.passwordHash = true
  endings : ∀ {t version keep}, s.pcs t = .endSessions version keep →
    ∃ install ∈ s.installs, install.version = version
  changes : ∀ change ∈ s.returned, ∃ install ∈ s.installs, install.version = change.version

theorem SessionsSound.step (sound : SessionsSound w s) (reads : ReadsSound s)
    (move : step w a s = some s') : SessionsSound w s' := by
  rcases step_turn move with ⟨pc', turn, pcs, _⟩
  have ⟨places, tables⟩ := step_sessions move
  have unmoved : ∀ {t}, t ≠ a.task → s'.pcs t = s.pcs t := by
    intro t other
    rw [pcs, Function.update_of_ne other]
  have grows : ∀ {version}, (∃ install ∈ s.installs, install.version = version) →
      ∃ install ∈ s'.installs, install.version = version := by
    rintro version ⟨install, inside, same⟩
    refine ⟨install, ?_, same⟩
    rcases tables.installs with ⟨kept, _⟩ | ⟨keep, staged, now, _, _, _, added⟩
    · rw [kept]
      exact inside
    · rw [added]
      exact List.mem_append_left _ inside
  refine ⟨?_, ?_, ?_, ?_⟩
  · intro t req seen inside
    by_cases moves : t = a.task
    · subst moves
      rcases places.logins inside with old | new
      · exact sound.logins old
      · exact new
    · rw [unmoved moves] at inside
      exact sound.logins inside
  · intro session inside
    rcases tables.sessions session inside with old | ⟨req, ttl, stands, password⟩
    · exact ⟨(sound.sessions session old).1.later turn, (sound.sessions session old).2⟩
    · have seen : session.seen ∈ (s.pcs a.task).seens := by
        rw [stands]
        exact List.mem_singleton_self _
      have login : (req, session.seen) ∈ (s.pcs a.task).logins := by
        rw [stands]
        exact List.mem_singleton_self _
      have accepted := sound.logins login
      simp only [accepts, Bool.and_eq_true] at accepted
      rw [password]
      exact ⟨(reads.seens seen).later turn, accepted.1⟩
  · intro t version keep stands
    by_cases moves : t = a.task
    · subst moves
      exact places.endings stands
    · rw [unmoved moves] at stands
      exact grows (sound.endings stands)
  · intro change inside
    rcases tables.returned with same | ⟨version, keep, stands, added, _⟩
    · rw [same] at inside
      exact grows (sound.changes change inside)
    · rw [added] at inside
      rcases List.mem_append.mp inside with old | new
      · exact grows (sound.changes change old)
      · cases List.mem_singleton.mp new
        exact grows (sound.endings stands)

theorem reachable_sessionsSound {allowed : State → Action → Prop}
    (run : (console w).Reaches allowed s) : SessionsSound w s := by
  refine run.invariant (P := SessionsSound w) ?_ ?_
  · intro s starts
    refine ⟨?_, ?_, ?_, ?_⟩
    · intro t req seen inside
      rw [starts.idle] at inside
      cases inside
    · intro session inside
      rw [starts.sessions] at inside
      cases inside
    · intro t version keep stands
      rw [starts.idle] at stands
      cases stands
    · intro change inside
      rw [starts.returned] at inside
      cases inside
  · intro s a s' run sound _ move
    exact sound.step (reachable_readsSound run) move

end Invariants

/-! ## Sessions after a password change -/

/-- When a login inserts its session, the configuration it took its hash from is not older than that of
any password change that has returned. -/
def Timely (s : State) (a : Action) : Prop :=
  ∀ {req seen ttl}, s.pcs a.task = .insert req seen ttl →
    ∀ change ∈ s.returned, change.version ≤ seen.version

section Runs

variable {w : World} {s : State}

/-- No session but that of its caller is older than a password change that has returned. -/
theorem reaches_renewed (run : (console w).Reaches Timely s) :
    ∀ change ∈ s.returned, ∀ session ∈ s.sessions, some session.token ≠ change.keep →
      change.version ≤ session.seen.version := by
  refine run.invariant (P := fun s => ∀ change ∈ s.returned, ∀ session ∈ s.sessions,
    some session.token ≠ change.keep → change.version ≤ session.seen.version) ?_ ?_
  · intro s starts change inside
    rw [starts.returned] at inside
    cases inside
  · intro s a s' run renewed timely move change inside session there other
    have ⟨_, tables⟩ := step_sessions move
    rcases tables.returned with same | ⟨version, keep, stands, added, kept⟩
    · rw [same] at inside
      rcases tables.sessions session there with old | ⟨req, ttl, stands, _⟩
      · exact renewed change inside session old other
      · exact timely stands change inside
    · rw [added] at inside
      rcases List.mem_append.mp inside with before | new
      · rcases tables.sessions session there with old | ⟨req, ttl, inserting, _⟩
        · exact renewed change before session old other
        · rw [stands] at inserting
          cases inserting
      · cases List.mem_singleton.mp new
        exact absurd (kept session there) other

/-- As long as every login inserts its session in time: once a password change has returned, every
session but that of its caller comes from a login whose password was verified against the hash that
change has installed or a later one. -/
theorem sessions_renewed (run : (console w).Reaches Timely s) :
    ∀ change ∈ s.returned, (∃ install ∈ s.installs, install.version = change.version) ∧
      ∀ session ∈ s.sessions, some session.token ≠ change.keep →
        ∃ install ∈ s.installs, change.version ≤ install.version ∧
          w.verifyPassword session.password install.hash = true := by
  have sound := reachable_sessionsSound run
  have installs := reachable_installsSound run
  intro change inside
  refine ⟨sound.changes change inside, ?_⟩
  intro session there other
  rcases sound.sessions session there with ⟨had, verified⟩
  rcases installs.hashes had with ⟨install, listed, hash, last⟩
  rcases sound.changes change inside with ⟨own, ownListed, ownVersion⟩
  have renewed := reaches_renewed run change inside session there other
  refine ⟨install, listed, ?_, ?_⟩
  · rw [← ownVersion] at renewed ⊢
    exact last own ownListed renewed
  · rw [hash]
    exact verified

end Runs

/-- The condition, as a check. -/
def timelyCheck (s : State) (a : Action) : Bool :=
  match s.pcs a.task with
  | .insert _ seen _ => s.returned.all fun change => change.version ≤ seen.version
  | _ => true

theorem timely_of_check {s : State} {a : Action} (checked : timelyCheck s a = true) : Timely s a := by
  intro req seen ttl stands change inside
  simp only [timelyCheck, stands, List.all_eq_true, decide_eq_true_eq] at checked
  exact checked change inside

/-- A login with the given password, up to the insertion of its session. -/
def signInRun (t : TaskId) (password : String) : List Action :=
  [.request t {} (.login { password }), .step t .go, .step t .go, .step t .go, .step t .go,
    .step t (.now 100), .step t .go, .step t .go]

/-- The operator changes the password, as task 2. -/
def changeRun : List Action :=
  let changed : Config :=
    { sampleConfig with
      console := { sampleConfig.console with passwordHash := sampleHash "secret" } }
  [.request 2 { token := some "operator", now := 100 } (.change { old := "remgr", new := "secret" }),
    .step 2 .go, .step 2 .go, .step 2 .go, .step 2 .go, .step 2 (.hashed (.ok (sampleHash "secret"))),
    .step 2 .go] ++ saveRun 2 changed ++ [.step 2 .go, .step 2 .go]

theorem sessions_renewed_signed_in :
    ∃ s change session, (console sampleWorld).Reaches Timely s ∧ change ∈ s.returned ∧
      session ∈ s.sessions ∧ some session.token ≠ change.keep ∧
      ∃ install ∈ s.installs, change.version ≤ install.version ∧
        sampleWorld.verifyPassword session.password install.hash = true := by
  have reached : ∃ s, (console sampleWorld).Reaches Timely s ∧
      (s.returned.any fun change => s.sessions.any fun session =>
        decide (some session.token ≠ change.keep)) = true :=
    System.reaches_of_any
      (fun _ moved =>
        have ⟨checked, move⟩ := Option.ite_none_right_eq_some.mp moved
        ⟨timely_of_check checked, move⟩) (.start sampleState_starts)
      (by decide +kernel : (System.execute
        (fun a s => if timelyCheck s a then step sampleWorld a s else none)
        (loginRun ++ changeRun ++ signInRun 1 "secret" ++ [.step 1 (.token "new" 100 100)])
        sampleState).any (fun s => s.returned.any fun change => s.sessions.any fun session =>
          decide (some session.token ≠ change.keep)) = true)
  rcases reached with ⟨s, run, shown⟩
  rcases List.any_eq_true.mp shown with ⟨change, inside, shown⟩
  rcases List.any_eq_true.mp shown with ⟨session, there, other⟩
  have differs := of_decide_eq_true other
  exact ⟨s, change, session, run, inside, there, differs,
    (sessions_renewed run change inside).2 session there differs⟩

/-- A login with the old password is under way while the password is changed, and inserts its session
after the change has returned. -/
theorem late_session :
    ¬ ∀ (w : World) (s : State), (console w).Reachable s →
      ∀ change ∈ s.returned, ∀ session ∈ s.sessions, some session.token ≠ change.keep →
        ∃ install ∈ s.installs, change.version ≤ install.version ∧
          w.verifyPassword session.password install.hash = true := by
  intro renewed
  rcases System.exists_of_any (by decide +kernel : (System.execute (step sampleWorld)
      (loginRun ++ signInRun 1 "remgr" ++ changeRun ++ [.step 1 (.token "late" 100 100)])
      sampleState).any (fun s => s.returned.any fun change => s.sessions.any fun session =>
        decide (some session.token ≠ change.keep ∧ ∀ install ∈ s.installs,
          ¬ (change.version ≤ install.version ∧
            sampleWorld.verifyPassword session.password install.hash = true))) = true)
    with ⟨s, done, shown⟩
  have run : (console sampleWorld).Reachable s :=
    System.reaches_of_execute (fun _ moved => ⟨trivial, moved⟩) (.start sampleState_starts) done
  rcases List.any_eq_true.mp shown with ⟨change, inside, shown⟩
  rcases List.any_eq_true.mp shown with ⟨session, there, late⟩
  rcases of_decide_eq_true late with ⟨other, never⟩
  rcases renewed sampleWorld s run change inside session there other with ⟨install, listed, fits⟩
  exact never install listed fits

end Remgr.Console
