/-
Module: Remgr.Proofs.ConsoleShape
Purpose: The steps of the console as a table of what they do to the configuration, its lock and its
  file, and who holds the lock. What is proved about the configuration goes through the table and not
  through the step functions.
Trusted boundary: none
Main exports: StoreTurn, step_turn, Locked, reachable_locked
-/
import Remgr.Console.Step

namespace Remgr.Console

open Remgr.Lib

/-! ## The table -/

/-- Whether a save at this place fails on the input. -/
def saveFailsAt (w : World) (store : Store) (saver : Saver) : SavePc → Input → Bool
  | .serialize, .go => !((saver.config store.mem).serialize w).isOk
  | .rename _ _, .go => (store.files.rename .temp .config).isNone
  | _, .fails _ => true
  | _, _ => false

namespace Pc

/-- Has changed memory and not saved it yet, or is saving. -/
def pending : Pc → Bool
  | enableSave _ _ => true
  | saving _ _ => true
  | _ => false

/-- The operation may have changed memory or the file by now. -/
def mayHaveChanged : Pc → Bool
  | idle => true
  | endSessions _ _ => true
  | enableSave found left => found ≠ left
  | saving (.pin found left) _ => found ≠ left
  | saving (.enable found left) _ => found ≠ left
  | _ => false

end Pc

namespace Store

/-- The store when a save is over. -/
def unlock (store : Store) (t : TaskId) : Store := { store with lock := store.lock.unlock t }

/-- What a saver commits once the file is renamed. -/
def commit (store : Store) : Saver → Store
  | .edit _ staged => store.put staged
  | .pin _ _ => store
  | .enable _ _ => store

end Store

/-- The steps of a task: where it stands, the store after the step, and where it stands then. -/
inductive StoreTurn (w : World) (store : Store) (a : Action) : Pc → Store → Pc → Prop
  | quiet {pc pc' : Pc} (before : pc.pending = false) (after : pc'.pending = false)
      (fresh : a.begins = true ∨ pc.mayHaveChanged = false ∨ pc' = .idle) :
      StoreTurn w store a pc store pc'
  | edit {editor : Editor} {edit : Edit} {lock : RwLock TaskId} {staged : Config}
      (taken : store.lock.write a.task = some lock)
      (applied : edit.apply w store.mem = .ok staged) :
      StoreTurn w store a (.edit editor edit) { store with lock }
        (.saving (.edit editor staged) .serialize)
  | enable {service : String} {enabled : Bool} {left : Config}
      (free : store.lock.holders = [])
      (flagged : store.mem.setEnabledFlag enabled service = some left) :
      StoreTurn w store a (.enable service enabled) (store.put left) (.enableSave store.mem left)
  | enableSave {found left : Config} {lock : RwLock TaskId}
      (taken : store.lock.read a.task = some lock) :
      StoreTurn w store a (.enableSave found left) { store with lock }
        (.saving (.enable found left) .serialize)
  | pin {token : String} {lock : RwLock TaskId} (taken : store.lock.write a.task = some lock) :
      StoreTurn w store a (.pin token) { store.put (store.mem.pinToken token) with lock }
        (.saving (.pin store.mem (store.mem.pinToken token)) .serialize)
  | serialized {saver : Saver} {out : List UInt8}
      (text : (saver.config store.mem).serialize w = .ok out) :
      StoreTurn w store a (.saving saver .serialize) store (.saving saver (.openTemp out))
  | opened {saver : Saver} {out : List UInt8} (goes : a = .step a.task .go) :
      StoreTurn w store a (.saving saver (.openTemp out))
        { store with files := (store.files.openTruncate .temp).2 }
        (.saving saver (.write (store.files.openTruncate .temp).1 0 out))
  | wrote {saver : Saver} {i : Inode} {offset count : Nat} {out : List UInt8}
      (fits : offset + count ≤ out.length) :
      StoreTurn w store a (.saving saver (.write i offset out))
        { store with files := store.files.writeAt i offset ((out.drop offset).take count) }
        (.saving saver (.write i (offset + count) out))
  | written {saver : Saver} {i : Inode} {out : List UInt8} :
      StoreTurn w store a (.saving saver (.write i out.length out)) store (.saving saver (.sync i out))
  | synced {saver : Saver} {i : Inode} {out : List UInt8} :
      StoreTurn w store a (.saving saver (.sync i out)) store (.saving saver (.rename i out))
  | renamed {saver : Saver} {i : Inode} {out : List UInt8} {files : Files FileName} {pc' : Pc}
      (goes : a = .step a.task .go) (renames : store.files.rename .temp .config = some files)
      (settled : pc'.pending = false) (after : pc'.mayHaveChanged = true) :
      StoreTurn w store a (.saving saver (.rename i out))
        (({ store with files }.unlock a.task).commit saver) pc'
  | failed {saver : Saver} {pc : SavePc} {input : Input} (goes : a = .step a.task input)
      (fails : saveFailsAt w store saver pc input = true) :
      StoreTurn w store a (.saving saver pc) (store.unlock a.task) .idle

/-- A step of the console is a line of the table. -/
def Turns (w : World) (s : State) (a : Action) (s' : State) : Prop :=
  ∃ pc', StoreTurn w s.store a (s.pcs a.task) s'.store pc' ∧
    s'.pcs = Function.update s.pcs a.task pc' ∧ s'.loaded = s.loaded

section Table

variable {w : World} {s s' : State} {t : TaskId} {input : Input}

theorem Turns.of {pc pc' : Pc} (stands : s.pcs t = pc)
    (turn : StoreTurn w s.store (.step t input) pc s'.store pc')
    (pcs : s'.pcs = Function.update s.pcs t pc') (loaded : s'.loaded = s.loaded) :
    Turns w s (.step t input) s' := by
  subst stands
  exact ⟨pc', turn, pcs, loaded⟩

theorem saveFails_turn {saver : Saver} {pc : SavePc} {error : String}
    (stands : s.pcs t = .saving saver pc)
    (fails : saveFailsAt w s.store saver pc input = true) :
    Turns w s (.step t input) (s.saveFails t saver error) := by
  unfold State.saveFails
  split <;> exact .of stands (.failed rfl fails) rfl rfl

theorem saveDone_turn {saver : Saver} {i : Inode} {out : List UInt8} {files : Files FileName}
    (stands : s.pcs t = .saving saver (.rename i out))
    (renames : s.store.files.rename .temp .config = some files) :
    Turns w s (.step t .go) (s.saveDone t saver files) := by
  unfold State.saveDone
  cases saver with
  | edit editor staged =>
      cases editor <;> exact .of stands (.renamed rfl renames rfl rfl) rfl rfl
  | pin found left => exact .of stands (.renamed rfl renames rfl rfl) rfl rfl
  | enable found left => exact .of stands (.renamed rfl renames rfl rfl) rfl rfl

theorem saveStep_turn {saver : Saver} {pc : SavePc} (stands : s.pcs t = .saving saver pc)
    (move : saveStep w s t saver pc input = some s') : Turns w s (.step t input) s' := by
  cases input with
  | fails error =>
      have fails : saveFailsAt w s.store saver pc (.fails error) = true := by
        cases pc <;> rfl
      have same : s' = s.saveFails t saver error := by
        cases pc <;> exact (Option.some.inj move).symm
      rw [same]
      exact saveFails_turn stands fails
  | go =>
      cases pc with
      | serialize =>
          simp only [saveStep] at move
          split at move
          · next out text =>
              cases move
              exact .of stands (.serialized text) rfl rfl
          · next error text =>
              cases move
              refine saveFails_turn stands ?_
              rw [saveFailsAt, text]
              rfl
      | openTemp out =>
          cases move
          exact .of stands (.opened rfl) rfl rfl
      | write i offset out =>
          rcases Option.ite_none_right_eq_some.mp move with ⟨full, same⟩
          cases same
          subst full
          exact .of stands .written rfl rfl
      | sync i out =>
          cases move
          exact .of stands .synced rfl rfl
      | rename i out =>
          simp only [saveStep] at move
          split at move
          · next files renames =>
              cases move
              exact saveDone_turn stands renames
          · next missing =>
              cases move
              refine saveFails_turn stands ?_
              rw [saveFailsAt, missing]
              rfl
  | wrote count =>
      cases pc <;> try cases move
      next i offset out =>
        rcases Option.ite_none_right_eq_some.mp move with ⟨⟨_, fits⟩, same⟩
        cases same
        exact .of stands (.wrote fits) rfl rfl
  | blockedBy u => cases pc <;> cases move
  | timeout => cases pc <;> cases move
  | hashed result => cases pc <;> cases move
  | now time => cases pc <;> cases move
  | token token now later => cases pc <;> cases move

theorem editStep_turn {editor : Editor} {edit : Edit} (stands : s.pcs t = .edit editor edit)
    (move : editStep w s t editor edit input = some s') : Turns w s (.step t input) s' := by
  cases input <;> try cases move
  simp only [editStep] at move
  split at move
  · cases move
  · next lock taken =>
      split at move
      · next staged applied =>
          cases move
          exact .of stands (.edit taken applied) rfl rfl
      · next error _ =>
          cases move
          -- the lock was free, and giving it back leaves it free
          have free : s.store.unlock t = s.store := by
            rw [Store.unlock, RwLock.unlock_of_free (RwLock.write_eq_some taken).1]
          have table : StoreTurn w s.store (.step t .go) (.edit editor edit) (s.store.unlock t)
              .idle := by
            rw [free]
            exact .quiet rfl rfl (.inr (.inr rfl))
          unfold State.saveFails
          split <;> exact .of stands table rfl rfl

theorem enableStep_turn {service : String} {enabled : Bool}
    (stands : s.pcs t = .enable service enabled)
    (move : enableStep s t service enabled input = some s') : Turns w s (.step t input) s' := by
  cases input <;> try cases move
  simp only [enableStep] at move
  split at move
  · cases move
  · next lock taken =>
      split at move
      · cases move
        exact .of stands (.quiet rfl rfl (.inr (.inr rfl))) rfl rfl
      · next left flagged =>
          cases move
          exact .of stands (.enable (RwLock.write_eq_some taken).1 flagged) rfl rfl

theorem enableSaveStep_turn {found left : Config} (stands : s.pcs t = .enableSave found left)
    (move : enableSaveStep s t found left input = some s') : Turns w s (.step t input) s' := by
  cases input <;> try cases move
  rcases Option.map_eq_some_iff.mp move with ⟨lock, taken, same⟩
  cases same
  exact .of stands (.enableSave taken) rfl rfl

theorem pinStep_turn {token : String} (stands : s.pcs t = .pin token)
    (move : pinStep s t token input = some s') : Turns w s (.step t input) s' := by
  cases input <;> try cases move
  rcases Option.map_eq_some_iff.mp move with ⟨lock, taken, same⟩
  cases same
  exact .of stands (.pin taken) rfl rfl

theorem resume_pending (seen : Seen) (caller : Caller) : (caller.resume seen).pending = false := by
  cases caller <;> rfl

theorem readStep_turn {tries : Nat} {caller : Caller} (stands : s.pcs t = .reading tries caller)
    (move : readStep s t tries caller input = some s') : Turns w s (.step t input) s' := by
  cases input <;> try cases move
  · rcases Option.ite_none_right_eq_some.mp move with ⟨_, same⟩
    cases same
    exact .of stands (.quiet rfl rfl (.inr (.inl rfl))) rfl rfl
  · rcases Option.ite_none_right_eq_some.mp move with ⟨_, same⟩
    cases same
    refine .of stands (.quiet rfl ?_ (.inr (.inl rfl))) rfl rfl
    split <;> rfl

theorem permitStep_turn {check : Check} {seen : Seen} (stands : s.pcs t = .permit check seen)
    (move : permitStep s t check seen input = some s') : Turns w s (.step t input) s' := by
  cases input <;> try cases move
  · rcases Option.ite_none_right_eq_some.mp move with ⟨_, same⟩
    cases same
    exact .of stands (.quiet rfl rfl (.inr (.inl rfl))) rfl rfl
  · cases check <;> cases move <;> exact .of stands (.quiet rfl rfl (.inr (.inl rfl))) rfl rfl

theorem verifyStep_turn {check : Check} {seen : Seen} (stands : s.pcs t = .verify check seen)
    (move : verifyStep w s t seen check = some s') : Turns w s (.step t input) s' := by
  cases check with
  | login req =>
      simp only [verifyStep] at move
      split at move <;> cases move <;> exact .of stands (.quiet rfl rfl (.inr (.inl rfl))) rfl rfl
  | change req keep =>
      simp only [verifyStep] at move
      split at move <;> cases move <;> exact .of stands (.quiet rfl rfl (.inr (.inl rfl))) rfl rfl

theorem hashStep_turn {req : PasswordChange} {keep : Option String}
    {result : Except String String} (stands : s.pcs t = .hash req keep) :
    Turns w s (.step t input) (hashStep s t req keep result) := by
  unfold hashStep
  split
  · exact .of stands (.quiet rfl rfl (.inr (.inl rfl))) rfl rfl
  · cases result <;> exact .of stands (.quiet rfl rfl (.inr (.inl rfl))) rfl rfl

theorem throttleStep_turn {now : Nat} (stands : s.pcs t = .throttle) :
    Turns w s (.step t input) (throttleStep s t now) := by
  simp only [throttleStep]
  split <;> exact .of stands (.quiet rfl rfl (.inr (.inl rfl))) rfl rfl

theorem taskStep_turn (move : taskStep w s t input (s.pcs t) = some s') :
    Turns w s (.step t input) s' := by
  cases stands : s.pcs t <;> rw [stands] at move
  case idle => cases move
  case edit => exact editStep_turn stands move
  case enable => exact enableStep_turn stands move
  case enableSave => exact enableSaveStep_turn stands move
  case pin => exact pinStep_turn stands move
  case saving => exact saveStep_turn stands move
  case endSessions =>
      cases input <;> cases move
      exact .of stands (.quiet rfl rfl (.inr (.inr rfl))) rfl rfl
  case reading => exact readStep_turn stands move
  case storing seen caller =>
      cases input <;> cases move
      exact .of stands (.quiet rfl (resume_pending seen caller) (.inr (.inl rfl))) rfl rfl
  case fallback caller =>
      cases input <;> cases move
      exact .of stands (.quiet rfl (resume_pending _ caller) (.inr (.inl rfl))) rfl rfl
  case permit => exact permitStep_turn stands move
  case verify =>
      cases input <;> try cases move
      exact verifyStep_turn stands move
  case failed =>
      cases input <;> cases move
      exact .of stands (.quiet rfl rfl (.inr (.inl rfl))) rfl rfl
  case throttle =>
      cases input <;> cases move
      exact throttleStep_turn stands
  case clear =>
      cases input <;> cases move
      exact .of stands (.quiet rfl rfl (.inr (.inl rfl))) rfl rfl
  case insert =>
      cases input <;> cases move
      exact .of stands (.quiet rfl rfl (.inr (.inl rfl))) rfl rfl
  case hash =>
      cases input with
      | hashed result =>
          rw [← Option.some.inj move]
          exact hashStep_turn stands
      | _ => cases move

/-- A handler begins without touching the configuration. -/
theorem begin_turn (w : World) (s : State) (t : TaskId) (headers : Headers) (request : Request) :
    ∃ pc', pc'.pending = false ∧ (begin w s t headers request).store = s.store ∧
      (begin w s t headers request).pcs = Function.update s.pcs t pc' ∧
      (begin w s t headers request).loaded = s.loaded := by
  cases request with
  | put service value =>
      simp only [begin]
      cases putConfig w service value with
      | error e => exact ⟨_, rfl, rfl, rfl, rfl⟩
      | ok edit => exact ⟨_, rfl, rfl, rfl, rfl⟩
  | cert service certPath keyPath =>
      simp only [begin]
      split <;> exact ⟨_, rfl, rfl, rfl, rfl⟩
  | enable service enabled =>
      simp only [begin]
      split <;> exact ⟨_, rfl, rfl, rfl, rfl⟩
  | pin token => exact ⟨_, rfl, rfl, rfl, rfl⟩
  | login req => exact ⟨_, rfl, rfl, rfl, rfl⟩
  | logout => exact ⟨_, rfl, rfl, rfl, rfl⟩
  | change req => exact ⟨_, rfl, rfl, rfl, rfl⟩
  | look => exact ⟨_, rfl, rfl, rfl, rfl⟩

theorem requestStep_turn {headers : Headers} {request : Request} (stands : s.pcs t = .idle) :
    Turns w s (.request t headers request) (requestStep w s t headers request) := by
  have begins : ∀ sessions, Turns w s (.request t headers request)
      (begin w { s with sessions } t headers request) := by
    intro sessions
    rcases begin_turn w { s with sessions } t headers request with ⟨pc', settled, store, pcs, loaded⟩
    refine ⟨pc', ?_, pcs, loaded⟩
    rw [store]
    exact .quiet (by rw [Action.task, stands]; rfl) settled (.inl rfl)
  unfold requestStep
  split
  · exact begins s.sessions
  · split
    · refine ⟨.idle, ?_, rfl, rfl⟩
      exact .quiet (by rw [Action.task, stands]; rfl) rfl (.inl rfl)
    · exact begins _

/-- Every step of the console is a line of the table. -/
theorem step_turn {a : Action} (move : step w a s = some s') : Turns w s a s' := by
  rcases Option.map_eq_some_iff.mp move with ⟨r, acted, same⟩
  subst same
  have turns : Turns w s a r := by
    cases a with
    | request t headers request =>
        simp only [act] at acted
        split at acted
        · next stands =>
            cases acted
            exact requestStep_turn stands
        · cases acted
    | step t input => exact taskStep_turn acted
  exact turns

end Table

/-! ## Who holds the lock -/

/-- A save holds the lock, and all of it when it saves what is not in memory yet. -/
structure Holds (lock : RwLock TaskId) (u : TaskId) (saver : Saver) : Prop where
  holder : u ∈ lock.holders
  writer : saver.exclusive = true → lock.writer = some u

/-- Every task that saves holds the lock it has taken. -/
def Locked (s : State) : Prop :=
  ∀ {u saver pc}, s.pcs u = .saving saver pc → Holds s.store.lock u saver

section Lock

variable {w : World} {store store' : Store} {a : Action} {pc pc' : Pc} {u : TaskId} {saver : Saver}

theorem Holds.not_free {lock : RwLock TaskId} (holds : Holds lock u saver) : lock.holders ≠ [] :=
  List.ne_nil_of_mem holds.holder

/-- A task that is not the one that moves keeps what it holds. -/
theorem Holds.other (holds : Holds store.lock u saver) (turn : StoreTurn w store a pc store' pc')
    (other : u ≠ a.task) : Holds store'.lock u saver := by
  have unlocked : Holds (store.lock.unlock a.task) u saver :=
    ⟨(RwLock.mem_holders_unlock other).mpr holds.holder,
      fun exclusive => (RwLock.writer_unlock other).mpr (holds.writer exclusive)⟩
  cases turn with
  | quiet => exact holds
  | edit taken _ => exact absurd (RwLock.write_eq_some taken).1 holds.not_free
  | enable free _ => exact absurd free holds.not_free
  | enableSave taken =>
      rcases RwLock.read_eq_some taken with ⟨noWriter, _, holders⟩
      refine ⟨?_, ?_⟩
      · rw [holders]
        exact List.mem_cons_of_mem _ holds.holder
      · intro exclusive
        rw [holds.writer exclusive] at noWriter
        cases noWriter
  | pin taken => exact absurd (RwLock.write_eq_some taken).1 holds.not_free
  | serialized | opened | wrote | written | synced => exact holds
  | @renamed done => cases done <;> exact unlocked
  | failed => exact unlocked

/-- A task that begins to save has just taken the lock, and one that goes on has kept it. -/
theorem Holds.mover {next : SavePc} (turn : StoreTurn w store a pc store' (.saving saver next))
    (held : ∀ {now}, pc = .saving saver now → Holds store.lock a.task saver) :
    Holds store'.lock a.task saver := by
  cases turn with
  | quiet _ after => cases after
  | edit taken _ =>
      rcases RwLock.write_eq_some taken with ⟨_, writer, holders⟩
      exact ⟨by rw [holders]; exact List.mem_singleton_self _, fun _ => writer⟩
  | enableSave taken =>
      rcases RwLock.read_eq_some taken with ⟨_, _, holders⟩
      exact ⟨by rw [holders]; exact List.mem_cons_self .., fun exclusive => by cases exclusive⟩
  | pin taken =>
      rcases RwLock.write_eq_some taken with ⟨_, writer, holders⟩
      exact ⟨by rw [holders]; exact List.mem_singleton_self _, fun _ => writer⟩
  | serialized | opened | wrote | written | synced => exact held rfl
  | renamed _ _ settled => cases settled

theorem Locked.step {s s' : State} (locked : Locked s) (turns : Turns w s a s') : Locked s' := by
  rcases turns with ⟨pc', turn, pcs, _⟩
  intro u saver pc stands
  rw [pcs] at stands
  by_cases mover : u = a.task
  · subst mover
    rw [Function.update_self] at stands
    subst stands
    exact .mover turn locked
  · rw [Function.update_of_ne mover] at stands
    exact (locked stands).other turn mover

/-- In every run, a task that saves holds the lock. -/
theorem reachable_locked {s : State} {allowed : State → Action → Prop}
    (run : (console w).Reaches allowed s) : Locked s := by
  refine run.invariant (P := Locked) ?_ ?_
  · intro s starts u saver pc stands
    rw [starts.idle] at stands
    cases stands
  · intro s a s' _ locked _ move
    exact locked.step (step_turn move)

end Lock

/-! ## A console to look at -/

/-- A file that leaves out every key with its default value, but for the password hash, the token of
frps and the switches of frps and frpc. -/
def sampleText (cfg : Config) : String :=
  "[console]\npassword_hash = \"" ++ cfg.console.passwordHash ++ "\"\n\n[frps]\nenabled = " ++
    toString cfg.frps.enabled ++ "\ntoken = \"" ++ cfg.frps.token ++ "\"\n\n[frpc]\nenabled = " ++
    toString cfg.frpc.enabled ++ "\n"

/-- A hash that shows its password. -/
def sampleHash (password : String) : String := "$sample$" ++ password

def sampleConfig : Config where
  console :=
    { passwordHash := sampleHash "remgr"
      tlsCert := "/etc/remgr/ssl/console_cert.pem"
      tlsKey := "/etc/remgr/ssl/console_key.pem" }
  easytier := { dbPath := "/var/lib/remgr/easytier/et.db" }
  stunTurn :=
    { certPath := "/etc/remgr/ssl/turn_cert.pem", keyPath := "/etc/remgr/ssl/turn_key.pem" }
  rustdesk := {}
  frps := {}
  frpc := {}

def utf8 (text : String) : List UInt8 := text.toList.flatMap String.utf8EncodeChar

def sampleWorld : World where
  toStringPretty cfg := .ok (utf8 (sampleText cfg))
  load bytes := if bytes = utf8 (sampleText sampleConfig) then some sampleConfig else none
  consoleFromValue _ := .error "invalid type"
  easytierFromValue _ := .error "invalid type"
  stunTurnFromValue _ := .error "invalid type"
  rustdeskFromValue _ := .error "invalid type"
  frpsFromValue _ := .error "invalid type"
  frpcFromValue _ := .error "invalid type"
  debug text := text
  verifyPassword password hash := hash == sampleHash password
  isAbsolute path := path.startsWith "/"
  pathIsVisible _ := true
  certDir := "/etc/remgr/ssl"

/-- The bytes `Config::save` writes, for a configuration that can be written. -/
def sampleBytes (cfg : Config) : List UInt8 :=
  match cfg.serialize sampleWorld with
  | .ok out => out
  | .error _ => []

def sampleFiles (bytes : List UInt8) : Files FileName where
  names name := if name = .config then some 0 else none
  data _ := bytes
  next := 1
  allocated := by
    intro name i leads
    rcases Option.ite_none_right_eq_some.mp leads with ⟨_, same⟩
    cases same
    exact Nat.one_pos
  single := by
    intro name name' i leads leads'
    rw [(Option.ite_none_right_eq_some.mp leads).1, (Option.ite_none_right_eq_some.mp leads').1]

/-- A console that has just installed its first password. -/
def sampleState : State where
  store :=
    { mem := sampleConfig
      files := sampleFiles (sampleBytes sampleConfig)
      history := [sampleConfig] }
  loaded := sampleBytes sampleConfig
  snapshot := ⟨sampleConfig, 1⟩
  installs := [⟨1, sampleHash "remgr"⟩]

theorem sampleState_starts : Starts sampleWorld sampleState where
  file := rfl
  loaded := .inr rfl
  history := rfl
  unlocked := rfl
  snapshot := rfl
  sessions := rfl
  idle _ := rfl
  installs := rfl
  returned := rfl
  began _ := rfl
  reads := rfl
  accepted := rfl

/-- No task up to the bound is inside an operation that changes the configuration. -/
def quietCheck (bound : TaskId) (s : State) : Bool :=
  (List.range bound).all fun t => !(s.pcs t).changing

/-- A run of the listed tasks leaves the other ones idle, so that checking the listed ones is
enough. -/
theorem quiet_of_check {w : World} {stepFn : Action → State → Option State} {labels : List Action}
    {s s' : State} {bound : TaskId}
    (steps : ∀ {a s s'}, stepFn a s = some s' → step w a s = some s')
    (listed : ∀ a ∈ labels, a.task < bound) (idle : ∀ t, s.pcs t = .idle)
    (done : System.execute stepFn labels s = some s') (checked : quietCheck bound s' = true) :
    ∀ t, (s'.pcs t).changing = false := by
  have others : ∀ t, bound ≤ t → s'.pcs t = .idle := by
    refine System.execute_keeps (P := fun s => ∀ t, bound ≤ t → s.pcs t = .idle) ?_ done
      fun t _ => idle t
    intro a inside s s' moved before t above
    rcases step_turn (steps moved) with ⟨pc', _, pcs, _⟩
    have apart : t ≠ a.task := Nat.ne_of_gt (Nat.lt_of_lt_of_le (listed a inside) above)
    rw [pcs, Function.update_of_ne apart]
    exact before t above
  intro t
  by_cases below : t < bound
  · have shown := List.all_eq_true.mp checked t (List.mem_range.mpr below)
    simpa using shown
  · rw [others t (Nat.le_of_not_lt below)]
    rfl

/-- The operator logs in, as task 0, and is given the session `operator`. -/
def loginRun : List Action :=
  [.request 0 {} (.login { password := "remgr" }), .step 0 .go, .step 0 .go, .step 0 .go, .step 0 .go,
    .step 0 (.now 100), .step 0 .go, .step 0 .go, .step 0 (.token "operator" 100 100)]

/-- A task that has taken its lock saves the configuration up to the rename. -/
def saveRun (t : TaskId) (cfg : Config) : List Action :=
  [.step t .go, .step t .go, .step t (.wrote (sampleBytes cfg).length), .step t .go, .step t .go]

end Remgr.Console
