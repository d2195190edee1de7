/-
Module: Remgr.Proofs.ConsoleReads
Purpose: What `config_blocking` returns. A read that gets the lock returns what is in memory, and one
  whose attempts all fail returns the snapshot, which only readers refresh.
Trusted boundary: none
Main exports: Had, ReadTurn, step_reads, ReadsSound, reads_answered, stale_read
-/
import Remgr.Proofs.ConsoleShape

namespace Remgr.Console

open Remgr.Lib

/-! ## What a step reads -/

/-- The configurations a task goes on with. -/
def Caller.seens : Caller → List Seen
  | session _ seen => [seen]
  | _ => []

def Pc.seens : Pc → List Seen
  | reading _ caller => caller.seens
  | storing seen caller => seen :: caller.seens
  | fallback caller => caller.seens
  | permit _ seen => [seen]
  | verify _ seen => [seen]
  | clear _ seen => [seen]
  | insert _ seen _ => [seen]
  | _ => []

/-- What a step of a task takes over into its place and into the snapshot. -/
structure ReadTurn (s : State) (t : TaskId) (s' : State) : Prop where
  snapshot : s'.snapshot = s.snapshot ∨ ∃ caller, s.pcs t = .storing s'.snapshot caller
  storing : ∀ {seen caller}, s'.pcs t = .storing seen caller →
    seen = ⟨s.store.mem, s.store.version⟩
  seens : ∀ {seen}, seen ∈ (s'.pcs t).seens →
    seen ∈ (s.pcs t).seens ∨ seen = s.snapshot ∨ seen = ⟨s.store.mem, s.store.version⟩

section Steps

variable {w : World} {s s' : State} {t : TaskId} {input : Input} {pc' : Pc}

/-- A step to a place that has no configuration of its own. -/
theorem ReadTurn.plain (snapshot : s'.snapshot = s.snapshot) (stands : s'.pcs t = pc')
    (none : pc'.seens = []) : ReadTurn s t s' := by
  refine ⟨.inl snapshot, ?_, ?_⟩
  · intro seen caller storing
    rw [stands] at storing
    rw [storing] at none
    cases none
  · intro seen inside
    rw [stands, none] at inside
    cases inside

/-- A step that keeps the configurations it has. -/
theorem ReadTurn.keeps (snapshot : s'.snapshot = s.snapshot) (stands : s'.pcs t = pc')
    (elsewhere : ∀ {seen caller}, pc' ≠ .storing seen caller)
    (kept : ∀ {seen}, seen ∈ pc'.seens → seen ∈ (s.pcs t).seens) : ReadTurn s t s' := by
  subst stands
  exact ⟨.inl snapshot, fun storing => absurd storing elsewhere, fun inside => .inl (kept inside)⟩

theorem goto_pcs {pc : Pc} : (s.goto t pc).pcs t = pc := Function.update_self ..

theorem saveFails_reads {saver : Saver} {error : String} :
    ReadTurn s t (s.saveFails t saver error) := by
  unfold State.saveFails
  split <;> exact .plain rfl goto_pcs rfl

theorem saveStep_reads {saver : Saver} {pc : SavePc}
    (move : saveStep w s t saver pc input = some s') : ReadTurn s t s' := by
  unfold saveStep at move
  split at move
  · split at move
    · cases move
      exact .plain rfl goto_pcs rfl
    · cases move
      exact saveFails_reads
  · cases move
    exact .plain rfl goto_pcs rfl
  · rcases Option.ite_none_right_eq_some.mp move with ⟨_, same⟩
    cases same
    exact .plain rfl goto_pcs rfl
  · rcases Option.ite_none_right_eq_some.mp move with ⟨_, same⟩
    cases same
    exact .plain rfl goto_pcs rfl
  · cases move
    exact .plain rfl goto_pcs rfl
  · split at move
    · cases move
      unfold State.saveDone
      split
      · split <;> exact .plain rfl goto_pcs rfl
      · exact .plain rfl goto_pcs rfl
      · exact .plain rfl goto_pcs rfl
    · cases move
      exact saveFails_reads
  · cases move
    exact saveFails_reads
  · cases move

theorem readStep_reads {tries : Nat} {caller : Caller} (stands : s.pcs t = .reading tries caller)
    (move : readStep s t tries caller input = some s') : ReadTurn s t s' := by
  cases input <;> try cases move
  · rcases Option.ite_none_right_eq_some.mp move with ⟨_, same⟩
    cases same
    refine ⟨.inl rfl, ?_, ?_⟩
    · intro seen caller storing
      rw [goto_pcs] at storing
      cases storing
      rfl
    · intro seen inside
      rw [goto_pcs] at inside
      rcases List.mem_cons.mp inside with new | old
      · exact .inr (.inr new)
      · rw [stands]
        exact .inl old
  · rcases Option.ite_none_right_eq_some.mp move with ⟨_, same⟩
    cases same
    split
    · refine .keeps rfl goto_pcs (fun storing => by cases storing) ?_
      rw [stands]
      exact id
    · refine .keeps rfl goto_pcs (fun storing => by cases storing) ?_
      rw [stands]
      exact id

/-- What a caller goes on with. -/
theorem mem_resume {caller : Caller} {new seen : Seen} (inside : seen ∈ (caller.resume new).seens) :
    seen = new ∨ seen ∈ caller.seens := by
  cases caller with
  | login req => exact .inl (List.mem_singleton.mp inside)
  | session req before => exact .inr inside
  | change req keep => exact .inl (List.mem_singleton.mp inside)
  | other => cases inside

theorem resume_not_storing {caller next : Caller} {new seen : Seen} :
    caller.resume new ≠ .storing seen next := by
  cases caller <;> exact fun storing => by cases storing

theorem editStep_reads {editor : Editor} {edit : Edit}
    (move : editStep w s t editor edit input = some s') : ReadTurn s t s' := by
  cases input <;> try cases move
  simp only [editStep] at move
  split at move
  · cases move
  · split at move
    · cases move
      exact .plain rfl goto_pcs rfl
    · cases move
      exact saveFails_reads

theorem enableStep_reads {service : String} {enabled : Bool}
    (move : enableStep s t service enabled input = some s') : ReadTurn s t s' := by
  cases input <;> try cases move
  simp only [enableStep] at move
  split at move
  · cases move
  · split at move <;> cases move <;> exact .plain rfl goto_pcs rfl

theorem enableSaveStep_reads {found left : Config}
    (move : enableSaveStep s t found left input = some s') : ReadTurn s t s' := by
  cases input <;> try cases move
  rcases Option.map_eq_some_iff.mp move with ⟨lock, _, same⟩
  cases same
  exact .plain rfl goto_pcs rfl

theorem pinStep_reads {token : String} (move : pinStep s t token input = some s') :
    ReadTurn s t s' := by
  cases input <;> try cases move
  rcases Option.map_eq_some_iff.mp move with ⟨lock, _, same⟩
  cases same
  exact .plain rfl goto_pcs rfl

theorem permitStep_reads {check : Check} {seen : Seen} (stands : s.pcs t = .permit check seen)
    (move : permitStep s t check seen input = some s') : ReadTurn s t s' := by
  cases input <;> try cases move
  · rcases Option.ite_none_right_eq_some.mp move with ⟨_, same⟩
    cases same
    refine .keeps rfl goto_pcs (fun storing => by cases storing) ?_
    rw [stands]
    exact id
  · cases check <;> cases move <;> exact .plain rfl goto_pcs rfl

theorem verifyStep_reads {check : Check} {seen : Seen} (stands : s.pcs t = .verify check seen)
    (move : verifyStep w s t seen check = some s') : ReadTurn s t s' := by
  cases check with
  | login req =>
      simp only [verifyStep] at move
      split at move <;> cases move
      · refine .keeps rfl goto_pcs (fun storing => by cases storing) ?_
        rw [stands]
        exact id
      · exact .plain rfl goto_pcs rfl
  | change req keep =>
      simp only [verifyStep] at move
      split at move <;> cases move <;> exact .plain rfl goto_pcs rfl

theorem hashStep_reads {req : PasswordChange} {keep : Option String}
    {result : Except String String} : ReadTurn s t (hashStep s t req keep result) := by
  unfold hashStep
  split
  · exact .plain rfl goto_pcs rfl
  · split <;> exact .plain rfl goto_pcs rfl

theorem throttleStep_reads {now : Nat} : ReadTurn s t (throttleStep s t now) := by
  unfold throttleStep
  dsimp only
  split <;> exact .plain rfl goto_pcs rfl

/-- A task that has its configuration goes on with it, and with what it had seen before. -/
theorem resume_reads {new : Seen} {caller : Caller} {s₁ : State}
    (snapshot : s₁.snapshot = s.snapshot ∨ ∃ caller, s.pcs t = .storing s₁.snapshot caller)
    (source : ∀ seen, seen = new ∨ seen ∈ caller.seens → seen ∈ (s.pcs t).seens ∨ seen = s.snapshot) :
    ReadTurn s t (s₁.goto t (caller.resume new)) := by
  refine ⟨snapshot, ?_, ?_⟩
  · intro seen next storing
    rw [goto_pcs] at storing
    exact absurd storing resume_not_storing
  · intro other inside
    rw [goto_pcs] at inside
    rcases source other (mem_resume inside) with old | new
    · exact .inl old
    · exact .inr (.inl new)

/-- Every step of a task takes over only what the table of reads says. -/
theorem taskStep_reads (move : taskStep w s t input (s.pcs t) = some s') : ReadTurn s t s' := by
  generalize stands : s.pcs t = pc at move
  cases pc with
  | idle => cases move
  | edit editor edit => exact editStep_reads move
  | enable service enabled => exact enableStep_reads move
  | enableSave found left => exact enableSaveStep_reads move
  | pin token => exact pinStep_reads move
  | saving saver pc => exact saveStep_reads move
  | endSessions version keep =>
      cases input <;> cases move
      exact .plain rfl goto_pcs rfl
  | reading tries caller => exact readStep_reads stands move
  | storing seen caller =>
      cases input <;> cases move
      refine resume_reads (.inr ⟨caller, stands⟩) ?_
      rw [stands]
      rintro other (rfl | old)
      · exact .inl (List.mem_cons_self ..)
      · exact .inl (List.mem_cons_of_mem _ old)
  | fallback caller =>
      cases input <;> cases move
      refine resume_reads (.inl rfl) ?_
      rw [stands]
      rintro other (rfl | old)
      · exact .inr rfl
      · exact .inl old
  | permit check seen => exact permitStep_reads stands move
  | verify check seen =>
      cases input <;> try cases move
      exact verifyStep_reads stands move
  | failed =>
      cases input <;> cases move
      exact .plain rfl goto_pcs rfl
  | throttle =>
      cases input <;> cases move
      exact throttleStep_reads
  | clear req seen =>
      cases input <;> cases move
      refine .keeps rfl goto_pcs (fun storing => by cases storing) ?_
      rw [stands]
      exact id
  | insert req seen ttl =>
      cases input <;> cases move
      exact .plain rfl goto_pcs rfl
  | hash req keep =>
      cases input with
      | hashed result =>
          rw [← Option.some.inj move]
          exact hashStep_reads
      | _ => cases move

theorem begin_reads {headers : Headers} {request : Request} :
    (begin w s t headers request).snapshot = s.snapshot ∧
      ((begin w s t headers request).pcs t).seens = [] := by
  have at_goto : ∀ {s : State} {pc : Pc}, pc.seens = [] → ((s.goto t pc).pcs t).seens = [] := by
    intro s pc none
    rw [goto_pcs]
    exact none
  cases request with
  | put service value =>
      simp only [begin]
      cases putConfig w service value <;> exact ⟨rfl, at_goto rfl⟩
  | cert service certPath keyPath =>
      simp only [begin]
      split <;> exact ⟨rfl, at_goto rfl⟩
  | enable service enabled =>
      simp only [begin]
      split <;> exact ⟨rfl, at_goto rfl⟩
  | pin token => exact ⟨rfl, at_goto rfl⟩
  | login req => exact ⟨rfl, at_goto rfl⟩
  | logout => exact ⟨rfl, at_goto rfl⟩
  | change req => exact ⟨rfl, at_goto rfl⟩
  | look => exact ⟨rfl, at_goto rfl⟩

theorem requestStep_reads {headers : Headers} {request : Request} :
    ReadTurn s t (requestStep w s t headers request) := by
  unfold requestStep
  split
  · exact .plain begin_reads.1 rfl begin_reads.2
  · split
    · exact .plain rfl goto_pcs rfl
    · exact .plain begin_reads.1 rfl begin_reads.2

theorem step_reads {a : Action} (move : step w a s = some s') : ReadTurn s a.task s' := by
  rcases Option.map_eq_some_iff.mp move with ⟨r, acted, same⟩
  subst same
  have turn : ReadTurn s a.task r := by
    cases a with
    | request t headers request =>
        simp only [act] at acted
        split at acted
        · cases acted
          exact requestStep_reads
        · cases acted
    | step t input => exact taskStep_reads acted
  exact ⟨turn.snapshot, turn.storing, turn.seens⟩

end Steps

/-! ## Versions -/

/-- Memory has had this configuration, as the given version. -/
def Had (store : Store) (version : Nat) (cfg : Config) : Prop :=
  0 < version ∧ store.history[version - 1]? = some cfg

section Versions

variable {w : World} {store store' : Store} {a : Action} {pc pc' : Pc} {version : Nat} {cfg : Config}

theorem Had.le (had : Had store version cfg) : version ≤ store.version := by
  have inside : version - 1 < store.history.length := (List.getElem?_eq_some_iff.mp had.2).1
  have positive := had.1
  unfold Store.version
  omega

/-- Memory is replaced by a new version, or stays. -/
theorem StoreTurn.versions (turn : StoreTurn w store a pc store' pc') :
    store'.history = store.history ∧ store'.mem = store.mem ∨
      store'.history = store.history ++ [store'.mem] := by
  cases turn with
  | quiet | edit | enableSave | serialized | opened | wrote | written | synced | failed =>
      exact .inl ⟨rfl, rfl⟩
  | enable => exact .inr rfl
  | pin => exact .inr rfl
  | @renamed done =>
      cases done with
      | edit editor staged => exact .inr rfl
      | pin found left => exact .inl ⟨rfl, rfl⟩
      | enable found left => exact .inl ⟨rfl, rfl⟩

theorem Had.later (had : Had store version cfg) (turn : StoreTurn w store a pc store' pc') :
    Had store' version cfg := by
  refine ⟨had.1, ?_⟩
  rcases turn.versions with ⟨same, _⟩ | grown
  · rw [same]
    exact had.2
  · rw [grown, List.getElem?_append_left (List.getElem?_eq_some_iff.mp had.2).1]
    exact had.2

theorem StoreTurn.version_le (turn : StoreTurn w store a pc store' pc') :
    store.version ≤ store'.version := by
  unfold Store.version
  rcases turn.versions with ⟨same, _⟩ | grown
  · exact Nat.le_of_eq (by rw [same])
  · rw [grown, List.length_append]
    exact Nat.le_add_right _ _

/-- What is in memory is the last version. -/
theorem StoreTurn.current (turn : StoreTurn w store a pc store' pc')
    (current : Had store store.version store.mem) : Had store' store'.version store'.mem := by
  rcases turn.versions with ⟨same, sameMem⟩ | grown
  · have sameVersion : store'.version = store.version := by
      rw [Store.version, same]
      rfl
    rw [sameVersion, sameMem]
    exact current.later turn
  · refine ⟨?_, ?_⟩
    · rw [Store.version, grown, List.length_append]
      exact Nat.succ_pos _
    · rw [Store.version, grown, List.length_append, List.length_singleton, Nat.add_sub_cancel,
        List.getElem?_append_right (Nat.le_refl _), Nat.sub_self]
      rfl

end Versions

/-! ## Every read is of its own time -/

/-- Every configuration that was read was in memory as the version it was read at. -/
structure ReadsSound (s : State) : Prop where
  current : Had s.store s.store.version s.store.mem
  snapshot : Had s.store s.snapshot.version s.snapshot.config
  seens : ∀ {t seen}, seen ∈ (s.pcs t).seens → Had s.store seen.version seen.config
  began : ∀ t, s.began t ≤ s.store.version
  storing : ∀ {t seen caller}, s.pcs t = .storing seen caller → s.began t ≤ seen.version

/-- The call that has returned gave what was in memory at some moment from its beginning to its
end. -/
def Read.Current (store : Store) (read : Read) : Prop :=
  ∃ version, read.began ≤ version ∧ version ≤ read.ended ∧ Had store version read.config

/-- What the calls that got the lock have returned last, after the configuration the console was
started with. -/
def lastObserved (initial : Option Config) (reads : List Read) : Option Config :=
  ((reads.filter (!·.fellBack)).getLast?.map Read.config).or initial

/-- Each call that got the lock gave what was in memory while it ran, and each other one what was last
observed before. -/
structure ReadsAnswered (s : State) : Prop where
  snapshot : lastObserved s.store.history[0]? s.reads = some s.snapshot.config
  answers : ∀ {before read after}, s.reads = before ++ read :: after →
    if read.fellBack then lastObserved s.store.history[0]? before = some read.config
    else read.Current s.store

section Runs

variable {w : World} {s s' : State} {a : Action}

theorem step_began (move : step w a s = some s') :
    s'.began = if (s'.pcs a.task).beginsRead then Function.update s.began a.task s.store.version
      else s.began := by
  rcases Option.map_eq_some_iff.mp move with ⟨r, _, same⟩
  subst same
  rfl

theorem step_logs (move : step w a s = some s') :
    s'.reads = s.reads ++ (s.returning a.task (s.pcs a.task)).toList := by
  rcases Option.map_eq_some_iff.mp move with ⟨r, _, same⟩
  subst same
  rfl

theorem ReadsSound.step (sound : ReadsSound s) (move : step w a s = some s') : ReadsSound s' := by
  rcases step_turn move with ⟨pc', turn, pcs, _⟩
  have reads := step_reads move
  have began := step_began move
  have unmoved : ∀ {t}, t ≠ a.task → s'.pcs t = s.pcs t := by
    intro t other
    rw [pcs, Function.update_of_ne other]
  refine ⟨turn.current sound.current, ?_, ?_, ?_, ?_⟩
  · rcases reads.snapshot with same | ⟨caller, stands⟩
    · rw [same]
      exact sound.snapshot.later turn
    · refine (sound.seens (t := a.task) ?_).later turn
      rw [stands]
      exact List.mem_cons_self ..
  · intro t seen inside
    by_cases moves : t = a.task
    · subst moves
      rcases reads.seens inside with old | rfl | rfl
      · exact (sound.seens old).later turn
      · exact sound.snapshot.later turn
      · exact sound.current.later turn
    · rw [unmoved moves] at inside
      exact (sound.seens inside).later turn
  · intro t
    refine Nat.le_trans ?_ turn.version_le
    rw [began]
    split
    · by_cases moves : t = a.task
      · rw [moves, Function.update_self]
      · rw [Function.update_of_ne moves]
        exact sound.began t
    · exact sound.began t
  · intro t seen caller stands
    by_cases moves : t = a.task
    · subst moves
      rw [began, stands, reads.storing stands]
      exact sound.began a.task
    · rw [unmoved moves] at stands
      rw [began]
      split
      · rw [Function.update_of_ne moves]
        exact sound.storing stands
      · exact sound.storing stands

theorem ReadsSound.start (starts : Starts w s) : ReadsSound s := by
  have current : Had s.store s.store.version s.store.mem := by
    unfold Had Store.version
    rw [starts.history]
    exact ⟨Nat.one_pos, rfl⟩
  refine ⟨current, ?_, ?_, ?_, ?_⟩
  · rw [starts.snapshot]
    exact current
  · intro t seen inside
    rw [starts.idle] at inside
    cases inside
  · intro t
    rw [starts.began]
    exact Nat.zero_le _
  · intro t seen caller stands
    rw [starts.idle] at stands
    cases stands

theorem reachable_readsSound {allowed : State → Action → Prop}
    (run : (console w).Reaches allowed s) : ReadsSound s := by
  refine run.invariant (P := ReadsSound) ReadsSound.start ?_
  intro s a s' _ sound _ move
  exact sound.step move

theorem lastObserved_append (initial : Option Config) (reads : List Read) (read : Read) :
    lastObserved initial (reads ++ [read]) =
      if read.fellBack then lastObserved initial reads else some read.config := by
  cases fell : read.fellBack with
  | true => simp [lastObserved, List.filter_append, fell]
  | false => simp [lastObserved, List.filter_append, fell]

/-- A read that got the lock is stored as the snapshot when it returns. -/
theorem step_stores {seen : Seen} {caller : Caller} (move : step w a s = some s')
    (stands : s.pcs a.task = .storing seen caller) : s'.snapshot = seen := by
  rcases Option.map_eq_some_iff.mp move with ⟨r, acted, same⟩
  subst same
  cases a with
  | request t headers request =>
      rw [Action.task] at stands
      rw [act, stands] at acted
      cases acted
  | step t input =>
      rw [Action.task] at stands
      rw [act, stands] at acted
      cases input <;> cases acted
      rfl

theorem step_keeps_snapshot (move : step w a s = some s')
    (elsewhere : ∀ {seen caller}, s.pcs a.task ≠ .storing seen caller) :
    s'.snapshot = s.snapshot := by
  rcases (step_reads move).snapshot with same | ⟨caller, stands⟩
  · exact same
  · exact absurd stands elsewhere

theorem Read.Current.later {read : Read} {pc pc' : Pc} {store' : Store}
    (current : read.Current s.store) (turn : StoreTurn w s.store a pc store' pc') :
    read.Current store' := by
  rcases current with ⟨version, after, before, had⟩
  exact ⟨version, after, before, had.later turn⟩

/-- The answers of the calls so far are not changed by a step, and the new one is right when the last
call is. -/
theorem answers_append {reads : List Read} {last : Read} {P : List Read → Read → Prop}
    (old : ∀ {before read after}, reads = before ++ read :: after → P before read)
    (new : P reads last) {before after : List Read} {read : Read}
    (split : reads ++ [last] = before ++ read :: after) : P before read := by
  rcases List.eq_nil_or_concat after with none | ⟨front, other, some⟩
  · subst none
    have ⟨sameReads, sameLast⟩ := List.append_inj' split rfl
    cases sameLast
    rw [← sameReads]
    exact new
  · subst some
    rw [List.concat_eq_append, ← List.cons_append, ← List.append_assoc] at split
    exact old (List.append_inj' split rfl).1

theorem ReadsAnswered.step (answered : ReadsAnswered s) (sound : ReadsSound s)
    (move : step w a s = some s') : ReadsAnswered s' := by
  rcases step_turn move with ⟨pc', turn, _, _⟩
  have logs := step_logs move
  have first : s'.store.history[0]? = s.store.history[0]? := by
    have nonempty : 0 < s.store.history.length := sound.current.1
    rcases turn.versions with ⟨same, _⟩ | grown
    · rw [same]
    · rw [grown, List.getElem?_append_left nonempty]
  have old : ∀ {before read after}, s.reads = before ++ read :: after →
      if read.fellBack then lastObserved s'.store.history[0]? before = some read.config
      else read.Current s'.store := by
    intro before read after split
    have answer := answered.answers split
    rw [first]
    by_cases fell : read.fellBack = true
    · rw [if_pos fell] at answer ⊢
      exact answer
    · rw [if_neg fell] at answer ⊢
      exact answer.later turn
  cases stands : s.pcs a.task with
  | storing seen caller =>
      rw [stands] at logs
      have had : Had s.store seen.version seen.config := by
        refine sound.seens (t := a.task) ?_
        rw [stands]
        exact List.mem_cons_self ..
      refine ⟨?_, ?_⟩
      · rw [step_stores move stands, logs]
        exact lastObserved_append ..
      · rw [logs]
        refine answers_append old ?_
        exact ⟨seen.version, sound.storing stands, had.le, had.later turn⟩
  | fallback caller =>
      rw [stands] at logs
      have kept : s'.snapshot = s.snapshot := by
        refine step_keeps_snapshot move fun storing => ?_
        rw [stands] at storing
        cases storing
      have observed : lastObserved s'.store.history[0]? s.reads = some s.snapshot.config := by
        rw [first]
        exact answered.snapshot
      refine ⟨?_, ?_⟩
      · rw [kept, logs]
        exact (lastObserved_append ..).trans observed
      · rw [logs]
        refine answers_append old ?_
        rw [if_pos rfl]
        exact observed
  | _ =>
      rw [stands] at logs
      have kept : s'.snapshot = s.snapshot := by
        refine step_keeps_snapshot move fun storing => ?_
        rw [stands] at storing
        cases storing
      simp only [State.returning, Option.toList_none, List.append_nil] at logs
      refine ⟨?_, ?_⟩
      · rw [kept, logs, first]
        exact answered.snapshot
      · rw [logs]
        exact old

/-- In every run, a call of `config_blocking` that gets the lock returns what was in memory at some
moment while it ran, and one whose attempts all fail returns what was last observed: the configuration
that the latest call with the lock has returned, or the one the console was started with. -/
theorem reads_answered (run : (console w).Reachable s) {before after : List Read} {read : Read}
    (split : s.reads = before ++ read :: after) :
    if read.fellBack then lastObserved s.store.history[0]? before = some read.config
    else read.Current s.store := by
  have answered : ReadsAnswered s := by
    refine run.invariant (P := ReadsAnswered) ?_ ?_
    · intro s starts
      refine ⟨?_, ?_⟩
      · rw [starts.reads, starts.history, starts.snapshot]
        rfl
      · intro before read after split
        rw [starts.reads] at split
        cases before <;> cases split
    · intro s a s' run answered _ move
      exact answered.step (reachable_readsSound run) move
  exact answered.answers split

end Runs

/-- Task 0 pins a token, and task 1 reads the configuration while the lock is held: it is refused
nineteen times, and the last attempt succeeds. -/
def lastAttemptRun : List Action :=
  [.request 0 {} (.pin "6f1e"), .step 0 .go, .request 1 {} .look] ++
    List.replicate 19 (.step 1 (.blockedBy 0)) ++ saveRun 0 (sampleConfig.pinToken "6f1e") ++
    [.step 0 .go, .step 1 .go, .step 1 .go]

/-- There was one read, and it got an answer. -/
def answeredOnce : List Read → Bool
  | [read] => !read.fellBack
  | _ => false

theorem reads_answered_last_attempt :
    ∃ s read, (console sampleWorld).Reachable s ∧ s.reads = [read] ∧ read.fellBack = false ∧
      if read.fellBack then lastObserved s.store.history[0]? [] = some read.config
      else read.Current s.store := by
  rcases System.exists_of_any (by decide +kernel : (System.execute (step sampleWorld) lastAttemptRun
      sampleState).any (fun s => answeredOnce s.reads) = true) with ⟨s, done, shown⟩
  have run : (console sampleWorld).Reachable s :=
    System.reaches_of_execute (fun _ moved => ⟨trivial, moved⟩) (.start sampleState_starts) done
  unfold answeredOnce at shown
  split at shown
  · next read one =>
      have alone : s.reads = [] ++ read :: [] := one
      exact ⟨s, read, run, one, by simpa using shown, reads_answered run alone⟩
  · cases shown

/-- A token is pinned, and a second one is being saved when task 2 begins to read. All its attempts
fail. -/
def staleRun : List Action :=
  [.request 0 {} (.pin "6f1e"), .step 0 .go] ++ saveRun 0 (sampleConfig.pinToken "6f1e") ++
    [.step 0 .go, .request 1 {} (.pin "a807"), .step 1 .go, .request 2 {} .look] ++
    List.replicate 20 (.step 2 (.blockedBy 1)) ++ [.step 2 .go]

/-- The call returns the configuration from before the first token, which was replaced before the call
began. -/
theorem stale_read :
    ¬ ∀ (w : World) (s : State), (console w).Reachable s →
      ∀ read ∈ s.reads, read.Current s.store := by
  intro current
  rcases System.exists_of_any (by decide +kernel : (System.execute (step sampleWorld) staleRun
      sampleState).any (fun s => s.reads.any fun read =>
        decide (read.began = 3 ∧ read.ended = 3 ∧ s.store.history[2]? ≠ some read.config)) = true)
    with ⟨s, done, shown⟩
  have run : (console sampleWorld).Reachable s :=
    System.reaches_of_execute (fun _ moved => ⟨trivial, moved⟩) (.start sampleState_starts) done
  rcases List.any_eq_true.mp shown with ⟨read, inside, stale⟩
  rcases of_decide_eq_true stale with ⟨began, ended, differs⟩
  rcases current sampleWorld s run read inside with ⟨version, after, before, had⟩
  have third : version = 3 := Nat.le_antisymm (ended ▸ before) (began ▸ after)
  subst third
  exact differs had.2

end Remgr.Console
