/-
Module: Remgr.Proofs.ConfigSync
Purpose: Whether the configuration in memory is the one in the file. `edit_config` stages, saves and
  then commits. `set_enabled` and `pin_token` change memory first, and when their save fails nothing
  takes the change back.
Trusted boundary: none
Main exports: Stored, Harmless, memory_and_file_agree, failed_save_keeps_flag
-/
import Remgr.Proofs.ConfigFile

namespace Remgr.Console

open Remgr.Lib

/-- The file has this configuration: it is its complete text, or the text it is loaded from. -/
def Stored (w : World) (bytes : List UInt8) (cfg : Config) : Prop :=
  cfg.serialize w = .ok bytes ∨ w.load bytes = some cfg

/-- Memory has not been changed for this save: `edit_config` has only staged its change, and the other
two found the value already there. -/
def Saver.unchanged : Saver → Bool
  | edit _ _ => true
  | pin found left => found = left
  | enable found left => found = left

/-- A save fails only when nothing was changed for it. -/
def Harmless (w : World) (s : State) (a : Action) : Prop :=
  ∀ {t input saver pc}, a = .step t input → s.pcs t = .saving saver pc →
    saveFailsAt w s.store saver pc input = true → saver.unchanged = true

/-- Has changed memory, and its save is not over. -/
def Pc.owes (pc : Pc) : Bool := pc.pending && pc.mayHaveChanged

/-- The file has what is in memory, or some task has yet to save it. -/
def Agrees (w : World) (s : State) : Prop :=
  (∃ bytes, s.store.file = some bytes ∧ Stored w bytes s.store.mem) ∨ ∃ t, (s.pcs t).owes = true

/-- An operation that has changed something stands where it may have. -/
def Recorded (s : State) : Prop := ∀ {t}, s.touched t = true → (s.pcs t).mayHaveChanged = true

section Turns

variable {w : World} {s s' : State} {store store' : Store} {a : Action} {pc pc' : Pc}

theorem mayHaveChanged_saving {saver : Saver} {now : SavePc} :
    (Pc.saving saver now).mayHaveChanged = !saver.unchanged := by
  cases saver <;> simp [Pc.mayHaveChanged, Saver.unchanged]

/-- A step leaves memory alone, or owes the change, or has just saved it. -/
theorem StoreTurn.mem_cases (turn : StoreTurn w store a pc store' pc')
    (sound : ∀ {saver now}, pc = .saving saver now → SaveSound w store saver now) :
    store'.mem = store.mem ∨ pc'.owes = true ∨ pc'.mayHaveChanged = true ∧
      ∃ bytes, store'.file = some bytes ∧ store'.mem.serialize w = .ok bytes := by
  cases turn with
  | quiet | edit | enableSave | serialized | opened | wrote | written | synced | failed =>
      exact .inl rfl
  | @enable service enabled left =>
      by_cases same : store.mem = left
      · exact .inl same.symm
      · exact .inr (.inl (decide_eq_true same))
  | @pin token =>
      by_cases same : store.mem = store.mem.pinToken token
      · exact .inl same.symm
      · exact .inr (.inl (decide_eq_true same))
  | renamed _ renames _ after =>
      have ⟨file, text⟩ := (sound rfl).renamed a.task renames
      exact .inr (.inr ⟨after, _, file, text⟩)

/-- An operation that may have changed something goes on to where it may have, until a new one
begins. -/
theorem StoreTurn.mayHaveChanged (turn : StoreTurn w store a pc store' pc')
    (goesOn : a.begins = false) (before : pc.mayHaveChanged = true) :
    pc'.mayHaveChanged = true := by
  cases turn with
  | quiet _ _ fresh =>
      rcases fresh with begins | clean | settled
      · rw [goesOn] at begins
        cases begins
      · rw [before] at clean
        cases clean
      · rw [settled]
        rfl
  | edit | enable | pin => cases before
  | enableSave => exact before
  | serialized | opened | wrote | written | synced =>
      rw [mayHaveChanged_saving] at before ⊢
      exact before
  | renamed _ _ _ after => exact after
  | failed => rfl

/-- What is owed is still owed after a step, or has just been saved. -/
theorem StoreTurn.owes (turn : StoreTurn w store a pc store' pc') (owed : pc.owes = true)
    (harmless : ∀ {input saver now}, a = .step a.task input → pc = .saving saver now →
      saveFailsAt w store saver now input = true → saver.unchanged = true)
    (sound : ∀ {saver now}, pc = .saving saver now → SaveSound w store saver now) :
    pc'.owes = true ∨ ∃ bytes, store'.file = some bytes ∧ store'.mem.serialize w = .ok bytes := by
  have saving : ∀ {saver now next}, (Pc.saving saver now).owes = true →
      (Pc.saving saver next).owes = true := by
    intro saver now next owed
    rw [Pc.owes, mayHaveChanged_saving] at owed ⊢
    exact owed
  cases turn with
  | quiet before =>
      rw [Pc.owes, before] at owed
      cases owed
  | edit | enable | pin => cases owed
  | enableSave => exact .inl owed
  | serialized | opened | wrote | written | synced => exact .inl (saving owed)
  | renamed _ renames =>
      have ⟨file, text⟩ := (sound rfl).renamed a.task renames
      exact .inr ⟨_, file, text⟩
  | failed goes fails =>
      rw [Pc.owes, mayHaveChanged_saving, harmless goes rfl fails] at owed
      cases owed

/-- A save that fails leaves memory and the file as they are. -/
theorem StoreTurn.failed_keeps {saver : Saver} {now : SavePc} {input : Input}
    (turn : StoreTurn w store a (.saving saver now) store' pc') (goes : a = .step a.task input)
    (fails : saveFailsAt w store saver now input = true) (sound : SaveSound w store saver now) :
    store'.mem = store.mem ∧ store'.file = store.file := by
  cases turn with
  | quiet before => cases before
  | serialized | written | synced | failed => exact ⟨rfl, rfl⟩
  | opened => exact ⟨rfl, Files.read_openTruncate (by decide)⟩
  | wrote => exact ⟨rfl, Files.read_writeAt sound.written.1 (by decide)⟩
  | renamed succeeds renames =>
      rw [goes] at succeeds
      cases succeeds
      rw [saveFailsAt, renames] at fails
      cases fails

theorem Agrees.step (agrees : Agrees w s) (sound : FileSound w s) (harmless : Harmless w s a)
    (turns : Turns w s a s') : Agrees w s' := by
  rcases turns with ⟨pc', turn, pcs, _⟩
  have knows := @sound.saves a.task
  have saved : (∃ bytes, s'.store.file = some bytes ∧ s'.store.mem.serialize w = .ok bytes) →
      Agrees w s' := by
    rintro ⟨bytes, file, text⟩
    exact .inl ⟨bytes, file, .inl text⟩
  have owing : pc'.owes = true → Agrees w s' := by
    intro owed
    refine .inr ⟨a.task, ?_⟩
    rw [pcs, Function.update_self]
    exact owed
  rcases agrees with ⟨bytes, file, stored⟩ | ⟨u, owed⟩
  · rcases turn.file_cases knows with sameFile | ⟨_, written⟩
    · rcases turn.mem_cases knows with sameMem | owed | ⟨_, written⟩
      · refine .inl ⟨bytes, sameFile.trans file, ?_⟩
        rw [sameMem]
        exact stored
      · exact owing owed
      · exact saved written
    · exact saved written
  · by_cases moves : u = a.task
    · subst moves
      rcases turn.owes owed harmless knows with still | written
      · exact owing still
      · exact saved written
    · refine .inr ⟨u, ?_⟩
      rw [pcs, Function.update_of_ne moves]
      exact owed

/-- What is remembered of the operation after a step. -/
theorem step_touched (move : step w a s = some s') :
    s'.touched = Function.update s.touched a.task ((!a.begins && s.touched a.task) ||
      decide (s'.store.mem ≠ s.store.mem) || decide (s'.store.file ≠ s.store.file)) := by
  rcases Option.map_eq_some_iff.mp move with ⟨r, _, same⟩
  subst same
  rfl

theorem Recorded.step (recorded : Recorded s) (sound : FileSound w s)
    (move : step w a s = some s') : Recorded s' := by
  rcases step_turn move with ⟨pc', turn, pcs, _⟩
  intro t touched
  rw [step_touched move] at touched
  rw [pcs]
  by_cases moves : t = a.task
  · subst moves
    rw [Function.update_self] at touched ⊢
    have knows := @sound.saves a.task
    simp only [Bool.or_eq_true, Bool.and_eq_true, Bool.not_eq_true', decide_eq_true_eq] at touched
    rcases touched with (⟨goesOn, before⟩ | mem) | file
    · exact turn.mayHaveChanged goesOn (recorded before)
    · rcases turn.mem_cases knows with same | owed | ⟨after, _⟩
      · exact absurd same mem
      · exact (Bool.and_eq_true_iff.mp owed).2
      · exact after
    · rcases turn.file_cases knows with same | ⟨after, _⟩
      · exact absurd same file
      · exact after
  · rw [Function.update_of_ne moves] at touched ⊢
    exact recorded touched

end Turns

/-! ## Runs -/

section Runs

variable {w : World} {s s' : State}

/-- The condition on the steps of a run. -/
def Careful (w : World) (s : State) (a : Action) : Prop := Alone s a ∧ Harmless w s a

theorem reaches_agrees (run : (console w).Reaches (Careful w) s) : Agrees w s ∧ Recorded s := by
  refine run.invariant (P := fun s => Agrees w s ∧ Recorded s) ?_ ?_
  · intro s starts
    refine ⟨.inl ⟨s.loaded, starts.file, starts.loaded.symm⟩, ?_⟩
    intro t _
    rw [starts.idle]
    rfl
  · intro s a s' run ⟨agrees, recorded⟩ careful move
    have sound : FileSound w s := reaches_fileSound And.left run
    exact ⟨agrees.step sound careful.2 (step_turn move), recorded.step sound move⟩

theorem pending_of_changing {pc : Pc} (quiet : pc.changing = false) : pc.owes = false := by
  cases pc <;> first | rfl | cases quiet

/-- As long as every save has the temporary file for itself, and a save for which memory was changed
does not fail: whenever no operation is in progress, the file has the configuration in memory; and an
operation whose save fails has changed neither. -/
theorem memory_and_file_agree (run : (console w).Reaches (Careful w) s) :
    ((∀ t, (s.pcs t).changing = false) →
      ∃ bytes, s.store.file = some bytes ∧ Stored w bytes s.store.mem) ∧
    ∀ {t input saver pc s'}, Careful w s (.step t input) → s.pcs t = .saving saver pc →
      saveFailsAt w s.store saver pc input = true → step w (.step t input) s = some s' →
      s'.touched t = false := by
  obtain ⟨agrees, recorded⟩ := reaches_agrees run
  refine ⟨?_, ?_⟩
  · intro quiet
    rcases agrees with stored | ⟨t, owed⟩
    · exact stored
    · rw [pending_of_changing (quiet t)] at owed
      cases owed
  · intro t input saver pc s' careful stands fails move
    rcases step_turn move with ⟨pc', turn, _, _⟩
    have sound : SaveSound w s.store saver pc := (reaches_fileSound And.left run).saves stands
    rw [Action.task, stands] at turn
    obtain ⟨sameMem, sameFile⟩ := turn.failed_keeps rfl fails sound
    have clean : s.touched t = false := by
      by_contra touched
      have changed := recorded (Bool.eq_true_of_not_eq_false touched)
      rw [stands, mayHaveChanged_saving, careful.2 rfl stands fails] at changed
      cases changed
    rw [step_touched move, Action.task, Function.update_self, clean, sameMem, sameFile]
    simp

end Runs

/-- The condition, as a check. -/
def carefulCheck (w : World) (s : State) (a : Action) : Bool :=
  aloneCheck s a &&
    match a with
    | .step t input =>
        match s.pcs t with
        | .saving saver pc => !saveFailsAt w s.store saver pc input || saver.unchanged
        | _ => true
    | .request _ _ _ => true

theorem careful_of_check {w : World} {s : State} {a : Action} (checked : carefulCheck w s a = true) :
    Careful w s a := by
  rcases Bool.and_eq_true_iff.mp checked with ⟨alone, harmless⟩
  refine ⟨alone_of_check alone, ?_⟩
  intro t input saver pc goes stands fails
  subst goes
  simpa [stands, fails] using harmless

/-- The console's certificate is set, as task 1, up to the opening of the temporary file. -/
def certRun : List Action :=
  loginRun ++
    [.request 1 { token := some "operator", now := 100 }
      (.cert "console" "/etc/remgr/ssl/new_cert.pem" "/etc/remgr/ssl/new_key.pem"),
      .step 1 .go, .step 1 .go]

/-- A run whose steps are checked. -/
def carefulStep (a : Action) (s : State) : Option State :=
  if carefulCheck sampleWorld s a then step sampleWorld a s else none

theorem carefulStep_permitted {a : Action} {s s' : State} (moved : carefulStep a s = some s') :
    Careful sampleWorld s a ∧ step sampleWorld a s = some s' := by
  have ⟨checked, move⟩ := Option.ite_none_right_eq_some.mp moved
  exact ⟨careful_of_check checked, move⟩

/-- The disk is full. -/
def diskFull : Input := .fails "No space left on device (os error 28)"

/-- An edit is about to open the temporary file. -/
def opensTemp : Pc → Bool
  | .saving (.edit _ _) (.openTemp _) => true
  | _ => false

theorem exists_of_opensTemp {pc : Pc} (opens : opensTemp pc = true) :
    ∃ editor staged out, pc = .saving (.edit editor staged) (.openTemp out) := by
  unfold opensTemp at opens
  split at opens
  · exact ⟨_, _, _, rfl⟩
  · cases opens

theorem memory_and_file_agree_saved :
    (∃ s, (console sampleWorld).Reaches (Careful sampleWorld) s ∧ s.store.history.length = 2 ∧
      (∀ t, (s.pcs t).changing = false) ∧
      ∃ bytes, s.store.file = some bytes ∧ Stored sampleWorld bytes s.store.mem) ∧
    ∃ s s', (console sampleWorld).Reaches (Careful sampleWorld) s ∧
      step sampleWorld (.step 1 diskFull) s = some s' ∧ s'.touched 1 = false := by
  refine ⟨?_, ?_⟩
  · rcases System.exists_of_any (by decide +kernel : (System.execute carefulStep pinRun
        sampleState).any (fun s => quietCheck 1 s && decide (s.store.history.length = 2)) = true)
      with ⟨s, done, shown⟩
    rcases Bool.and_eq_true_iff.mp shown with ⟨quiet, grown⟩
    have run : (console sampleWorld).Reaches (Careful sampleWorld) s :=
      System.reaches_of_execute (fun _ => carefulStep_permitted) (.start sampleState_starts) done
    have still := quiet_of_check (fun moved => (carefulStep_permitted moved).2) (by decide)
      (fun _ => rfl) done quiet
    exact ⟨s, run, of_decide_eq_true grown, still, (memory_and_file_agree run).1 still⟩
  · rcases System.exists_of_any (by decide +kernel : (System.execute carefulStep certRun
        sampleState).any (fun s =>
          opensTemp (s.pcs 1) && carefulCheck sampleWorld s (.step 1 diskFull)) = true)
      with ⟨s, done, shown⟩
    rcases Bool.and_eq_true_iff.mp shown with ⟨opens, careful⟩
    have run : (console sampleWorld).Reaches (Careful sampleWorld) s :=
      System.reaches_of_execute (fun _ => carefulStep_permitted) (.start sampleState_starts) done
    obtain ⟨editor, staged, out, stands⟩ := exists_of_opensTemp opens
    obtain ⟨s', move⟩ : ∃ s', step sampleWorld (.step 1 diskFull) s = some s' := by
      rw [step, act, stands]
      exact ⟨_, rfl⟩
    exact ⟨s, s', run, move,
      (memory_and_file_agree run).2 (careful_of_check careful) stands rfl move⟩

/-- The operator stops frps while the disk is full. -/
def stopRun : List Action :=
  loginRun ++
    [.request 1 { token := some "operator", now := 100 } (.enable "frps" false), .step 1 .go,
      .step 1 .go, .step 1 .go, .step 1 diskFull]

/-- The save of `set_enabled` fails, and memory keeps a flag the file does not have. -/
theorem failed_save_keeps_flag :
    ¬ ∀ (w : World) (s : State), (console w).Reachable s → (∀ t, (s.pcs t).changing = false) →
      ∃ bytes, s.store.file = some bytes ∧ Stored w bytes s.store.mem := by
  intro agree
  rcases System.exists_of_any (by decide +kernel : (System.execute (step sampleWorld) stopRun
      sampleState).any (fun s => quietCheck 2 s &&
        decide (s.store.file = some (sampleBytes sampleConfig) ∧
          sampleBytes s.store.mem ≠ sampleBytes sampleConfig ∧
          sampleWorld.load (sampleBytes sampleConfig) ≠ some s.store.mem)) = true)
    with ⟨s, done, shown⟩
  rcases Bool.and_eq_true_iff.mp shown with ⟨quiet, differs⟩
  rcases of_decide_eq_true differs with ⟨same, notText, notLoaded⟩
  have run : (console sampleWorld).Reachable s :=
    System.reaches_of_execute (fun _ moved => ⟨trivial, moved⟩) (.start sampleState_starts) done
  rcases agree sampleWorld s run (quiet_of_check id (by decide) (fun _ => rfl) done quiet)
    with ⟨bytes, file, stored⟩
  rw [same] at file
  cases file
  rcases stored with text | loaded
  · refine notText ?_
    rw [sampleBytes, text]
  · exact notLoaded loaded

end Remgr.Console
