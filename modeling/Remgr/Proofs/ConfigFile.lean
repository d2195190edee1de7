/-
Module: Remgr.Proofs.ConfigFile
Purpose: What the file at `config_path` holds while any number of tasks save. `Config::save` replaces
  it by a rename, so it is always a complete text as long as a save has the temporary file for itself.
  All saves share one temporary name, and two calls of `save_config` may overlap: then one renames what
  the other has just truncated.
Trusted boundary: none
Main exports: Alone, FileSound, config_file_complete, overlapping_saves
-/
import Remgr.Proofs.ConsoleShape

namespace Remgr.Console

open Remgr.Lib

/-- A save opens the temporary file only while no other save, which holds the lock as well, has it
open. -/
def Alone (s : State) (a : Action) : Prop :=
  ∀ {t saver out}, a = .step t .go → s.pcs t = .saving saver (.openTemp out) →
    ∀ u ∈ s.store.lock.holders, u ≠ t → (s.pcs u).usesTemp = false

/-! ## One save -/

namespace SavePc

/-- The text that is written. -/
def text : SavePc → Option (List UInt8)
  | serialize => none
  | openTemp out => some out
  | write _ _ out => some out
  | sync _ out => some out
  | rename _ out => some out

/-- The temporary file has as much of the text as was written so far. -/
def Written (files : Files FileName) : SavePc → Prop
  | serialize => True
  | openTemp _ => True
  | write i offset out =>
      files.names .temp = some i ∧ files.data i = out.take offset ∧ offset ≤ out.length
  | sync i out => files.names .temp = some i ∧ files.data i = out
  | rename i out => files.names .temp = some i ∧ files.data i = out

end SavePc

/-- What a save knows: its text is that of the configuration it saves, and the temporary file has as
much of it as was written. -/
structure SaveSound (w : World) (store : Store) (saver : Saver) (pc : SavePc) : Prop where
  text : ∀ {out}, pc.text = some out → (saver.config store.mem).serialize w = .ok out
  written : pc.Written store.files

/-- The invariant: what each save knows, that only one of them has the temporary file open, and what
the file at `config_path` is. -/
structure FileSound (w : World) (s : State) : Prop where
  saves : ∀ {u saver pc}, s.pcs u = .saving saver pc → SaveSound w s.store saver pc
  single : ∀ {u v}, (s.pcs u).usesTemp = true → (s.pcs v).usesTemp = true → u = v
  current : s.store.mem ∈ s.store.history
  file : ∃ bytes, s.store.file = some bytes ∧
    (bytes = s.loaded ∨ ∃ cfg ∈ s.store.history, cfg.serialize w = .ok bytes)

section Saves

variable {w : World} {s s' : State} {store store' : Store} {a : Action} {pc pc' : Pc} {u : TaskId}
  {saver : Saver}

/-- A save that does not have the temporary file open knows nothing about it. -/
theorem SavePc.written_of_not_open {now : SavePc} (files : Files FileName)
    (closed : (Pc.saving saver now).usesTemp = false) : now.Written files := by
  cases now with
  | serialize => trivial
  | openTemp out => trivial
  | write | sync | rename => cases closed

/-- Memory stays as it is while another task holds the lock. -/
theorem StoreTurn.mem_eq (turn : StoreTurn w store a pc store' pc') (held : Holds store.lock u saver)
    (mover : ∀ {saver now}, pc = .saving saver now → Holds store.lock a.task saver)
    (other : u ≠ a.task) : store'.mem = store.mem := by
  cases turn with
  | quiet => rfl
  | edit => rfl
  | enable free _ => exact absurd free held.not_free
  | enableSave => rfl
  | pin taken => exact absurd (RwLock.write_eq_some taken).1 held.not_free
  | serialized | opened | wrote | written | synced | failed => rfl
  | @renamed done =>
      cases done with
      | edit editor staged =>
          -- an editor holds the lock alone
          have alone := RwLock.holders_of_writer ((mover rfl).writer rfl)
          have inside := held.holder
          rw [alone, List.mem_singleton] at inside
          exact absurd inside other
      | pin found left => rfl
      | enable found left => rfl

/-- The files stay as they are unless the task that moves opens the temporary file or has it open. -/
theorem StoreTurn.files_eq (turn : StoreTurn w store a pc store' pc') (closed : pc.usesTemp = false)
    (opens : ∀ {saver out}, a = .step a.task .go → pc ≠ .saving saver (.openTemp out)) :
    store'.files = store.files := by
  cases turn with
  | quiet | edit | enable | enableSave | pin | serialized | failed => rfl
  | opened goes => exact absurd rfl (opens goes)
  | wrote | written | synced | renamed => cases closed

/-- Who has the temporary file open had it open before, or has just opened it. -/
theorem StoreTurn.usesTemp (turn : StoreTurn w store a pc store' pc') (uses : pc'.usesTemp = true) :
    pc.usesTemp = true ∨ ∃ saver out, a = .step a.task .go ∧ pc = .saving saver (.openTemp out) := by
  cases turn with
  | @quiet pc pc' before after =>
      cases pc' with
      | saving => cases after
      | _ => cases uses
  | edit | enable | enableSave | pin | serialized => cases uses
  | opened goes => exact .inr ⟨_, _, goes, rfl⟩
  | wrote | written | synced => exact .inl rfl
  | @renamed _ _ _ _ pc' _ _ settled =>
      cases pc' with
      | saving => cases settled
      | _ => cases uses
  | failed => cases uses

/-- A save of another task knows what it knew. -/
theorem SaveSound.other {now : SavePc} (sound : SaveSound w store saver now)
    (turn : StoreTurn w store a pc store' pc') (held : Holds store.lock u saver)
    (mover : ∀ {saver now}, pc = .saving saver now → Holds store.lock a.task saver)
    (other : u ≠ a.task)
    (apart : (Pc.saving saver now).usesTemp = true → store'.files = store.files) :
    SaveSound w store' saver now := by
  refine ⟨?_, ?_⟩
  · rw [turn.mem_eq held mover other]
    exact sound.text
  · cases uses : (Pc.saving saver now).usesTemp with
    | true =>
        rw [apart uses]
        exact sound.written
    | false => exact SavePc.written_of_not_open _ uses

/-- The save that moves knows what it has done. -/
theorem SaveSound.mover {next : SavePc} (turn : StoreTurn w store a pc store' (.saving saver next))
    (sound : ∀ {saver now}, pc = .saving saver now → SaveSound w store saver now) :
    SaveSound w store' saver next := by
  cases turn with
  | quiet _ after => cases after
  | edit => exact ⟨fun none => (by cases none), trivial⟩
  | enableSave => exact ⟨fun none => (by cases none), trivial⟩
  | pin => exact ⟨fun none => (by cases none), trivial⟩
  | serialized text =>
      refine ⟨?_, trivial⟩
      intro out same
      cases same
      exact text
  | opened =>
      have before := sound rfl
      exact ⟨before.text, Files.names_openTruncate, Files.data_openTruncate, Nat.zero_le _⟩
  | @wrote _ i offset count out fits =>
      have before := sound rfl
      rcases before.written with ⟨leads, data, bound⟩
      refine ⟨before.text, leads, ?_, fits⟩
      have length : (store.files.data i).length = offset := by
        rw [data, List.length_take, Nat.min_eq_left bound]
      rw [Files.data_writeAt length, data, List.take_add]
  | @written _ i out =>
      have before := sound rfl
      rcases before.written with ⟨leads, data, _⟩
      rw [List.take_length] at data
      exact ⟨before.text, leads, data⟩
  | synced => exact ⟨(sound rfl).text, (sound rfl).written⟩
  | renamed _ _ settled => cases settled

/-- A save that renames puts the complete text of what is then in memory in place of the file. -/
theorem SaveSound.renamed {i : Inode} {out : List UInt8} {files : Files FileName} (t : TaskId)
    (sound : SaveSound w store saver (.rename i out))
    (renames : store.files.rename .temp .config = some files) :
    (({ store with files }.unlock t).commit saver).file = some out ∧
      (({ store with files }.unlock t).commit saver).mem.serialize w = .ok out := by
  rcases sound.written with ⟨leads, data⟩
  have file : files.read .config = some out := by
    rw [Files.read_rename renames leads, data]
  have text := sound.text rfl
  cases saver with
  | edit editor staged => exact ⟨file, text⟩
  | pin found left => exact ⟨file, text⟩
  | enable found left => exact ⟨file, text⟩

/-- A step leaves the file alone, or replaces it by the complete text of what is then in memory. -/
theorem StoreTurn.file_cases (turn : StoreTurn w store a pc store' pc')
    (sound : ∀ {saver now}, pc = .saving saver now → SaveSound w store saver now) :
    store'.file = store.file ∨ pc'.mayHaveChanged = true ∧
      ∃ bytes, store'.file = some bytes ∧ store'.mem.serialize w = .ok bytes := by
  cases turn with
  | quiet | edit | enable | enableSave | pin | serialized | written | synced | failed =>
      exact .inl rfl
  | opened => exact .inl (Files.read_openTruncate (by decide))
  | wrote =>
      rcases (sound rfl).written with ⟨leads, _, _⟩
      exact .inl (Files.read_writeAt leads (by decide))
  | renamed _ renames _ after =>
      have ⟨file, text⟩ := (sound rfl).renamed a.task renames
      exact .inr ⟨after, _, file, text⟩

/-- Memory has had what it has, and what it has had. -/
theorem StoreTurn.history (turn : StoreTurn w store a pc store' pc')
    (current : store.mem ∈ store.history) :
    store'.mem ∈ store'.history ∧ store.history ⊆ store'.history := by
  have put : ∀ cfg, (store.put cfg).mem ∈ (store.put cfg).history ∧
      store.history ⊆ (store.put cfg).history :=
    fun cfg => ⟨List.mem_append_right _ (List.mem_singleton_self _), List.subset_append_left _ _⟩
  have same : store.mem ∈ store.history ∧ store.history ⊆ store.history :=
    ⟨current, List.Subset.refl _⟩
  cases turn with
  | quiet | edit | enableSave | serialized | opened | wrote | written | synced | failed => exact same
  | enable => exact put _
  | pin => exact put _
  | @renamed done =>
      cases done with
      | edit editor staged => exact put staged
      | pin found left => exact same
      | enable found left => exact same

end Saves

/-! ## Every save has the temporary file for itself -/

section Runs

variable {w : World} {s s' : State} {a : Action}

/-- While a task has the temporary file open, no other one has, and none opens it. -/
theorem FileSound.blocks (sound : FileSound w s) (locked : Locked s) (alone : Alone s a) {u : TaskId}
    (other : u ≠ a.task) (uses : (s.pcs u).usesTemp = true) :
    (s.pcs a.task).usesTemp = false ∧
      ∀ {saver out}, a = .step a.task .go → s.pcs a.task ≠ .saving saver (.openTemp out) := by
  refine ⟨?_, ?_⟩
  · by_contra also
    exact other (sound.single uses (Bool.eq_true_of_not_eq_false also))
  · intro saver out goes stands
    cases held : s.pcs u with
    | saving saver now =>
        have closed := alone goes stands u (locked held).holder other
        rw [closed] at uses
        cases uses
    | _ =>
        rw [held] at uses
        cases uses

theorem FileSound.step (sound : FileSound w s) (locked : Locked s) (alone : Alone s a)
    (turns : Turns w s a s') : FileSound w s' := by
  rcases turns with ⟨pc', turn, pcs, loaded⟩
  have mover := @locked a.task
  have knows := @sound.saves a.task
  have ⟨current, grows⟩ := turn.history sound.current
  -- whoever has the file open afterwards, beside a task that has not moved, has not moved either
  have unmoved : ∀ {u v}, u ≠ a.task → (s.pcs u).usesTemp = true → (s'.pcs v).usesTemp = true →
      v ≠ a.task := by
    intro u v other usesU usesV moves
    have ⟨closed, opens⟩ := sound.blocks locked alone other usesU
    rw [pcs, moves, Function.update_self] at usesV
    rcases turn.usesTemp usesV with also | ⟨saver, out, goes, stands⟩
    · rw [closed] at also
      cases also
    · exact opens goes stands
  refine ⟨?_, ?_, current, ?_⟩
  · intro u saver now stands
    rw [pcs] at stands
    by_cases moves : u = a.task
    · subst moves
      rw [Function.update_self] at stands
      subst stands
      exact .mover turn knows
    · rw [Function.update_of_ne moves] at stands
      refine (sound.saves stands).other turn (locked stands) mover moves ?_
      intro uses
      rw [← stands] at uses
      have ⟨closed, opens⟩ := sound.blocks locked alone moves uses
      exact turn.files_eq closed opens
  · intro u v usesU usesV
    have old : ∀ {u}, u ≠ a.task → (s'.pcs u).usesTemp = true → (s.pcs u).usesTemp = true := by
      intro u other uses
      rw [pcs, Function.update_of_ne other] at uses
      exact uses
    by_cases movesU : u = a.task <;> by_cases movesV : v = a.task
    · exact movesU.trans movesV.symm
    · exact absurd movesU (unmoved movesV (old movesV usesV) usesU)
    · exact absurd movesV (unmoved movesU (old movesU usesU) usesV)
    · exact sound.single (old movesU usesU) (old movesV usesV)
  · rcases sound.file with ⟨bytes, file, kept⟩
    rcases turn.file_cases knows with same | ⟨_, text, saved, complete⟩
    · refine ⟨bytes, same.trans file, ?_⟩
      rcases kept with first | ⟨cfg, inside, text⟩
      · exact .inl (first.trans loaded.symm)
      · exact .inr ⟨cfg, grows inside, text⟩
    · exact ⟨text, saved, .inr ⟨s'.store.mem, current, complete⟩⟩

theorem FileSound.start (starts : Starts w s) : FileSound w s := by
  have idle : ∀ {u saver now}, s.pcs u ≠ .saving saver now := by
    intro u saver now stands
    rw [starts.idle] at stands
    cases stands
  refine ⟨fun stands => absurd stands idle, ?_, ?_, s.loaded, starts.file, .inl rfl⟩
  · intro u v uses
    rw [starts.idle] at uses
    cases uses
  · rw [starts.history]
    exact List.mem_singleton_self _

theorem reaches_fileSound {allowed : State → Action → Prop}
    (alone : ∀ {s a}, allowed s a → Alone s a) (run : (console w).Reaches allowed s) :
    FileSound w s := by
  refine run.invariant (P := FileSound w) FileSound.start ?_
  intro s a s' run sound permitted move
  exact sound.step (reachable_locked run) (alone permitted) (step_turn move)

/-- As long as every save has the temporary file for itself, the file at `config_path` is at every
moment the one the console was started with or the complete text of a configuration memory has
had. -/
theorem config_file_complete (run : (console w).Reaches Alone s) :
    ∃ bytes, s.store.file = some bytes ∧
      (bytes = s.loaded ∨ ∃ cfg ∈ s.store.history, cfg.serialize w = .ok bytes) :=
  (reaches_fileSound id run).file

end Runs

/-- The condition, as a check. -/
def aloneCheck (s : State) : Action → Bool
  | .step t .go =>
      match s.pcs t with
      | .saving _ (.openTemp _) =>
          s.store.lock.holders.all fun u => decide (u = t) || !(s.pcs u).usesTemp
      | _ => true
  | _ => true

theorem alone_of_check {s : State} {a : Action} (checked : aloneCheck s a = true) : Alone s a := by
  intro t saver out goes stands u held other
  subst goes
  simp only [aloneCheck, stands, List.all_eq_true] at checked
  simpa [other] using checked u held

/-- The module frps pins a token, and the whole save succeeds. -/
def pinRun : List Action :=
  [.request 0 {} (.pin "6f1e"), .step 0 .go] ++ saveRun 0 (sampleConfig.pinToken "6f1e") ++
    [.step 0 .go]

theorem config_file_complete_pinned :
    ∃ s, (console sampleWorld).Reaches Alone s ∧ s.store.history.length = 2 ∧
      ∃ bytes, s.store.file = some bytes ∧
        (bytes = s.loaded ∨ ∃ cfg ∈ s.store.history, cfg.serialize sampleWorld = .ok bytes) := by
  have reached : ∃ s, (console sampleWorld).Reaches Alone s ∧
      decide (s.store.history.length = 2) = true :=
    System.reaches_of_any
      (fun _ moved =>
        have ⟨checked, move⟩ := Option.ite_none_right_eq_some.mp moved
        ⟨alone_of_check checked, move⟩) (.start sampleState_starts)
      (by decide +kernel : (System.execute
        (fun a s => if aloneCheck s a then step sampleWorld a s else none) pinRun sampleState).any
          (fun s => decide (s.store.history.length = 2)) = true)
  rcases reached with ⟨s, run, grown⟩
  exact ⟨s, run, of_decide_eq_true grown, config_file_complete run⟩

/-- Two services are switched, as tasks 1 and 2, and both get their read lock. The first one is before
its rename when the second one opens the temporary file. -/
def overlapRun : List Action :=
  let operator : Headers := { token := some "operator", now := 100 }
  let switched := (sampleConfig.setEnabledFlag false "frps").bind (·.setEnabledFlag true "frpc")
  loginRun ++
    [.request 1 operator (.enable "frps" false), .request 2 operator (.enable "frpc" true),
      .step 1 .go, .step 2 .go, .step 1 .go, .step 2 .go] ++
    saveRun 1 (switched.getD sampleConfig) ++ [.step 2 .go, .step 2 .go, .step 1 .go]

/-- Two saves under read locks overlap, and the file at `config_path` is empty. -/
theorem overlapping_saves :
    ¬ ∀ (w : World) (s : State), (console w).Reachable s → ∃ bytes, s.store.file = some bytes ∧
      (bytes = s.loaded ∨ ∃ cfg ∈ s.store.history, cfg.serialize w = .ok bytes) := by
  intro complete
  rcases System.exists_of_any (by decide +kernel : (System.execute (step sampleWorld) overlapRun
      sampleState).any (fun s => decide (s.store.file = some [] ∧ s.loaded ≠ []) &&
        s.store.history.all fun cfg => decide (sampleBytes cfg ≠ [])) = true)
    with ⟨s, done, shown⟩
  simp only [Bool.and_eq_true, decide_eq_true_eq, List.all_eq_true] at shown
  rcases shown with ⟨⟨empty, loaded⟩, texts⟩
  have run : (console sampleWorld).Reachable s :=
    System.reaches_of_execute (fun _ moved => ⟨trivial, moved⟩) (.start sampleState_starts) done
  rcases complete sampleWorld s run with ⟨bytes, file, kept⟩
  rw [empty] at file
  cases file
  rcases kept with first | ⟨cfg, inside, text⟩
  · exact loaded first.symm
  · refine texts cfg inside ?_
    rw [sampleBytes, text]

end Remgr.Console
