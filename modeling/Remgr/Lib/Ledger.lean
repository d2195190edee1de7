/-
Module: Remgr.Lib.Ledger
Purpose: A table that events add entries to and take entries from, and its history. What the table holds
  is what was added and spared by every event since; if an event that adds an entry does not spare those
  of the same key, no key is in the table twice.
Trusted boundary: none
Main exports: Ledger, Ledger.after, Ledger.table, Ledger.Stands, Ledger.mem_table_iff,
  Ledger.table_nodup
-/
import Mathlib.Data.List.Induction
import Mathlib.Data.List.Nodup

namespace Remgr.Lib

/-- What an event adds to the table, and which entries it leaves there. -/
structure Ledger (ε α : Type) where
  adds : ε → Option α
  spares : ε → α → Bool

namespace Ledger

variable {ε α κ : Type} (ledger : Ledger ε α)

/-- The table after one event. -/
def after (table : List α) (event : ε) : List α :=
  table.filter (ledger.spares event) ++ (ledger.adds event).toList

/-- The table after a history. -/
def table (log : List ε) : List α := log.foldl ledger.after []

/-- The history has an event that added the entry, and only such as spared it since. -/
def Stands (log : List ε) (entry : α) : Prop :=
  ∃ front event back, log = front ++ event :: back ∧ ledger.adds event = some entry ∧
    ∀ later ∈ back, ledger.spares later entry = true

variable {ledger} {log : List ε} {event : ε} {entry : α}

theorem table_concat (log : List ε) (event : ε) :
    ledger.table (log ++ [event]) = ledger.after (ledger.table log) event := by
  rw [table, List.foldl_concat, table]

theorem table_append (log events : List ε) :
    ledger.table (log ++ events) = events.foldl ledger.after (ledger.table log) := by
  rw [table, List.foldl_append, table]

theorem stands_concat :
    ledger.Stands (log ++ [event]) entry ↔
      ledger.adds event = some entry ∨
        ledger.Stands log entry ∧ ledger.spares event entry = true := by
  constructor
  · rintro ⟨front, added, back, whole, adds, spared⟩
    rcases List.eq_nil_or_concat back with rfl | ⟨rest, last, rfl⟩
    · obtain ⟨-, same⟩ := List.append_inj' whole rfl
      cases same
      exact .inl adds
    · rw [List.concat_eq_append] at whole spared
      have shape : log ++ [event] = (front ++ added :: rest) ++ [last] := by
        rw [whole, List.append_assoc, List.cons_append]
      obtain ⟨before, same⟩ := List.append_inj' shape rfl
      cases same
      obtain ⟨earlier, lately⟩ := List.forall_mem_append.mp spared
      exact .inr ⟨⟨front, added, rest, before, adds, earlier⟩, lately event (List.mem_singleton_self _)⟩
  · rintro (adds | ⟨⟨front, added, back, whole, adds, spared⟩, lately⟩)
    · exact ⟨log, event, [], rfl, adds, nofun⟩
    · refine ⟨front, added, back ++ [event], ?_, adds, ?_⟩
      · rw [whole, List.append_assoc, List.cons_append]
      · exact List.forall_mem_append.mpr ⟨spared, List.forall_mem_singleton.mpr lately⟩

/-- The table is what the history says. -/
theorem mem_table_iff : entry ∈ ledger.table log ↔ ledger.Stands log entry := by
  induction log using List.reverseRecOn with
  | nil =>
      refine ⟨fun member => absurd member List.not_mem_nil, ?_⟩
      rintro ⟨front, added, back, whole, -⟩
      exact (List.cons_ne_nil _ _ (List.append_eq_nil_iff.mp whole.symm).2).elim
  | append_singleton log event inductionHypothesis =>
      rw [table_concat, stands_concat, after, List.mem_append, List.mem_filter, inductionHypothesis,
        Option.mem_toList]
      exact or_comm

/-- No two entries of the table have the same key, when a new one displaces those of its key. -/
theorem table_nodup {key : α → κ}
    (displaces : ∀ {event entry other}, ledger.adds event = some entry → key other = key entry →
      ledger.spares event other = false) (log : List ε) : ((ledger.table log).map key).Nodup := by
  induction log using List.reverseRecOn with
  | nil => exact List.nodup_nil
  | append_singleton log event inductionHypothesis =>
      rw [table_concat, after, List.map_append]
      have kept : (((ledger.table log).filter (ledger.spares event)).map key).Nodup :=
        inductionHypothesis.sublist (List.filter_sublist.map key)
      cases adds : ledger.adds event with
      | none => simpa using kept
      | some entry =>
          refine List.nodup_append.mpr ⟨kept, List.nodup_singleton _, ?_⟩
          intro k member k' new same
          obtain ⟨other, inside, rfl⟩ := List.mem_map.mp member
          cases List.mem_singleton.mp new
          have spared := (List.mem_filter.mp inside).2
          exact Bool.noConfusion ((displaces adds same).symm.trans spared)

end Ledger

end Remgr.Lib
