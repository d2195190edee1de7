/-
Module: Remgr.Lib.RwLock
Purpose: A reader-writer lock as a value: who holds it, and how it is taken and given back.
Trusted boundary: none
Main exports: RwLock, RwLock.holders, RwLock.write, RwLock.read, RwLock.unlock
-/
import Mathlib.Data.List.Basic

namespace Remgr.Lib

/-- Who holds the lock. A writer holds it alone. -/
structure RwLock (τ : Type) where
  writer : Option τ := none
  readers : List τ := []
  alone : writer.isSome → readers = [] := by simp

namespace RwLock

variable {τ : Type} {lock lock' : RwLock τ} {t u : τ}

/-- Nobody holds the lock. -/
def free : RwLock τ := {}

def holders (lock : RwLock τ) : List τ := lock.writer.toList ++ lock.readers

/-- The write lock is given when nobody holds the lock. -/
def write (lock : RwLock τ) (t : τ) : Option (RwLock τ) :=
  if lock.writer = none ∧ lock.readers = [] then some { writer := some t } else none

/-- A read lock is given when there is no writer. -/
def read (lock : RwLock τ) (t : τ) : Option (RwLock τ) :=
  if lock.writer = none then some { readers := t :: lock.readers } else none

/-- A holder gives back what it holds. -/
def unlock [DecidableEq τ] (lock : RwLock τ) (t : τ) : RwLock τ :=
  if lock.writer = some t then {} else
    { lock with
      readers := lock.readers.erase t
      alone := fun held => by rw [lock.alone held, List.erase_nil] }

theorem write_eq_some (taken : lock.write t = some lock') :
    lock.holders = [] ∧ lock'.writer = some t ∧ lock'.holders = [t] := by
  rcases Option.ite_none_right_eq_some.mp taken with ⟨⟨noWriter, noReaders⟩, same⟩
  cases same
  exact ⟨by rw [holders, noWriter, noReaders]; rfl, rfl, rfl⟩

theorem read_eq_some (taken : lock.read t = some lock') :
    lock.writer = none ∧ lock'.writer = none ∧ lock'.holders = t :: lock.holders := by
  rcases Option.ite_none_right_eq_some.mp taken with ⟨noWriter, same⟩
  cases same
  exact ⟨noWriter, rfl, by rw [holders, holders, noWriter]; rfl⟩

/-- While there is a writer, it is the only holder. -/
theorem holders_of_writer (held : lock.writer = some t) : lock.holders = [t] := by
  rw [holders, held, lock.alone (by rw [held]; rfl)]
  rfl

theorem unlock_of_free [DecidableEq τ] (free : lock.holders = []) : lock.unlock t = lock := by
  rcases lock with ⟨writer, readers, alone⟩
  rcases List.append_eq_nil_iff.mp free with ⟨noWriter, noReaders⟩
  cases writer with
  | some u => cases noWriter
  | none =>
      cases noReaders
      rfl

theorem mem_holders_unlock [DecidableEq τ] (other : u ≠ t) :
    u ∈ (lock.unlock t).holders ↔ u ∈ lock.holders := by
  unfold unlock
  split
  · next held =>
      rw [holders_of_writer held]
      simp [holders, other]
  · simp [holders, List.mem_erase_of_ne other]

theorem writer_unlock [DecidableEq τ] (other : u ≠ t) :
    (lock.unlock t).writer = some u ↔ lock.writer = some u := by
  unfold unlock
  split
  · next held => simp [held, other.symm]
  · rfl

end RwLock

end Remgr.Lib
