/-
Module: Remgr.Lib.Custody
Purpose: Things that are handed from place to place and may be at one place at a time. What is new
  comes in at a place that passes on, goes on to a place that keeps what it gets, and may be dropped
  anywhere. Then no thing is ever at two places, and one that has got to a place that keeps it is
  never seen at another again.
Trusted boundary: none
Main exports: Sole, Turn, Turn.arrived, Turn.sole, Turn.settled
-/
import Mathlib.Data.List.Nodup
import Mathlib.Logic.Function.Basic

namespace Remgr.Lib.Custody

variable {ι κ : Type}

/-- Each thing is at one place at most, and there once. -/
structure Sole (held : ι → List κ) : Prop where
  nodup : ∀ i, (held i).Nodup
  apart : ∀ ⦃i j k⦄, k ∈ held i → k ∈ held j → i = j

/-- One step: things are dropped, a new one comes in, or the first one of a place goes on. -/
inductive Turn [DecidableEq ι] (fresh : κ → Prop) (keeps : ι → Prop) (held : ι → List κ) :
    (ι → List κ) → Prop
  | less {held' : ι → List κ} (fewer : ∀ i, (held' i).Sublist (held i)) : Turn fresh keeps held held'
  | enters {i : ι} {k : κ} (new : fresh k) (passes : ¬ keeps i) :
      Turn fresh keeps held (Function.update held i (held i ++ [k]))
  | moves {i j : ι} {k : κ} {rest : List κ} (first : held i = k :: rest) (passes : ¬ keeps i)
      (final : keeps j) (empty : held j = []) :
      Turn fresh keeps held (Function.update (Function.update held i rest) j [k])

theorem Sole.fewer {held held' : ι → List κ} (sole : Sole held)
    (fewer : ∀ i, (held' i).Sublist (held i)) : Sole held' where
  nodup i := (sole.nodup i).sublist (fewer i)
  apart i j _ atI atJ := sole.apart ((fewer i).subset atI) ((fewer j).subset atJ)

namespace Turn

variable [DecidableEq ι] {fresh : κ → Prop} {keeps : ι → Prop} {held held' : ι → List κ}

/-- Where a thing is found after a step, it was before, or it has come there by the step: as a new
one, or as the first one of the place before. -/
theorem arrived (turn : Turn fresh keeps held held') {i : ι} {k : κ} (found : k ∈ held' i) :
    k ∈ held i ∨ fresh k ∨ keeps i ∧ ∃ j, k ∈ held j ∧ ¬ keeps j := by
  cases turn with
  | less fewer => exact .inl ((fewer i).subset found)
  | @enters j d new passes =>
      by_cases same : i = j
      · subst same
        rw [Function.update_self, List.mem_append, List.mem_singleton] at found
        rcases found with there | rfl
        · exact .inl there
        · exact .inr (.inl new)
      · rw [Function.update_of_ne same] at found
        exact .inl found
  | @moves j goal d rest first passes final empty =>
      by_cases atEnd : i = goal
      · subst atEnd
        rw [Function.update_self, List.mem_singleton] at found
        subst found
        refine .inr (.inr ⟨final, j, ?_, passes⟩)
        rw [first]
        exact List.mem_cons_self ..
      · rw [Function.update_of_ne atEnd] at found
        by_cases atStart : i = j
        · subst atStart
          rw [Function.update_self] at found
          rw [first]
          exact .inl (List.mem_cons_of_mem _ found)
        · rw [Function.update_of_ne atStart] at found
          exact .inl found

/-- A step keeps the things apart, when what is new is not there yet. -/
theorem sole (turn : Turn fresh keeps held held') (sole : Sole held)
    (unseen : ∀ ⦃i k⦄, k ∈ held i → ¬ fresh k) : Sole held' := by
  cases turn with
  | less fewer => exact sole.fewer fewer
  | @enters i k new passes =>
      have absent : ∀ j, k ∉ held j := fun j found => unseen found new
      constructor
      · intro j
        by_cases same : j = i
        · subst same
          rw [Function.update_self, List.nodup_append_comm]
          exact List.nodup_cons.mpr ⟨absent j, sole.nodup j⟩
        · rw [Function.update_of_ne same]
          exact sole.nodup j
      · intro a b d atA atB
        by_cases mine : d = k
        · -- the new one is nowhere but where it came in
          subst mine
          have only : ∀ j, d ∈ Function.update held i (held i ++ [d]) j → j = i := by
            intro j found
            by_contra other
            rw [Function.update_of_ne other] at found
            exact absent j found
          rw [only a atA, only b atB]
        · have before : ∀ j, d ∈ Function.update held i (held i ++ [k]) j → d ∈ held j := by
            intro j found
            by_cases same : j = i
            · subst same
              rw [Function.update_self, List.mem_append, List.mem_singleton] at found
              exact found.resolve_right mine
            · rw [Function.update_of_ne same] at found
              exact found
          exact sole.apart (before a atA) (before b atB)
  | @moves i j k rest first passes final empty =>
      have distinct := List.nodup_cons.mp (first ▸ sole.nodup i)
      have other : i ≠ j := by
        rintro rfl
        exact passes final
      have atStart : k ∈ held i := by
        rw [first]
        exact List.mem_cons_self ..
      -- without the one that moves, everything is where it was
      have left : ∀ l, ((Function.update held i rest) l).Sublist (held l) := by
        intro l
        by_cases same : l = i
        · subst same
          rw [Function.update_self, first]
          exact List.sublist_cons_self ..
        · rw [Function.update_of_ne same]
      have gone : ∀ l, k ∉ Function.update held i rest l := by
        intro l found
        have same := sole.apart ((left l).subset found) atStart
        subst same
        rw [Function.update_self] at found
        exact distinct.1 found
      have soleLeft := sole.fewer left
      constructor
      · intro l
        by_cases same : l = j
        · subst same
          rw [Function.update_self]
          exact List.nodup_singleton k
        · rw [Function.update_of_ne same]
          exact soleLeft.nodup l
      · have place : ∀ l d, d ∈ Function.update (Function.update held i rest) j [k] l →
            l = j ∧ d = k ∨ l ≠ j ∧ d ∈ Function.update held i rest l := by
          intro l d found
          by_cases same : l = j
          · subst same
            rw [Function.update_self, List.mem_singleton] at found
            exact .inl ⟨rfl, found⟩
          · rw [Function.update_of_ne same] at found
            exact .inr ⟨same, found⟩
        intro a b d atA atB
        rcases place a d atA with ⟨endA, isA⟩ | ⟨_, leftA⟩ <;>
          rcases place b d atB with ⟨endB, isB⟩ | ⟨_, leftB⟩
        · rw [endA, endB]
        · exact absurd (isA ▸ leftB) (gone b)
        · exact absurd (isB ▸ leftA) (gone a)
        · exact soleLeft.apart leftA leftB

/-- A thing that has got to a place that keeps it is at no other place after a step either, as long
as it does not come in anew. -/
theorem settled (turn : Turn fresh keeps held held') {u : ι} {k : κ} (final : keeps u)
    (known : ¬ fresh k) (only : ∀ i, k ∈ held i → i = u) : ∀ i, k ∈ held' i → i = u := by
  intro i found
  rcases turn.arrived found with there | new | ⟨_, j, there, passes⟩
  · exact only i there
  · exact absurd new known
  · rw [only j there] at passes
    exact absurd final passes

end Turn

end Remgr.Lib.Custody
