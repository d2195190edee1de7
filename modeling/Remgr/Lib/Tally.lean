/-
Module: Remgr.Lib.Tally
Purpose: A wrapping counter that says how many members a set has, when every change of the set is
  matched by a change of the counter: one enters, one leaves, or one takes the place of another.
Trusted boundary: none
Main exports: Tally, Tally.enter, Tally.leave, Tally.swap
-/
import Mathlib.Data.Set.Card

namespace Remgr.Lib

/-- The counter is the number of members, as far as its width can tell. -/
structure Tally {U : Type} (count : UInt64) (members : Set U) : Prop where
  finite : members.Finite
  exact : count = UInt64.ofNat members.ncard

namespace Tally

variable {U : Type} {count : UInt64} {members : Set U}

theorem empty : Tally 0 (∅ : Set U) where
  finite := Set.finite_empty
  exact := by rw [Set.ncard_empty]; rfl

/-- The same members, however they are described. -/
theorem of_mem_iff (tally : Tally count members) {members' : Set U}
    (same : ∀ u, u ∈ members' ↔ u ∈ members) : Tally count members' := by
  rw [Set.ext same]
  exact tally

theorem enter (tally : Tally count members) {u : U} (new : u ∉ members) :
    Tally (count + 1) (insert u members) where
  finite := tally.finite.insert u
  exact := by
    rw [Set.ncard_insert_of_notMem new tally.finite, UInt64.ofNat_add, ← tally.exact]
    rfl

theorem leave (tally : Tally count members) {u : U} (inside : u ∈ members) :
    Tally (count - 1) (members \ {u}) where
  finite := tally.finite.sdiff
  exact := by
    have one : members.ncard = (members \ {u}).ncard + 1 :=
      (Set.ncard_sdiff_singleton_add_one inside tally.finite).symm
    rw [tally.exact, one, UInt64.ofNat_add]
    exact UInt64.add_sub_cancel ..

theorem swap (tally : Tally count members) {u v : U} (inside : u ∈ members) (new : v ∉ members) :
    Tally count (insert v (members \ {u})) where
  finite := tally.finite.sdiff.insert v
  exact := by
    have fresh : v ∉ members \ {u} := fun member => new member.1
    rw [Set.ncard_insert_of_notMem fresh tally.finite.sdiff,
      Set.ncard_sdiff_singleton_add_one inside tally.finite]
    exact tally.exact

/-- As long as the counter has not gone round, it is the number itself. -/
theorem toNat_eq (tally : Tally count members) (fits : members.ncard < 2 ^ 64) :
    count.toNat = members.ncard := by
  rw [tally.exact]
  exact UInt64.toNat_ofNat_of_lt' fits

/-- A counter that matches a set with a member is not taken below zero. -/
theorem pos_of_mem (tally : Tally count members) {u : U} (inside : u ∈ members) :
    0 < members.ncard :=
  (Set.ncard_pos tally.finite).mpr ⟨u, inside⟩

end Tally

end Remgr.Lib
