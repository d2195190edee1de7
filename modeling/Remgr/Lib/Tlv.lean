/-
Module: Remgr.Lib.Tlv
Purpose: Lists of attributes, each a 16-bit kind, a 16-bit length and a value that is padded to a
  multiple of `align` bytes, and the walk that reads such a list from a byte string. Nothing here
  depends on what the kinds mean.
Trusted boundary: none
Main exports: Attribute, padding, Attribute.encode, next, walk, met, walk_encode, walk_of_next
-/
import Remgr.Lib.Bytes

namespace Remgr.Lib.Tlv

/-- One attribute, without its padding. -/
structure Attribute where
  kind : Nat
  value : List UInt8
deriving DecidableEq, Repr

/-- How many bytes fill a value of this length up. -/
def padding (align length : Nat) : Nat := (align - length % align) % align

/-- The bytes of an attribute, padded with zeros. -/
def Attribute.encode (align : Nat) (a : Attribute) : List UInt8 :=
  natToBe 2 a.kind ++ (natToBe 2 a.value.length ++
    (a.value ++ List.replicate (padding align a.value.length) 0))

/-- The first attribute and what follows its padding, if the attribute is there as a whole. The
padding of the last one may be missing. -/
def next (align : Nat) : List UInt8 → Option (Attribute × List UInt8)
  | k₁ :: k₂ :: l₁ :: l₂ :: rest =>
      let length := natOfBe [l₁, l₂]
      if rest.length < length then none
      else
        some (⟨natOfBe [k₁, k₂], rest.take length⟩, rest.drop (length + padding align length))
  | _ => none

theorem next_length {align : Nat} {bytes rest : List UInt8} {a : Attribute}
    (read : next align bytes = some (a, rest)) : rest.length < bytes.length := by
  unfold next at read
  split at read
  · next k₁ k₂ l₁ l₂ tail =>
      dsimp only at read
      split at read
      · cases read
      · cases read
        simp only [List.length_drop, List.length_cons]
        omega
  · cases read

/-- The attributes that are there as a whole, and what is left behind them. -/
def walk (align : Nat) (bytes : List UInt8) : List Attribute × List UInt8 :=
  match read : next align bytes with
  | none => ([], bytes)
  | some (a, rest) =>
      have := next_length read
      let walked := walk align rest
      (a :: walked.1, walked.2)
termination_by bytes.length

theorem walk_of_none {align : Nat} {bytes : List UInt8} (short : next align bytes = none) :
    walk align bytes = ([], bytes) := by
  rw [walk]
  split
  · rfl
  · next read => cases short.symm.trans read

theorem walk_of_next {align : Nat} {bytes rest : List UInt8} {a : Attribute}
    (read : next align bytes = some (a, rest)) :
    walk align bytes = (a :: (walk align rest).1, (walk align rest).2) := by
  rw [walk]
  split
  · next short => cases short.symm.trans read
  · next read' =>
      cases read.symm.trans read'
      rfl

theorem next_encode {align : Nat} {a : Attribute} (kind : a.kind < 65536)
    (fits : a.value.length < 65536) (rest : List UInt8) :
    next align (a.encode align ++ rest) = some (a, rest) := by
  rcases kindBytes : natToBe 2 a.kind with _ | ⟨k₁, _ | ⟨k₂, _ | ⟨_, _⟩⟩⟩
  · simpa using congrArg List.length kindBytes
  · simpa using congrArg List.length kindBytes
  · rcases lengthBytes : natToBe 2 a.value.length with _ | ⟨l₁, _ | ⟨l₂, _ | ⟨_, _⟩⟩⟩
    · simpa using congrArg List.length lengthBytes
    · simpa using congrArg List.length lengthBytes
    · have kindRead : natOfBe [k₁, k₂] = a.kind := by
        rw [← kindBytes, natOfBe_natToBe]
        exact Nat.mod_eq_of_lt kind
      have lengthRead : natOfBe [l₁, l₂] = a.value.length := by
        rw [← lengthBytes, natOfBe_natToBe]
        exact Nat.mod_eq_of_lt fits
      have filler : (List.replicate (padding align a.value.length) (0 : UInt8)).length =
          padding align a.value.length := List.length_replicate
      simp only [Attribute.encode, kindBytes, lengthBytes, List.cons_append, List.nil_append, next,
        kindRead, lengthRead, List.append_assoc]
      rw [if_neg (by simp), List.take_left, ← List.drop_drop, List.drop_left,
        List.drop_left' filler]
    · have three := congrArg List.length lengthBytes
      simp at three
  · have three := congrArg List.length kindBytes
    simp at three

/-- The attribute that runs past the end, with as much of its value as is there. -/
def cut : List UInt8 → Option Attribute
  | k₁ :: k₂ :: _ :: _ :: rest => some ⟨natOfBe [k₁, k₂], rest⟩
  | _ => none

/-- Every attribute a reader of the bytes meets: those that are there as a whole, and then the one that
runs past the end. -/
def met (align : Nat) (bytes : List UInt8) : List Attribute :=
  (walk align bytes).1 ++ (cut (walk align bytes).2).toList

section

variable {align : Nat} {k₁ k₂ l₁ l₂ : UInt8} {rest bytes : List UInt8}

theorem met_whole (whole : natOfBe [l₁, l₂] ≤ rest.length) :
    met align (k₁ :: k₂ :: l₁ :: l₂ :: rest) =
      ⟨natOfBe [k₁, k₂], rest.take (natOfBe [l₁, l₂])⟩ ::
        met align (rest.drop (natOfBe [l₁, l₂] + padding align (natOfBe [l₁, l₂]))) := by
  have read : next align (k₁ :: k₂ :: l₁ :: l₂ :: rest) =
      some (⟨natOfBe [k₁, k₂], rest.take (natOfBe [l₁, l₂])⟩,
        rest.drop (natOfBe [l₁, l₂] + padding align (natOfBe [l₁, l₂]))) :=
    if_neg (Nat.not_lt.mpr whole)
  rw [met, walk_of_next read, List.cons_append]
  rfl

theorem met_overrun (short : rest.length < natOfBe [l₁, l₂]) :
    met align (k₁ :: k₂ :: l₁ :: l₂ :: rest) = [⟨natOfBe [k₁, k₂], rest⟩] := by
  have stuck : next align (k₁ :: k₂ :: l₁ :: l₂ :: rest) = none := if_pos short
  rw [met, walk_of_none stuck]
  rfl

theorem met_short (short : bytes.length < 4) : met align bytes = [] := by
  match bytes, short with
  | [], _ | [_], _ | [_, _], _ | [_, _, _], _ =>
      rw [met, walk_of_none rfl]
      rfl

end

/-- A walk over encoded attributes reads them back and leaves nothing. -/
theorem walk_encode {align : Nat} {attrs : List Attribute}
    (fits : ∀ a ∈ attrs, a.kind < 65536 ∧ a.value.length < 65536) :
    walk align (attrs.flatMap (Attribute.encode align)) = (attrs, []) := by
  induction attrs with
  | nil => exact walk_of_none rfl
  | cons a attrs inductionHypothesis =>
      have here := fits a List.mem_cons_self
      have behind := inductionHypothesis fun b inside => fits b (List.mem_cons_of_mem a inside)
      rw [List.flatMap_cons, walk_of_next (next_encode here.1 here.2 _), behind]

end Remgr.Lib.Tlv
