/-
Module: Remgr.Lib.Pipe
Purpose: One direction of an in-order connection. What is written into it comes out of it in the
  same order, and nothing else does. It may end, and when the connection fails some of what was on
  the way is lost.
Trusted boundary: none
Main exports: Pipe, Pipe.push, Pipe.pull, Pipe.finish, Pipe.cut, Pipe.taken_isLead
-/
import Mathlib.Data.List.Basic

namespace Remgr.Lib

/-- `sent` is all that has been written, `bytes` what is on the way, `taken` what has been read. -/
structure Pipe (α : Type) where
  sent : List α
  bytes : List α
  taken : List α
  ended : Bool
  broken : Bool
  lead : taken ++ bytes <+: sent
  whole : broken = false → taken ++ bytes = sent
  stops : broken = true → ended = true
deriving DecidableEq

namespace Pipe

variable {α : Type}

/-- A connection that has just been made. -/
def fresh : Pipe α where
  sent := []
  bytes := []
  taken := []
  ended := false
  broken := false
  lead := List.prefix_rfl
  whole _ := rfl
  stops broken := Bool.noConfusion broken

/-- What is written behind the end is lost. -/
def push (p : Pipe α) (data : List α) : Pipe α :=
  if going : p.ended = false then
    have unbroken : p.broken = false := by
      cases broken : p.broken with
      | false => rfl
      | true => cases going.symm.trans (p.stops broken)
    have all : p.taken ++ (p.bytes ++ data) = p.sent ++ data := by
      rw [← List.append_assoc, p.whole unbroken]
    { p with
      sent := p.sent ++ data
      bytes := p.bytes ++ data
      lead := all ▸ List.prefix_rfl
      whole := fun _ => all }
  else p

/-- The next `count` bytes are read. -/
def pull (p : Pipe α) (count : Nat) : Pipe α :=
  have same : p.taken ++ p.bytes.take count ++ p.bytes.drop count = p.taken ++ p.bytes := by
    rw [List.append_assoc, List.take_append_drop]
  { p with
    bytes := p.bytes.drop count
    taken := p.taken ++ p.bytes.take count
    lead := same ▸ p.lead
    whole := fun unbroken => same.trans (p.whole unbroken) }

/-- The writer shuts its side down. -/
def finish (p : Pipe α) : Pipe α := { p with ended := true, stops := fun _ => rfl }

/-- The connection fails; the reader still gets `count` bytes. -/
def cut (p : Pipe α) (count : Nat) : Pipe α :=
  { p with
    bytes := p.bytes.take count
    ended := true
    broken := true
    lead := ((List.prefix_append_right_inj _).mpr (List.take_prefix ..)).trans p.lead
    whole := fun whole => Bool.noConfusion whole
    stops := fun _ => rfl }

/-! ## What the operations change -/

variable (p : Pipe α)

theorem push_of_going {p : Pipe α} (going : p.ended = false) (data : List α) :
    (p.push data).sent = p.sent ++ data ∧ (p.push data).bytes = p.bytes ++ data ∧
      (p.push data).taken = p.taken ∧ (p.push data).ended = false ∧
      (p.push data).broken = p.broken := by
  unfold push
  rw [dif_pos going]
  exact ⟨rfl, rfl, rfl, going, rfl⟩

@[simp] theorem push_taken (data : List α) : (p.push data).taken = p.taken := by
  unfold push
  split <;> rfl

@[simp] theorem push_ended (data : List α) : (p.push data).ended = p.ended := by
  unfold push
  split <;> rfl

@[simp] theorem push_broken (data : List α) : (p.push data).broken = p.broken := by
  unfold push
  split <;> rfl

@[simp] theorem pull_sent (count : Nat) : (p.pull count).sent = p.sent := rfl

@[simp] theorem pull_bytes (count : Nat) : (p.pull count).bytes = p.bytes.drop count := rfl

@[simp] theorem pull_taken (count : Nat) :
    (p.pull count).taken = p.taken ++ p.bytes.take count := rfl

@[simp] theorem pull_ended (count : Nat) : (p.pull count).ended = p.ended := rfl

@[simp] theorem pull_broken (count : Nat) : (p.pull count).broken = p.broken := rfl

@[simp] theorem finish_sent : p.finish.sent = p.sent := rfl

@[simp] theorem finish_bytes : p.finish.bytes = p.bytes := rfl

@[simp] theorem finish_taken : p.finish.taken = p.taken := rfl

@[simp] theorem finish_ended : p.finish.ended = true := rfl

@[simp] theorem finish_broken : p.finish.broken = p.broken := rfl

@[simp] theorem cut_sent (count : Nat) : (p.cut count).sent = p.sent := rfl

@[simp] theorem cut_taken (count : Nat) : (p.cut count).taken = p.taken := rfl

@[simp] theorem cut_broken (count : Nat) : (p.cut count).broken = true := rfl

/-- What was read is a beginning of what was written. -/
theorem taken_isLead : p.taken <+: p.sent := (List.prefix_append ..).trans p.lead

/-- A connection that did not fail and has nothing on the way was read to its last byte. -/
theorem taken_eq {p : Pipe α} (unbroken : p.broken = false) (dry : p.bytes = []) :
    p.taken = p.sent := by
  have all := p.whole unbroken
  rwa [dry, List.append_nil] at all

end Pipe

end Remgr.Lib
