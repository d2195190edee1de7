/-
Module: Remgr.Lib.Unfinished
Purpose: Text that arrives in parts: the lines that a newline has ended, and what follows the last
  newline.
Trusted boundary: none
Main exports: finished, unfinished, exists_closed, finished_closed, unfinished_closed, finished_append,
  unfinished_append, unfinished_suffix
-/
import Mathlib.Data.List.Infix
import Remgr.Lib.Lines

namespace Remgr.Lib.Text

/-- The lines that end with a newline. -/
def finished (text : List Char) : List (List Char) := (split (· == '\n') text).dropLast

/-- What follows the last newline. -/
def unfinished (text : List Char) : List Char := ((split (· == '\n') text).getLast?).getD []

/-- The text ends with a newline, or is empty. -/
def Closed (text : List Char) : Prop := text = [] ∨ ∃ front, text = front ++ ['\n']

@[simp] theorem finished_nil : finished [] = [] := rfl

@[simp] theorem unfinished_nil : unfinished [] = [] := rfl

theorem split_newline {text : List Char} (plain : '\n' ∉ text) :
    split (· == '\n') text = [text] :=
  split_of_plain _ fun _ inside => beq_false_of_ne fun same => plain (same ▸ inside)

theorem finished_of_plain {text : List Char} (plain : '\n' ∉ text) : finished text = [] := by
  rw [finished, split_newline plain]
  rfl

theorem unfinished_of_plain {text : List Char} (plain : '\n' ∉ text) : unfinished text = text := by
  rw [unfinished, split_newline plain]
  rfl

theorem finished_newline (front back : List Char) :
    finished (front ++ '\n' :: back) = split (· == '\n') front ++ finished back := by
  rw [finished, split_append (· == '\n') rfl, List.dropLast_append_of_ne_nil (split_ne_nil _ back),
    finished]

theorem unfinished_newline (front back : List Char) :
    unfinished (front ++ '\n' :: back) = unfinished back := by
  rw [unfinished, split_append (· == '\n') rfl,
    List.getLast?_append_of_ne_nil _ (split_ne_nil _ back), unfinished]

/-- Behind closed text a line begins. -/
theorem unfinished_closed {closed : List Char} (isClosed : Closed closed) (back : List Char) :
    unfinished (closed ++ back) = unfinished back := by
  rcases isClosed with rfl | ⟨front, rfl⟩
  · rfl
  · rw [List.append_assoc, List.singleton_append, unfinished_newline]

theorem finished_closed {closed : List Char} (isClosed : Closed closed) (back : List Char) :
    finished (closed ++ back) = finished closed ++ finished back := by
  rcases isClosed with rfl | ⟨front, rfl⟩
  · rfl
  · rw [List.append_assoc, List.singleton_append, finished_newline, finished_newline, finished_nil,
      List.append_nil]

/-- A text is closed up to its unfinished line. -/
theorem exists_closed (text : List Char) :
    ∃ closed, text = closed ++ unfinished text ∧ Closed closed ∧ '\n' ∉ unfinished text := by
  by_cases plain : '\n' ∈ text
  · obtain ⟨back, front, reversed, clear⟩ := List.eq_append_cons_of_mem (List.mem_reverse.mpr plain)
    have whole : text = front.reverse ++ '\n' :: back.reverse := by
      have again := congrArg List.reverse reversed
      simpa using again
    have last : '\n' ∉ back.reverse := fun inside => clear (List.mem_reverse.mp inside)
    refine ⟨front.reverse ++ ['\n'], ?_, .inr ⟨_, rfl⟩, ?_⟩
    · rw [whole, unfinished_newline, unfinished_of_plain last]
      simp
    · rw [whole, unfinished_newline, unfinished_of_plain last]
      exact last
  · rw [unfinished_of_plain plain]
    exact ⟨[], rfl, .inl rfl, plain⟩

/-- More text finishes the line that was begun. -/
theorem finished_append (front back : List Char) :
    finished (front ++ back) = finished front ++ finished (unfinished front ++ back) := by
  obtain ⟨closed, whole, isClosed, plain⟩ := exists_closed front
  have first : finished front = finished closed := by
    conv_lhs => rw [whole]
    rw [finished_closed isClosed, finished_of_plain plain, List.append_nil]
  conv_lhs => rw [whole]
  rw [List.append_assoc, finished_closed isClosed, first]

theorem unfinished_append (front back : List Char) :
    unfinished (front ++ back) = unfinished (unfinished front ++ back) := by
  obtain ⟨closed, whole, isClosed, -⟩ := exists_closed front
  conv_lhs => rw [whole]
  rw [List.append_assoc, unfinished_closed isClosed]

theorem plain_unfinished (text : List Char) : '\n' ∉ unfinished text := by
  obtain ⟨closed, whole, isClosed, plain⟩ := exists_closed text
  exact plain

/-- What is read last ends with the same unfinished line, or is a part of it. -/
theorem unfinished_suffix (front back : List Char) : unfinished back <:+ unfinished (front ++ back) := by
  obtain ⟨closed, whole, isClosed, plain⟩ := exists_closed back
  rcases isClosed with rfl | ⟨body, rfl⟩
  · rw [List.nil_append] at whole
    obtain ⟨begun, same, begunClosed, clear⟩ := exists_closed front
    rw [← whole] at plain
    have joined : '\n' ∉ unfinished front ++ back := by simp [plain, clear]
    rw [unfinished_append, unfinished_of_plain joined, unfinished_of_plain plain]
    exact List.suffix_append ..
  · have both : front ++ back = front ++ body ++ '\n' :: unfinished back := by
      conv_lhs => rw [whole]
      simp
    rw [both, unfinished_newline, unfinished_of_plain plain]

end Remgr.Lib.Text
