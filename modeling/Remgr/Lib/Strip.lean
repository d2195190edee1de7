/-
Module: Remgr.Lib.Strip
Purpose: Lists without what stands at both of their ends: trimming, for any notion of a blank.
Trusted boundary: none
Main exports: strip, strip_congr, strip_front, strip_back, strip_of_trimmed, strip_trimmed,
  strip_strip, Text.isBlank, Text.strip_split_join
-/
import Mathlib.Data.List.DropRight
import Remgr.Lib.Lines

namespace Remgr.Lib

variable {α : Type} {p q : α → Bool} {text front back : List α}

/-- A list without the blanks at its front and at its back. -/
def strip (p : α → Bool) (text : List α) : List α := (text.dropWhile p).rdropWhile p

/-- Neither end is a blank. -/
def Trimmed (p : α → Bool) (text : List α) : Prop :=
  (∀ c ∈ text.head?, p c = false) ∧ ∀ c ∈ text.getLast?, p c = false

instance (p : α → Bool) (text : List α) : Decidable (Trimmed p text) :=
  inferInstanceAs (Decidable ((∀ c ∈ text.head?, p c = false) ∧ ∀ c ∈ text.getLast?, p c = false))

@[simp] theorem strip_nil : strip p [] = [] := rfl

theorem dropWhile_of_head (plain : ∀ c ∈ text.head?, p c = false) : text.dropWhile p = text := by
  cases text with
  | nil => rfl
  | cons c text => exact List.dropWhile_cons_of_neg (by simp [plain c rfl])

theorem rdropWhile_of_last (plain : ∀ c ∈ text.getLast?, p c = false) :
    text.rdropWhile p = text := by
  refine List.rdropWhile_eq_self_iff.mpr fun filled => ?_
  rw [plain _ (List.getLast?_eq_some_getLast filled)]
  exact Bool.false_ne_true

theorem strip_of_trimmed (trimmed : Trimmed p text) : strip p text = text := by
  rw [strip, dropWhile_of_head trimmed.1, rdropWhile_of_last trimmed.2]

theorem head_dropWhile {c : α} (first : c ∈ (text.dropWhile p).head?) : p c = false := by
  cases rest : text.dropWhile p with
  | nil =>
      rw [rest] at first
      cases first
  | cons d tail =>
      rw [rest] at first
      cases first
      have filled : text.dropWhile p ≠ [] := rest ▸ List.cons_ne_nil c tail
      have stops := List.head_dropWhile_not p filled
      simpa [rest] using stops

theorem strip_trimmed (p : α → Bool) (text : List α) : Trimmed p (strip p text) := by
  constructor
  · intro c first
    obtain ⟨tail, whole⟩ := List.rdropWhile_prefix p (l := text.dropWhile p)
    refine @head_dropWhile _ p text c ?_
    rw [← whole]
    exact List.mem_head?_append_of_mem_head? first
  · intro c last
    have filled : strip p text ≠ [] := by
      intro empty
      rw [empty] at last
      cases last
    have stops := List.rdropWhile_last_not p (text.dropWhile p) filled
    rw [List.getLast?_eq_some_getLast filled] at last
    cases last
    exact Bool.eq_false_iff.mpr stops

theorem strip_strip (p : α → Bool) (text : List α) : strip p (strip p text) = strip p text :=
  strip_of_trimmed (strip_trimmed p text)

/-- Blanks in front do not matter. -/
theorem strip_front (blanks : ∀ c ∈ front, p c = true) : strip p (front ++ text) = strip p text := by
  rw [strip, List.dropWhile_append_of_pos blanks, strip]

/-- Blanks at the back do not matter. -/
theorem strip_back (blanks : ∀ c ∈ back, p c = true) : strip p (text ++ back) = strip p text := by
  have none : back.dropWhile p = [] := List.dropWhile_eq_nil_iff.mpr blanks
  have reversed : ∀ c ∈ back.reverse, p c = true :=
    fun c inside => blanks c (List.mem_reverse.mp inside)
  rw [strip, List.dropWhile_append]
  cases front : text.dropWhile p with
  | nil => rw [List.isEmpty_nil, if_pos rfl, none, strip, front]
  | cons c text =>
      rw [List.isEmpty_cons, if_neg Bool.false_ne_true, strip, front, List.rdropWhile,
        List.reverse_append, List.dropWhile_append_of_pos reversed, List.rdropWhile]

/-- What stands around a mark that is no blank is stripped on its outer side. -/
theorem strip_mark {mark : α} (visible : p mark = false) (front back : List α) :
    strip p (front ++ mark :: back) = front.dropWhile p ++ mark :: back.rdropWhile p := by
  have left : (front ++ mark :: back).dropWhile p = front.dropWhile p ++ mark :: back := by
    rw [List.dropWhile_append]
    cases rest : front.dropWhile p with
    | nil => rw [List.isEmpty_nil, if_pos rfl, List.dropWhile_cons_of_neg (by simp [visible])]; rfl
    | cons c rest => rw [List.isEmpty_cons, if_neg Bool.false_ne_true]
  rw [strip, left, List.rdropWhile, List.rdropWhile, List.reverse_append, List.reverse_cons,
    List.append_assoc, List.dropWhile_append]
  cases rest : back.reverse.dropWhile p with
  | nil =>
      rw [List.isEmpty_nil, if_pos rfl, List.singleton_append,
        List.dropWhile_cons_of_neg (by simp [visible])]
      simp
  | cons c rest =>
      rw [List.isEmpty_cons, if_neg Bool.false_ne_true]
      simp

theorem strip_dropWhile (p : α → Bool) (text : List α) :
    strip p (text.dropWhile p) = strip p text := by
  rw [strip, List.dropWhile_idempotent, strip]

theorem strip_rdropWhile (p : α → Bool) (text : List α) :
    strip p (text.rdropWhile p) = strip p text := by
  have whole : text.rdropWhile p ++ text.rtakeWhile p = text := List.rdropWhile_append_rtakeWhile
  calc strip p (text.rdropWhile p) = strip p (text.rdropWhile p ++ text.rtakeWhile p) :=
        (strip_back fun c inside => List.mem_rtakeWhile_imp inside).symm
    _ = strip p text := by rw [whole]

/-- What is stripped stays between blanks. -/
theorem exists_strip (p : α → Bool) (text : List α) :
    ∃ front back, text = front ++ strip p text ++ back ∧ (∀ c ∈ front, p c = true) ∧
      ∀ c ∈ back, p c = true := by
  refine ⟨text.takeWhile p, (text.dropWhile p).rtakeWhile p, ?_, ?_, ?_⟩
  · rw [strip, List.append_assoc, List.rdropWhile_append_rtakeWhile, List.takeWhile_append_dropWhile]
  · exact fun c inside => List.mem_takeWhile_imp inside
  · exact fun c inside => List.mem_rtakeWhile_imp inside

theorem mem_of_mem_strip {c : α} (inside : c ∈ strip p text) : c ∈ text := by
  obtain ⟨front, back, whole, -, -⟩ := exists_strip p text
  rw [whole]
  exact List.mem_append_left _ (List.mem_append_right _ inside)

theorem strip_congr (same : ∀ c ∈ text, p c = q c) : strip p text = strip q text := by
  have drops : ∀ {text : List α}, (∀ c ∈ text, p c = q c) → text.dropWhile p = text.dropWhile q := by
    intro text same
    induction text with
    | nil => rfl
    | cons c text inductionHypothesis =>
        rw [List.dropWhile_cons, List.dropWhile_cons, same c List.mem_cons_self,
          inductionHypothesis fun d inside => same d (List.mem_cons_of_mem c inside)]
  have inside : ∀ c ∈ (text.dropWhile q).reverse, p c = q c := by
    intro c here
    exact same c ((List.dropWhile_suffix q).subset (List.mem_reverse.mp here))
  rw [strip, drops same, strip, List.rdropWhile, drops inside, List.rdropWhile]

theorem strip_map {β : Type} {f : β → α} {texts : List β} :
    strip p (texts.map f) = (strip (p ∘ f) texts).map f := by
  rw [strip, strip, List.rdropWhile, List.rdropWhile, List.dropWhile_map, ← List.map_reverse,
    List.dropWhile_map, List.map_reverse]

namespace Text

/-- A space or a tab. -/
def isBlank (c : Char) : Bool := c == ' ' || c == '\t'

theorem mem_intercalate {mark : List Char} {parts : List (List Char)} {c : Char}
    (inside : c ∈ mark.intercalate parts) : c ∈ mark ∨ ∃ part ∈ parts, c ∈ part := by
  induction parts with
  | nil => cases inside
  | cons part parts inductionHypothesis =>
      cases parts with
      | nil =>
          rw [List.intercalate_singleton] at inside
          exact .inr ⟨part, List.mem_cons_self, inside⟩
      | cons next parts =>
          rw [List.intercalate_cons_cons, List.mem_append, List.mem_append] at inside
          rcases inside with (first | between) | later
          · exact .inr ⟨part, List.mem_cons_self, first⟩
          · exact .inl between
          · rcases inductionHypothesis later with between | ⟨other, isPart, here⟩
            · exact .inl between
            · exact .inr ⟨other, List.mem_cons_of_mem part isPart, here⟩

/-- Parts joined by a mark and a space are found again by splitting at the mark and stripping. -/
theorem strip_split_join {mark : Char} {parts : List (List Char)} (filled : parts ≠ [])
    (plain : ∀ part ∈ parts, ∀ c ∈ part, c ≠ mark)
    (trimmed : ∀ part ∈ parts, Trimmed isBlank part) (visible : mark ≠ ' ') :
    (split (· == mark) ([mark, ' '].intercalate parts)).map (strip isBlank) = parts := by
  induction parts with
  | nil => exact absurd rfl filled
  | cons part parts inductionHypothesis =>
      have first := strip_of_trimmed (trimmed part List.mem_cons_self)
      have clear : split (· == mark) part = [part] :=
        split_of_plain _ fun c inside => beq_false_of_ne (plain part List.mem_cons_self c inside)
      cases parts with
      | nil =>
          rw [List.intercalate_singleton, clear, List.map_singleton, first]
      | cons next parts =>
          have others := inductionHypothesis (List.cons_ne_nil next parts)
            (fun other inside => plain other (List.mem_cons_of_mem part inside))
            (fun other inside => trimmed other (List.mem_cons_of_mem part inside))
          have visibly : ¬ (' ' == mark) = true := by simpa using visible.symm
          rw [List.intercalate_cons_cons, List.append_assoc, List.cons_append, List.cons_append,
            List.nil_append, split_append (· == mark) (beq_self_eq_true mark), clear]
          cases later : split (· == mark) ([mark, ' '].intercalate (next :: parts)) with
          | nil => exact absurd later (split_ne_nil _ _)
          | cons head tail =>
              have space : split (· == mark) (' ' :: [mark, ' '].intercalate (next :: parts)) =
                  (' ' :: head) :: tail := by
                rw [split, if_neg visibly, later]
              rw [space]
              rw [later] at others
              have blank : strip isBlank (' ' :: head) = strip isBlank head :=
                @strip_front _ isBlank head [' '] (by simp [isBlank])
              rw [← others]
              simp only [List.singleton_append, List.map_cons, first, blank]

end Text

end Remgr.Lib
