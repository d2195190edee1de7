/-
Module: Remgr.Lib.Cuts
Purpose: A stream handed over in pieces, and the places where it was cut. A stream that is the
  concatenation of two parts gives pieces of the first and pieces of the second; only the piece that
  reaches across is divided.
Trusted boundary: none
Main exports: cuts, mem_cuts_append, mem_cuts_shift, Divides, exists_divides, Divides.cut, Divides.cuts_iff
-/
import Mathlib.Data.List.Basic

namespace Remgr.Lib

variable {α : Type}

/-- The offsets at which a stream starting at `offset` is cut into these pieces, both ends counted. -/
def cuts (offset : Nat) : List (List α) → List Nat
  | [] => [offset]
  | piece :: pieces => offset :: cuts (offset + piece.length) pieces

theorem mem_cuts_bounds {offset n : Nat} {pieces : List (List α)} (cut : n ∈ cuts offset pieces) :
    offset ≤ n ∧ n ≤ offset + pieces.flatten.length := by
  induction pieces generalizing offset with
  | nil =>
      rw [cuts, List.mem_singleton] at cut
      simp [cut]
  | cons piece pieces inductionHypothesis =>
      rw [cuts, List.mem_cons] at cut
      rw [List.flatten_cons, List.length_append]
      rcases cut with rfl | later
      · omega
      · have := inductionHypothesis later
        omega

theorem start_mem_cuts (offset : Nat) (pieces : List (List α)) : offset ∈ cuts offset pieces := by
  cases pieces <;> simp [cuts]

theorem cuts_map {β : Type} (f : α → β) (offset : Nat) (pieces : List (List α)) :
    cuts offset (pieces.map (List.map f)) = cuts offset pieces := by
  induction pieces generalizing offset with
  | nil => rfl
  | cons piece pieces inductionHypothesis =>
      rw [List.map_cons, cuts, cuts, inductionHypothesis, List.length_map]

theorem mem_cuts_append {offset n : Nat} {front back : List (List α)} :
    n ∈ cuts offset (front ++ back) ↔
      n ∈ cuts offset front ∨ n ∈ cuts (offset + front.flatten.length) back := by
  induction front generalizing offset with
  | nil =>
      have start := start_mem_cuts offset back
      simp only [List.nil_append, cuts, List.mem_singleton, List.flatten_nil, List.length_nil,
        Nat.add_zero]
      exact ⟨.inr, fun either => either.elim (fun same => same ▸ start) id⟩
  | cons piece front inductionHypothesis =>
      simp only [List.cons_append, cuts, List.mem_cons, inductionHypothesis, List.flatten_cons,
        List.length_append, or_assoc, Nat.add_assoc]

theorem mem_cuts_shift {offset n : Nat} {pieces : List (List α)} :
    n ∈ cuts offset pieces ↔ ∃ m ∈ cuts 0 pieces, n = offset + m := by
  induction pieces generalizing offset n with
  | nil => simp [cuts]
  | cons piece pieces inductionHypothesis =>
      simp only [cuts, List.mem_cons, Nat.zero_add, exists_eq_or_imp, Nat.add_zero]
      refine or_congr Iff.rfl ?_
      rw [inductionHypothesis]
      constructor
      · rintro ⟨m, cut, rfl⟩
        exact ⟨piece.length + m, inductionHypothesis.mpr ⟨m, cut, rfl⟩, Nat.add_assoc _ _ _⟩
      · rintro ⟨m, cut, rfl⟩
        obtain ⟨k, later, rfl⟩ := inductionHypothesis.mp cut
        exact ⟨k, later, (Nat.add_assoc _ _ _).symm⟩

/-- `pieces` are the pieces `front` of one stream followed by the pieces `back` of the next, where
at most one piece has an end of the first and a beginning of the second. -/
inductive Divides (pieces front back : List (List α)) : Prop where
  | between (same : pieces = front ++ back)
  | within (before : List (List α)) (left right : List α) (after : List (List α))
      (leftFilled : left ≠ []) (rightFilled : right ≠ [])
      (whole : pieces = before ++ (left ++ right) :: after)
      (first : front = before ++ [left]) (second : back = right :: after)

theorem exists_divides {pieces : List (List α)} {a b : List α} (joined : pieces.flatten = a ++ b) :
    ∃ front back, Divides pieces front back ∧ front.flatten = a ∧ back.flatten = b := by
  rcases List.flatten_eq_append_iff.mp joined with
    ⟨front, back, same, first, second⟩ | ⟨before, left, c, right, after, same, first, second⟩
  · exact ⟨front, back, .between same, first.symm, second.symm⟩
  · cases left with
    | nil =>
        refine ⟨before, (c :: right) :: after, .between (by simpa using same), ?_, ?_⟩
        · simpa using first.symm
        · simpa using second.symm
    | cons d left =>
        refine ⟨before ++ [d :: left], (c :: right) :: after,
          .within before (d :: left) (c :: right) after (List.cons_ne_nil _ _) (List.cons_ne_nil _ _)
            same rfl rfl, ?_, ?_⟩
        · simpa using first.symm
        · simpa using second.symm

namespace Divides

variable {pieces front back : List (List α)}

theorem filled (divides : Divides pieces front back) (all : ∀ piece ∈ pieces, piece ≠ []) :
    (∀ piece ∈ front, piece ≠ []) ∧ ∀ piece ∈ back, piece ≠ [] := by
  cases divides with
  | between same =>
      subst same
      exact ⟨fun piece inside => all piece (List.mem_append_left _ inside),
        fun piece inside => all piece (List.mem_append_right _ inside)⟩
  | within before left right after leftFilled rightFilled whole first second =>
      subst whole first second
      constructor
      · intro piece inside
        rcases List.mem_append.mp inside with early | here
        · exact all piece (List.mem_append_left _ early)
        · exact List.mem_singleton.mp here ▸ leftFilled
      · intro piece inside
        rcases List.mem_cons.mp inside with rfl | late
        · exact rightFilled
        · exact all piece (List.mem_append_right _ (List.mem_cons_of_mem _ late))

theorem flatten (divides : Divides pieces front back) :
    pieces.flatten = front.flatten ++ back.flatten := by
  cases divides with
  | between same => rw [same, List.flatten_append]
  | within before left right after leftFilled rightFilled whole first second =>
      subst whole first second
      simp

/-- A cut between two pieces is in the first part, or behind it. -/
theorem cut {f b : List (List α)} (divides : Divides pieces front back) (whole : pieces = f ++ b) :
    (∃ x, front = f ++ x) ∨ ∃ g, Divides f front g ∧ back = g ++ b := by
  cases divides with
  | between same =>
      rcases List.append_eq_append_iff.mp (same.symm.trans whole) with ⟨g, rfl, rest⟩ | ⟨x, rest, -⟩
      · exact .inr ⟨g, .between rfl, rest⟩
      · exact .inl ⟨x, rest⟩
  | within before left right after leftFilled rightFilled same first second =>
      rcases List.append_eq_append_iff.mp (same.symm.trans whole) with ⟨g, rfl, rest⟩ | ⟨x, rest, -⟩
      · cases g with
        | nil => exact .inl ⟨[left], by rw [first, List.append_nil]⟩
        | cons piece g =>
            obtain ⟨rfl, rfl⟩ := List.cons.inj rest
            refine .inr ⟨right :: g, ?_, second⟩
            exact .within before left right g leftFilled rightFilled rfl first rfl
      · exact .inl ⟨x ++ [left], by rw [first, rest, List.append_assoc]⟩

/-- A cut of the first part is one of the whole. -/
theorem cut_front {f b : List (List α)} (divides : Divides pieces front back) (part : front = f ++ b)
    (more : b ≠ []) : ∃ b', pieces = f ++ b' ∧ b.flatten <+: b'.flatten := by
  cases divides with
  | between same =>
      exact ⟨b ++ back, by rw [same, part, List.append_assoc], by simp⟩
  | within before left right after leftFilled rightFilled same first second =>
      obtain ⟨init, last, rfl⟩ := (List.eq_nil_or_concat' b).resolve_left more
      rw [← List.append_assoc] at part
      obtain ⟨rfl, only⟩ := List.append_inj' (first.symm.trans part) rfl
      obtain rfl : left = last := List.singleton_inj.mp only
      refine ⟨init ++ (left ++ right) :: after, by rw [same, List.append_assoc], ?_⟩
      simp [List.append_assoc]

/-- A cut of the whole is a cut of one of the two parts, and a cut of a part is a cut of the whole
unless it is where the parts meet. -/
theorem cuts_iff (divides : Divides pieces front back) {n : Nat} :
    (n ∈ cuts 0 pieces ∨ n = front.flatten.length) ↔
      n ∈ cuts 0 front ∨ n ∈ cuts front.flatten.length back := by
  cases divides with
  | between same =>
      subst same
      rw [mem_cuts_append, Nat.zero_add]
      have start := start_mem_cuts front.flatten.length back
      constructor
      · rintro (either | rfl)
        · exact either
        · exact .inr start
      · exact .inl
  | within before left right after leftFilled rightFilled whole first second =>
      subst whole first second
      simp only [mem_cuts_append, cuts, List.mem_cons, List.flatten_append, List.flatten_cons,
        List.flatten_nil, List.append_nil, List.length_append, Nat.zero_add,
        Nat.add_assoc, List.not_mem_nil, or_false]
      tauto

end Divides

end Remgr.Lib
