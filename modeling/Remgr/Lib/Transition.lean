/-
Module: Remgr.Lib.Transition
Purpose: Labelled transition systems and the states their runs reach, with the two rules used to
  reason about them: an invariant kept by every step holds of every state reached, and a system
  that follows another one step by step reaches only what that one reaches.
Trusted boundary: none
Main exports: System, System.Reaches, System.startedAt, System.Passed, System.Unavoidable,
  System.Reaches.invariant, System.Reaches.follows,
  System.exists_reaches_of_measure, System.execute, System.reaches_of_guarded
-/
import Mathlib.Logic.Basic

namespace Remgr.Lib

/-- A transition system: where it may start, and what one labelled step may do. -/
structure System (σ α : Type) where
  init : σ → Prop
  step : σ → α → σ → Prop

namespace System

variable {σ α τ β : Type}

/-- The states reached by runs all of whose steps meet `allowed`, a condition on the step's label
and on the state before it. -/
inductive Reaches (sys : System σ α) (allowed : σ → α → Prop) : σ → Prop where
  | start {s : σ} (initial : sys.init s) : Reaches sys allowed s
  | next {s s' : σ} {a : α} (run : Reaches sys allowed s) (permitted : allowed s a)
      (move : sys.step s a s') : Reaches sys allowed s'

/-- The states reached by any run at all. -/
abbrev Reachable (sys : System σ α) : σ → Prop := sys.Reaches fun _ _ => True

/-- The same system, started in a given state. -/
def startedAt (sys : System σ α) (s : σ) : System σ α where
  init := (· = s)
  step := sys.step

/-- The states after some step of a run that is such an event. -/
inductive Passed (sys : System σ α) (event : σ → α → σ → Prop) : σ → Prop where
  | now {s s' : σ} {a : α} (run : sys.Reachable s) (move : sys.step s a s')
      (happens : event s a s') : Passed sys event s'
  | later {s s' : σ} {a : α} (passed : Passed sys event s) (move : sys.step s a s') :
      Passed sys event s'

/-- Every run that ends in the state has such an event among its steps. -/
def Unavoidable (sys : System σ α) (event : σ → α → Prop) (s : σ) : Prop :=
  ¬ sys.Reaches (fun t a => ¬ event t a) s

variable {sys : System σ α} {allowed : σ → α → Prop}

/-- A run that meets a condition meets a weaker one. -/
theorem Reaches.weaken {weaker : σ → α → Prop} {s : σ} (run : sys.Reaches allowed s)
    (permits : ∀ {s a}, allowed s a → weaker s a) : sys.Reaches weaker s := by
  induction run with
  | start initial => exact .start initial
  | next _ permitted move inductionHypothesis =>
      exact .next inductionHypothesis (permits permitted) move

/-- Dropping the condition on the steps. -/
theorem Reaches.reachable {s : σ} (run : sys.Reaches allowed s) : sys.Reachable s :=
  run.weaken fun _ => trivial

/-- A run goes on where another has ended. -/
theorem Reaches.trans {s s' : σ} (run : sys.Reaches allowed s)
    (onward : (sys.startedAt s).Reaches allowed s') : sys.Reaches allowed s' := by
  induction onward with
  | start initial =>
      cases initial
      exact run
  | next _ permitted move inductionHypothesis => exact .next inductionHypothesis permitted move

/-- What holds at the start and is kept by every permitted step holds of every state reached. The
step may use that the state it starts from is itself reached. -/
theorem Reaches.invariant {P : σ → Prop} {s : σ} (run : sys.Reaches allowed s)
    (initially : ∀ {s}, sys.init s → P s)
    (kept : ∀ {s a s'}, sys.Reaches allowed s → P s → allowed s a → sys.step s a s' → P s') :
    P s := by
  induction run with
  | start initial => exact initially initial
  | next run permitted move inductionHypothesis =>
      exact kept run inductionHypothesis permitted move

/-- What does not hold, though it holds at the start and only such an event ends it. -/
theorem Unavoidable.of_kept {event : σ → α → Prop} {P : σ → Prop} {s : σ} (broken : ¬ P s)
    (initially : ∀ {t}, sys.init t → P t)
    (kept : ∀ {t a t'}, sys.Reachable t → P t → ¬ event t a → sys.step t a t' → P t') :
    sys.Unavoidable event s := by
  intro run
  refine broken (run.invariant initially ?_)
  intro t a t' before holds quiet move
  exact kept before.reachable holds quiet move

theorem Passed.reachable {event : σ → α → σ → Prop} {s : σ} (passed : sys.Passed event s) :
    sys.Reachable s := by
  induction passed with
  | now run move _ => exact .next run trivial move
  | later _ move inductionHypothesis => exact .next inductionHypothesis trivial move

/-- What every such event brings about, and every step keeps, holds from the event on. -/
theorem Passed.kept {event : σ → α → σ → Prop} {P : σ → Prop} {s : σ} (passed : sys.Passed event s)
    (brought : ∀ {s a s'}, sys.Reachable s → sys.step s a s' → event s a s' → P s')
    (kept : ∀ {s a s'}, sys.Reachable s → P s → sys.step s a s' → P s') : P s := by
  induction passed with
  | now run move happens => exact brought run move happens
  | later before move inductionHypothesis => exact kept before.reachable inductionHypothesis move

/-- Following: seen through `view`, every permitted step of one system is a permitted step of the
other or leaves the view as it is. Then every state reached is seen as a state the other reaches. -/
theorem Reaches.follows {other : System τ β} {otherAllowed : τ → β → Prop} {view : σ → τ} {s : σ}
    (run : sys.Reaches allowed s) (initially : ∀ {s}, sys.init s → other.init (view s))
    (seen : ∀ {s a s'}, sys.Reaches allowed s → other.Reaches otherAllowed (view s) →
      allowed s a → sys.step s a s' →
      view s' = view s ∨ ∃ b, otherAllowed (view s) b ∧ other.step (view s) b (view s')) :
    other.Reaches otherAllowed (view s) := by
  induction run with
  | start initial => exact .start (initially initial)
  | next run permitted move inductionHypothesis =>
      rcases seen run inductionHypothesis permitted move with same | ⟨b, otherPermitted, otherMove⟩
      · rw [same]
        exact inductionHypothesis
      · exact .next inductionHypothesis otherPermitted otherMove

/-- Getting somewhere: from every state with a property, a permitted step that keeps it gets closer,
unless the run is there already. Induction on what is left to do. -/
theorem exists_reaches_of_measure {P Q : σ → Prop} (left : σ → Nat)
    (progress : ∀ {s}, P s →
      Q s ∨ ∃ a s', allowed s a ∧ sys.step s a s' ∧ P s' ∧ left s' < left s)
    {s : σ} (holds : P s) : ∃ s', (sys.startedAt s).Reaches allowed s' ∧ P s' ∧ Q s' := by
  induction size : left s using Nat.strongRecOn generalizing s with
  | ind n inductionHypothesis =>
      rcases progress holds with there | ⟨a, middle, permitted, move, kept, closer⟩
      · exact ⟨s, .start rfl, holds, there⟩
      · rcases inductionHypothesis _ (size ▸ closer) kept rfl with ⟨s', onward, after, there⟩
        have first : (sys.startedAt s).Reaches allowed middle := .next (.start rfl) permitted move
        exact ⟨s', first.trans onward, after, there⟩

/-- A run of an executable step function along a list of labels. -/
def execute (stepFn : α → σ → Option σ) : List α → σ → Option σ
  | [], s => some s
  | a :: rest, s => (stepFn a s).bind (execute stepFn rest)

/-- A list of labels that executes is a run; the step function may check the condition itself, of a
state that is reached. -/
theorem reaches_of_execute {stepFn : α → σ → Option σ} {labels : List α} {s s' : σ}
    (stepEq : ∀ {s a s'}, sys.Reaches allowed s → stepFn a s = some s' →
      allowed s a ∧ sys.step s a s')
    (run : sys.Reaches allowed s) (done : execute stepFn labels s = some s') :
    sys.Reaches allowed s' := by
  induction labels generalizing s with
  | nil =>
      cases done
      exact run
  | cons a rest inductionHypothesis =>
      rcases Option.bind_eq_some_iff.mp done with ⟨middle, moved, left⟩
      have ⟨permitted, move⟩ := stepEq run moved
      exact inductionHypothesis (.next run permitted move) left

/-- What the steps of the listed labels keep holds at the end. -/
theorem execute_keeps {stepFn : α → σ → Option σ} {labels : List α} {P : σ → Prop} {s s' : σ}
    (kept : ∀ a ∈ labels, ∀ {s s'}, stepFn a s = some s' → P s → P s')
    (done : execute stepFn labels s = some s') (before : P s) : P s' := by
  induction labels generalizing s with
  | nil =>
      cases done
      exact before
  | cons a rest inductionHypothesis =>
      rcases Option.bind_eq_some_iff.mp done with ⟨middle, moved, left⟩
      refine inductionHypothesis ?_ left (kept a (List.mem_cons_self ..) moved before)
      exact fun b inside => kept b (List.mem_cons_of_mem a inside)

/-- The step function, where a check is passed. -/
def guarded (check : σ → α → Bool) (stepFn : α → σ → Option σ) (a : α) (s : σ) : Option σ :=
  if check s a then stepFn a s else none

/-- A list of labels that executes under a check is a run, when the check gives the condition of the
steps in states with a property that the listed labels keep. -/
theorem reaches_of_guarded {stepFn : α → σ → Option σ} {check : σ → α → Bool} {labels : List α}
    {P : σ → Prop} {s s' : σ} (stepEq : ∀ {s a s'}, stepFn a s = some s' → sys.step s a s')
    (kept : ∀ a ∈ labels, ∀ {s s'}, stepFn a s = some s' → P s → P s')
    (permits : ∀ {s a}, P s → check s a = true → allowed s a)
    (run : sys.Reaches allowed s) (before : P s)
    (done : execute (guarded check stepFn) labels s = some s') : sys.Reaches allowed s' ∧ P s' := by
  induction labels generalizing s with
  | nil =>
      cases done
      exact ⟨run, before⟩
  | cons a rest inductionHypothesis =>
      obtain ⟨middle, moved, left⟩ := Option.bind_eq_some_iff.mp done
      obtain ⟨checked, moves⟩ := Option.ite_none_right_eq_some.mp moved
      have onward : sys.Reaches allowed middle := .next run (permits before checked) (stepEq moves)
      have after : P middle := kept a (List.mem_cons_self ..) moves before
      refine inductionHypothesis ?_ onward after left
      exact fun b inside => kept b (List.mem_cons_of_mem a inside)

/-- Evaluation shows where a list of labels leads, by a check that is passed there. -/
theorem exists_of_any {stepFn : α → σ → Option σ} {labels : List α} {s : σ} {check : σ → Bool}
    (passed : (execute stepFn labels s).any check = true) :
    ∃ s', execute stepFn labels s = some s' ∧ check s' = true := by
  cases done : execute stepFn labels s with
  | none =>
      rw [done] at passed
      cases passed
  | some s' =>
      rw [done] at passed
      exact ⟨s', rfl, passed⟩

/-- A run whose last state passes a check, which evaluation can show. -/
theorem reaches_of_any {stepFn : α → σ → Option σ} {labels : List α} {s : σ} {check : σ → Bool}
    (stepEq : ∀ {s a s'}, sys.Reaches allowed s → stepFn a s = some s' →
      allowed s a ∧ sys.step s a s')
    (run : sys.Reaches allowed s) (passed : (execute stepFn labels s).any check = true) :
    ∃ s', sys.Reaches allowed s' ∧ check s' = true := by
  rcases exists_of_any passed with ⟨s', done, checked⟩
  exact ⟨s', reaches_of_execute stepEq run done, checked⟩

end System

end Remgr.Lib
