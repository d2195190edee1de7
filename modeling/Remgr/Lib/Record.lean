/-
Module: Remgr.Lib.Record
Purpose: Records kept on the side of a transition system: what has happened so far, noted step by
  step, without a say in what happens next. Every run can be recorded, and a recorded run is a run.
  The fullest record is the whole past, which a condition on steps can look at.
Trusted boundary: none
Main exports: System.recording, System.recordingStep, System.recorded, System.recording_reaches,
  System.Reaches.unrecorded, System.Reaches.recorded
-/
import Remgr.Lib.Transition

namespace Remgr.Lib.System

variable {σ α η : Type}

/-- The system beside a record of what has happened. -/
def recording (sys : System σ α) (blank : η) (note : σ → α → η → η) : System (σ × η) α where
  init p := sys.init p.1 ∧ p.2 = blank
  step p a p' := sys.step p.1 a p'.1 ∧ p'.2 = note p.1 a p.2

/-- A step function that keeps the record. -/
def recordingStep (stepFn : α → σ → Option σ) (note : σ → α → η → η) (a : α) (p : σ × η) :
    Option (σ × η) :=
  (stepFn a p.1).map fun s => (s, note p.1 a p.2)

/-- A state with the steps that have led to it, the latest first, each with the state it was taken
in. -/
abbrev Recorded (σ α : Type) : Type := σ × List (σ × α)

/-- The system beside its whole past. -/
abbrev recorded (sys : System σ α) : System (Recorded σ α) α :=
  sys.recording [] fun s a past => (s, a) :: past

/-- A step function that keeps the whole past. -/
abbrev recordedStep (stepFn : α → σ → Option σ) : α → Recorded σ α → Option (Recorded σ α) :=
  recordingStep stepFn fun s a past => (s, a) :: past

variable {sys : System σ α} {blank : η} {note : σ → α → η → η}

theorem recording_step_of_some {stepFn : α → σ → Option σ}
    (stepEq : ∀ {s a s'}, stepFn a s = some s' → sys.step s a s') {p p' : σ × η} {a : α}
    (moved : recordingStep stepFn note a p = some p') :
    (sys.recording blank note).step p a p' := by
  obtain ⟨s, move, rfl⟩ := Option.map_eq_some_iff.mp moved
  exact ⟨stepEq move, rfl⟩

/-- A list of labels that executes under a check, with the record kept, is a recorded run. -/
theorem recording_reaches {stepFn : α → σ → Option σ} {check : σ × η → α → Bool}
    {permitted : σ × η → α → Prop} {labels : List α} {s : σ} {p : σ × η}
    (stepEq : ∀ {s a s'}, stepFn a s = some s' → sys.step s a s')
    (permits : ∀ {p a}, check p a = true → permitted p a) (initial : sys.init s)
    (done : execute (guarded check (recordingStep stepFn note)) labels (s, blank) = some p) :
    (sys.recording blank note).Reaches permitted p := by
  refine reaches_of_execute ?_ (.start ⟨initial, rfl⟩) done
  intro p a p' _ moved
  obtain ⟨checked, moves⟩ := Option.ite_none_right_eq_some.mp moved
  exact ⟨permits checked, recording_step_of_some stepEq moves⟩

/-- What was recorded is a run. -/
theorem Reaches.unrecorded {recorded : σ × η → α → Prop} {allowed : σ → α → Prop} {p : σ × η}
    (run : (sys.recording blank note).Reaches recorded p)
    (permits : ∀ {p a}, recorded p a → allowed p.1 a) : sys.Reaches allowed p.1 := by
  induction run with
  | start initial => exact .start initial.1
  | next _ permitted move inductionHypothesis =>
      exact .next inductionHypothesis (permits permitted) move.1

/-- Every run can be recorded. -/
theorem Reaches.recorded {allowed : σ → α → Prop} {s : σ} (run : sys.Reaches allowed s) :
    ∃ h, (sys.recording blank note).Reaches (fun p => allowed p.1) (s, h) := by
  induction run with
  | start initial => exact ⟨blank, .start ⟨initial, rfl⟩⟩
  | @next s s' a _ permitted move inductionHypothesis =>
      obtain ⟨h, before⟩ := inductionHypothesis
      exact ⟨note s a h, .next before permitted ⟨move, rfl⟩⟩

end Remgr.Lib.System
