/-
Module: Remgr.Lib.Succession
Purpose: Members that take a key over from whoever has it: look the holder up, end it, and only then
  enter themselves in the table, while others may end members and remove their keys at any moment.
  In the runs where a key has one claimant at a time and nobody enters a key that is about to be
  removed, the table lists every live member.
Trusted boundary: none
Main exports: Succession, Succession.Step, Succession.Orderly, Succession.reaches_orderly
-/
import Remgr.Lib.Transition
import Mathlib.Logic.Function.Basic

namespace Remgr.Lib

/-- Members `C` with their keys `K`. A claimant of a key has looked its holder up; the flag says
that this holder has been ended. `X` are those who end members: `ending` lists whom they still have
to end, `removing` whose key they are about to remove. -/
structure Succession (C K X : Type) where
  key : C → K
  live : C → Bool
  table : K → Option C
  claim : C → Option (K × Bool)
  ending : X → List C
  removing : X → Option C

namespace Succession

variable {C K X : Type}

/-- Every live member is listed under its key; a claimant has its predecessor before it, or nobody
is left under the key; and nobody is left under a key that is about to be removed. -/
structure Orderly (caller : C → X) (s : Succession C K X) : Prop where
  listed : ∀ ⦃c⦄, s.live c = true → s.table (s.key c) = some c
  sole : ∀ ⦃c d k b b'⦄, s.claim c = some (k, b) → s.claim d = some (k, b') → c = d
  waiting : ∀ ⦃c k d⦄, s.claim c = some (k, false) → s.live d = true → s.key d = k →
    d ∈ s.ending (caller c)
  ready : ∀ ⦃c k d⦄, s.claim c = some (k, true) → s.live d = true → s.key d ≠ k
  removal : ∀ ⦃x d c⦄, s.removing x = some d → s.live c = true → s.key c ≠ s.key d

/-- In order, a key has at most one live member. -/
theorem Orderly.live_unique {caller : C → X} {s : Succession C K X} (orderly : s.Orderly caller)
    {c d : C} (liveC : s.live c = true) (liveD : s.live d = true) (same : s.key c = s.key d) :
    c = d := by
  have first := orderly.listed liveC
  rw [same, orderly.listed liveD] at first
  exact (Option.some.inj first).symm

variable [DecidableEq C] [DecidableEq K] [DecidableEq X]

inductive Op (C K X : Type) where
  | claim (c : C) (k : K)
  | ready (c : C)
  | leave (c : C)
  | enter (c : C) (k : K)
  | advance (x : X)
  | expire
  | startRemoval (x : X)
  | remove (x : X)

/-- One step; a member that ends others does so under the name `caller` gives it. -/
inductive Step (caller : C → X) (s : Succession C K X) : Op C K X → Succession C K X → Prop where
  | claim {c : C} {k : K} {todo : List C} (all : ∀ d, s.table k = some d → d ∈ todo) :
      Step caller s (.claim c k)
        { s with
          claim := Function.update s.claim c (some (k, false))
          ending := Function.update s.ending (caller c) todo }
  | ready {c : C} {k : K} (stage : s.claim c = some (k, false))
      (ended : s.ending (caller c) = []) :
      Step caller s (.ready c)
        { s with claim := Function.update s.claim c (some (k, true)) }
  | leave {c : C} : Step caller s (.leave c) { s with claim := Function.update s.claim c none }
  | enter {c : C} {k : K} {live : Bool} (stage : s.claim c = some (k, true))
      (new : s.live c = false) (stays : ∀ x, s.removing x ≠ some c) :
      Step caller s (.enter c k)
        { s with
          claim := Function.update s.claim c none
          key := Function.update s.key c k
          live := Function.update s.live c live
          table := Function.update s.table k (some c) }
  | advance {x : X} {live : C → Bool} {todo : List C} (fewer : ∀ c, live c = true → s.live c = true)
      (done : (∀ d ∈ s.ending x, live d = true → d ∈ todo) ∨
        ∀ c k, caller c = x → s.claim c ≠ some (k, false)) :
      Step caller s (.advance x)
        { s with live := live, ending := Function.update s.ending x todo }
  | expire {live : C → Bool} (fewer : ∀ c, live c = true → s.live c = true) :
      Step caller s .expire { s with live := live }
  | startRemoval {x : X} {d : C} (finished : s.live d = false) (own : s.table (s.key d) = some d) :
      Step caller s (.startRemoval x) { s with removing := Function.update s.removing x (some d) }
  | remove {x : X} {d : C} (stage : s.removing x = some d) :
      Step caller s (.remove x)
        { s with
          table := Function.update s.table (s.key d) none
          removing := Function.update s.removing x none }

/-- Only the start of a removal makes one. -/
theorem Step.removing_eq_none {caller : C → X} {s s' : Succession C K X} {op : Op C K X} {x : X}
    (move : Step caller s op s') (noRemoval : s.removing x = none) (other : op ≠ .startRemoval x) :
    s'.removing x = none := by
  -- the parameters have no order, for which `linarith` would look on every one of them
  cases move <;> grind -linarith

/-- Nobody is there yet. -/
structure Blank (s : Succession C K X) : Prop where
  live : ∀ c, s.live c = false
  claim : ∀ c, s.claim c = none
  removing : ∀ x, s.removing x = none

def system (caller : C → X) : System (Succession C K X) (Op C K X) where
  init := Blank
  step := Step caller

/-- A key is claimed by one member at a time, and not entered while it is about to be removed. -/
def Careful (s : Succession C K X) : Op C K X → Prop
  | .claim c k => ∀ d b, s.claim d = some (k, b) → d = c
  | .enter _ k => ∀ x d, s.removing x = some d → s.key d ≠ k
  | _ => True

namespace Orderly

variable {caller : C → X} {s s' : Succession C K X} {op : Op C K X}

theorem step (injective : Function.Injective caller) (orderly : s.Orderly caller)
    (careful : s.Careful op) (move : Step caller s op s') : s'.Orderly caller := by
  have listed := orderly.listed
  have sole := orderly.sole
  have waiting := orderly.waiting
  have ready := orderly.ready
  have removal := orderly.removal
  cases move with
  | @claim c k todo all =>
      -- the only live member under the key is the one the table shows
      have others : ∀ d b, s.claim d = some (k, b) → d = c := careful
      have callers : ∀ d, caller d = caller c → d = c := fun d same => injective same
      refine ⟨listed, ?_, ?_, ?_, removal⟩ <;> intros <;> grind -linarith
  | ready stage ended => refine ⟨listed, ?_, ?_, ?_, removal⟩ <;> intros <;> grind -linarith
  | leave => refine ⟨listed, ?_, ?_, ?_, removal⟩ <;> intros <;> grind -linarith
  | @enter c k live stage new stays =>
      -- nobody is live under the key, so overwriting its entry hides nobody
      have vacant : ∀ d, s.live d = true → s.key d ≠ k := fun d => ready stage
      have kept : ∀ x d, s.removing x = some d → s.key d ≠ k := careful
      constructor <;> intros <;> grind -linarith
  | advance fewer done => refine ⟨?_, sole, ?_, ?_, ?_⟩ <;> intros <;> grind -linarith
  | expire fewer => refine ⟨?_, sole, ?_, ?_, ?_⟩ <;> intros <;> grind -linarith
  | @startRemoval x d finished own =>
      refine ⟨listed, sole, waiting, ready, ?_⟩
      intro y e c stage live same
      dsimp only at stage live same
      by_cases here : y = x
      · subst here
        rw [Function.update_self] at stage
        cases stage
        have mine := listed live
        rw [same, own] at mine
        cases mine
        rw [finished] at live
        cases live
      · rw [Function.update_of_ne here] at stage
        exact removal stage live same
  | remove stage => refine ⟨?_, sole, waiting, ready, ?_⟩ <;> intros <;> grind -linarith

end Orderly

/-- In every careful run the table is in order. -/
theorem reaches_orderly {caller : C → X} {s : Succession C K X}
    (injective : Function.Injective caller) (run : (system caller).Reaches Careful s) :
    s.Orderly caller := by
  refine run.invariant ?_ ?_
  · intro s blank
    constructor <;> intros <;> simp_all [blank.live, blank.claim, blank.removing]
  · intro s op s' _ orderly careful move
    exact orderly.step injective careful move

end Succession

end Remgr.Lib
