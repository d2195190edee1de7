/-
Module: Remgr.Lib.Tenancy
Purpose: Clients that reserve names, take a shared resource under a name, and publish what they
  serve, while others may remove a name, cut a client off or sweep all its names at any moment. A
  removal takes the name, the record and the resource out one after the other, and others move in
  between. One invariant holds in every run. A second one, that every resource and every record
  belongs to exactly one tenancy or removal, holds in the runs where no two clients use one name at
  a time and nothing is removed between its last check and its publication.
Trusted boundary: none
Main exports: Tenancy, Tenancy.Step, Tenancy.system, Tenancy.Sound, Tenancy.reaches_sound,
  Tenancy.Exclusive, Tenancy.reaches_exclusive, Tenancy.Exclusive.nothing_left
-/
import Remgr.Lib.Transition
import Mathlib.Logic.Function.Basic

namespace Remgr.Lib

/-- Where an acquisition stands: it has an id but no name yet, it has the name, it holds a resource,
it was found in order and is about to publish, or it was found cancelled and undoes both. -/
inductive Phase (Q : Type) where
  | entered
  | named
  | held (q : Q)
  | passed (q : Q)
  | undoing (q : Q)
  | undone
deriving DecidableEq

/-- The resource an acquisition holds. -/
def Phase.holds {Q : Type} : Phase Q → Option Q
  | .held q | .passed q | .undoing q => some q
  | _ => none

/-- An acquisition in progress. -/
structure Flight (N Q : Type) where
  reg : Nat
  name : N
  phase : Phase Q

/-- What a removal takes out next. -/
inductive RemovalPhase (Q : Type) where
  | record
  | resource (q : Q)
  | over
deriving DecidableEq

/-- What is next once the record is known. -/
def RemovalPhase.after {Q L : Type} : Option (Q × L) → RemovalPhase Q
  | none => .over
  | some (q, _) => .resource q

@[grind =] theorem RemovalPhase.after_eq_resource {Q L : Type} (record : Option (Q × L)) (q : Q) :
    RemovalPhase.after record = .resource q ↔ ∃ l, record = some (q, l) := by
  rcases record with _ | ⟨q', l⟩ <;> simp [RemovalPhase.after]

@[grind =] theorem RemovalPhase.after_eq_over {Q L : Type} (record : Option (Q × L)) :
    RemovalPhase.after record = .over ↔ record = none := by
  rcases record with _ | ⟨q', l⟩ <;> simp [RemovalPhase.after]

@[grind .] theorem RemovalPhase.after_ne_record {Q L : Type} (record : Option (Q × L)) :
    RemovalPhase.after record ≠ .record := by
  rcases record with _ | ⟨q', l⟩ <;> simp [RemovalPhase.after]

/-- The removal of a name in progress, with the acquisition it revoked. -/
structure Removal (N Q : Type) where
  reg : Nat
  name : N
  phase : RemovalPhase Q

/-- The state of all tenancies. Clients `C` live at sites `E`; resources `Q` are taken at a site
under a name `N`, and records, which carry the client's label `L`, are kept by name for all sites
together. Acquisitions are numbered, and `home` says whose and for which name. `X` are the
sweepers. -/
@[ext]
structure Tenancy (C N Q E L X : Type) where
  next : Nat
  joined : C → Bool
  site : C → E
  label : C → L
  closed : C → Bool
  entry : C × N → Option Nat
  removal : C → Option (Removal N Q)
  flight : C → Option (Flight N Q)
  home : Nat → C × N
  revoked : Nat → Bool
  published : Nat → Option Q
  running : Nat → Bool
  resource : E × Q → Option N
  record : N → Option (Q × L)
  sweeps : X → Option (C × List N)
  swept : C → Bool

namespace Tenancy

variable {C N Q E L X : Type}

/-- Cancelled, by itself or with its client. -/
def cancelled (s : Tenancy C N Q E L X) (r : Nat) : Bool := s.revoked r || s.closed (s.home r).1

/-- The acquisition `r` of client `c` is in progress and has not passed its last check. -/
def Pending (s : Tenancy C N Q E L X) (c : C) (r : Nat) : Prop :=
  ∃ n phase, s.flight c = some ⟨r, n, phase⟩ ∧ ∀ q, phase ≠ .passed q

variable [DecidableEq C] [DecidableEq N] [DecidableEq Q] [DecidableEq E]

/-- Give a resource back, only while it is held under the name. -/
def release (resource : E × Q → Option N) (key : E × Q) (n : N) : E × Q → Option N :=
  if resource key = some n then Function.update resource key none else resource

@[grind =] theorem release_apply (resource : E × Q → Option N) (key other : E × Q) (n : N) :
    release resource key n other =
      if other = key ∧ resource key = some n then none else resource other := by
  unfold release
  by_cases owned : resource key = some n
  · by_cases same : other = key <;> simp [owned, same]
  · simp [owned]

variable [DecidableEq X]

inductive Op (C N Q E L X : Type) where
  | settle (c : C) (e : E) (l : L) (cut : Bool)
  | cut (closed : C → Bool)
  | enter (c : C) (n : N)
  | refuse (c : C)
  | reserve (c : C)
  | take (c : C) (q : Q)
  | giveBack (c : C)
  | drop (c : C)
  | check (c : C)
  | undo (c : C)
  | land (c : C)
  | publish (c : C)
  | remove (c : C) (n : N)
  | strike (c : C)
  | free (c : C)
  | close (c : C)
  | collect (x : X) (c : C) (names : List N)
  | pass (x : X)
  | finish (x : X)
  | exit (r : Nat)

/-- One step of some client, some sweeper or some published service. While a removal is in progress
its client's table is locked. -/
inductive Step (s : Tenancy C N Q E L X) : Op C N Q E L X → Tenancy C N Q E L X → Prop where
  | settle {c : C} {e : E} {l : L} {cut : Bool} (new : s.joined c = false) :
      Step s (.settle c e l cut)
        { s with
          joined := Function.update s.joined c true
          site := Function.update s.site c e
          label := Function.update s.label c l
          closed := Function.update s.closed c cut
          swept := Function.update s.swept c false }
  | cut {closed : C → Bool} (grows : ∀ c, s.joined c → s.closed c → closed c) :
      Step s (.cut closed) { s with closed := closed }
  | enter {c : C} {n : N} (member : s.joined c) (free : s.flight c = none) :
      Step s (.enter c n)
        { s with
          next := s.next + 1
          flight := Function.update s.flight c (some ⟨s.next, n, .entered⟩)
          home := Function.update s.home s.next (c, n) }
  | refuse {c : C} {r : Nat} {n : N} (stage : s.flight c = some ⟨r, n, .entered⟩)
      (taken : s.entry (c, n) ≠ none) :
      Step s (.refuse c) { s with flight := Function.update s.flight c none }
  | reserve {c : C} {r : Nat} {n : N} (stage : s.flight c = some ⟨r, n, .entered⟩)
      (unlocked : s.removal c = none) (free : s.entry (c, n) = none) :
      Step s (.reserve c)
        { s with
          entry := Function.update s.entry (c, n) (some r)
          flight := Function.update s.flight c (some ⟨r, n, .named⟩) }
  | take {c : C} {r : Nat} {n : N} {q : Q} (stage : s.flight c = some ⟨r, n, .named⟩)
      (free : s.resource (s.site c, q) = none ∨ s.resource (s.site c, q) = some n) :
      Step s (.take c q)
        { s with
          resource := Function.update s.resource (s.site c, q) (some n)
          flight := Function.update s.flight c (some ⟨r, n, .held q⟩) }
  | giveBack {c : C} {r : Nat} {n : N} {q : Q} (stage : s.flight c = some ⟨r, n, .held q⟩) :
      Step s (.giveBack c)
        { s with
          resource := release s.resource (s.site c, q) n
          flight := Function.update s.flight c (some ⟨r, n, .named⟩) }
  | drop {c : C} {r : Nat} {n : N} (stage : s.flight c = some ⟨r, n, .named⟩)
      (unlocked : s.removal c = none) :
      Step s (.drop c)
        { s with
          entry := Function.update s.entry (c, n) none
          flight := Function.update s.flight c none }
  | check {c : C} {r : Nat} {n : N} {q : Q} (stage : s.flight c = some ⟨r, n, .held q⟩) :
      Step s (.check c)
        { s with
          flight := Function.update s.flight c
            (some ⟨r, n, if s.cancelled r then .undoing q else .passed q⟩) }
  | undo {c : C} {r : Nat} {n : N} {q : Q} (stage : s.flight c = some ⟨r, n, .undoing q⟩) :
      Step s (.undo c)
        { s with
          resource := release s.resource (s.site c, q) n
          flight := Function.update s.flight c (some ⟨r, n, .undone⟩) }
  | land {c : C} {r : Nat} {n : N} (stage : s.flight c = some ⟨r, n, .undone⟩)
      (gone : s.entry (c, n) = none)
      (ended : ∀ ⦃r n phase⦄, s.removal c = some ⟨r, n, phase⟩ → phase = .over) :
      Step s (.land c)
        { s with
          removal := Function.update s.removal c none
          flight := Function.update s.flight c none }
  | publish {c : C} {r : Nat} {n : N} {q : Q} (stage : s.flight c = some ⟨r, n, .passed q⟩) :
      Step s (.publish c)
        { s with
          record := Function.update s.record n (some (q, s.label c))
          published := Function.update s.published r (some q)
          running := Function.update s.running r true
          flight := Function.update s.flight c none }
  | remove {c : C} {n : N} {r : Nat} (unlocked : s.removal c = none)
      (found : s.entry (c, n) = some r) :
      Step s (.remove c n)
        { s with
          entry := Function.update s.entry (c, n) none
          revoked := Function.update s.revoked r true
          removal := Function.update s.removal c (some ⟨r, n, .record⟩) }
  | strike {c : C} {r : Nat} {n : N} (stage : s.removal c = some ⟨r, n, .record⟩) :
      Step s (.strike c)
        { s with
          record := Function.update s.record n none
          removal := Function.update s.removal c (some ⟨r, n, .after (s.record n)⟩) }
  | free {c : C} {r : Nat} {n : N} {q : Q} (stage : s.removal c = some ⟨r, n, .resource q⟩) :
      Step s (.free c)
        { s with
          resource := release s.resource (s.site c, q) n
          removal := Function.update s.removal c (some ⟨r, n, .over⟩) }
  | close {c : C} {r : Nat} {n : N} (stage : s.removal c = some ⟨r, n, .over⟩) :
      Step s (.close c) { s with removal := Function.update s.removal c none }
  | collect {x : X} {c : C} {names : List N} (member : s.joined c) (cut : s.closed c)
      (unlocked : s.removal c = none) (all : ∀ n, s.entry (c, n) ≠ none → n ∈ names) :
      Step s (.collect x c names)
        { s with sweeps := Function.update s.sweeps x (some (c, names)) }
  | pass {x : X} {c : C} {n : N} {rest : List N} (stage : s.sweeps x = some (c, n :: rest))
      (gone : s.entry (c, n) = none)
      (ended : ∀ ⦃r n phase⦄, s.removal c = some ⟨r, n, phase⟩ → phase = .over) :
      Step s (.pass x)
        { s with
          removal := Function.update s.removal c none
          sweeps := Function.update s.sweeps x (some (c, rest)) }
  | finish {x : X} {c : C} (stage : s.sweeps x = some (c, [])) :
      Step s (.finish x)
        { s with
          sweeps := Function.update s.sweeps x none
          swept := Function.update s.swept c true }
  | exit {r : Nat} (finished : s.cancelled r) :
      Step s (.exit r) { s with running := Function.update s.running r false }

/-- Nothing has happened yet. -/
structure Blank (s : Tenancy C N Q E L X) : Prop where
  entry : ∀ key, s.entry key = none
  removal : ∀ c, s.removal c = none
  flight : ∀ c, s.flight c = none
  joined : ∀ c, s.joined c = false
  revoked : ∀ r, s.revoked r = false
  published : ∀ r, s.published r = none
  running : ∀ r, s.running r = false
  resource : ∀ key, s.resource key = none
  record : ∀ n, s.record n = none
  sweeps : ∀ x, s.sweeps x = none

def system (C N Q E L X : Type) [DecidableEq C] [DecidableEq N] [DecidableEq Q] [DecidableEq E]
    [DecidableEq X] : System (Tenancy C N Q E L X) (Op C N Q E L X) where
  init := Blank
  step := Step

/-- What one step can do to a removal in progress. -/
theorem Step.removal_cases {s s' : Tenancy C N Q E L X} {op : Op C N Q E L X} (move : Step s op s')
    {c : C} {r : Nat} {n : N} {phase : RemovalPhase Q} (stage : s.removal c = some ⟨r, n, phase⟩) :
    s'.removal c = some ⟨r, n, phase⟩ ∨
      (phase = .record ∧ s'.removal c = some ⟨r, n, .after (s.record n)⟩ ∧ s'.record n = none) ∨
      (∃ q, phase = .resource q ∧ s'.removal c = some ⟨r, n, .over⟩ ∧
        s'.resource (s.site c, q) ≠ some n) ∨
      phase = .over ∧ s'.removal c = none := by
  -- the parameters have no order, for which `linarith` would look on every one of them
  cases move with
  | land | remove | strike | free | close | pass => grind -linarith
  | _ => exact .inl stage

/-! ## What holds in every run -/

structure Sound (s : Tenancy C N Q E L X) : Prop where
  entry_home : ∀ ⦃c n r⦄, s.entry (c, n) = some r →
    s.home r = (c, n) ∧ r < s.next ∧ s.revoked r = false ∧ s.joined c = true
  entry_used : ∀ ⦃c n r⦄, s.entry (c, n) = some r →
    s.published r ≠ none ∨ ∃ phase, s.flight c = some ⟨r, n, phase⟩ ∧ phase ≠ .entered
  flight_home : ∀ ⦃c r n phase⦄, s.flight c = some ⟨r, n, phase⟩ →
    s.home r = (c, n) ∧ r < s.next ∧ s.joined c = true ∧ s.published r = none
  flight_entered : ∀ ⦃c r n⦄, s.flight c = some ⟨r, n, .entered⟩ → s.revoked r = false
  flight_entry : ∀ ⦃c r n phase⦄, s.flight c = some ⟨r, n, phase⟩ → phase ≠ .entered →
    s.entry (c, n) = some r ∨ s.entry (c, n) = none ∧ s.revoked r = true
  fresh : ∀ ⦃r⦄, s.next ≤ r → s.revoked r = false ∧ s.published r = none
  published_entry : ∀ ⦃r⦄, s.published r ≠ none → s.entry (s.home r) = some r ∨ s.revoked r = true
  running_published : ∀ ⦃r⦄, s.running r = true → s.published r ≠ none
  entry_running : ∀ ⦃c n r⦄, s.entry (c, n) = some r → s.published r ≠ none →
    s.running r = true ∨ s.closed c = true
  sweep_closed : ∀ ⦃x c todo⦄, s.sweeps x = some (c, todo) → s.joined c = true ∧ s.closed c = true
  sweep_covers : ∀ ⦃x c todo n r⦄, s.sweeps x = some (c, todo) → s.entry (c, n) = some r →
    n ∈ todo ∨ s.Pending c r
  swept_closed : ∀ ⦃c⦄, s.joined c = true → s.swept c = true → s.closed c = true
  swept_covers : ∀ ⦃c n r⦄, s.joined c = true → s.swept c = true → s.entry (c, n) = some r →
    s.Pending c r
  removal_home : ∀ ⦃c r n phase⦄, s.removal c = some ⟨r, n, phase⟩ →
    s.home r = (c, n) ∧ r < s.next ∧ s.revoked r = true ∧ s.joined c = true
  removal_entry : ∀ ⦃c r n phase⦄, s.removal c = some ⟨r, n, phase⟩ → s.entry (c, n) = none
  removal_flight : ∀ ⦃c r n phase r' phase'⦄, s.removal c = some ⟨r, n, phase⟩ →
    s.flight c = some ⟨r', n, phase'⟩ → phase' ≠ .entered → r' = r
  removal_sweep : ∀ ⦃c r n phase x todo⦄, s.removal c = some ⟨r, n, phase⟩ →
    s.sweeps x = some (c, todo) → n ∈ todo ∨ s.Pending c r
  removal_swept : ∀ ⦃c r n phase⦄, s.removal c = some ⟨r, n, phase⟩ → s.swept c = true →
    s.Pending c r

namespace Sound

variable {s s' : Tenancy C N Q E L X} {op : Op C N Q E L X}

theorem entry_home_step (sound : s.Sound) (move : Step s op s') {c : C} {n : N} {r : Nat} :
    s'.entry (c, n) = some r →
      s'.home r = (c, n) ∧ r < s'.next ∧ s'.revoked r = false ∧ s'.joined c = true := by
  have home := sound.entry_home
  have flightHome := sound.flight_home
  have entered := sound.flight_entered
  cases move with
  | settle | enter | reserve | drop | remove => grind -linarith
  | _ => exact fun found => home found

theorem entry_used_step (sound : s.Sound) (move : Step s op s') {c : C} {n : N} {r : Nat}
    (found : s'.entry (c, n) = some r) :
    s'.published r ≠ none ∨ ∃ phase, s'.flight c = some ⟨r, n, phase⟩ ∧ phase ≠ .entered := by
  have used := sound.entry_used
  have home := sound.entry_home
  have flightHome := sound.flight_home
  have flightEntry := sound.flight_entry
  cases move with
  | @reserve c' r' n' stage free =>
      by_cases same : (c, n) = (c', n')
      · exact .inr ⟨.named, by grind -linarith, by grind -linarith⟩
      · grind -linarith
  | enter | refuse | take | giveBack | drop | check | undo | land | publish | remove => grind -linarith
  | _ => exact used found

theorem flight_home_step (sound : s.Sound) (move : Step s op s') {c : C} {r : Nat} {n : N}
    {phase : Phase Q} : s'.flight c = some ⟨r, n, phase⟩ →
      s'.home r = (c, n) ∧ r < s'.next ∧ s'.joined c = true ∧ s'.published r = none := by
  have flightHome := sound.flight_home
  have fresh := sound.fresh
  cases move with
  | settle | enter | refuse | reserve | take | giveBack | drop | check | undo | land | publish =>
      grind -linarith
  | _ => exact fun stage => flightHome stage

theorem flight_entered_step (sound : s.Sound) (move : Step s op s') {c : C} {r : Nat} {n : N} :
    s'.flight c = some ⟨r, n, .entered⟩ → s'.revoked r = false := by
  have entered := sound.flight_entered
  have used := sound.entry_used
  have home := sound.entry_home
  have flightHome := sound.flight_home
  have fresh := sound.fresh
  cases move with
  | enter | refuse | reserve | take | giveBack | drop | check | undo | land | publish | remove =>
      grind -linarith
  | _ => exact fun stage => entered stage

theorem flight_entry_step (sound : s.Sound) (move : Step s op s') {c : C} {r : Nat} {n : N}
    {phase : Phase Q} : s'.flight c = some ⟨r, n, phase⟩ → phase ≠ .entered →
      s'.entry (c, n) = some r ∨ s'.entry (c, n) = none ∧ s'.revoked r = true := by
  have flightEntry := sound.flight_entry
  have home := sound.entry_home
  have flightHome := sound.flight_home
  cases move with
  | enter | refuse | reserve | take | giveBack | drop | check | undo | land | publish | remove =>
      grind -linarith
  | _ => exact fun stage named => flightEntry stage named

theorem fresh_step (sound : s.Sound) (move : Step s op s') {r : Nat} :
    s'.next ≤ r → s'.revoked r = false ∧ s'.published r = none := by
  have fresh := sound.fresh
  have home := sound.entry_home
  have flightHome := sound.flight_home
  cases move with
  | enter | publish | remove => grind -linarith
  | _ => exact fun unused => fresh unused

theorem published_entry_step (sound : s.Sound) (move : Step s op s') {r : Nat} :
    s'.published r ≠ none → s'.entry (s'.home r) = some r ∨ s'.revoked r = true := by
  have publishedEntry := sound.published_entry
  have flightEntry := sound.flight_entry
  have flightHome := sound.flight_home
  have fresh := sound.fresh
  have home := sound.entry_home
  cases move with
  | enter | reserve | drop | publish | remove => grind -linarith
  | _ => exact fun published => publishedEntry published

theorem running_published_step (sound : s.Sound) (move : Step s op s') {r : Nat} :
    s'.running r = true → s'.published r ≠ none := by
  have runningPublished := sound.running_published
  cases move with
  | publish | exit => grind -linarith
  | _ => exact fun runs => runningPublished runs

theorem entry_running_step (sound : s.Sound) (move : Step s op s') {c : C} {n : N} {r : Nat} :
    s'.entry (c, n) = some r → s'.published r ≠ none →
      s'.running r = true ∨ s'.closed c = true := by
  have entryRunning := sound.entry_running
  have home := sound.entry_home
  have flightHome := sound.flight_home
  cases move with
  | settle | cut | reserve | drop | publish | remove | exit => grind -linarith [cancelled]
  | _ => exact fun found published => entryRunning found published

theorem sweep_closed_step (sound : s.Sound) (move : Step s op s') {x : X} {c : C}
    {todo : List N} : s'.sweeps x = some (c, todo) → s'.joined c = true ∧ s'.closed c = true := by
  have sweepClosed := sound.sweep_closed
  cases move with
  | settle | cut | collect | pass | finish => grind -linarith
  | _ => exact fun sweeping => sweepClosed sweeping

theorem sweep_covers_step (sound : s.Sound) (move : Step s op s') {x : X} {c : C}
    {todo : List N} {n : N} {r : Nat} : s'.sweeps x = some (c, todo) →
      s'.entry (c, n) = some r → n ∈ todo ∨ s'.Pending c r := by
  have sweepCovers := sound.sweep_covers
  have sweepClosed := sound.sweep_closed
  have used := sound.entry_used
  have home := sound.entry_home
  have flightHome := sound.flight_home
  cases move with
  | enter | refuse | reserve | take | giveBack | drop | check | undo | land | publish | remove
  | collect | pass | finish => grind -linarith [cancelled, Pending]
  | _ => exact fun sweeping found => sweepCovers sweeping found

theorem swept_closed_step (sound : s.Sound) (move : Step s op s') {c : C} :
    s'.joined c = true → s'.swept c = true → s'.closed c = true := by
  have sweptClosed := sound.swept_closed
  have sweepClosed := sound.sweep_closed
  cases move with
  | settle | cut | finish => grind -linarith
  | _ => exact fun joined swept => sweptClosed joined swept

theorem swept_covers_step (sound : s.Sound) (move : Step s op s') {c : C} {n : N} {r : Nat} :
    s'.joined c = true → s'.swept c = true → s'.entry (c, n) = some r → s'.Pending c r := by
  have sweptCovers := sound.swept_covers
  have sweptClosed := sound.swept_closed
  have sweepCovers := sound.sweep_covers
  have used := sound.entry_used
  have home := sound.entry_home
  have flightHome := sound.flight_home
  cases move with
  | settle | enter | refuse | reserve | take | giveBack | drop | check | undo | land | publish
  | remove | finish => grind -linarith [cancelled, Pending]
  | _ => exact fun joined swept found => sweptCovers joined swept found

theorem removal_home_step (sound : s.Sound) (move : Step s op s') {c : C} {r : Nat} {n : N}
    {phase : RemovalPhase Q} : s'.removal c = some ⟨r, n, phase⟩ →
      s'.home r = (c, n) ∧ r < s'.next ∧ s'.revoked r = true ∧ s'.joined c = true := by
  have removalHome := sound.removal_home
  have home := sound.entry_home
  cases move with
  | settle | enter | land | remove | strike | free | close | pass => grind -linarith
  | _ => exact fun stage => removalHome stage

theorem removal_entry_step (sound : s.Sound) (move : Step s op s') {c : C} {r : Nat} {n : N}
    {phase : RemovalPhase Q} : s'.removal c = some ⟨r, n, phase⟩ → s'.entry (c, n) = none := by
  have removalEntry := sound.removal_entry
  cases move with
  | reserve | drop | land | remove | strike | free | close | pass => grind -linarith
  | _ => exact fun stage => removalEntry stage

theorem removal_flight_step (sound : s.Sound) (move : Step s op s') {c : C} {r : Nat} {n : N}
    {phase : RemovalPhase Q} {r' : Nat} {phase' : Phase Q} : s'.removal c = some ⟨r, n, phase⟩ →
      s'.flight c = some ⟨r', n, phase'⟩ → phase' ≠ .entered → r' = r := by
  have removalFlight := sound.removal_flight
  have flightEntry := sound.flight_entry
  cases move with
  | enter | refuse | reserve | take | giveBack | drop | check | undo | land | publish | remove
  | strike | free | close | pass => grind -linarith
  | _ => exact fun stage inFlight named => removalFlight stage inFlight named

theorem removal_sweep_step (sound : s.Sound) (move : Step s op s') {c : C} {r : Nat} {n : N}
    {phase : RemovalPhase Q} {x : X} {todo : List N} : s'.removal c = some ⟨r, n, phase⟩ →
      s'.sweeps x = some (c, todo) → n ∈ todo ∨ s'.Pending c r := by
  have removalSweep := sound.removal_sweep
  have removalHome := sound.removal_home
  have sweepCovers := sound.sweep_covers
  have entered := sound.flight_entered
  have flightHome := sound.flight_home
  cases move with
  | enter | refuse | reserve | take | giveBack | drop | check | undo | land | publish | remove
  | strike | free | close | collect | pass | finish => grind -linarith [cancelled, Pending]
  | _ => exact fun stage sweeping => removalSweep stage sweeping

theorem removal_swept_step (sound : s.Sound) (move : Step s op s') {c : C} {r : Nat} {n : N}
    {phase : RemovalPhase Q} : s'.removal c = some ⟨r, n, phase⟩ → s'.swept c = true →
      s'.Pending c r := by
  have removalSwept := sound.removal_swept
  have removalSweep := sound.removal_sweep
  have removalHome := sound.removal_home
  have sweptCovers := sound.swept_covers
  have home := sound.entry_home
  have entered := sound.flight_entered
  have flightHome := sound.flight_home
  cases move with
  | settle | enter | refuse | reserve | take | giveBack | drop | check | undo | land | publish
  | remove | strike | free | close | pass | finish => grind -linarith [cancelled, Pending]
  | _ => exact fun stage swept => removalSwept stage swept

/-- Nothing takes a service back, and a client's table never gets back one that is published. -/
theorem published_step (sound : s.Sound) (move : Step s op s') {r : Nat}
    (published : s.published r ≠ none) :
    s'.published r ≠ none ∧ ∀ ⦃c n⦄, s'.entry (c, n) = some r → s.entry (c, n) = some r := by
  have flightHome := sound.flight_home
  constructor
  · cases move with
    | publish => grind -linarith
    | _ => exact published
  · intro c n
    cases move with
    | reserve | drop | remove => grind -linarith
    | _ => exact fun found => found

/-- What has been published stays as it is, and so does whose it is. -/
theorem published_kept (sound : s.Sound) (move : Step s op s') {r : Nat} {q : Q}
    (published : s.published r = some q) :
    s'.published r = some q ∧ s'.home r = s.home r := by
  have flightHome := sound.flight_home
  have fresh := sound.fresh
  cases move with
  | enter | publish => grind -linarith
  | _ => exact ⟨published, rfl⟩

/-- Every step keeps the invariant. -/
theorem step (sound : s.Sound) (move : Step s op s') : s'.Sound where
  entry_home _ _ _ := sound.entry_home_step move
  entry_used _ _ _ := sound.entry_used_step move
  flight_home _ _ _ _ := sound.flight_home_step move
  flight_entered _ _ _ := sound.flight_entered_step move
  flight_entry _ _ _ _ := sound.flight_entry_step move
  fresh _ := sound.fresh_step move
  published_entry _ := sound.published_entry_step move
  running_published _ := sound.running_published_step move
  entry_running _ _ _ := sound.entry_running_step move
  sweep_closed _ _ _ := sound.sweep_closed_step move
  sweep_covers _ _ _ _ _ := sound.sweep_covers_step move
  swept_closed _ := sound.swept_closed_step move
  swept_covers _ _ _ := sound.swept_covers_step move
  removal_home _ _ _ _ := sound.removal_home_step move
  removal_entry _ _ _ _ := sound.removal_entry_step move
  removal_flight _ _ _ _ _ _ := sound.removal_flight_step move
  removal_sweep _ _ _ _ _ _ := sound.removal_sweep_step move
  removal_swept _ _ _ _ := sound.removal_swept_step move

end Sound

omit [DecidableEq C] [DecidableEq N] [DecidableEq Q] [DecidableEq E] [DecidableEq X] in
/-- A blank state is in order: there is nothing to be said of it. -/
theorem Blank.sound {s : Tenancy C N Q E L X} (blank : s.Blank) : s.Sound := by
  rcases blank with
    ⟨entry, removal, flight, joined, revoked, published, running, resource, record, sweeps⟩
  constructor <;> simp_all

theorem reaches_sound {allowed : Tenancy C N Q E L X → Op C N Q E L X → Prop}
    {s : Tenancy C N Q E L X} (run : (system C N Q E L X).Reaches allowed s) : s.Sound :=
  run.invariant (fun blank => Blank.sound blank) (fun _ sound _ move => sound.step move)

/-! ## What holds while names are exclusive -/

/-- The client has the name in its table, or an acquisition for it that has got as far as that, or
is having it removed. -/
def Uses (s : Tenancy C N Q E L X) (c : C) (n : N) : Prop :=
  s.entry (c, n) ≠ none ∨ (∃ r phase, s.flight c = some ⟨r, n, phase⟩ ∧ phase ≠ .entered) ∨
    ∃ r phase, s.removal c = some ⟨r, n, phase⟩

/-- Steps that respect exclusive names: a name is reserved only while no other client uses it, and
no name is removed whose acquisition has passed its last check but is not published yet. -/
def Careful (s : Tenancy C N Q E L X) : Op C N Q E L X → Prop
  | .reserve c => ∀ r n, s.flight c = some ⟨r, n, .entered⟩ → ∀ d, s.Uses d n → d = c
  | .remove c n => ∀ r q, s.flight c ≠ some ⟨r, n, .passed q⟩
  | _ => True

structure Exclusive (s : Tenancy C N Q E L X) : Prop where
  unique : ∀ ⦃c d n⦄, s.Uses c n → s.Uses d n → c = d
  held : ∀ ⦃c r n phase q⦄, s.flight c = some ⟨r, n, phase⟩ → phase.holds = some q →
    s.resource (s.site c, q) = some n
  live : ∀ ⦃c n r q⦄, s.entry (c, n) = some r → s.published r = some q →
    s.record n = some (q, s.label c) ∧ s.resource (s.site c, q) = some n
  unstruck : ∀ ⦃c r n q⦄, s.removal c = some ⟨r, n, .record⟩ → s.published r = some q →
    s.record n = some (q, s.label c) ∧ s.resource (s.site c, q) = some n
  struck : ∀ ⦃c r n q⦄, s.removal c = some ⟨r, n, .resource q⟩ →
    s.published r = some q ∧ s.record n = none ∧ s.resource (s.site c, q) = some n
  freed : ∀ ⦃c r n q⦄, s.removal c = some ⟨r, n, .over⟩ → s.published r = some q →
    s.record n = none ∧ s.resource (s.site c, q) ≠ some n
  resource_owner : ∀ ⦃e q n⦄, s.resource (e, q) = some n →
    ∃ c, s.site c = e ∧ ((∃ r phase, s.flight c = some ⟨r, n, phase⟩ ∧ phase.holds = some q) ∨
      (∃ r, s.entry (c, n) = some r ∧ s.published r = some q) ∨
      ∃ r phase, s.removal c = some ⟨r, n, phase⟩ ∧ phase ≠ .over ∧ s.published r = some q)
  record_owner : ∀ ⦃n q l⦄, s.record n = some (q, l) →
    (∃ c r, s.entry (c, n) = some r ∧ s.published r = some q) ∨
      ∃ c r, s.removal c = some ⟨r, n, .record⟩ ∧ s.published r = some q
  passed : ∀ ⦃c r n q⦄, s.flight c = some ⟨r, n, .passed q⟩ → s.entry (c, n) = some r

section Uses

variable {s : Tenancy C N Q E L X} {c : C} {n : N} {r : Nat}

omit [DecidableEq C] [DecidableEq N] [DecidableEq Q] [DecidableEq E] [DecidableEq X] in
theorem uses_entry (found : s.entry (c, n) = some r) : s.Uses c n :=
  .inl (Option.ne_none_iff_exists'.mpr ⟨r, found⟩)

omit [DecidableEq C] [DecidableEq N] [DecidableEq Q] [DecidableEq E] [DecidableEq X] in
theorem uses_flight {phase : Phase Q} (found : s.flight c = some ⟨r, n, phase⟩)
    (named : phase ≠ .entered) : s.Uses c n :=
  .inr (.inl ⟨r, phase, found, named⟩)

omit [DecidableEq C] [DecidableEq N] [DecidableEq Q] [DecidableEq E] [DecidableEq X] in
theorem uses_removal {phase : RemovalPhase Q} (found : s.removal c = some ⟨r, n, phase⟩) :
    s.Uses c n :=
  .inr (.inr ⟨r, phase, found⟩)

end Uses

/-- Only a reservation makes a client use a name it did not use before. -/
theorem Step.uses {s s' : Tenancy C N Q E L X} {op : Op C N Q E L X} (move : Step s op s') {c : C}
    {n : N} (uses : s'.Uses c n) :
    s.Uses c n ∨ op = .reserve c ∧ ∃ r, s.flight c = some ⟨r, n, .entered⟩ := by
  unfold Uses at *
  cases move with
  | enter | refuse | reserve | take | giveBack | drop | check | undo | land | publish | remove
  | strike | free | close | pass => grind -linarith
  | _ => exact .inl uses

namespace Exclusive

variable {s s' : Tenancy C N Q E L X} {op : Op C N Q E L X}

theorem unique_step (exclusive : s.Exclusive) (careful : s.Careful op)
    (move : Step s op s') {c d : C} {n : N} (first : s'.Uses c n) (second : s'.Uses d n) :
    c = d := by
  rcases move.uses first with old | ⟨rfl, r, entered⟩
  · rcases move.uses second with alsoOld | ⟨rfl, r, entered⟩
    · exact exclusive.unique old alsoOld
    · exact careful r n entered c old
  · rcases move.uses second with old | ⟨same, _⟩
    · exact (careful r n entered d old).symm
    · cases same
      rfl

omit [DecidableEq C] [DecidableEq N] [DecidableEq Q] [DecidableEq E] [DecidableEq X] in
theorem entry_flight_meet (exclusive : s.Exclusive) ⦃c d : C⦄ ⦃n : N⦄ ⦃r r' : Nat⦄
    ⦃phase : Phase Q⦄ (first : s.entry (c, n) = some r)
    (second : s.flight d = some ⟨r', n, phase⟩) (named : phase ≠ .entered) : c = d :=
  exclusive.unique (uses_entry first) (uses_flight second named)

omit [DecidableEq C] [DecidableEq N] [DecidableEq Q] [DecidableEq E] [DecidableEq X] in
theorem flights_meet (exclusive : s.Exclusive) ⦃c d : C⦄ ⦃n : N⦄ ⦃r r' : Nat⦄
    ⦃phase phase' : Phase Q⦄ (first : s.flight c = some ⟨r, n, phase⟩) (named : phase ≠ .entered)
    (second : s.flight d = some ⟨r', n, phase'⟩) (named' : phase' ≠ .entered) : c = d :=
  exclusive.unique (uses_flight first named) (uses_flight second named')

omit [DecidableEq C] [DecidableEq N] [DecidableEq Q] [DecidableEq E] [DecidableEq X] in
theorem entry_removal_meet (exclusive : s.Exclusive) ⦃c d : C⦄ ⦃n : N⦄ ⦃r r' : Nat⦄
    ⦃phase : RemovalPhase Q⦄ (first : s.entry (c, n) = some r)
    (second : s.removal d = some ⟨r', n, phase⟩) : c = d :=
  exclusive.unique (uses_entry first) (uses_removal second)

omit [DecidableEq C] [DecidableEq N] [DecidableEq Q] [DecidableEq E] [DecidableEq X] in
theorem flight_removal_meet (exclusive : s.Exclusive) ⦃c d : C⦄ ⦃n : N⦄ ⦃r r' : Nat⦄
    ⦃phase : Phase Q⦄ ⦃phase' : RemovalPhase Q⦄ (first : s.flight c = some ⟨r, n, phase⟩)
    (named : phase ≠ .entered) (second : s.removal d = some ⟨r', n, phase'⟩) : c = d :=
  exclusive.unique (uses_flight first named) (uses_removal second)

omit [DecidableEq C] [DecidableEq N] [DecidableEq Q] [DecidableEq E] [DecidableEq X] in
theorem removals_meet (exclusive : s.Exclusive) ⦃c d : C⦄ ⦃n : N⦄ ⦃r r' : Nat⦄
    ⦃phase phase' : RemovalPhase Q⦄ (first : s.removal c = some ⟨r, n, phase⟩)
    (second : s.removal d = some ⟨r', n, phase'⟩) : c = d :=
  exclusive.unique (uses_removal first) (uses_removal second)

omit [DecidableEq C] [DecidableEq N] [DecidableEq Q] [DecidableEq E] [DecidableEq X] in
/-- What a record says while its name is being removed is what the removed acquisition published. -/
theorem recorded_removal (sound : s.Sound) (exclusive : s.Exclusive) ⦃c : C⦄ ⦃n : N⦄ ⦃r : Nat⦄
    ⦃q : Q⦄ ⦃l : L⦄ (stage : s.removal c = some ⟨r, n, .record⟩)
    (recorded : s.record n = some (q, l)) : s.published r = some q := by
  have gone := sound.removal_entry stage
  rcases exclusive.record_owner recorded with ⟨d, r', found, _⟩ | ⟨d, r', removing, published⟩
  · rw [exclusive.entry_removal_meet found stage, gone] at found
    cases found
  · rw [exclusive.removals_meet removing stage, stage] at removing
    cases removing
    exact published

theorem held_step (sound : s.Sound) (exclusive : s.Exclusive)
    (move : Step s op s') {c : C} {r : Nat} {n : N} {phase : Phase Q} {q : Q} :
    s'.flight c = some ⟨r, n, phase⟩ → phase.holds = some q →
      s'.resource (s'.site c, q) = some n := by
  have held := exclusive.held
  have flightsMeet := exclusive.flights_meet
  have flightRemovalMeet := exclusive.flight_removal_meet
  have removalFlight := sound.removal_flight
  have flightHome := sound.flight_home
  have struck := exclusive.struck
  have entered : ∀ {q}, phase.holds = some q → phase ≠ .entered := by
    intro q holds isEntered
    rw [isEntered] at holds
    cases holds
  cases move with
  | settle | enter | refuse | reserve | take | giveBack | drop | check | undo | land | publish
  | free => grind -linarith [Phase.holds]
  | _ => exact fun stage holds => held stage holds

theorem live_step (sound : s.Sound) (exclusive : s.Exclusive)
    (move : Step s op s') {c : C} {n : N} {r : Nat} {q : Q} (found : s'.entry (c, n) = some r)
    (published : s'.published r = some q) :
    s'.record n = some (q, s'.label c) ∧ s'.resource (s'.site c, q) = some n := by
  have held := exclusive.held
  have entryFlightMeet := exclusive.entry_flight_meet
  have entryRemovalMeet := exclusive.entry_removal_meet
  have live := exclusive.live
  have home := sound.entry_home
  have removalEntry := sound.removal_entry
  have flightEntry := sound.flight_entry
  have flightHome := sound.flight_home
  cases move with
  | settle | reserve | take | giveBack | drop | undo | publish | remove | strike | free =>
      grind -linarith [Phase.holds]
  | _ => exact live found published

theorem unstruck_step (sound : s.Sound) (exclusive : s.Exclusive)
    (move : Step s op s') {c : C} {n : N} {r : Nat} {q : Q}
    (stage : s'.removal c = some ⟨r, n, .record⟩) (published : s'.published r = some q) :
    s'.record n = some (q, s'.label c) ∧ s'.resource (s'.site c, q) = some n := by
  have unstruck := exclusive.unstruck
  have live := exclusive.live
  have flightRemovalMeet := exclusive.flight_removal_meet
  have removalsMeet := exclusive.removals_meet
  have removalFlight := sound.removal_flight
  have removalHome := sound.removal_home
  have flightHome := sound.flight_home
  have passed := exclusive.passed
  have removalEntry := sound.removal_entry
  cases move with
  | settle | take | giveBack | undo | land | publish | remove | strike | free | close | pass =>
      grind -linarith
  | _ => exact unstruck stage published

theorem struck_step (sound : s.Sound) (exclusive : s.Exclusive)
    (move : Step s op s') {c : C} {n : N} {r : Nat} {q : Q}
    (stage : s'.removal c = some ⟨r, n, .resource q⟩) :
    s'.published r = some q ∧ s'.record n = none ∧ s'.resource (s'.site c, q) = some n := by
  have unstruck := exclusive.unstruck
  have struck := exclusive.struck
  have recorded := exclusive.recorded_removal sound
  have flightRemovalMeet := exclusive.flight_removal_meet
  have removalsMeet := exclusive.removals_meet
  have removalFlight := sound.removal_flight
  have removalHome := sound.removal_home
  have flightHome := sound.flight_home
  have passed := exclusive.passed
  have removalEntry := sound.removal_entry
  cases move with
  | settle | take | giveBack | undo | land | publish | remove | strike | free | close | pass =>
      grind -linarith
  | _ => exact struck stage

theorem freed_step (sound : s.Sound) (exclusive : s.Exclusive)
    (move : Step s op s') {c : C} {n : N} {r : Nat} {q : Q}
    (stage : s'.removal c = some ⟨r, n, .over⟩) (published : s'.published r = some q) :
    s'.record n = none ∧ s'.resource (s'.site c, q) ≠ some n := by
  have unstruck := exclusive.unstruck
  have struck := exclusive.struck
  have freed := exclusive.freed
  have flightRemovalMeet := exclusive.flight_removal_meet
  have removalsMeet := exclusive.removals_meet
  have removalFlight := sound.removal_flight
  have removalHome := sound.removal_home
  have flightHome := sound.flight_home
  have passed := exclusive.passed
  have removalEntry := sound.removal_entry
  cases move with
  | settle | take | giveBack | undo | land | publish | remove | strike | free | close | pass =>
      grind -linarith
  | _ => exact freed stage published

theorem resource_owner_step (sound : s.Sound) (exclusive : s.Exclusive)
    (move : Step s op s') {e : E} {q : Q} {n : N} (owned : s'.resource (e, q) = some n) :
    ∃ c, s'.site c = e ∧ ((∃ r phase, s'.flight c = some ⟨r, n, phase⟩ ∧ phase.holds = some q) ∨
      (∃ r, s'.entry (c, n) = some r ∧ s'.published r = some q) ∨
      ∃ r phase, s'.removal c = some ⟨r, n, phase⟩ ∧ phase ≠ .over ∧
        s'.published r = some q) := by
  have owner := exclusive.resource_owner
  have passed := exclusive.passed
  have flightEntry := sound.flight_entry
  have flightHome := sound.flight_home
  have home := sound.entry_home
  have removalHome := sound.removal_home
  have unstruck := exclusive.unstruck
  have struck := exclusive.struck
  cases move with
  | settle | enter | refuse | reserve | take | giveBack | drop | check | undo | land | publish
  | remove | strike | free | close | pass => grind -linarith [Phase.holds]
  | _ => exact owner owned

theorem record_owner_step (sound : s.Sound) (exclusive : s.Exclusive)
    (move : Step s op s') {n : N} {q : Q} {l : L} (recorded : s'.record n = some (q, l)) :
    (∃ c r, s'.entry (c, n) = some r ∧ s'.published r = some q) ∨
      ∃ c r, s'.removal c = some ⟨r, n, .record⟩ ∧ s'.published r = some q := by
  have owner := exclusive.record_owner
  have passed := exclusive.passed
  have home := sound.entry_home
  have removalHome := sound.removal_home
  have flightEntry := sound.flight_entry
  have flightHome := sound.flight_home
  have removals := @move.removal_cases
  cases move with
  | reserve | drop | land | publish | remove | strike | free | close | pass => grind -linarith
  | _ => exact owner recorded

theorem passed_step (sound : s.Sound) (exclusive : s.Exclusive) (careful : s.Careful op)
    (move : Step s op s') {c : C} {r : Nat} {n : N} {q : Q} :
    s'.flight c = some ⟨r, n, .passed q⟩ → s'.entry (c, n) = some r := by
  have passed := exclusive.passed
  have flightEntry := sound.flight_entry
  cases move with
  | enter | refuse | reserve | take | giveBack | drop | check | undo | land | publish | remove =>
      grind -linarith [Careful, cancelled]
  | _ => exact fun stage => passed stage

/-- Every careful step keeps the invariant. -/
theorem step (sound : s.Sound) (exclusive : s.Exclusive) (careful : s.Careful op)
    (move : Step s op s') : s'.Exclusive where
  unique _ _ _ := exclusive.unique_step careful move
  held _ _ _ _ _ := exclusive.held_step sound move
  live _ _ _ _ := exclusive.live_step sound move
  unstruck _ _ _ _ := exclusive.unstruck_step sound move
  struck _ _ _ _ := exclusive.struck_step sound move
  freed _ _ _ _ := exclusive.freed_step sound move
  resource_owner _ _ _ := exclusive.resource_owner_step sound move
  record_owner _ _ _ := exclusive.record_owner_step sound move
  passed _ _ _ _ := exclusive.passed_step sound careful move

omit [DecidableEq C] [DecidableEq N] [DecidableEq Q] [DecidableEq E] [DecidableEq X] in
/-- Once every client is swept and no acquisition is in progress, nothing is left. -/
theorem nothing_left (sound : s.Sound) (exclusive : s.Exclusive)
    (swept : ∀ c, s.joined c = true → s.swept c = true) (landed : ∀ c, s.flight c = none) :
    (∀ key, s.entry key = none) ∧ (∀ key, s.resource key = none) ∧ ∀ n, s.record n = none := by
  have noEntry : ∀ c n, s.entry (c, n) = none := by
    intro c n
    rcases found : s.entry (c, n) with _ | r
    · rfl
    · have joined := (sound.entry_home found).2.2.2
      rcases sound.swept_covers joined (swept c joined) found with ⟨_, _, inFlight, _⟩
      rw [landed c] at inFlight
      cases inFlight
  have noRemoval : ∀ c, s.removal c = none := by
    intro c
    rcases stage : s.removal c with _ | ⟨r, n, phase⟩
    · rfl
    · have joined := (sound.removal_home stage).2.2.2
      rcases sound.removal_swept stage (swept c joined) with ⟨_, _, inFlight, _⟩
      rw [landed c] at inFlight
      cases inFlight
  refine ⟨fun key => noEntry key.1 key.2, ?_, ?_⟩
  · intro key
    rcases owned : s.resource key with _ | n
    · rfl
    · rcases exclusive.resource_owner owned with
        ⟨c, _, ⟨_, _, inFlight, _⟩ | ⟨r, found, _⟩ | ⟨_, _, removing, _⟩⟩
      · rw [landed c] at inFlight
        cases inFlight
      · rw [noEntry c n] at found
        cases found
      · rw [noRemoval c] at removing
        cases removing
  · intro n
    rcases recorded : s.record n with _ | ⟨q, l⟩
    · rfl
    · rcases exclusive.record_owner recorded with ⟨c, _, found, _⟩ | ⟨c, _, removing, _⟩
      · rw [noEntry c n] at found
        cases found
      · rw [noRemoval c] at removing
        cases removing

end Exclusive

omit [DecidableEq C] [DecidableEq N] [DecidableEq Q] [DecidableEq E] [DecidableEq X] in
theorem Blank.exclusive {s : Tenancy C N Q E L X} (blank : s.Blank) : s.Exclusive := by
  rcases blank with
    ⟨entry, removal, flight, joined, revoked, published, running, resource, record, sweeps⟩
  constructor <;> simp_all [Uses]

theorem reaches_exclusive {s : Tenancy C N Q E L X} (run : (system C N Q E L X).Reaches Careful s) :
    s.Exclusive :=
  run.invariant (fun blank => Blank.exclusive blank)
    (fun before exclusive careful move => exclusive.step (reaches_sound before) careful move)

end Tenancy

end Remgr.Lib
