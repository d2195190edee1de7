/-
Module: Remgr.Proofs.LogShared
Purpose: The log hub under concurrency. Whatever order its writers go on in, they leave it as if
  each write had been made at once when it got the lock, and its ring, its file and its channel get
  the same lines in the same order, as long as no line is so long that it is cut.
Trusted boundary: as in `Remgr.Logging.Shared`
Main exports: WriterTurn, writerStep_cases, Brief, Serial, log_hub_serial
-/
import Remgr.Logging.Shared
import Remgr.Proofs.LogHub

namespace Remgr.Logging

open Lib

namespace SharedHub

variable {s s' : SharedHub} {w : WriterId} {a : Action}

/-! ## What a step can be -/

/-- The steps of a write. -/
inductive WriterTurn (s : SharedHub) (w : WriterId) : SharedHub → Prop
  | locks {buf : List UInt8} (place : s.writers w = .locking buf) (free : s.lock = none) :
      WriterTurn s w ({ s with
        lock := some w
        fragment := s.fragment ++ fromUtf8Lossy buf
        pieces := s.pieces ++ [buf] }.goto w .draining)
  | takes {line rest : List Char} (place : s.writers w = .draining)
      (next : Text.splitOnce '\n' s.fragment = some (line, rest)) :
      WriterTurn s w ({ s with fragment := rest }.begin w (line ++ ['\n']) true)
  | cuts (place : s.writers w = .draining) (last : Text.splitOnce '\n' s.fragment = none)
      (long : maxPartial < size s.fragment) :
      WriterTurn s w ({ s with fragment := [], lock := none }.begin w s.fragment false)
  | unlocks (place : s.writers w = .draining) (last : Text.splitOnce '\n' s.fragment = none)
      (short : ¬ maxPartial < size s.fragment) :
      WriterTurn s w ({ s with lock := none }.goto w .idle)
  | rings {line : List Char} {locked : Bool} (place : s.writers w = .pushing line .ring locked) :
      WriterTurn s w ({ s with
        entries := (if s.entries.length = ringSize then s.entries.tail else s.entries) ++ [line]
        ringed := s.ringed ++ [line] }.goto w (.pushing line .file locked))
  | files {line : List Char} {locked : Bool} (place : s.writers w = .pushing line .file locked) :
      WriterTurn s w ({ s with filed := s.filed ++ [line] }.goto w (.pushing line .send locked))
  | sends {line : List Char} {locked : Bool} (place : s.writers w = .pushing line .send locked) :
      WriterTurn s w ({ s with sent := s.sent ++ [line] }.goto w (WriterPc.resumed locked))

theorem writerStep_cases (moved : s.writerStep w (s.writers w) = some s') : WriterTurn s w s' := by
  cases place : s.writers w with
  | idle =>
      rw [place] at moved
      cases moved
  | locking buf =>
      rw [place] at moved
      obtain ⟨free, same⟩ := Option.ite_none_right_eq_some.mp moved
      cases same
      exact .locks place free
  | draining =>
      rw [place] at moved
      unfold writerStep at moved
      dsimp only at moved
      split at moved
      · next next =>
          cases moved
          exact .takes place next
      · next last =>
          split at moved
          · next long =>
              cases moved
              exact .cuts place last long
          · next short =>
              cases moved
              exact .unlocks place last short
  | pushing line stage locked =>
      rw [place] at moved
      cases stage with
      | ring =>
          cases moved
          exact .rings place
      | file =>
          cases moved
          exact .files place
      | send =>
          cases moved
          exact .sends place

end SharedHub

open SharedHub

variable {s s' : SharedHub} {w : WriterId} {a : Action}

/-! ## One write after the other -/

namespace LogHub

/-- What is left of `ingest` when the text is in. -/
def settle (hub : LogHub) : LogHub :=
  let hub := drainLines hub.fragment.length hub
  if maxPartial < size hub.fragment then { hub with fragment := [] }.pushTrimmed hub.fragment
  else hub

/-- More turns than there are lines do nothing. -/
theorem drainLines_enough {fuel : Nat} {hub : LogHub} (enough : hub.fragment.length ≤ fuel) :
    drainLines (fuel + 1) hub = drainLines fuel hub := by
  induction fuel generalizing hub with
  | zero =>
      have empty : hub.fragment = [] := List.length_eq_zero_iff.mp (Nat.le_zero.mp enough)
      have last : Text.splitOnce '\n' hub.fragment = none := by
        rw [empty]
        rfl
      change drainLines 1 hub = hub
      rw [drainLines, last]
  | succ fuel inductionHypothesis =>
      rw [drainLines, drainLines]
      cases halves : Text.splitOnce '\n' hub.fragment with
      | none => rfl
      | some both =>
          obtain ⟨line, rest⟩ := both
          obtain ⟨whole, -⟩ := Text.splitOnce_eq_some_iff.mp halves
          have size := congrArg List.length whole
          rw [List.length_append, List.length_cons] at size
          refine inductionHypothesis ?_
          rw [pushTrimmed_fragment]
          change rest.length ≤ fuel
          omega

theorem drainLines_of_le {fuel : Nat} {hub : LogHub} (enough : hub.fragment.length ≤ fuel) :
    drainLines fuel hub = drainLines hub.fragment.length hub := by
  induction fuel, enough using Nat.le_induction with
  | base => rfl
  | succ fuel more inductionHypothesis =>
      rw [drainLines_enough more, inductionHypothesis]

/-- The next line first, and then the others. -/
theorem settle_line {hub : LogHub} {line rest : List Char}
    (next : Text.splitOnce '\n' hub.fragment = some (line, rest)) :
    hub.settle = settle ({ hub with fragment := rest }.pushTrimmed (line ++ ['\n'])) := by
  obtain ⟨whole, -⟩ := Text.splitOnce_eq_some_iff.mp next
  have size : hub.fragment.length = (line.length + rest.length) + 1 := by
    rw [whole, List.length_append, List.length_cons, Nat.add_assoc]
  have drained : drainLines hub.fragment.length hub =
      drainLines (line.length + rest.length)
        ({ hub with fragment := rest }.pushTrimmed (line ++ ['\n'])) := by
    rw [size, drainLines, next]
  have fuel : drainLines (line.length + rest.length)
      ({ hub with fragment := rest }.pushTrimmed (line ++ ['\n'])) =
        drainLines rest.length ({ hub with fragment := rest }.pushTrimmed (line ++ ['\n'])) := by
    have enough := @drainLines_of_le (line.length + rest.length)
      ({ hub with fragment := rest }.pushTrimmed (line ++ ['\n']))
    rw [pushTrimmed_fragment] at enough
    exact enough (Nat.le_add_left ..)
  unfold settle
  rw [drained, fuel, pushTrimmed_fragment]

theorem settle_last {hub : LogHub} (last : Text.splitOnce '\n' hub.fragment = none)
    (short : ¬ maxPartial < size hub.fragment) : hub.settle = hub := by
  have same : drainLines hub.fragment.length hub = hub := by
    cases hub.fragment.length with
    | zero => rfl
    | succ fuel => rw [drainLines, last]
  unfold settle
  rw [same]
  exact if_neg short

end LogHub

namespace SharedHub

/-- The hub in memory, with the lines as the ring got them. -/
def hub (s : SharedHub) : LogHub :=
  { entries := s.entries, fragment := s.fragment, sent := s.ringed }

/-- Nothing has to be cut: the text that is left without a newline is not too long. -/
def Brief (s : SharedHub) (a : Action) : Prop :=
  ∀ w, a = .go w → s.writers w = .draining → Text.splitOnce '\n' s.fragment = none →
    size s.fragment ≤ maxPartial

end SharedHub

/-- A write that has got the lock and has not left it. -/
def WriterPc.inside : WriterPc → Bool
  | .draining => true
  | .pushing _ _ locked => locked
  | _ => false

/-- What the rest of a write does to the hub in memory. -/
def WriterPc.complete (hub : LogHub) : WriterPc → LogHub
  | .idle | .locking _ => hub
  | .pushing line .ring _ => (hub.pushLine line).settle
  | .draining | .pushing _ _ _ => hub.settle

namespace SharedHub

/-- Where the write that has the lock stands. -/
def current (s : SharedHub) : WriterPc :=
  match s.lock with
  | some w => s.writers w
  | none => .idle

/-- The ring, the file and the channel differ in the line that is on its way at most. -/
def InStep (s : SharedHub) : WriterPc → Prop
  | .pushing line .file _ => s.ringed = s.filed ++ [line] ∧ s.filed = s.sent
  | .pushing line .send _ => s.ringed = s.filed ∧ s.filed = s.sent ++ [line]
  | _ => s.ringed = s.filed ∧ s.filed = s.sent

structure Serial (s : SharedHub) : Prop where
  holder : ∀ w, (s.writers w).inside = true ↔ s.lock = some w
  locked : ∀ w line stage locked, s.writers w = .pushing line stage locked → locked = true
  whole : s.current.complete s.hub = written s.pieces
  views : s.InStep s.current

theorem current_of_lock (held : s.lock = some w) : s.current = s.writers w := by
  rw [current, held]

theorem current_of_free (free : s.lock = none) : s.current = .idle := by
  rw [current, free]

@[simp] theorem goto_self (s : SharedHub) (w : WriterId) (pc : WriterPc) :
    (s.goto w pc).writers w = pc := Function.update_self ..

theorem goto_of_ne (s : SharedHub) {v w : WriterId} (pc : WriterPc) (other : v ≠ w) :
    (s.goto w pc).writers v = s.writers v := Function.update_of_ne other ..

/-- One write goes on, and the lock may change hands with it. -/
theorem Serial.goto (serial : Serial s) {t : SharedHub} {pc : WriterPc} (same : t.writers = s.writers)
    (mine : pc.inside = true ↔ t.lock = some w) (others : ∀ v, v ≠ w → (s.lock = some v ↔ t.lock = some v))
    (locked : ∀ line stage locked, pc = .pushing line stage locked → locked = true)
    (whole : (t.goto w pc).current.complete t.hub = written t.pieces)
    (views : t.InStep (t.goto w pc).current) : Serial (t.goto w pc) where
  holder v := by
    by_cases here : v = w
    · subst here
      rw [goto_self]
      exact mine
    · rw [goto_of_ne t pc here, same]
      exact (serial.holder v).trans (others v here)
  locked v line stage locked' place := by
    by_cases here : v = w
    · subst here
      rw [goto_self] at place
      exact locked line stage locked' place
    · rw [goto_of_ne t pc here, same] at place
      exact serial.locked v line stage locked' place
  whole := whole
  views := views

/-- The write that has the lock goes on inside. -/
theorem Serial.inside (serial : Serial s) {t : SharedHub} {pc : WriterPc}
    (same : t.writers = s.writers) (held : s.lock = some w) (lock : t.lock = s.lock)
    (goes : pc.inside = true)
    (locked : ∀ line stage locked, pc = .pushing line stage locked → locked = true)
    (whole : pc.complete t.hub = written t.pieces) (views : t.InStep pc) : Serial (t.goto w pc) := by
  have here : (t.goto w pc).current = pc := by
    have still : (t.goto w pc).lock = some w := lock.trans held
    rw [current_of_lock still, goto_self]
  refine serial.goto same ⟨fun _ => lock.trans held, fun _ => goes⟩ (fun v _ => by rw [lock]) locked ?_ ?_
  · rw [here]
    exact whole
  · rw [here]
    exact views

theorem Serial.writerTurn (serial : Serial s) (brief : Brief s (.go w)) (turn : WriterTurn s w s') :
    Serial s' := by
  have holds : (s.writers w).inside = true → s.lock = some w ∧ s.current = s.writers w :=
    fun inside => ⟨(serial.holder w).mp inside, current_of_lock ((serial.holder w).mp inside)⟩
  cases turn with
  | @locks buf place free =>
      have idle : s.current = .idle := current_of_free free
      have whole := serial.whole
      have views := serial.views
      rw [idle] at whole views
      refine serial.goto rfl ⟨fun _ => rfl, fun _ => rfl⟩ (fun v other => ?_) nofun ?_ ?_
      · rw [free]
        refine ⟨nofun, fun held => ?_⟩
        exact absurd (Option.some.inj held).symm other
      · rw [current_of_lock rfl, goto_self]
        change (LogHub.settle { s.hub with fragment := s.fragment ++ fromUtf8Lossy buf }) = _
        rw [written_concat, ← whole]
        rfl
      · rw [current_of_lock rfl, goto_self]
        exact views
  | @takes line rest place next =>
      obtain ⟨held, here⟩ := holds (by rw [place]; rfl)
      have whole := serial.whole
      have views := serial.views
      rw [here, place] at whole views
      have settled : s.hub.settle =
          LogHub.settle ({ s.hub with fragment := rest }.pushTrimmed (line ++ ['\n'])) :=
        LogHub.settle_line next
      unfold begin
      split
      · next blank =>
          refine serial.inside rfl held rfl rfl nofun ?_ views
          rw [← whole]
          change LogHub.settle { s.hub with fragment := rest } = s.hub.settle
          rw [settled, LogHub.pushTrimmed, if_pos blank]
      · next filled =>
          refine serial.inside rfl held rfl rfl (fun _ _ _ same => ?_) ?_ views
          · cases same
            rfl
          · rw [← whole]
            change LogHub.settle ({ s.hub with fragment := rest }.pushLine _) = s.hub.settle
            rw [settled, LogHub.pushTrimmed, if_neg filled]
  | cuts place last long => exact absurd long (Nat.not_lt.mpr (brief w rfl place last))
  | unlocks place last short =>
      obtain ⟨held, here⟩ := holds (by rw [place]; rfl)
      have whole := serial.whole
      have views := serial.views
      rw [here, place] at whole views
      refine serial.goto rfl ⟨nofun, nofun⟩ (fun v other => ?_) nofun ?_ ?_
      · rw [held]
        refine ⟨fun same => ?_, nofun⟩
        exact absurd (Option.some.inj same).symm other
      · rw [current_of_free rfl]
        exact (LogHub.settle_last last short).symm.trans whole
      · rw [current_of_free rfl]
        exact views
  | @rings line locked place =>
      have isLocked := serial.locked w _ _ _ place
      subst isLocked
      obtain ⟨held, here⟩ := holds (by rw [place]; rfl)
      have whole := serial.whole
      have views := serial.views
      rw [here, place] at whole views
      refine serial.inside rfl held rfl rfl (fun _ _ _ same => ?_) whole ?_
      · cases same
        rfl
      · exact ⟨congrArg (· ++ [line]) views.1, views.2⟩
  | @files line locked place =>
      have isLocked := serial.locked w _ _ _ place
      subst isLocked
      obtain ⟨held, here⟩ := holds (by rw [place]; rfl)
      have whole := serial.whole
      have views := serial.views
      rw [here, place] at whole views
      refine serial.inside rfl held rfl rfl (fun _ _ _ same => ?_) whole ?_
      · cases same
        rfl
      · exact ⟨views.1, congrArg (· ++ [line]) views.2⟩
  | @sends line locked place =>
      have isLocked := serial.locked w _ _ _ place
      subst isLocked
      obtain ⟨held, here⟩ := holds (by rw [place]; rfl)
      have whole := serial.whole
      have views := serial.views
      rw [here, place] at whole views
      exact serial.inside rfl held rfl rfl nofun whole views

theorem Serial.step (serial : Serial s) (brief : Brief s a) (moved : SharedHub.step a s = some s') :
    Serial s' := by
  cases a with
  | write w buf =>
      obtain ⟨idle, same⟩ := Option.ite_none_right_eq_some.mp moved
      cases same
      have outside : s.lock ≠ some w := fun held => by
        have inside := (serial.holder w).mpr held
        rw [idle] at inside
        cases inside
      have current : (s.goto w (.locking buf)).current = s.current := by
        cases lock : s.lock with
        | none =>
            have still : (s.goto w (.locking buf)).lock = none := lock
            rw [current_of_free lock, current_of_free still]
        | some v =>
            have other : v ≠ w := fun same => outside (same ▸ lock)
            have still : (s.goto w (.locking buf)).lock = some v := lock
            rw [current_of_lock lock, current_of_lock still, goto_of_ne s _ other]
      refine serial.goto rfl ⟨nofun, fun held => absurd held outside⟩ (fun _ _ => Iff.rfl) nofun ?_ ?_
      · rw [current]
        exact serial.whole
      · rw [current]
        exact serial.views
  | go w => exact serial.writerTurn brief (writerStep_cases moved)

end SharedHub

/-- As long as no line has to be cut, the writers leave the hub as if each write had been made at
once, in the order in which they got the lock; the file and the channel get the lines of the ring in
its order, but for one that may be on its way. -/
theorem log_hub_serial (run : sharedHub.Reaches Brief s) :
    (s.lock = none →
      { entries := s.entries, fragment := s.fragment, sent := s.sent } = written s.pieces ∧
        s.filed = s.sent ∧ s.ringed = s.sent) ∧
      s.sent <+: s.filed ∧ s.filed <+: s.ringed ∧ s.ringed.length ≤ s.sent.length + 1 := by
  have serial : Serial s := by
    refine run.invariant ?_ fun _ serial brief moved => serial.step brief moved
    rintro _ rfl
    exact ⟨fun _ => ⟨nofun, nofun⟩, nofun, rfl, rfl, rfl⟩
  refine ⟨fun free => ?_, ?_⟩
  · have whole := serial.whole
    have views := serial.views
    rw [current_of_free free] at whole views
    have same : s.ringed = s.sent := views.1.trans views.2
    refine ⟨?_, views.2, same⟩
    rw [← whole, ← same]
    rfl
  · have views := serial.views
    generalize s.current = pc at views
    have apart : ∀ {line : List Char}, s.ringed = s.filed ++ [line] ∧ s.filed = s.sent ∨
        s.ringed = s.filed ∧ s.filed = s.sent ++ [line] →
          s.sent <+: s.filed ∧ s.filed <+: s.ringed ∧ s.ringed.length ≤ s.sent.length + 1 := by
      rintro line (⟨ringed, filed⟩ | ⟨ringed, filed⟩)
      · rw [ringed, filed, List.length_append]
        exact ⟨List.prefix_refl _, List.prefix_append .., Nat.le_refl _⟩
      · rw [ringed, filed, List.length_append]
        exact ⟨List.prefix_append .., List.prefix_refl _, Nat.le_refl _⟩
    have together : s.ringed = s.filed ∧ s.filed = s.sent →
        s.sent <+: s.filed ∧ s.filed <+: s.ringed ∧ s.ringed.length ≤ s.sent.length + 1 := by
      rintro ⟨ringed, filed⟩
      rw [ringed, filed]
      exact ⟨List.prefix_refl _, List.prefix_refl _, Nat.le_succ _⟩
    cases pc with
    | idle | locking _ | draining => exact together views
    | pushing line stage locked =>
        cases stage with
        | ring => exact together views
        | file => exact apart (.inl views)
        | send => exact apart (.inr views)

instance (s : SharedHub) (a : Action) : Decidable (Brief s a) :=
  match a with
  | .go w =>
      decidable_of_iff (s.writers w = .draining → Text.splitOnce '\n' s.fragment = none →
          size s.fragment ≤ maxPartial)
        ⟨fun fits v same => by cases same; exact fits, fun brief => brief w rfl⟩
  | .write .. => isTrue nofun

/-- Two writes at once: the second one asks for the lock while the first one is inside. -/
def togetherRun : List Action :=
  [.write 0 [0x61, 10], .go 0, .write 1 [0x62, 10], .go 0, .go 0, .go 0, .go 0, .go 0, .go 1, .go 1,
    .go 1, .go 1, .go 1, .go 1]

theorem log_hub_serial_together : ∃ s, sharedHub.Reaches Brief s ∧
    s.pieces = [[0x61, 10], [0x62, 10]] ∧ s.filed = [['a'], ['b']] ∧
      { entries := s.entries, fragment := s.fragment, sent := s.sent } = written s.pieces := by
  have passed : (System.execute
      (fun a s => if Brief s a then SharedHub.step a s else none) togetherRun {}).any (fun s =>
        decide (s.lock = none) && decide (s.pieces = [[0x61, 10], [0x62, 10]]) &&
          decide (s.filed = [['a'], ['b']])) = true := by
    decide +kernel
  obtain ⟨s, run, checked⟩ := System.reaches_of_any
    (fun _ moved => Option.ite_none_right_eq_some.mp moved)
    (.start rfl : sharedHub.Reaches Brief {}) passed
  rw [Bool.and_eq_true, Bool.and_eq_true, decide_eq_true_eq, decide_eq_true_eq,
    decide_eq_true_eq] at checked
  exact ⟨s, run, checked.1.2, checked.2, ((log_hub_serial run).1 checked.1.1).1⟩

end Remgr.Logging
