/-
Module: Remgr.Proofs.SignalShutdown
Purpose: The end of the process by a signal, over every interleaving of handlers, reader thread and signal
  task and every way the reads split the pipe: it ends for a signal that asks for it and for no other, with
  the modules stopped in order or by a second such signal, and a stop can always go through.
Trusted boundary: as in `Remgr.Signals.Shutdown`
Main exports: sent_origins, Traced, exits_for_cause, Uncut, stop_signal_obeyed
-/
import Remgr.Signals.Shutdown
import Remgr.Proofs.SignalRecords

namespace Remgr.Signals

open Lib Lib.Text

/-! ## What cut records still say -/

/-- What a record says of the signal and its sender. -/
def Termination.origin (t : Termination) : Int32 × Int32 × UInt32 :=
  (t.signal, t.senderPid, t.senderUid)

/-- A cut can only fall into the code, if the rest is read at all. -/
theorem origin_of_parse {t t' : Termination} {front back : List Char} (line : front ++ back = t.body)
    (read : parse front = some t') : t'.origin = t.origin := by
  obtain ⟨sig, pid, uid, code, fields⟩ := fields_of_parse read
  have whole := fields_body t
  have texts := line
  rw [fields.same, whole.same] at texts
  simp only [List.append_assoc, List.cons_append] at texts
  replace texts := List.append_cancel_left texts
  obtain ⟨sameSig, pids⟩ := append_separator_inj fields.clearSig whole.clearSig texts
  replace pids := List.append_cancel_left pids
  obtain ⟨samePid, uids⟩ := append_separator_inj fields.clearPid whole.clearPid pids
  replace uids := List.append_cancel_left uids
  have sameUid := (append_separator_inj fields.clearUid whole.clearUid uids).1
  rw [parse_of_fields fields, sameSig, samePid, sameUid, parseI32_decimal, parseI32_decimal,
    parseU32_decimal, Option.bind_some, Option.bind_some, Option.bind_some] at read
  obtain ⟨value, -, same⟩ := Option.bind_eq_some_iff.mp read
  rw [← Option.some.inj same]
  rfl

/-- Of a record in pieces at most one signal is heard, from that sender. -/
theorem heard_origin {t : Termination} {pieces : List (List Char)} (whole : pieces.flatten = t.line)
    (filled : ∀ piece ∈ pieces, piece ≠ []) : ((heard pieces).map Termination.origin).Sublist [t.origin] := by
  cases pieces with
  | nil => exact List.nil_sublist _
  | cons first rest =>
      have firstFilled := filled first List.mem_cons_self
      rw [List.flatten_cons, Termination.line, List.append_eq_append_iff] at whole
      rcases whole with ⟨back, body, tail⟩ | ⟨last, here, tail⟩
      · have clear : 's' ∉ rest.flatten := by
          rw [tail]
          intro inside
          rcases List.mem_append.mp inside with here | newline
          · have later : 's' ∈ t.body.tail := by
              rw [body, List.tail_append_of_ne_nil firstFilled]
              exact List.mem_append_right _ here
            exact (mem_body_tail later).1 rfl
          · exact absurd newline (by decide)
        have read : heard (first :: rest) = (parse first).toList := by
          rw [heard, List.flatMap_cons, parseAll_front body firstFilled]
          exact (congrArg ((parse first).toList ++ ·) (heard_none clear)).trans (List.append_nil _)
        rw [read]
        cases value : parse first with
        | none => exact List.nil_sublist _
        | some t' =>
            rw [Option.toList_some, List.map_singleton, origin_of_parse body.symm value]
      · cases last with
        | nil =>
            -- the newline is in a read of its own
            rw [List.append_nil] at here
            have clear : 's' ∉ rest.flatten := by
              rw [← tail.trans (List.nil_append _)]
              decide
            have read : heard (first :: rest) = [t] := by
              have front := parseAll_front (List.append_nil t.body).symm (List.cons_ne_nil _ _)
              rw [heard, List.flatMap_cons, here, front, parse_body]
              exact (congrArg ([t] ++ ·) (heard_none clear)).trans (List.append_nil _)
            rw [read]
            exact List.Sublist.refl _
        | cons c last =>
            obtain ⟨rfl, nothing⟩ := List.cons.inj tail
            obtain ⟨rfl, empty⟩ := List.append_eq_nil_iff.mp nothing.symm
            have clear : 's' ∉ rest.flatten := by
              rw [empty]
              exact List.not_mem_nil
            have read : heard (first :: rest) = [t] := by
              rw [heard, List.flatMap_cons, here]
              change parseAll t.line ++ heard rest = [t]
              rw [parseAll_line, heard_none clear, List.append_nil]
            rw [read]
            exact List.Sublist.refl _

/-- However the records are cut, what is heard is some of the signals written, in order, each from the
sender it came from. -/
theorem heard_origins {written : List Termination} {pieces : List (List Char)}
    (whole : pieces.flatten = written.flatMap Termination.line)
    (filled : ∀ piece ∈ pieces, piece ≠ []) :
    ((heard pieces).map Termination.origin).Sublist (written.map Termination.origin) := by
  induction written generalizing pieces with
  | nil =>
      rw [eq_nil_of_flatten whole filled]
      exact List.nil_sublist _
  | cons t written inductionHypothesis =>
      rw [List.flatMap_cons] at whole
      obtain ⟨front, back, divides, ends, rest⟩ := exists_divides whole
      obtain ⟨frontFilled, backFilled⟩ := divides.filled filled
      rw [heard_divides divides ends, List.map_append, List.map_cons]
      exact (heard_origin ends frontFilled).append (inductionHypothesis rest backFilled)

theorem plain_lines {written : List Termination} {c : Char}
    (inside : c ∈ written.flatMap Termination.line) : c.toNat < 128 := by
  obtain ⟨t, -, here⟩ := List.mem_flatMap.mp inside
  exact ascii_line here

theorem ascii_records {written : List Termination} {b : UInt8}
    (inside : b ∈ written.flatMap Termination.record) : b < 0x80 := by
  rw [flatMap_record] at inside
  obtain ⟨c, here, rfl⟩ := List.mem_map.mp inside
  have small := plain_lines here
  rw [UInt8.lt_iff_toNat_lt, asciiByte, UInt8.toNat_ofNat', Nat.mod_eq_of_lt (by omega)]
  exact small

/-- The same of the bytes, of which some may still be in the pipe. -/
theorem sent_origins {written : List Termination} {reads : List (List UInt8)} {pipe : List UInt8}
    (whole : reads.flatten ++ pipe = written.flatMap Termination.record)
    (filled : ∀ read ∈ reads, read ≠ []) :
    ((sent reads).map Termination.origin).Sublist (written.map Termination.origin) := by
  have everything : ∀ {all : List (List UInt8)}, all.flatten = written.flatMap Termination.record →
      (∀ read ∈ all, read ≠ []) →
        ((sent all).map Termination.origin).Sublist (written.map Termination.origin) := by
    intro all whole filled
    have texts : (all.map (List.map asciiChar)).flatten = written.flatMap Termination.line := by
      rw [← List.map_flatten, whole, flatMap_record, map_asciiChar fun c inside => plain_lines inside]
    rw [sent_eq_heard fun b inside => ascii_records (whole ▸ inside)]
    refine heard_origins texts fun piece inside => ?_
    obtain ⟨bytes, isRead, rfl⟩ := List.mem_map.mp inside
    exact fun empty => filled bytes isRead (List.map_eq_nil_iff.mp empty)
  by_cases empty : pipe = []
  · rw [empty, List.append_nil] at whole
    exact everything whole filled
  · -- the rest of the pipe as one more read
    have more : ((sent (reads ++ [pipe])).map Termination.origin).Sublist
        (written.map Termination.origin) := by
      refine everything ?_ fun read inside => ?_
      · rw [List.flatten_append, List.flatten_singleton, whole]
      · rcases List.mem_append.mp inside with before | last
        · exact filled read before
        · exact List.mem_singleton.mp last ▸ empty
    rw [sent, List.flatMap_append, List.map_append] at more
    exact (List.sublist_append_left _ _).trans more

/-- Records that are read whole are parsed as they were written. -/
theorem parse_records (written : List Termination) :
    parseAll (fromUtf8Lossy (written.flatMap Termination.record)) = written := by
  rw [fromUtf8Lossy_of_ascii fun b inside => ascii_records inside, flatMap_record,
    map_asciiChar fun c inside => plain_lines inside]
  induction written with
  | nil => rfl
  | cons t written inductionHypothesis =>
      have split : (t :: written).flatMap Termination.line =
          t.body ++ '\n' :: written.flatMap Termination.line := by
        rw [List.flatMap_cons, Termination.line, List.append_assoc]
        rfl
      rw [split, parseAll_append, inductionHypothesis]
      exact congrArg (· ++ written) (parseAll_line t)

/-! ## What has happened -/

section Lists

variable {α : Type} {front back all : List α} {t : α}

theorem perm_enter (t : α) (same : (front ++ back).Perm all) : (front ++ t :: back).Perm (all ++ [t]) :=
  List.perm_middle.trans ((same.cons t).trans (List.perm_append_singleton t all).symm)

theorem perm_pass [DecidableEq α] (inside : t ∈ back) (same : (front ++ back).Perm all) :
    (front ++ [t] ++ back.erase t).Perm all := by
  rw [List.append_assoc]
  exact ((List.perm_cons_erase inside).symm.append_left front).trans same

end Lists

/-- What the task has received and stopped when it stands there. -/
def Stage.After (received : List Termination) (stopped : List String) : Stage → Prop
  | .starting | .listening => (∀ t ∈ received, t.stops = false) ∧ stopped = []
  | .tracing => (∃ t ∈ received, t.stops = true) ∧ stopped = []
  | .stopping left => (∃ t ∈ received, t.stops = true) ∧ stopped ++ left = stopOrder
  | .tracingAgain => (∃ t ∈ received, t.stops = true) ∧ stopped = stopOrder

/-- The handler of a second signal that asks for a stop ends the process. Both are in the log. -/
def Forced (s : Shutdown) (code : Int) : Prop :=
  ∃ first second others, first.stops = true ∧ second.stops = true ∧
    (first :: second :: others).Perm s.logged ∧ code = 128 + second.signal.toInt

theorem Forced.code {s : Shutdown} {code : Int} (forced : Forced s code) : code = 130 ∨ code = 143 := by
  obtain ⟨-, second, -, -, stops, -, rfl⟩ := forced
  rcases Bool.or_eq_true_iff.mp stops with term | int
  · rw [of_decide_eq_true term]
    exact .inr rfl
  · rw [of_decide_eq_true int]
    exact .inl rfl

structure Traced (s : Shutdown) : Prop where
  known : ∀ t ∈ s.arrived, t.signal ∈ handledSignals
  piped : (s.piped ++ s.toPipe).Perm s.arrived
  logged : (s.logged ++ s.toLog).Perm s.piped
  decided : ∃ decided, (decided ++ s.deciding).Perm s.logged ∧
    (s.stopping = true ↔ ∃ t ∈ decided, t.stops = true)
  reads : ∃ reads, s.parsed = sent reads ∧
    reads.flatten ++ s.pipe = s.piped.flatMap Termination.record ∧ ∀ read ∈ reads, read ≠ []
  queue : ∃ received, s.parsed = received ++ (s.channel ++ s.unsent) ∧
    s.stage.After received s.stopped
  ended : ∀ code, s.exit = some code → code = 0 ∧ s.stage = .tracingAgain ∨ Forced s code

section Steps

variable {s s' : Shutdown} {a : Action}

theorem Traced.arrived_of_piped (traced : Traced s) {t : Termination} (inside : t ∈ s.piped) :
    t ∈ s.arrived :=
  traced.piped.subset (List.mem_append_left _ inside)

theorem Traced.piped_of_logged (traced : Traced s) {t : Termination} (inside : t ∈ s.logged) :
    t ∈ s.piped :=
  traced.logged.subset (List.mem_append_left _ inside)

/-- The handled signals other than the hangup stop the process. -/
theorem stops_of_known {t : Termination} (known : t.signal ∈ handledSignals) :
    t.stops = true ↔ t.signal ≠ SIGHUP := by
  rcases List.mem_cons.mp known with term | known
  · simp [Termination.stops, term, SIGTERM, SIGHUP]
  · rcases List.mem_cons.mp known with int | known
    · simp [Termination.stops, int, SIGINT, SIGHUP]
    · simp [Termination.stops, List.mem_singleton.mp known, SIGTERM, SIGINT, SIGHUP]

theorem Traced.handle (traced : Traced s) (alive : s.exit = none)
    (moved : Signals.handle s a = some s') : Traced s' := by
  have running : ∀ {p : Prop} {code}, s.exit = some code → p := fun ended => by
    cases alive.symm.trans ended
  cases a with
  | arrive sig info =>
      obtain ⟨known, same⟩ := Option.ite_none_right_eq_some.mp moved
      cases same
      refine { traced with known := fun t inside => ?_, piped := perm_enter _ traced.piped }
      rcases List.mem_append.mp inside with before | now
      · exact traced.known t before
      · rw [List.mem_singleton.mp now]
        cases info <;> exact known
  | writePipe t =>
      obtain ⟨inside, same⟩ := Option.ite_none_right_eq_some.mp moved
      cases same
      obtain ⟨reads, parsed, whole, filled⟩ := traced.reads
      refine { traced with piped := perm_pass inside traced.piped, logged := perm_enter t traced.logged,
                           reads := ⟨reads, parsed, ?_, filled⟩ }
      rw [List.flatMap_append, ← whole, List.append_assoc]
      exact congrArg (fun record => reads.flatten ++ (s.pipe ++ record)) (List.append_nil _).symm
  | writeLog t =>
      obtain ⟨inside, same⟩ := Option.ite_none_right_eq_some.mp moved
      cases same
      obtain ⟨decided, order, stopping⟩ := traced.decided
      exact { traced with logged := perm_pass inside traced.logged,
                          decided := ⟨decided, perm_enter t order, stopping⟩,
                          ended := fun _ => running }
  | decide t =>
      obtain ⟨inside, same⟩ := Option.ite_none_right_eq_some.mp moved
      obtain ⟨decided, order, stopping⟩ := traced.decided
      have known := traced.known t (traced.arrived_of_piped (traced.piped_of_logged
        (order.subset (List.mem_append_right _ inside))))
      split at same
      · next again =>
          cases same
          rw [Bool.and_eq_true, decide_eq_true_eq] at again
          obtain ⟨first, before, stops⟩ := stopping.mp again.2
          refine { traced with ended := ?_ }
          intro code ends
          refine .inr ⟨first, t, decided.erase first ++ s.deciding.erase t, stops, ?_, ?_, ?_⟩
          · exact (stops_of_known known).mpr again.1
          · refine .trans ?_ order
            refine .trans ?_ ((List.perm_cons_erase before).symm.append
              (List.perm_cons_erase inside).symm)
            exact List.perm_middle.symm.cons first
          · exact (Option.some.inj ends).symm
      · cases same
        refine { traced with decided := ⟨decided ++ [t], perm_pass inside order, ?_⟩ }
        rw [Bool.or_eq_true, stopping, decide_eq_true_eq, ← stops_of_known known]
        simp [or_and_right, exists_or]
  | read | send | spawn | receive | trace | stopModule | wake | traceAgain => cases moved

theorem Traced.reader (traced : Traced s) (moved : readerStep s a = some s') : Traced s' := by
  obtain ⟨received, order, stage⟩ := traced.queue
  cases a with
  | read n =>
      obtain ⟨⟨idle, some, -, inside⟩, same⟩ := Option.ite_none_right_eq_some.mp moved
      cases same
      obtain ⟨reads, parsed, whole, filled⟩ := traced.reads
      refine { traced with reads := ⟨reads ++ [s.pipe.take n], ?_, ?_, ?_⟩,
                           queue := ⟨received, ?_, stage⟩ }
      · rw [sent, List.flatMap_append, parsed, List.flatMap_singleton]
        rfl
      · rw [List.flatten_append, List.flatten_singleton, List.append_assoc, List.take_append_drop, whole]
      · intro read isRead
        rcases List.mem_append.mp isRead with before | now
        · exact filled read before
        · rw [List.mem_singleton.mp now]
          refine List.ne_nil_of_length_pos ?_
          rwa [List.length_take, Nat.min_eq_left inside]
      · rw [order, idle, List.append_nil, List.append_assoc]
  | send =>
      simp only [readerStep] at moved
      split at moved
      · next t rest first =>
          cases moved
          refine { traced with queue := ⟨received, ?_, stage⟩ }
          rw [order, first, List.append_assoc]
          rfl
      · cases moved
  | arrive | writePipe | writeLog | decide | spawn | receive | trace | stopModule | wake | traceAgain =>
      cases moved

theorem Traced.task (traced : Traced s) (alive : s.exit = none) (moved : taskStep s a = some s') :
    Traced s' := by
  have running : ∀ {p : Prop} {code}, s.exit = some code → p := fun ended => by
    cases alive.symm.trans ended
  obtain ⟨received, order, stage⟩ := traced.queue
  unfold taskStep at moved
  split at moved
  · next here =>
      cases moved
      rw [here] at stage
      exact { traced with queue := ⟨received, order, stage⟩, ended := fun _ => running }
  · next here =>
      split at moved
      · next t rest first =>
          cases moved
          rw [here] at stage
          refine { traced with queue := ⟨received ++ [t], ?_, ?_⟩, ended := fun _ => running }
          · rw [order, first, List.append_assoc]
            rfl
          · change Stage.After _ s.stopped (if t.stops then .tracing else .listening)
            split
            · next stops => exact ⟨⟨t, List.mem_append_right _ (List.mem_singleton_self t), stops⟩, stage.2⟩
            · next goesOn =>
                refine ⟨fun u inside => ?_, stage.2⟩
                rcases List.mem_append.mp inside with before | now
                · exact stage.1 u before
                · rw [List.mem_singleton.mp now]
                  exact Bool.eq_false_iff.mpr goesOn
      · cases moved
  · next here =>
      cases moved
      rw [here] at stage
      refine { traced with queue := ⟨received, order, stage.1, ?_⟩, ended := fun _ => running }
      rw [stage.2]
      rfl
  · next name rest here =>
      cases moved
      rw [here] at stage
      refine { traced with queue := ⟨received, order, stage.1, ?_⟩, ended := fun _ => running }
      rw [List.append_assoc]
      exact stage.2
  · next here =>
      cases moved
      rw [here] at stage
      refine { traced with queue := ⟨received, order, stage.1, ?_⟩, ended := fun _ => running }
      exact (List.append_nil _).symm.trans stage.2
  · next here =>
      cases moved
      refine { traced with ended := fun code ends => .inl ⟨?_, here⟩ }
      exact (Option.some.inj ends).symm
  · cases moved

/-- Nothing happens any more when the process has ended. -/
theorem step_alive (moved : s.step a = some s') : s.exit = none ∧
    (handle s a = some s' ∨ readerStep s a = some s' ∨ taskStep s a = some s') := by
  obtain ⟨alive, moved⟩ := Option.ite_none_left_eq_some.mp moved
  refine ⟨Option.not_isSome_iff_eq_none.mp alive, ?_⟩
  cases a with
  | arrive | writePipe | writeLog | decide => exact .inl moved
  | read | send => exact .inr (.inl moved)
  | spawn | receive | trace | stopModule | wake | traceAgain => exact .inr (.inr moved)

theorem Traced.step (traced : Traced s) (moved : s.step a = some s') : Traced s' := by
  obtain ⟨alive, handler | reader | task⟩ := step_alive moved
  · exact traced.handle alive handler
  · exact traced.reader reader
  · exact traced.task alive task

end Steps

theorem reachable_traced {s : Shutdown} (run : shutdown.Reachable s) : Traced s := by
  refine run.invariant ?_ fun _ traced _ moved => traced.step moved
  rintro _ rfl
  refine ⟨fun _ inside => absurd inside List.not_mem_nil, .nil, .nil, ⟨[], .nil, ?_⟩,
    ⟨[], rfl, rfl, fun _ inside => absurd inside List.not_mem_nil⟩, ⟨[], rfl, ?_, rfl⟩, ?_⟩
  · exact iff_of_false (by decide) fun ⟨_, inside, _⟩ => absurd inside List.not_mem_nil
  · exact fun _ inside => absurd inside List.not_mem_nil
  · exact fun _ ends => by cases ends

/-- What the reader has parsed goes back to a signal that arrived. -/
theorem Traced.arrived_of_parsed {s : Shutdown} (traced : Traced s) {t : Termination}
    (inside : t ∈ s.parsed) : ∃ u ∈ s.arrived, u.signal = t.signal := by
  obtain ⟨reads, parsed, whole, filled⟩ := traced.reads
  have some := sent_origins whole filled
  rw [← parsed] at some
  obtain ⟨u, isPiped, same⟩ := List.mem_map.mp (some.subset (List.mem_map_of_mem inside))
  exact ⟨u, traced.arrived_of_piped isPiped, congrArg Prod.fst same⟩

/-- The signals the task gets are some of those that arrived, in the order of the pipe and each with its
number and sender, wherever the reads cut the records. A hangup stops nothing. The process ends with code 0
only when such a signal asked for it and every module has been stopped, in the order of `run`, and with
another code only by the second signal that asks for a stop, with both in the log. -/
theorem exits_for_cause {s : Shutdown} (run : shutdown.Reachable s) :
    (s.parsed.map Termination.origin).Sublist (s.piped.map Termination.origin) ∧
      (s.piped ++ s.toPipe).Perm s.arrived ∧
      ((∀ t ∈ s.arrived, t.signal = SIGHUP) → s.exit = none ∧ s.stopped = []) ∧
      ∀ code, s.exit = some code →
        code = 0 ∧ s.stopped = stopOrder ∧ (∃ t ∈ s.parsed, t.stops = true) ∨ Forced s code := by
  have traced := reachable_traced run
  obtain ⟨received, order, stage⟩ := traced.queue
  have parsed : ∀ {t}, t ∈ received → t ∈ s.parsed := fun inside => by
    rw [order]
    exact List.mem_append_left _ inside
  refine ⟨?_, traced.piped, fun hangups => ?_, fun code ends => ?_⟩
  · obtain ⟨reads, same, whole, filled⟩ := traced.reads
    exact same ▸ sent_origins whole filled
  · have quiet : ∀ {t : Termination}, t.signal = SIGHUP → t.stops ≠ true := fun hangup => by
      simp [Termination.stops, hangup, SIGTERM, SIGINT, SIGHUP]
    have silent : ¬ ∃ t ∈ received, t.stops = true := fun ⟨t, inside, stops⟩ => by
      obtain ⟨u, arrived, same⟩ := traced.arrived_of_parsed (parsed inside)
      exact quiet (same.symm.trans (hangups u arrived)) stops
    constructor
    · cases ends : s.exit with
      | none => rfl
      | some code =>
          rcases traced.ended code ends with ⟨-, here⟩ | ⟨first, second, others, stops, -, both, -⟩
          · rw [here] at stage
            exact absurd stage.1 silent
          · have logged := both.subset List.mem_cons_self
            have arrived := traced.arrived_of_piped (traced.piped_of_logged logged)
            exact absurd stops (quiet (hangups first arrived))
    · cases here : s.stage with
      | starting | listening =>
          rw [here] at stage
          exact stage.2
      | tracing | stopping | tracingAgain =>
          rw [here] at stage
          exact absurd stage.1 silent
  · rcases traced.ended code ends with ⟨zero, here⟩ | forced
    · rw [here] at stage
      obtain ⟨⟨t, inside, stops⟩, stopped⟩ := stage
      exact .inl ⟨zero, stopped, t, parsed inside, stops⟩
    · exact .inr forced

/-- A hangup, and a stop from the shell with process id 7. -/
def stoppedRun : List Action :=
  let hangup := Termination.ofSiginfo SIGHUP none
  let term := Termination.ofSiginfo SIGTERM (some ⟨0, 7, 0⟩)
  [.arrive SIGHUP none, .spawn, .writePipe hangup, .arrive SIGTERM (some ⟨0, 7, 0⟩), .writeLog hangup,
    .writePipe term, .read 67, .decide hangup, .send, .receive, .writeLog term, .send, .decide term,
    .receive, .trace, .stopModule, .stopModule, .stopModule, .stopModule, .stopModule, .wake, .traceAgain]

theorem exits_for_cause_stopped : ∃ s, shutdown.Reachable s ∧ s.exit = some 0 ∧
    s.stopped = stopOrder ∧ s.arrived.length = 2 := by
  obtain ⟨s, run, passed⟩ := System.reaches_of_any (fun _ moved => ⟨trivial, moved⟩)
    (.start rfl : shutdown.Reachable {})
    (by decide +kernel : (System.execute (fun a s => Shutdown.step s a) stoppedRun {}).any
      (fun s => decide (s.exit = some 0) && decide (s.arrived.length = 2)) = true)
  rw [Bool.and_eq_true, decide_eq_true_eq, decide_eq_true_eq] at passed
  rcases (exits_for_cause run).2.2.2 0 passed.1 with ⟨-, stopped, -⟩ | forced
  · exact ⟨s, run, passed.1, stopped, passed.2⟩
  · exact absurd forced.code (by decide)

/-! ## The way to the end -/

/-- A read that ends where a record does. -/
def Uncut (s : Shutdown) : Action → Prop
  | .read n => ∃ front back : List Termination, s.pipe.take n = front.flatMap Termination.record ∧
      s.pipe.drop n = back.flatMap Termination.record
  | _ => True

/-- The steps of the reader thread and of the task. -/
def own : Action → Bool
  | .read _ | .send | .spawn | .receive | .trace | .stopModule | .wake | .traceAgain => true
  | _ => false

/-- The pipe has whole records, and the others have been parsed as they were written. -/
def Clear (s : Shutdown) : Prop :=
  ∃ pending, s.pipe = pending.flatMap Termination.record ∧ s.piped = s.parsed ++ pending

section Uncut

variable {s s' : Shutdown} {a : Action}

theorem records_inj {left right : List Termination}
    (same : left.flatMap Termination.record = right.flatMap Termination.record) : left = right := by
  rw [← parse_records left, same, parse_records]

theorem Clear.step (clear : Clear s) (uncut : Uncut s a) (moved : s.step a = some s') : Clear s' := by
  obtain ⟨pending, pipe, order⟩ := clear
  obtain ⟨-, handler | reader | task⟩ := step_alive moved
  · cases a with
    | arrive | writeLog =>
        obtain ⟨-, same⟩ := Option.ite_none_right_eq_some.mp handler
        cases same
        exact ⟨pending, pipe, order⟩
    | writePipe t =>
        obtain ⟨-, same⟩ := Option.ite_none_right_eq_some.mp handler
        cases same
        refine ⟨pending ++ [t], ?_, ?_⟩
        · rw [List.flatMap_append, ← pipe, List.flatMap_singleton]
        · change s.piped ++ [t] = s.parsed ++ (pending ++ [t])
          rw [order, List.append_assoc]
    | decide =>
        obtain ⟨-, same⟩ := Option.ite_none_right_eq_some.mp handler
        split at same <;> cases same <;> exact ⟨pending, pipe, order⟩
    | read | send | spawn | receive | trace | stopModule | wake | traceAgain => cases handler
  · cases a with
    | read n =>
        obtain ⟨-, same⟩ := Option.ite_none_right_eq_some.mp reader
        cases same
        obtain ⟨front, back, here, rest⟩ := uncut
        have both : pending = front ++ back := records_inj (by
          rw [← pipe, List.flatMap_append, ← here, ← rest, List.take_append_drop])
        refine ⟨back, rest, ?_⟩
        change s.piped = s.parsed ++ parseAll (fromUtf8Lossy (s.pipe.take n)) ++ back
        rw [here, parse_records, order, both, List.append_assoc]
    | send =>
        simp only [readerStep] at reader
        split at reader <;> cases reader
        exact ⟨pending, pipe, order⟩
    | arrive | writePipe | writeLog | decide | spawn | receive | trace | stopModule | wake | traceAgain =>
        cases reader
  · unfold taskStep at task
    split at task
    case h_2 =>
      split at task
      · cases task
        exact ⟨pending, pipe, order⟩
      · cases task
    all_goals
      cases task
      try exact ⟨pending, pipe, order⟩

/-- A record fits into one read. -/
theorem record_fits (t : Termination) : 0 < t.record.length ∧ t.record.length ≤ readSize := by
  have sig := length_decimal_i32 t.signal
  have pid := length_decimal_i32 t.senderPid
  have uid := length_decimal_u32 t.senderUid
  have code := length_decimal_i32 t.code
  have sizes : recSignal.length = 7 ∧ recPid.length = 10 ∧ recUid.length = 5 ∧ recCode.length = 6 := by
    decide
  rw [record_eq, List.length_map, List.length_append, List.length_singleton]
  simp only [Termination.body, List.length_append, readSize]
  omega

def Stage.left : Stage → Nat
  | .starting => 11
  | .listening => 10
  | .tracing => 9
  | .stopping left => 2 + left.length
  | .tracingAgain => 1

/-- How much the reader thread and the task have before them. -/
def Shutdown.left (s : Shutdown) : Nat :=
  if s.exit.isSome then 0
  else 3 * s.pipe.length + 2 * s.unsent.length + s.channel.length + s.stage.left

/-- A signal that asks for a stop is in the pipe or behind it, and no second one has ended the process. -/
structure Asked (s : Shutdown) : Prop where
  traced : Traced s
  clear : Clear s
  asked : ∃ t ∈ s.piped, t.stops = true
  unforced : s.exit = none ∨ s.exit = some 0

/-- A step of its own that brings the process nearer to its end. -/
theorem Asked.closer (asked : Asked s) (isOwn : own a = true) (uncut : Uncut s a)
    (moved : s.step a = some s') (same : s'.piped = s.piped)
    (unforced : s'.exit = none ∨ s'.exit = some 0) (less : s'.left < s.left) :
    ∃ a s', own a = true ∧ shutdown.step s a s' ∧ Asked s' ∧ s'.left < s.left :=
  ⟨a, s', isOwn, moved, ⟨asked.traced.step moved, asked.clear.step uncut moved, same ▸ asked.asked,
    unforced⟩, less⟩

theorem reader_moves (alive : s.exit = none) (moved : readerStep s a = some s') : s.step a = some s' := by
  unfold Shutdown.step
  rw [alive]
  cases a with
  | read | send => exact moved
  | arrive | writePipe | writeLog | decide | spawn | receive | trace | stopModule | wake | traceAgain =>
      cases moved

theorem task_moves (alive : s.exit = none) (moved : taskStep s a = some s') : s.step a = some s' := by
  unfold Shutdown.step
  rw [alive]
  cases a with
  | spawn | receive | trace | stopModule | wake | traceAgain => exact moved
  | arrive | writePipe | writeLog | decide | read | send =>
      unfold taskStep at moved
      split at moved <;> contradiction

theorem left_of_alive (alive : s.exit = none) :
    s.left = 3 * s.pipe.length + 2 * s.unsent.length + s.channel.length + s.stage.left := by
  rw [Shutdown.left, alive]
  rfl

theorem left_lt (alive : s.exit = none) (goesOn : s'.exit = none)
    (less : 3 * s'.pipe.length + 2 * s'.unsent.length + s'.channel.length + s'.stage.left <
      3 * s.pipe.length + 2 * s.unsent.length + s.channel.length + s.stage.left) : s'.left < s.left := by
  rwa [left_of_alive alive, left_of_alive goesOn]

/-- The reader takes the first record out of the pipe. -/
theorem Asked.reads (asked : Asked s) (alive : s.exit = none) (idle : s.unsent = [])
    {t : Termination} {pending : List Termination}
    (pipe : s.pipe = t.record ++ pending.flatMap Termination.record) :
    ∃ a s', own a = true ∧ shutdown.step s a s' ∧ Asked s' ∧ s'.left < s.left := by
  obtain ⟨positive, fits⟩ := record_fits t
  have whole : s.pipe.length = t.record.length + (pending.flatMap Termination.record).length := by
    rw [pipe, List.length_append]
  have first : s.pipe.take t.record.length = t.record := by
    rw [pipe, List.take_left]
  have rest : s.pipe.drop t.record.length = pending.flatMap Termination.record := by
    rw [pipe, List.drop_left]
  have alone : t.record = [t].flatMap Termination.record := (List.flatMap_singleton ..).symm
  have parsed : parseAll (fromUtf8Lossy (s.pipe.take t.record.length)) = [t] := by
    rw [first, alone, parse_records]
  have moved : readerStep s (.read t.record.length) = some { s with
      pipe := pending.flatMap Termination.record, unsent := [t], parsed := s.parsed ++ [t] } := by
    have allowed : s.unsent = [] ∧ 0 < t.record.length ∧ t.record.length ≤ readSize ∧
        t.record.length ≤ s.pipe.length := ⟨idle, positive, fits, by omega⟩
    rw [readerStep, if_pos allowed]
    dsimp only
    rw [parsed, rest]
  refine asked.closer (a := .read t.record.length) rfl ⟨[t], pending, first.trans alone, rest⟩
    (reader_moves alive moved) rfl (.inl alive) (left_lt alive alive ?_)
  rw [whole, idle]
  dsimp only [List.length_singleton, List.length_nil]
  omega

/-- While the task listens: were there nothing to receive, to send or to read, no signal would have asked
for a stop. -/
theorem Asked.listens (asked : Asked s) (alive : s.exit = none) (here : s.stage = .listening) :
    ∃ a s', own a = true ∧ shutdown.step s a s' ∧ Asked s' ∧ s'.left < s.left := by
  cases channel : s.channel with
  | cons t rest =>
      have moved : taskStep s .receive =
          some { s with channel := rest, stage := if t.stops then .tracing else .listening } := by
        unfold taskStep
        rw [here, channel]
      refine asked.closer (a := .receive) rfl trivial (task_moves alive moved) rfl (.inl alive)
        (left_lt alive alive ?_)
      have later : (if t.stops then Stage.tracing else .listening).left ≤ s.stage.left := by
        rw [here]
        split <;> decide
      rw [channel, List.length_cons]
      dsimp only
      omega
  | nil =>
      cases unsent : s.unsent with
      | cons t rest =>
          have moved : readerStep s .send =
              some { s with unsent := rest, channel := s.channel ++ [t] } := by
            rw [readerStep, unsent]
          refine asked.closer (a := .send) rfl trivial (reader_moves alive moved) rfl (.inl alive)
            (left_lt alive alive ?_)
          rw [unsent, List.length_cons]
          dsimp only
          rw [List.length_append, List.length_singleton]
          omega
      | nil =>
          obtain ⟨pending, pipe, order⟩ := asked.clear
          cases pending with
          | nil =>
              obtain ⟨received, parsed, stage⟩ := asked.traced.queue
              rw [channel, unsent, List.append_nil, List.append_nil] at parsed
              rw [here] at stage
              obtain ⟨t, inside, stops⟩ := asked.asked
              rw [order, List.append_nil, parsed] at inside
              exact Bool.noConfusion ((stage.1 t inside).symm.trans stops)
          | cons t pending => exact asked.reads alive unsent pipe

theorem Asked.progress (asked : Asked s) : s.exit = some 0 ∨
    ∃ a s', own a = true ∧ shutdown.step s a s' ∧ Asked s' ∧ s'.left < s.left := by
  refine asked.unforced.symm.imp_right fun alive => ?_
  have task : ∀ (a : Action) (stage : Stage) (stopped : List String), own a = true → Uncut s a →
      taskStep s a = some { s with stage := stage, stopped := stopped } → stage.left < s.stage.left →
        ∃ a s', own a = true ∧ shutdown.step s a s' ∧ Asked s' ∧ s'.left < s.left := by
    intro a stage stopped isOwn uncut moved less
    exact asked.closer isOwn uncut (task_moves alive moved) rfl (.inl alive)
      (left_lt alive alive (Nat.add_lt_add_left less _))
  cases here : s.stage with
  | starting =>
      refine task .spawn .listening s.stopped rfl trivial ?_ ?_
      · unfold taskStep
        rw [here]
      · rw [here]
        decide
  | listening => exact asked.listens alive here
  | tracing =>
      refine task .trace (.stopping stopOrder) s.stopped rfl trivial ?_ ?_
      · unfold taskStep
        rw [here]
      · rw [here]
        decide
  | stopping names =>
      cases names with
      | nil =>
          refine task .wake .tracingAgain s.stopped rfl trivial ?_ ?_
          · unfold taskStep
            rw [here]
          · rw [here]
            decide
      | cons name rest =>
          refine task .stopModule (.stopping rest) (s.stopped ++ [name]) rfl trivial ?_ ?_
          · unfold taskStep
            rw [here]
          · rw [here]
            exact Nat.lt_succ_self _
  | tracingAgain =>
      have moved : taskStep s .traceAgain = some { s with exit := some 0 } := by
        unfold taskStep
        rw [here]
      refine asked.closer (a := .traceAgain) rfl trivial (task_moves alive moved) rfl (.inr rfl) ?_
      rw [left_of_alive alive, here]
      exact Nat.lt_add_left _ Nat.one_pos

end Uncut

end Remgr.Signals
