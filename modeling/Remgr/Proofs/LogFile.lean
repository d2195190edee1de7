/-
Module: Remgr.Proofs.LogFile
Purpose: What `read_log_file` returns over any number of lines, rotations and restarts, compared
  with the last lines that are still on disk.
Trusted boundary: Remgr.Logging.File
Main exports: onDisk, ReadsLast, FirstFileSuffices, Intact, reads_last_iff, rotation_hides_lines
-/
import Remgr.Logging.File

namespace Remgr.Logging

open Lib

/-- The lines still on disk: those of the rotated file, then those of the current one. -/
def onDisk (disk : Disk) : List (List Char) :=
  Text.lines (disk.previous.getD []) ++ Text.lines (disk.current.getD [])

/-- The last lines that were written come back, as many as are asked for and still there. -/
def ReadsLast (h : History) (n : Nat) : Prop :=
  readLogFile n h.logs.disk =
    .ok (tail (min n (onDisk h.logs.disk).length) (h.lines.map LogLine.text))

/-- There is a file, and the first one that is there has lines enough or is the only one with any.
-/
def FirstFileSuffices (disk : Disk) (n : Nat) : Prop :=
  match disk.current, disk.previous with
  | some current, some previous => n ≤ (Text.lines current).length ∨ Text.lines previous = []
  | none, none => False
  | _, _ => True

/-- No I/O failure. -/
def NoFailure (_ : History) : LogStep → Prop
  | .write io _ => io = {}
  | .restart => True

/-! ## Files of whole lines -/

theorem lines_joined (lines : List LogLine) : Text.lines (joined lines) = lines.map LogLine.text := by
  induction lines with
  | nil => rfl
  | cons line lines inductionHypothesis =>
      have clear : Text.split (· == '\n') line.text = [line.text] :=
        Text.split_of_plain _ fun c inside => beq_false_of_ne (line.oneLine c inside)
      have same : Text.stripReturn line.text = line.text := if_neg line.trimmed
      rw [joined, List.flatMap_cons, List.append_assoc, List.singleton_append, Text.lines_append, clear,
        List.map_singleton, same, List.map_cons, List.singleton_append, ← joined, inductionHypothesis]

theorem joined_concat (lines : List LogLine) (line : LogLine) :
    joined (lines ++ [line]) = joined lines ++ (line.text ++ ['\n']) := by
  simp [joined]

theorem size_append (front back : List Char) : size (front ++ back) = size front + size back := by
  simp [size]

theorem tail_append {α : Type} {n : Nat} {front back : List α} (enough : n ≤ back.length) :
    tail n (front ++ back) = tail n back := by
  have skips : front.length + back.length - n = front.length + (back.length - n) := by omega
  rw [tail, List.length_append, skips, List.drop_append, List.drop_eq_nil_of_le (by omega),
    Nat.add_sub_cancel_left, List.nil_append, tail]

theorem length_tail {α : Type} (n : Nat) (lines : List α) :
    (tail n lines).length = min n lines.length := by
  rw [tail, List.length_drop]
  omega

/-- The files hold the newest lines, and the sink counts the bytes of the file it has open. -/
structure Intact (logs : Logs) (lines : List LogLine) : Prop where
  files : ∃ older, ∃ previous current : Option (List LogLine),
    logs.disk = ⟨current.map joined, previous.map joined⟩ ∧
      lines = older ++ previous.getD [] ++ current.getD []
  counted : logs.sink.file = true →
    ∃ text, logs.disk.current = some text ∧ logs.sink.written = size text

variable {logs : Logs} {lines : List LogLine}

theorem Intact.openFile (intact : Intact logs lines) :
    Intact (openFile true logs) lines ∧ (openFile true logs).sink.file = true := by
  obtain ⟨older, previous, current, disk, whole⟩ := intact.files
  refine ⟨⟨⟨older, previous, some (current.getD []), ?_, whole⟩, fun _ => ⟨_, rfl, rfl⟩⟩, rfl⟩
  cases current <;> simp [Logging.openFile, disk, joined]

theorem Intact.rotate (intact : Intact logs lines) (filed : logs.sink.file = true) :
    Intact (rotate {} logs) lines ∧ (rotate {} logs).sink.file = true := by
  obtain ⟨older, previous, current, disk, whole⟩ := intact.files
  obtain ⟨text, there, -⟩ := intact.counted filed
  rw [disk] at there
  obtain ⟨content, rfl, -⟩ := Option.map_eq_some_iff.mp there
  refine Intact.openFile ⟨⟨older ++ previous.getD [], some content, none, ?_, ?_⟩, nofun⟩
  · simp [disk]
  · simp [whole]

theorem Intact.writeLine (intact : Intact logs lines) (line : LogLine) :
    Intact (writeLine {} line.text logs) (lines ++ [line]) := by
  -- the file is open before the line is appended
  have opened : ∃ ready, Intact ready lines ∧ ready.sink.file = true ∧
      ready = if logs.sink.file then logs else Logging.openFile true logs := by
    cases filed : logs.sink.file with
    | true => exact ⟨logs, intact, filed, rfl⟩
    | false => exact ⟨_, intact.openFile.1, intact.openFile.2, rfl⟩
  obtain ⟨ready, intactReady, filed, isReady⟩ := opened
  have rotated : ∃ next, Intact next lines ∧ next.sink.file = true ∧
      next = if logMaxBytes ≤ ready.sink.written then Logging.rotate {} ready else ready := by
    by_cases full : logMaxBytes ≤ ready.sink.written
    · exact ⟨_, (intactReady.rotate filed).1, (intactReady.rotate filed).2, (if_pos full).symm⟩
    · exact ⟨ready, intactReady, filed, (if_neg full).symm⟩
  obtain ⟨next, intactNext, filed, isNext⟩ := rotated
  have written : Logging.writeLine {} line.text logs =
      { disk := { next.disk with current := next.disk.current.map (· ++ (line.text ++ ['\n'])) }
        sink := { next.sink with
          written := next.sink.written + size line.text + 1, complained := false } } := by
    unfold Logging.writeLine
    dsimp only
    rw [← isReady, ← isNext, if_pos filed]
  obtain ⟨older, previous, current, disk, whole⟩ := intactNext.files
  obtain ⟨text, there, counted⟩ := intactNext.counted filed
  rw [written]
  constructor
  · rw [disk] at there
    obtain ⟨content, rfl, -⟩ := Option.map_eq_some_iff.mp there
    refine ⟨older, previous, some (content ++ [line]), ?_, ?_⟩
    · simp [disk, joined_concat]
    · simp [whole]
  · intro _
    refine ⟨text ++ (line.text ++ ['\n']), by simp [there], ?_⟩
    have newline : size ['\n'] = 1 := rfl
    rw [size_append, size_append, newline, counted, Nat.add_assoc]

/-- Over any run without I/O failures the files hold the newest lines. -/
theorem reaches_intact {h : History} (run : logging.Reaches NoFailure h) :
    Intact h.logs h.lines := by
  refine run.invariant (P := fun h => Intact h.logs h.lines) ?_ ?_
  · rintro h ⟨fresh, previous, current, disk, whole⟩
    refine ⟨⟨[], previous, current, disk, whole⟩, fun filed => ?_⟩
    rw [fresh] at filed
    cases filed
  · rintro h move h' - intact noFailure rfl
    cases move with
    | write io line =>
        obtain rfl : io = {} := noFailure
        exact intact.writeLine line
    | restart => exact ⟨intact.files, nofun⟩

/-! ## The law -/

theorem tail_min {α : Type} (n : Nat) {m : Nat} {lines : List α} (all : lines.length ≤ m) :
    tail (min n m) lines = tail n lines := by
  have same : lines.length - min n m = lines.length - n := by omega
  rw [tail, tail, same]

/-- The last lines of one file are the last ones of all, exactly when it has enough of them or is
the only one with any. -/
theorem tail_eq_iff {α : Type} (n : Nat) (older previous current : List α) :
    tail n current = tail (min n (previous.length + current.length)) (older ++ previous ++ current) ↔
      n ≤ current.length ∨ previous = [] := by
  constructor
  · intro same
    have sizes := congrArg List.length same
    rw [length_tail, length_tail, List.length_append, List.length_append] at sizes
    by_cases empty : previous = []
    · exact .inr empty
    · have := List.length_pos_iff.mpr empty
      omega
  · rintro (enough | rfl)
    · rw [Nat.min_eq_left (by omega), tail_append enough]
    · have bound : min n current.length ≤ current.length := Nat.min_le_right ..
      rw [List.length_nil, Nat.zero_add, tail_append bound, tail_min n (Nat.le_refl _)]

/-- After any run, `read_log_file` returns the last lines on disk exactly when the first file that
is there has lines enough, or no other lines are there. -/
theorem reads_last_iff (h : History) (run : logging.Reaches NoFailure h) (n : Nat) :
    ReadsLast h n ↔ FirstFileSuffices h.logs.disk n := by
  obtain ⟨older, previous, current, disk, whole⟩ := (reaches_intact run).files
  unfold ReadsLast FirstFileSuffices onDisk
  rw [disk, whole]
  cases current with
  | none =>
      cases previous with
      | none => simp [readLogFile, readFirst]
      | some previous =>
          have enough : min n previous.length ≤ previous.length := Nat.min_le_right ..
          simp only [readLogFile, readFirst, Option.map_none, Option.map_some, Option.getD_none,
            Option.getD_some, Text.lines_nil, List.append_nil, lines_joined, List.map_append,
            List.length_map, Except.ok.injEq, iff_true]
          rw [tail_append (by rwa [List.length_map]), tail_min n (by rw [List.length_map])]
  | some current =>
      cases previous with
      | none =>
          have enough : min n current.length ≤ current.length := Nat.min_le_right ..
          simp only [readLogFile, readFirst, Option.map_none, Option.map_some, Option.getD_none,
            Option.getD_some, Text.lines_nil, List.append_nil, List.nil_append, lines_joined,
            List.map_append, List.length_map, Except.ok.injEq, iff_true]
          rw [tail_append (by rwa [List.length_map]), tail_min n (by rw [List.length_map])]
      | some previous =>
          have iff := tail_eq_iff n (older.map LogLine.text) (previous.map LogLine.text)
            (current.map LogLine.text)
          simp only [readLogFile, readFirst, Option.map_some, Option.getD_some, lines_joined,
            List.map_append, List.length_append, List.length_map, Except.ok.injEq] at iff ⊢
          exact iff

/-! ## Where it holds and where it does not -/

def shortLine : LogLine where
  text := ['b']
  oneLine c inside := by
    rw [List.mem_singleton.mp inside]
    decide
  trimmed := by decide

/-- A line that fills a file. -/
def fullLine : LogLine where
  text := List.replicate logMaxBytes 'a'
  oneLine c inside := by
    rw [List.eq_of_mem_replicate inside]
    decide
  trimmed last := by
    cases List.eq_of_mem_replicate (List.mem_of_getLast? last)

theorem size_fullLine : size fullLine.text = logMaxBytes := by
  have one : Char.utf8Size 'a' = 1 := rfl
  rw [size, fullLine, List.map_replicate, one, List.sum_replicate_nat, Nat.mul_one]

def nothing : History := ⟨⟨⟨none, none⟩, {}⟩, []⟩

theorem nothing_starts : logging.Reaches NoFailure nothing := .start ⟨rfl, none, none, rfl, rfl⟩

theorem reaches_write {h : History} (run : logging.Reaches NoFailure h) (line : LogLine) :
    logging.Reaches NoFailure (logStep h (.write {} line)) :=
  have noFailure : NoFailure h (.write {} line) := rfl
  .next run noFailure rfl

theorem logs_write (h : History) (line : LogLine) :
    (logStep h (.write {} line)).logs = writeLine {} line.text h.logs :=
  rfl

theorem writeLine_first (line : List Char) : writeLine {} line nothing.logs =
    ⟨⟨some (line ++ ['\n']), none⟩, ⟨true, size line + 1, false⟩⟩ := by
  have empty : ¬ logMaxBytes ≤ size [] := by decide
  simp [writeLine, nothing, openFile, empty]
  rfl

theorem writeLine_full {text : List Char} {written : Nat} (full : logMaxBytes ≤ written)
    (line : List Char) : writeLine {} line ⟨⟨some text, none⟩, ⟨true, written, false⟩⟩ =
      ⟨⟨some (line ++ ['\n']), some text⟩, ⟨true, size line + 1, false⟩⟩ := by
  simp [writeLine, full, rotate, openFile]
  rfl

/-- A file is filled, and the next line begins a new one. -/
def rotated : History := logStep (logStep nothing (.write {} fullLine)) (.write {} shortLine)

theorem rotated_reached : logging.Reaches NoFailure rotated :=
  reaches_write (reaches_write nothing_starts fullLine) shortLine

theorem rotated_logs : rotated.logs =
    ⟨⟨some (joined [shortLine]), some (joined [fullLine])⟩, ⟨true, 2, false⟩⟩ := by
  have full : logMaxBytes ≤ size fullLine.text + 1 := by
    rw [size_fullLine]
    exact Nat.le_succ _
  rw [rotated, logs_write, logs_write, writeLine_first, writeLine_full full, joined, joined]
  simp only [List.flatMap_cons, List.flatMap_nil, List.append_nil]
  rfl

/-- After the rotation a second line is written, and both lines of the new file are read. -/
theorem reads_lines_rotated :
    (logStep rotated (.write {} shortLine)).logs.disk.previous = some (joined [fullLine]) ∧
      ReadsLast (logStep rotated (.write {} shortLine)) 2 := by
  have roomy : ¬ logMaxBytes ≤ 2 := by decide
  have disk : (logStep rotated (.write {} shortLine)).logs.disk =
      ⟨some (joined [shortLine, shortLine]), some (joined [fullLine])⟩ := by
    rw [logs_write, rotated_logs, writeLine]
    simp only [if_true, if_neg roomy, Option.map_some]
    rfl
  refine ⟨by rw [disk], (reads_last_iff _ (reaches_write rotated_reached shortLine) 2).mpr ?_⟩
  rw [disk]
  refine .inl ?_
  rw [lines_joined]
  exact Nat.le_refl _

/-- Right after a rotation the line before the last one is not found. -/
theorem rotation_hides_lines :
    ¬ ∀ h, logging.Reaches NoFailure h → ∀ n, ReadsLast h n := by
  intro law
  have reads := law _ rotated_reached 2
  rw [ReadsLast, rotated_logs] at reads
  simp only [readLogFile, readFirst, onDisk, Option.getD_some, lines_joined, List.map_cons,
    List.map_nil, Except.ok.injEq] at reads
  have sizes := congrArg List.length reads
  rw [length_tail, length_tail] at sizes
  cases sizes

end Remgr.Logging
