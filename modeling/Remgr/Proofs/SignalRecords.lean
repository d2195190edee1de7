/-
Module: Remgr.Proofs.SignalRecords
Purpose: Records survive the pipe exactly when no read ends inside one. A record fits its buffer at
  every value of its fields and is parsed back from any read that holds its text; a read that stops
  inside a record loses it or reads another code.
Trusted boundary: Remgr.Signals.Record
Main exports: record_eq, parse_body, Whole, records_survive
-/
import Remgr.Signals.Record
import Remgr.Lib.Cuts

namespace Remgr.Signals

open Lib Lib.Text

/-! ### What the handler writes -/

/-- The buffer has `text` at its front and `written.2` is where it ends. -/
def Holds (written : List UInt8 × Nat) (text : List UInt8) : Prop :=
  ∃ spare, written = (text ++ spare, text.length) ∧ text.length + spare.length = 80

theorem put_append (text bytes spare : List UInt8) (room : bytes.length ≤ spare.length) :
    put (text ++ spare) text.length bytes =
      (text ++ bytes ++ spare.drop bytes.length, (text ++ bytes).length) := by
  induction bytes generalizing text spare with
  | nil => simp [put]
  | cons b bytes inductionHypothesis =>
      cases spare with
      | nil => simp at room
      | cons c spare =>
          have inside : ¬ (text ++ c :: spare).length ≤ text.length := by simp
          have stored : (text ++ c :: spare).set text.length b = (text ++ [b]) ++ spare := by simp
          have next := inductionHypothesis (text ++ [b]) spare (by simpa using room)
          rw [put, if_neg inside, stored]
          simpa using next

theorem Holds.put {written : List UInt8 × Nat} {text : List UInt8} (bytes : List UInt8)
    (holds : Holds written text) (room : text.length + bytes.length ≤ 80) :
    Holds (put written.1 written.2 bytes) (text ++ bytes) := by
  obtain ⟨spare, rfl, size⟩ := holds
  refine ⟨spare.drop bytes.length, put_append text bytes spare (by omega), ?_⟩
  rw [List.length_append, List.length_drop]
  omega

theorem Holds.digits {written : List UInt8 × Nat} {text : List UInt8} (bytes : List UInt8)
    (holds : Holds written text) (room : text.length + bytes.length ≤ 80) :
    Holds (bytes.foldl (fun written digit => Signals.put written.1 written.2 [digit]) written)
      (text ++ bytes) := by
  induction bytes generalizing written text with
  | nil => simpa using holds
  | cons b bytes inductionHypothesis =>
      rw [List.length_cons] at room
      have first := Holds.put [b] holds (by simp only [List.length_singleton]; omega)
      have rest := inductionHypothesis first
        (by simp only [List.length_append, List.length_singleton]; omega)
      simpa using rest

theorem lowDigits_eq (places n : Nat) (fits : n < 10 ^ places) (filled : 0 < places) :
    (lowDigits places n).reverse = (Nat.toDigits 10 n).map asciiByte := by
  have table : ∀ d < 10, UInt8.ofNat (48 + d) = asciiByte d.digitChar := by decide
  induction places generalizing n with
  | zero => omega
  | succ places inductionHypothesis =>
      have last := table (n % 10) (Nat.mod_lt n (by decide))
      rw [lowDigits, Nat.toDigits_eq_if (by decide)]
      by_cases small : n < 10
      · rw [if_pos (Nat.div_eq_of_lt small), if_pos small, last, Nat.mod_eq_of_lt small]
        rfl
      · have more : n / 10 < 10 ^ places := by
          rw [Nat.pow_succ] at fits
          omega
        have positive : 0 < places := by
          rcases Nat.eq_zero_or_pos places with rfl | positive
          · simp only [Nat.zero_add, Nat.pow_one] at fits
            omega
          · exact positive
        rw [if_neg (by omega), if_neg small, List.reverse_cons,
          inductionHypothesis (n / 10) more positive, last, List.map_append]
        rfl

theorem length_decimal {v : Int} (most : Nat) (fits : v.natAbs < 10 ^ most) (filled : 0 < most) :
    (decimal v).length ≤ most + 1 ∧ (0 ≤ v → (decimal v).length ≤ most) := by
  have short := (Nat.length_toDigits_le_iff (b := 10) (by decide) filled).mpr fits
  unfold decimal
  split
  · exact ⟨by simpa using short, fun positive => by omega⟩
  · exact ⟨by omega, fun _ => short⟩

theorem Holds.int {written : List UInt8 × Nat} {text : List UInt8} {v : Int}
    (holds : Holds written text) (fits : v.natAbs < 10 ^ 20)
    (room : text.length + (decimal v).length ≤ 80) :
    Holds (putInt written.1 written.2 v) (text ++ (decimal v).map asciiByte) := by
  simp only [putInt, lowDigits_eq 20 _ fits (by decide)]
  unfold decimal at room ⊢
  split
  · next negative =>
      rw [if_pos negative, List.length_cons] at room
      have sign := Holds.put ("-".toList.map asciiByte) holds (by simp; omega)
      have number := Holds.digits ((Nat.toDigits 10 v.natAbs).map asciiByte) sign
        (by simp only [List.length_append, List.length_map]; simp; omega)
      simpa using number
  · next positive =>
      rw [if_neg positive] at room
      exact Holds.digits _ holds (by simpa using room)

/-- A record without its newline. -/
def Termination.body (t : Termination) : List Char :=
  recSignal ++ decimal t.signal.toInt ++ recPid ++ decimal t.senderPid.toInt ++ recUid ++
    decimal t.senderUid.toNat ++ recCode ++ decimal t.code.toInt

theorem length_decimal_i32 (v : Int32) : (decimal v.toInt).length ≤ 11 := by
  have low := v.le_toInt
  have high := v.toInt_lt
  exact (length_decimal 10 (by omega) (by decide)).1

theorem length_decimal_u32 (v : UInt32) : (decimal v.toNat).length ≤ 10 := by
  have high := v.toNat_lt
  exact (length_decimal 10 (by omega) (by decide)).2 (by omega)

theorem Holds.text {written : List UInt8 × Nat} {text : List UInt8} (chars : List Char)
    (holds : Holds written text) (room : text.length + chars.length ≤ 80) :
    Holds (Signals.put written.1 written.2 (chars.map asciiByte)) (text ++ chars.map asciiByte) :=
  Holds.put _ holds (by simpa using room)

theorem Holds.taken {written : List UInt8 × Nat} {text : List UInt8} (holds : Holds written text) :
    written.1.take (min written.2 written.1.length) = text := by
  obtain ⟨spare, rfl, size⟩ := holds
  simp

/-- The buffer is large enough for every value of the fields. -/
theorem record_eq (t : Termination) : t.record = (t.body ++ ['\n']).map asciiByte := by
  have sig := length_decimal_i32 t.signal
  have pid := length_decimal_i32 t.senderPid
  have uid := length_decimal_u32 t.senderUid
  have code := length_decimal_i32 t.code
  have i32 : ∀ v : Int32, v.toInt.natAbs < 10 ^ 20 := fun v => by
    have low := v.le_toInt
    have high := v.toInt_lt
    omega
  have u32 : ((t.senderUid.toNat : Nat) : Int).natAbs < 10 ^ 20 := by
    have high := t.senderUid.toNat_lt
    omega
  have empty : Holds (List.replicate 80 0, 0) [] := ⟨List.replicate 80 0, rfl, by simp⟩
  have sizes : recSignal.length = 7 ∧ recPid.length = 10 ∧ recUid.length = 5 ∧ recCode.length = 6 := by
    decide
  have start := Holds.text recSignal empty (by simp; omega)
  have start := Holds.text recPid (start.int (i32 t.signal) (by simp; omega)) (by simp; omega)
  have start := Holds.text recUid (start.int (i32 t.senderPid) (by simp; omega)) (by simp; omega)
  have start := Holds.text recCode (start.int u32 (by simp; omega)) (by simp; omega)
  have start := Holds.text ['\n'] (start.int (i32 t.code) (by simp; omega)) (by simp; omega)
  have taken := start.taken
  simpa only [Termination.record, recordBytes, Termination.body, List.map_append, List.nil_append]
    using taken

/-! ### What the reader makes of a line -/

/-- The texts of the four numbers of a line, in order. -/
structure Fields (line sig pid uid code : List Char) : Prop where
  same : line = recSignal ++ (sig ++ ' ' :: (recPid.dropWhile isWhitespace ++ (pid ++ ' ' ::
    (recUid.dropWhile isWhitespace ++ (uid ++ ' ' :: (recCode.dropWhile isWhitespace ++ code))))))
  clearSig : ' ' ∉ sig
  clearPid : ' ' ∉ pid
  clearUid : ' ' ∉ uid

theorem parse_of_fields {line sig pid uid code : List Char} (fields : Fields line sig pid uid code) :
    parse line = (parseI32 sig).bind fun signal => (parseI32 pid).bind fun senderPid =>
      (parseU32 uid).bind fun senderUid => (parseI32 (trimEnd code)).bind fun code =>
        some ⟨signal, senderPid, senderUid, code⟩ := by
  simp only [parse, fields.same, stripPrefix_append, splitOnce_append fields.clearSig,
    splitOnce_append fields.clearPid, splitOnce_append fields.clearUid, bind, Option.bind_some, pure]

theorem fields_of_parse {line : List Char} {t : Termination} (read : parse line = some t) :
    ∃ sig pid uid code, Fields line sig pid uid code := by
  obtain ⟨rest, line', read⟩ := Option.bind_eq_some_iff.mp read
  obtain ⟨⟨sig, rest⟩, sigHalves, read⟩ := Option.bind_eq_some_iff.mp read
  obtain ⟨signal, -, read⟩ := Option.bind_eq_some_iff.mp read
  obtain ⟨rest, pidLabel, read⟩ := Option.bind_eq_some_iff.mp read
  obtain ⟨⟨pid, rest⟩, pidHalves, read⟩ := Option.bind_eq_some_iff.mp read
  obtain ⟨senderPid, -, read⟩ := Option.bind_eq_some_iff.mp read
  obtain ⟨rest, uidLabel, read⟩ := Option.bind_eq_some_iff.mp read
  obtain ⟨⟨uid, rest⟩, uidHalves, read⟩ := Option.bind_eq_some_iff.mp read
  obtain ⟨senderUid, -, read⟩ := Option.bind_eq_some_iff.mp read
  obtain ⟨code, codeLabel, -⟩ := Option.bind_eq_some_iff.mp read
  rw [stripPrefix_eq_some_iff] at line' pidLabel uidLabel codeLabel
  rw [splitOnce_eq_some_iff] at sigHalves pidHalves uidHalves
  refine ⟨sig, pid, uid, code, ?_, sigHalves.2, pidHalves.2, uidHalves.2⟩
  rw [line', sigHalves.1, pidLabel, pidHalves.1, uidLabel, uidHalves.1, codeLabel]

theorem clear_decimal (v : Int) : ' ' ∉ decimal v := by
  intro inside
  rcases mem_decimal inside with sign | digit
  · exact absurd sign (by decide)
  · exact absurd digit.1 (by decide)

theorem fields_body (t : Termination) : Fields t.body (decimal t.signal.toInt)
    (decimal t.senderPid.toInt) (decimal t.senderUid.toNat) (decimal t.code.toInt) where
  same := by
    have pidLabel : ∀ x, recPid ++ x = ' ' :: (recPid.dropWhile isWhitespace ++ x) := fun _ => rfl
    have uidLabel : ∀ x, recUid ++ x = ' ' :: (recUid.dropWhile isWhitespace ++ x) := fun _ => rfl
    have codeLabel : ∀ x, recCode ++ x = ' ' :: (recCode.dropWhile isWhitespace ++ x) := fun _ => rfl
    simp only [Termination.body, List.append_assoc]
    rw [pidLabel, uidLabel, codeLabel]
  clearSig := clear_decimal _
  clearPid := clear_decimal _
  clearUid := clear_decimal _

theorem trimEnd_of_decimal {text : List Char} {v : Int} (inside : ∀ c ∈ text, c ∈ decimal v) :
    trimEnd text = text := by
  apply trimEnd_of_plain
  intro c here
  rcases mem_decimal (inside c here) with rfl | ⟨low, high⟩
  · decide
  · simp only [isWhitespace, Bool.or_eq_false_iff, Bool.and_eq_false_iff, decide_eq_false_iff_not,
      beq_eq_false_iff_ne]
    omega

theorem parseI32_decimal (v : Int32) : parseI32 (decimal v.toInt) = some v := by
  rw [parseI32, parseSigned_decimal v.le_toInt v.toInt_lt, Option.map_some, Int32.ofInt_toInt]

theorem parseU32_decimal (v : UInt32) : parseU32 (decimal v.toNat) = some v := by
  have printed : decimal v.toNat = Nat.toDigits 10 v.toNat := if_neg (by omega)
  rw [parseU32, printed, parseUnsigned_toDigits v.toNat_lt, Option.map_some, UInt32.ofNat_toNat]

theorem parse_body (t : Termination) : parse t.body = some t := by
  rw [parse_of_fields (fields_body t), trimEnd_of_decimal fun c inside => inside,
    parseI32_decimal, parseI32_decimal, parseU32_decimal, parseI32_decimal]
  rfl

/-- A line that stops short of its record's end is not read as that record. -/
theorem eq_nil_of_parse {t : Termination} {front back : List Char} (line : front ++ back = t.body)
    (read : parse front = some t) : back = [] := by
  obtain ⟨sig, pid, uid, code, fields⟩ := fields_of_parse read
  have whole := fields_body t
  rw [parse_of_fields fields] at read
  obtain ⟨signal, -, read⟩ := Option.bind_eq_some_iff.mp read
  obtain ⟨senderPid, -, read⟩ := Option.bind_eq_some_iff.mp read
  obtain ⟨senderUid, -, read⟩ := Option.bind_eq_some_iff.mp read
  obtain ⟨value, readCode, same⟩ := Option.bind_eq_some_iff.mp read
  have value : value = t.code := by rw [← Option.some.inj same]
  have tail : code ++ back = decimal t.code.toInt := by
    have texts := line
    rw [fields.same, whole.same] at texts
    simp only [List.append_assoc, List.cons_append] at texts
    replace texts := List.append_cancel_left texts
    have pids := (append_separator_inj fields.clearSig whole.clearSig texts).2
    replace pids := List.append_cancel_left pids
    have uids := (append_separator_inj fields.clearPid whole.clearPid pids).2
    replace uids := List.append_cancel_left uids
    have codes := (append_separator_inj fields.clearUid whole.clearUid uids).2
    exact List.append_cancel_left codes
  have plain : trimEnd code = code :=
    trimEnd_of_decimal fun c inside => tail ▸ List.mem_append_left back inside
  rw [plain, value] at readCode
  obtain ⟨v, number, isCode⟩ := Option.map_eq_some_iff.mp readCode
  have range := parseSigned_range number
  have isCode : v = t.code.toInt := by
    rw [← isCode, Int32.toInt_ofInt_of_le range.1 range.2]
  exact decimal_of_prefix tail (isCode ▸ number)

/-! ### Records in pieces -/

/-- A record as text. -/
def Termination.line (t : Termination) : List Char := t.body ++ ['\n']

theorem mem_body_tail {t : Termination} {c : Char} (inside : c ∈ t.body.tail) :
    c ≠ 's' ∧ c ≠ '\n' ∧ c ≠ '\r' ∧ c.toNat < 128 := by
  have printed : ∀ v, c ∈ decimal v → c ≠ 's' ∧ c ≠ '\n' ∧ c ≠ '\r' ∧ c.toNat < 128 := by
    intro v here
    rcases mem_decimal here with rfl | ⟨low, high⟩
    · decide
    · refine ⟨?_, ?_, ?_, by omega⟩ <;> rintro rfl <;> simp at low high
  have table : [recSignal.tail, recPid, recUid, recCode].all (fun text => text.all fun c =>
      c ≠ 's' ∧ c ≠ '\n' ∧ c ≠ '\r' ∧ c.toNat < 128) = true := by decide
  have constant : ∀ text ∈ [recSignal.tail, recPid, recUid, recCode], c ∈ text →
      c ≠ 's' ∧ c ≠ '\n' ∧ c ≠ '\r' ∧ c.toNat < 128 := fun text isPart here =>
    of_decide_eq_true (List.all_eq_true.mp (List.all_eq_true.mp table text isPart) c here)
  have start : t.body.tail = recSignal.tail ++ decimal t.signal.toInt ++ recPid ++
      decimal t.senderPid.toInt ++ recUid ++ decimal t.senderUid.toNat ++ recCode ++
      decimal t.code.toInt := rfl
  rw [start] at inside
  simp only [List.mem_append] at inside
  rcases inside with ((((((here | here) | here) | here) | here) | here) | here) | here
  · exact constant _ (by simp) here
  · exact printed _ here
  · exact constant _ (by simp) here
  · exact printed _ here
  · exact constant _ (by simp) here
  · exact printed _ here
  · exact constant _ (by simp) here
  · exact printed _ here

theorem body_eq (t : Termination) : t.body = 's' :: t.body.tail := rfl

theorem mem_body {t : Termination} {c : Char} (inside : c ∈ t.body) :
    c ≠ '\n' ∧ c ≠ '\r' ∧ c.toNat < 128 := by
  rw [body_eq] at inside
  rcases List.mem_cons.mp inside with rfl | later
  · decide
  · exact (mem_body_tail later).2

theorem parse_none {line : List Char} (clear : 's' ∉ line) : parse line = none := by
  cases read : parse line with
  | none => rfl
  | some t =>
      obtain ⟨sig, pid, uid, code, fields⟩ := fields_of_parse read
      rw [fields.same] at clear
      exact absurd List.mem_cons_self clear

theorem parseAll_none {text : List Char} (clear : 's' ∉ text) : parseAll text = [] := by
  rw [parseAll, List.filterMap_eq_nil_iff]
  intro line inside
  exact parse_none fun here => clear (mem_of_mem_lines inside here)

theorem parseAll_append (front back : List Char) :
    parseAll (front ++ '\n' :: back) = parseAll (front ++ ['\n']) ++ parseAll back := by
  simp only [parseAll, lines_append, List.filterMap_append, lines_nil,
    List.append_nil]

theorem parseAll_line (t : Termination) : parseAll t.line = [t] := by
  have single : split (· == '\n') t.body = [t.body] :=
    split_of_plain _ fun c inside => beq_false_of_ne (mem_body inside).1
  have kept : stripReturn t.body = t.body :=
    if_neg fun last => (mem_body (List.mem_of_getLast? last)).2.1 rfl
  simp [parseAll, Termination.line, lines_append, single, kept, parse_body]

theorem parseAll_front {t : Termination} {front back : List Char} (whole : t.body = front ++ back)
    (filled : front ≠ []) : parseAll front = (parse front).toList := by
  have plain : lines front = [front] := lines_of_plain
    (fun c inside => (mem_body (whole ▸ List.mem_append_left back inside)).1) filled
  rw [parseAll, plain]
  cases read : parse front <;> simp [read]

/-- What the reader sends for reads of these texts. -/
def heard (pieces : List (List Char)) : List Termination := pieces.flatMap parseAll

theorem heard_none {pieces : List (List Char)} (clear : 's' ∉ pieces.flatten) : heard pieces = [] := by
  rw [heard, List.flatMap_eq_nil_iff]
  intro piece inside
  exact parseAll_none fun here => clear (List.mem_flatten.mpr ⟨piece, inside, here⟩)

/-- What is asked of the pieces of one record: at most one value is sent for it, and it is the record's
exactly if no cut falls inside its text. -/
def Judged (t : Termination) (pieces : List (List Char)) : Prop :=
  (heard pieces).length ≤ 1 ∧
    (heard pieces = [t] ↔
      ∀ n ∈ cuts 0 pieces, n = 0 ∨ n + 1 = t.line.length ∨ n = t.line.length)

theorem eq_nil_of_flatten {α : Type} {pieces : List (List α)} (empty : pieces.flatten = [])
    (filled : ∀ piece ∈ pieces, piece ≠ []) : pieces = [] := by
  cases pieces with
  | nil => rfl
  | cons piece pieces =>
      exact absurd (List.flatten_eq_nil_iff.mp empty piece List.mem_cons_self)
        (filled piece List.mem_cons_self)

theorem heard_whole {t : Termination} {first : List Char} {rest : List (List Char)}
    (here : first = t.body ++ ['\n']) (done : rest = []) : Judged t (first :: rest) := by
  subst here done
  have read : heard [t.line] = [t] := by simp [heard, parseAll_line]
  refine ⟨by rw [← Termination.line, read]; simp, iff_of_true read ?_⟩
  intro n cut
  simp only [cuts, List.mem_cons, Nat.zero_add, List.not_mem_nil, or_false] at cut
  rw [Termination.line]
  omega

/-- The newline came in a read of its own. -/
theorem heard_parted {t : Termination} {first : List Char} {rest : List (List Char)}
    (here : first = t.body) (tail : rest.flatten = ['\n']) (filled : ∀ piece ∈ rest, piece ≠ []) :
    Judged t (first :: rest) := by
  subst here
  have alone : rest = [['\n']] := by
    cases rest with
    | nil => cases tail
    | cons piece rest =>
        rcases List.append_eq_singleton_iff.mp tail with ⟨empty, -⟩ | ⟨newline, empty⟩
        · exact absurd empty (filled piece List.mem_cons_self)
        · rw [newline, eq_nil_of_flatten empty fun p inside => filled p (List.mem_cons_of_mem _ inside)]
  subst alone
  have front := parseAll_front (List.append_nil t.body).symm (List.cons_ne_nil _ _)
  have newline : parseAll ['\n'] = [] := parseAll_none (by decide)
  have read : heard [t.body, ['\n']] = [t] := by
    simp [heard, front, parse_body, newline]
  refine ⟨by rw [read]; simp, iff_of_true read ?_⟩
  intro n cut
  simp only [cuts, List.mem_cons, Nat.zero_add, List.not_mem_nil, or_false,
    List.length_singleton] at cut
  rw [Termination.line, List.length_append, List.length_singleton]
  omega

/-- A cut inside the text of the record. -/
theorem heard_broken {t : Termination} {first back : List Char} {rest : List (List Char)}
    (body : t.body = first ++ back) (filled : first ≠ []) (more : back ≠ [])
    (tail : rest.flatten = back ++ ['\n']) : Judged t (first :: rest) := by
  have clear : 's' ∉ rest.flatten := by
    rw [tail]
    intro inside
    rcases List.mem_append.mp inside with here | newline
    · have later : 's' ∈ t.body.tail := by
        rw [body, List.tail_append_of_ne_nil filled]
        exact List.mem_append_right _ here
      exact (mem_body_tail later).1 rfl
    · exact absurd newline (by decide)
  have read : heard (first :: rest) = (parse first).toList := by
    rw [heard, List.flatMap_cons, parseAll_front body filled]
    exact (congrArg ((parse first).toList ++ ·) (heard_none clear)).trans (List.append_nil _)
  have lost : parse first ≠ some t := fun same => more (eq_nil_of_parse body.symm same)
  constructor
  · rw [read]
    cases parse first <;> simp
  · rw [read]
    constructor
    · intro same
      cases value : parse first with
      | none => rw [value] at same; cases same
      | some other =>
          rw [value] at same lost
          exact absurd (congrArg some (List.cons.inj same).1) lost
    · intro clean
      have inside : first.length ∈ cuts 0 (first :: rest) := by
        rw [cuts, Nat.zero_add]
        exact List.mem_cons_of_mem 0 (start_mem_cuts _ rest)
      have some' := List.length_pos_iff.mpr filled
      have more' := List.length_pos_iff.mpr more
      have cut := clean first.length inside
      rw [Termination.line, body, List.length_append, List.length_append, List.length_singleton] at cut
      omega

/-- The pieces of one record: either no cut falls inside its text and it is read, or one does and it
is not. -/
theorem heard_pieces {t : Termination} {pieces : List (List Char)}
    (whole : pieces.flatten = t.line) (filled : ∀ piece ∈ pieces, piece ≠ []) :
    Judged t pieces := by
  cases pieces with
  | nil => simp [Termination.line] at whole
  | cons first rest =>
      have firstFilled := filled first List.mem_cons_self
      have restFilled := fun piece inside => filled piece (List.mem_cons_of_mem first inside)
      rw [List.flatten_cons, Termination.line, List.append_eq_append_iff] at whole
      rcases whole with ⟨back, body, tail⟩ | ⟨last, here, tail⟩
      · cases back with
        | nil => exact heard_parted (by simpa using body.symm) (by simpa using tail) restFilled
        | cons c back => exact heard_broken body firstFilled (List.cons_ne_nil c back) tail
      · cases last with
        | nil => exact heard_parted (by simpa using here) (by simpa using tail.symm) restFilled
        | cons c last =>
            obtain ⟨rfl, nothing⟩ := List.cons.inj tail
            obtain ⟨rfl, empty⟩ := List.append_eq_nil_iff.mp nothing.symm
            exact heard_whole here (eq_nil_of_flatten empty restFilled)

/-! ### Every record -/

/-- A newline at the end of the first part keeps the two parts of a read apart. -/
theorem heard_divides {pieces front back : List (List Char)} {text : List Char}
    (divides : Divides pieces front back) (ends : front.flatten = text ++ ['\n']) :
    heard pieces = heard front ++ heard back := by
  cases divides with
  | between same => rw [same, heard, List.flatMap_append]; rfl
  | within before left right after leftFilled rightFilled whole first second =>
      subst whole first second
      have last : left.getLast? = some '\n' := by
        have both := congrArg List.getLast? ends
        rw [List.flatten_append, List.flatten_singleton, List.getLast?_append_of_ne_nil _ leftFilled]
          at both
        simpa using both
      obtain ⟨line, rfl⟩ := List.getLast?_eq_some_iff.mp last
      have apart : parseAll (line ++ (['\n'] ++ right)) =
          parseAll (line ++ ['\n']) ++ parseAll right := parseAll_append line right
      simp only [heard, List.flatMap_append, List.flatMap_cons, List.flatMap_nil, apart,
        List.append_assoc, List.append_nil]

/-- No cut inside the text of a record: each is where a record ends, or just before its newline. -/
def Whole {α β : Type} (records : List (List α)) (reads : List (List β)) : Prop :=
  ∀ n ∈ cuts 0 reads, n ∈ cuts 0 records ∨ n + 1 ∈ cuts 0 records

theorem whole_cons {t : Termination} {lines : List (List Char)} {pieces front back : List (List Char)}
    (divides : Divides pieces front back) (ends : front.flatten = t.line) :
    Whole (t.line :: lines) pieces ↔
      (∀ n ∈ cuts 0 front, n = 0 ∨ n + 1 = t.line.length ∨ n = t.line.length) ∧ Whole lines back := by
  have size : 0 < t.line.length := by simp [Termination.line]
  have parts : ∀ n, (n ∈ cuts 0 pieces ∨ n = t.line.length) ↔
      n ∈ cuts 0 front ∨ n ∈ cuts t.line.length back := fun n => ends ▸ divides.cuts_iff
  have boundary : ∀ n, n ∈ cuts 0 (t.line :: lines) ↔
      n = 0 ∨ ∃ m ∈ cuts 0 lines, n = t.line.length + m := by
    intro n
    rw [cuts, List.mem_cons, Nat.zero_add, mem_cuts_shift]
  have start := start_mem_cuts 0 lines
  constructor
  · intro whole
    constructor
    · intro n cut
      have bound := (mem_cuts_bounds cut).2
      rw [ends, Nat.zero_add] at bound
      rcases (parts n).mpr (.inl cut) with inside | rfl
      · rcases whole n inside with here | next
        · rcases (boundary n).mp here with zero | ⟨m, -, later⟩ <;> omega
        · rcases (boundary (n + 1)).mp next with zero | ⟨m, -, later⟩ <;> omega
      · omega
    · intro n cut
      have shifted : t.line.length + n ∈ cuts t.line.length back :=
        mem_cuts_shift.mpr ⟨n, cut, rfl⟩
      rcases (parts _).mpr (.inr shifted) with inside | same
      · rcases whole _ inside with here | next
        · rcases (boundary _).mp here with zero | ⟨m, record, later⟩
          · omega
          · exact .inl ((by omega : n = m) ▸ record)
        · rcases (boundary _).mp next with zero | ⟨m, record, later⟩
          · omega
          · exact .inr ((by omega : n + 1 = m) ▸ record)
      · exact .inl ((by omega : n = 0) ▸ start)
  · rintro ⟨first, rest⟩ n cut
    have atEnd : t.line.length ∈ cuts 0 (t.line :: lines) :=
      (boundary _).mpr (.inr ⟨0, start, rfl⟩)
    rcases (parts n).mp (.inl cut) with inside | later
    · rcases first n inside with rfl | before | rfl
      · exact .inl ((boundary 0).mpr (.inl rfl))
      · exact .inr (before ▸ atEnd)
      · exact .inl atEnd
    · obtain ⟨m, inside, rfl⟩ := mem_cuts_shift.mp later
      rcases rest m inside with here | next
      · exact .inl ((boundary _).mpr (.inr ⟨m, here, rfl⟩))
      · exact .inr ((boundary _).mpr (.inr ⟨m + 1, next, rfl⟩))

/-- Induction on the records; the pieces of the first are judged by themselves. -/
theorem heard_iff {written : List Termination} {pieces : List (List Char)}
    (whole : pieces.flatten = written.flatMap Termination.line)
    (filled : ∀ piece ∈ pieces, piece ≠ []) :
    (heard pieces).length ≤ written.length ∧
      (heard pieces = written ↔ Whole (written.map Termination.line) pieces) := by
  induction written generalizing pieces with
  | nil =>
      have none := eq_nil_of_flatten whole filled
      subst none
      exact ⟨Nat.le_refl 0, iff_of_true rfl fun n cut => .inl cut⟩
  | cons t written inductionHypothesis =>
      rw [List.flatMap_cons] at whole
      obtain ⟨front, back, divides, ends, rest⟩ := exists_divides whole
      obtain ⟨frontFilled, backFilled⟩ := divides.filled filled
      obtain ⟨single, first⟩ := heard_pieces ends frontFilled
      obtain ⟨count, others⟩ := inductionHypothesis rest backFilled
      rw [heard_divides divides ends, List.map_cons, whole_cons divides ends, ← first, ← others,
        List.length_append, List.length_cons]
      refine ⟨by omega, ?_, ?_⟩
      · intro same
        have lengths := congrArg List.length same
        rw [List.length_append, List.length_cons] at lengths
        have front1 : (heard front).length = [t].length := by
          rw [List.length_singleton]
          omega
        have parts : heard front ++ heard back = [t] ++ written := same
        exact List.append_inj parts front1
      · rintro ⟨one, more⟩
        rw [one, more]
        rfl

theorem ascii_line {t : Termination} {c : Char} (inside : c ∈ t.line) : c.toNat < 128 := by
  rcases List.mem_append.mp inside with body | newline
  · exact (mem_body body).2.2
  · rw [List.mem_singleton.mp newline]
    decide

theorem flatMap_record (written : List Termination) :
    written.flatMap Termination.record = (written.flatMap Termination.line).map asciiByte := by
  rw [List.map_flatMap]
  exact congrArg (written.flatMap ·) (funext record_eq)

theorem sent_eq_heard {reads : List (List UInt8)} (ascii : ∀ b ∈ reads.flatten, b < 0x80) :
    sent reads = heard (reads.map (List.map asciiChar)) := by
  rw [sent, heard, List.flatMap_map]
  apply List.flatMap_congr
  intro read inside
  rw [fromUtf8Lossy_of_ascii fun b here => ascii b (List.mem_flatten.mpr ⟨read, inside, here⟩)]

/-- The values the reader thread sends are the ones the handler wrote exactly if every read ends at
the end of a record or just before its newline. -/
theorem records_survive (written : List Termination) (reads : List (List UInt8))
    (read : Reads (written.flatMap Termination.record) reads) :
    sent reads = written ↔ Whole (written.map Termination.record) reads := by
  have contents := read.whole.trans (flatMap_record written)
  have plain : ∀ c ∈ written.flatMap Termination.line, c.toNat < 128 := by
    intro c inside
    obtain ⟨t, -, here⟩ := List.mem_flatMap.mp inside
    exact ascii_line here
  have ascii : ∀ b ∈ reads.flatten, b < 0x80 := by
    intro b inside
    rw [contents] at inside
    obtain ⟨c, here, rfl⟩ := List.mem_map.mp inside
    have small := plain c here
    rw [UInt8.lt_iff_toNat_lt, asciiByte, UInt8.toNat_ofNat', Nat.mod_eq_of_lt (by omega)]
    exact small
  have texts : (reads.map (List.map asciiChar)).flatten = written.flatMap Termination.line := by
    rw [← List.map_flatten, contents, map_asciiChar plain]
  have records : written.map Termination.record =
      (written.map Termination.line).map (List.map asciiByte) := by
    rw [List.map_map]
    exact congrArg (written.map ·) (funext record_eq)
  have filled : ∀ piece ∈ reads.map (List.map asciiChar), piece ≠ [] := by
    intro piece inside
    obtain ⟨bytes, isRead, rfl⟩ := List.mem_map.mp inside
    exact fun empty => read.filled bytes isRead (List.map_eq_nil_iff.mp empty)
  rw [sent_eq_heard ascii, (heard_iff texts filled).2, Whole, Whole, records, cuts_map, cuts_map]

instance {α β : Type} (records : List (List α)) (reads : List (List β)) :
    Decidable (Whole records reads) :=
  inferInstanceAs (Decidable (∀ n ∈ cuts 0 reads, n ∈ cuts 0 records ∨ n + 1 ∈ cuts 0 records))

/-- A signal whose sender the kernel did not report. -/
def anonymous (signal : Int32) : Termination :=
  { signal := signal, senderPid := 0, senderUid := 0, code := 0 }

/-- SIGHUP, then SIGTERM, in one read. -/
theorem records_survive_together :
    sent [[anonymous 1, anonymous 15].flatMap Termination.record] = [anonymous 1, anonymous 15] :=
  (records_survive [anonymous 1, anonymous 15] [[anonymous 1, anonymous 15].flatMap Termination.record]
    ⟨by decide +kernel, by decide +kernel, by decide +kernel⟩).mpr (by decide +kernel)

/-- Three SIGHUP and a SIGTERM are pending when the thread reads: its buffer ends inside the SIGTERM
record, and no value is sent for it. -/
theorem pending_signal_lost :
    let written := [anonymous 1, anonymous 1, anonymous 1, anonymous 15]
    let contents := written.flatMap Termination.record
    let reads := [contents.take readSize, contents.drop readSize]
    Reads contents reads ∧ sent reads = [anonymous 1, anonymous 1, anonymous 1] ∧
      sent reads ≠ written :=
  ⟨⟨by decide +kernel, by decide +kernel, by decide +kernel⟩, by decide +kernel, by decide +kernel⟩

end Remgr.Signals
