/-
Module: Remgr.Proofs.LogHub
Purpose: The lines that reach the ring of the log hub, however the bytes of the log are cut into
  writes.
Trusted boundary: Remgr.Logging.Hub
Main exports: kept, Reassembled, CleanCuts, LogHub.ingest_spec, written_fits, written_replaced,
  reassembled_iff, cut_character_replaced
-/
import Mathlib.Data.List.DropRight
import Remgr.Lib.Unfinished
import Remgr.Lib.Utf8Cuts
import Remgr.Logging.Hub
import Remgr.Proofs.LogFile

namespace Remgr.Logging

open Lib Lib.Text

/-- The lines as they are kept: without trailing white space, and without empty ones. -/
def kept (lines : List (List Char)) : List (List Char) := (lines.map trimEnd).filter (· ≠ [])

/-- The bytes since the last newline. -/
def unfinishedBytes (bytes : List UInt8) : List UInt8 := bytes.rtakeWhile (· ≠ 10)

/-- The text arrived in these writes as it would have in one. -/
structure Reassembled (text : List Char) (pieces : List (List UInt8)) : Prop where
  lines : (written pieces).sent = kept (finished text)
  single : (written pieces).sent = (written [encode text]).sent
  ring : (written pieces).entries = tail ringSize (kept (finished text))
  held : ∀ front back, pieces = front ++ back → size (written front).fragment ≤ maxPartial

/-- No write ends inside a character, but for the last line, which has no end yet; and there the
replacement characters that stand for what was cut do not make the line too long. -/
structure CleanCuts (pieces : List (List UInt8)) : Prop where
  between : ∀ front back, pieces = front ++ back → 10 ∈ back.flatten →
    ∃ part, front.flatten = encode part
  fits : ∀ front back, pieces = front ++ back → size (unfinished (readPieces front)) ≤ maxPartial

@[simp] theorem kept_append (front back : List (List Char)) :
    kept (front ++ back) = kept front ++ kept back := by
  rw [kept, List.map_append, List.filter_append, kept, kept]

@[simp] theorem kept_nil : kept [] = [] := rfl

theorem trimEnd_newline (line : List Char) : trimEnd (line ++ ['\n']) = trimEnd line := by
  have blank : isWhitespace '\n' = true := by decide
  rw [trimEnd, List.reverse_append, List.reverse_singleton, List.singleton_append,
    List.dropWhile_cons_of_pos blank, trimEnd]

/-! ## One write -/

namespace LogHub

variable (hub : LogHub)

@[simp] theorem pushTrimmed_fragment (line : List Char) :
    (hub.pushTrimmed line).fragment = hub.fragment := by
  unfold pushTrimmed
  split <;> rfl

theorem pushTrimmed_sent (line : List Char) :
    (hub.pushTrimmed line).sent = hub.sent ++ kept [line] := by
  unfold pushTrimmed
  split
  · next empty => simp [kept, empty]
  · next filled => simp [kept, filled, pushLine]

/-- The ring holds the newest lines. -/
def Ring : Prop := hub.entries = tail ringSize hub.sent

theorem Ring.pushLine {hub : LogHub} (ring : hub.Ring) (line : List Char) :
    (hub.pushLine line).Ring := by
  have size : hub.entries.length = min ringSize hub.sent.length := by rw [ring, length_tail]
  unfold Ring LogHub.pushLine
  dsimp only
  by_cases full : hub.entries.length = ringSize
  · have positive : 0 < ringSize := by decide
    have skips : hub.sent.length - ringSize + 1 = hub.sent.length + 1 - ringSize := by omega
    rw [if_pos full, ring, tail, tail, List.tail_drop, List.length_append, List.length_singleton, skips,
      List.drop_append_of_le_length (by omega)]
  · have short : hub.sent.length - ringSize = 0 := by omega
    have shortToo : hub.sent.length + 1 - ringSize = 0 := by omega
    rw [if_neg full, ring, tail, tail, short, List.drop_zero, List.length_append,
      List.length_singleton, shortToo, List.drop_zero]

theorem Ring.pushTrimmed {hub : LogHub} (ring : hub.Ring) (line : List Char) :
    (hub.pushTrimmed line).Ring := by
  unfold LogHub.pushTrimmed
  split
  · exact ring
  · exact ring.pushLine _

/-- What the loop of `ingest` does, all turns together. -/
theorem drainLines_spec (fuel : Nat) {hub : LogHub} (enough : hub.fragment.length ≤ fuel) :
    (drainLines fuel hub).fragment = unfinished hub.fragment ∧
      (drainLines fuel hub).sent = hub.sent ++ kept (finished hub.fragment) ∧
      (hub.Ring → (drainLines fuel hub).Ring) := by
  induction fuel generalizing hub with
  | zero =>
      have empty : hub.fragment = [] := List.length_eq_zero_iff.mp (Nat.le_zero.mp enough)
      rw [empty]
      exact ⟨by simpa [drainLines] using empty, by simp [drainLines], id⟩
  | succ fuel inductionHypothesis =>
      rw [drainLines]
      cases halves : splitOnce '\n' hub.fragment with
      | some both =>
          obtain ⟨line, rest⟩ := both
          obtain ⟨whole, clear⟩ := splitOnce_eq_some_iff.mp halves
          have size := congrArg List.length whole
          rw [List.length_append, List.length_cons] at size
          obtain ⟨fragment, sent, ring⟩ := @inductionHypothesis
            ({ hub with fragment := rest }.pushTrimmed (line ++ ['\n']))
            (by rw [pushTrimmed_fragment]; dsimp only; omega)
          rw [pushTrimmed_fragment] at fragment sent
          rw [pushTrimmed_sent] at sent
          dsimp only
          rw [fragment, sent, whole, unfinished_newline, finished_newline, split_newline clear,
            kept_append]
          have begun : hub.Ring → Ring { hub with fragment := rest } := id
          refine ⟨rfl, ?_, fun before => ring ((begun before).pushTrimmed _)⟩
          simp only [kept, List.map_singleton, trimEnd_newline, List.append_assoc]
      | none =>
          have plain : '\n' ∉ hub.fragment := by
            intro inside
            obtain ⟨front, back, whole, clear⟩ := List.eq_append_cons_of_mem inside
            rw [whole, splitOnce_append clear] at halves
            cases halves
          rw [unfinished_of_plain plain, finished_of_plain plain]
          exact ⟨rfl, by simp, id⟩

/-- What one write does: the lines it finishes go to the ring, and what is left is held, or goes there
as well when it is too long. -/
theorem ingest_spec {hub : LogHub} (buf : List Char) :
    (hub.ingest buf).fragment =
        (if maxPartial < size (unfinished (hub.fragment ++ buf)) then []
          else unfinished (hub.fragment ++ buf)) ∧
      (hub.ingest buf).sent = hub.sent ++ kept (finished (hub.fragment ++ buf)) ++
        (if maxPartial < size (unfinished (hub.fragment ++ buf)) then
          kept [unfinished (hub.fragment ++ buf)] else []) ∧
      (hub.Ring → (hub.ingest buf).Ring) := by
  obtain ⟨fragment, sent, ring⟩ := @drainLines_spec (hub.fragment ++ buf).length
    { hub with fragment := hub.fragment ++ buf } (Nat.le_refl _)
  unfold ingest
  dsimp only at fragment sent ring ⊢
  rw [fragment]
  split
  · generalize drainLines _ _ = drained at fragment sent ring ⊢
    have cleared : drained.Ring → Ring { drained with fragment := [] } := id
    refine ⟨pushTrimmed_fragment .., ?_, fun before => (cleared (ring before)).pushTrimmed _⟩
    rw [pushTrimmed_sent, ← sent]
  · rw [fragment, sent, List.append_nil]
    exact ⟨rfl, rfl, ring⟩

end LogHub

/-! ## Many writes -/

theorem written_concat (pieces : List (List UInt8)) (piece : List UInt8) :
    written (pieces ++ [piece]) = (written pieces).write piece :=
  List.foldl_concat ..

theorem written_ring (pieces : List (List UInt8)) : (written pieces).Ring := by
  induction pieces using List.reverseRecOn with
  | nil => rfl
  | append_singleton pieces piece inductionHypothesis =>
      rw [written_concat]
      exact (LogHub.ingest_spec _).2.2 inductionHypothesis

/-- What is held is never too long. -/
theorem written_held (pieces : List (List UInt8)) : size (written pieces).fragment ≤ maxPartial := by
  induction pieces using List.reverseRecOn with
  | nil => exact Nat.zero_le _
  | append_singleton pieces piece _ =>
      rw [written_concat, LogHub.write, (LogHub.ingest_spec _).1]
      split
      · exact Nat.zero_le _
      · next fits => exact Nat.not_lt.mp fits

/-- As long as no line has to be broken, the hub has what a reader of all pieces would have. -/
theorem written_fits {pieces : List (List UInt8)}
    (fits : ∀ front back, pieces = front ++ back → size (unfinished (readPieces front)) ≤ maxPartial) :
    (written pieces).fragment = unfinished (readPieces pieces) ∧
      (written pieces).sent = kept (finished (readPieces pieces)) := by
  induction pieces using List.reverseRecOn with
  | nil => exact ⟨rfl, rfl⟩
  | append_singleton pieces piece inductionHypothesis =>
      have before : ∀ front back, pieces = front ++ back →
          size (unfinished (readPieces front)) ≤ maxPartial :=
        fun front back same => fits front (back ++ [piece]) (by rw [same, List.append_assoc])
      obtain ⟨fragment, sent⟩ := inductionHypothesis before
      have room := fits (pieces ++ [piece]) [] (List.append_nil _).symm
      have read := readPieces_concat pieces piece
      rw [read, unfinished_append] at room
      obtain ⟨held, pushed, -⟩ := @LogHub.ingest_spec (written pieces) (fromUtf8Lossy piece)
      rw [written_concat, LogHub.write, held, pushed, fragment, sent, read,
        if_neg (Nat.not_lt.mpr room), if_neg (Nat.not_lt.mpr room), List.append_nil, unfinished_append (readPieces pieces),
        finished_append (readPieces pieces), kept_append]
      exact ⟨rfl, rfl⟩

/-- What is held in the end was read since the last newline. -/
theorem foldl_suffix (pieces : List (List UInt8)) {hub : LogHub} (plain : '\n' ∉ hub.fragment) :
    (pieces.foldl LogHub.write hub).fragment <:+ unfinished (hub.fragment ++ readPieces pieces) := by
  induction pieces generalizing hub with
  | nil =>
      have nothing : readPieces [] = [] := rfl
      rw [List.foldl_nil, nothing, List.append_nil, unfinished_of_plain plain]
  | cons piece pieces inductionHypothesis =>
      have held := (@LogHub.ingest_spec hub (fromUtf8Lossy piece)).1
      rw [List.foldl_cons, readPieces_cons, ← List.append_assoc, unfinished_append]
      split at held
      · have empty : (hub.write piece).fragment = [] := held
        have onward := @inductionHypothesis (hub.write piece) (by rw [empty]; nofun)
        rw [empty, List.nil_append] at onward
        exact onward.trans (unfinished_suffix ..)
      · have same : (hub.write piece).fragment =
            unfinished (hub.fragment ++ fromUtf8Lossy piece) := held
        rw [← same]
        exact @inductionHypothesis (hub.write piece) (by rw [same]; exact plain_unfinished _)

/-! ## Replacement characters -/

def replacedIn (lines : List (List Char)) : Nat := (lines.map replaced).sum

@[simp] theorem replacedIn_append (front back : List (List Char)) :
    replacedIn (front ++ back) = replacedIn front + replacedIn back := by
  simp [replacedIn]

theorem replaced_trimEnd (line : List Char) : replaced (trimEnd line) = replaced line := by
  have whole : trimEnd line ++ line.rtakeWhile isWhitespace = line :=
    List.rdropWhile_append_rtakeWhile
  have blank : replaced (line.rtakeWhile isWhitespace) = 0 := by
    refine List.count_eq_zero.mpr fun inside => ?_
    have white := List.mem_rtakeWhile_imp inside
    exact absurd white (by decide)
  have sum := congrArg replaced whole
  rw [replaced_append, blank] at sum
  exact sum

/-- What is dropped of the lines is white space. -/
theorem replacedIn_kept (lines : List (List Char)) : replacedIn (kept lines) = replacedIn lines := by
  induction lines with
  | nil => rfl
  | cons line lines inductionHypothesis =>
      have first : replacedIn (kept [line]) = replaced line := by
        unfold kept replacedIn
        by_cases empty : trimEnd line = []
        · have none := replaced_trimEnd line
          have nothing : replaced [] = 0 := rfl
          rw [empty, nothing] at none
          simpa [empty] using none
        · simp [empty, replaced_trimEnd]
      have parts : line :: lines = [line] ++ lines := rfl
      rw [parts, kept_append, replacedIn_append, replacedIn_append, first, inductionHypothesis]
      simp [replacedIn]

theorem replacedIn_split (text : List Char) :
    replacedIn (split (· == '\n') text) = replaced text := by
  induction text with
  | nil => rfl
  | cons c text inductionHypothesis =>
      rw [split]
      split
      · next newline =>
          have different : c ≠ '\uFFFD' := by
            rw [beq_iff_eq.mp newline]
            decide
          have rest : replaced (c :: text) = replaced text := List.count_cons_of_ne different
          rw [rest, ← inductionHypothesis]
          simp [replacedIn, replaced]
      · have parts : c :: text = [c] ++ text := rfl
        rw [parts, replaced_append, ← inductionHypothesis]
        cases lines : split (· == '\n') text with
        | nil => exact absurd lines (split_ne_nil _ _)
        | cons line others =>
            have first : replaced (c :: line) = replaced [c] + replaced line := replaced_append [c] line
            simp only [replacedIn, List.map_cons, List.sum_cons, first, Nat.add_assoc]

theorem replaced_parts (text : List Char) :
    replaced text = replacedIn (finished text) + replaced (unfinished text) := by
  have last := List.getLast?_eq_some_getLast (split_ne_nil (· == '\n') text)
  have parts := List.dropLast_append_getLast (split_ne_nil (· == '\n') text)
  rw [← replacedIn_split, finished, unfinished, last, Option.getD_some]
  conv_lhs => rw [← parts]
  rw [replacedIn_append]
  simp [replacedIn]

/-- No replacement character is lost on its way to the ring. -/
theorem written_replaced (pieces : List (List UInt8)) :
    replacedIn (written pieces).sent + replaced (written pieces).fragment =
      replaced (readPieces pieces) := by
  induction pieces using List.reverseRecOn with
  | nil => rfl
  | append_singleton pieces piece inductionHypothesis =>
      obtain ⟨held, pushed, -⟩ := @LogHub.ingest_spec (written pieces) (fromUtf8Lossy piece)
      have read := readPieces_concat pieces piece
      have parts := replaced_parts ((written pieces).fragment ++ fromUtf8Lossy piece)
      rw [replaced_append] at parts
      rw [written_concat, LogHub.write, held, pushed, read, replaced_append, ← inductionHypothesis]
      split
      · have none : replaced [] = 0 := rfl
        have last : replacedIn [unfinished ((written pieces).fragment ++ fromUtf8Lossy piece)] =
            replaced (unfinished ((written pieces).fragment ++ fromUtf8Lossy piece)) := by
          simp [replacedIn]
        rw [replacedIn_append, replacedIn_append, replacedIn_kept, replacedIn_kept, last, none]
        omega
      · rw [List.append_nil, replacedIn_append, replacedIn_kept]
        omega

/-! ## Bytes and lines -/

theorem size_eq (text : List Char) : size text = (encode text).length := (length_encode text).symm

theorem unfinishedBytes_closed {closed : List Char} (isClosed : Closed closed) {bytes : List UInt8}
    (plain : 10 ∉ bytes) : unfinishedBytes (encode closed ++ bytes) = bytes := by
  have all : bytes.rtakeWhile (· ≠ 10) = bytes := by
    rw [List.rtakeWhile_eq_self_iff]
    exact fun b inside => decide_eq_true fun same => plain (same ▸ inside)
  rcases isClosed with rfl | ⟨front, rfl⟩
  · exact all
  · rw [encode_append, encode_newline, unfinishedBytes, List.rtakeWhile, List.reverse_append,
      List.reverse_append, List.reverse_singleton, List.singleton_append, List.takeWhile_append_of_pos]
    · rw [List.takeWhile_cons_of_neg (by decide), List.append_nil, List.reverse_reverse]
    · exact fun b inside => decide_eq_true fun same => plain (same ▸ List.mem_reverse.mp inside)

theorem unfinishedBytes_encode (text : List Char) :
    unfinishedBytes (encode text) = encode (unfinished text) := by
  obtain ⟨closed, whole, isClosed, plain⟩ := exists_closed text
  conv_lhs => rw [whole]
  rw [encode_append, unfinishedBytes_closed isClosed (mt newline_mem_encode.mp plain)]

/-- The writes of a text, cut where its last line begins. -/
structure Parts (text : List Char) (pieces : List (List UInt8)) where
  closed : List Char
  front : List (List UInt8)
  back : List (List UInt8)
  whole : text = closed ++ unfinished text
  isClosed : Closed closed
  divides : Divides pieces front back
  first : front.flatten = encode closed
  last : back.flatten = encode (unfinished text)

theorem exists_parts {text : List Char} {pieces : List (List UInt8)}
    (whole : pieces.flatten = encode text) : Nonempty (Parts text pieces) := by
  obtain ⟨closed, both, isClosed, -⟩ := exists_closed text
  have joined : pieces.flatten = encode closed ++ encode (unfinished text) := by
    rw [whole, ← encode_append, ← both]
  obtain ⟨front, back, divides, first, last⟩ := exists_divides joined
  exact ⟨⟨closed, front, back, both, isClosed, divides, first, last⟩⟩

namespace Parts

variable {text : List Char} {pieces : List (List UInt8)} (parts : Parts text pieces)
include parts

theorem read : readPieces pieces = readPieces parts.front ++ readPieces parts.back :=
  readPieces_divides parts.divides (by rw [parts.last]; exact fresh_encode _)

/-- The first part is read as closed text. -/
theorem closed_read : Closed (readPieces parts.front) := by
  rcases parts.isClosed with empty | ⟨body, same⟩
  · have nothing := parts.first
    rw [empty] at nothing
    exact .inl (readPieces_of_empty nothing)
  · have ends := parts.first
    rw [same, encode_append, encode_newline] at ends
    exact .inr (readPieces_newline ends)

/-- There is no newline in what is read of the last line. -/
theorem plain_read : '\n' ∉ readPieces parts.back := by
  intro inside
  have stream : parts.back.flatten ++ [] = [] ++ encode (unfinished text) := by
    rw [List.append_nil, parts.last, List.nil_append]
  rcases mem_readPieces nothing_pending stream inside with mark | there
  · exact absurd mark (by decide)
  · exact plain_unfinished text there

theorem unfinished_read : unfinished (readPieces pieces) = readPieces parts.back := by
  rw [parts.read, unfinished_closed parts.closed_read, unfinished_of_plain parts.plain_read]

theorem finished_read : finished (readPieces pieces) = finished (readPieces parts.front) := by
  rw [parts.read, finished_closed parts.closed_read, finished_of_plain parts.plain_read,
    List.append_nil]

theorem finished_text : finished text = finished parts.closed := by
  conv_lhs => rw [parts.whole]
  rw [finished_closed parts.isClosed, finished_of_plain (plain_unfinished text), List.append_nil]

/-- The lines of the ring have the replacement characters of the text, and what is held has those of
the last line, so there are no others. -/
theorem whole_of_lines (lines : (written pieces).sent = kept (finished text)) :
    Whole parts.front ∧
      replaced (written pieces).fragment = replaced (readPieces parts.back) := by
  have sum := written_replaced pieces
  have closed := replaced_parts parts.closed
  have nothing : unfinished parts.closed = [] := by
    have behind := unfinished_closed parts.isClosed []
    rwa [List.append_nil] at behind
  have none : replaced [] = 0 := rfl
  rw [nothing, none, Nat.add_zero] at closed
  rw [lines, replacedIn_kept, parts.finished_text, ← closed, parts.read, replaced_append] at sum
  have begun : '\n' ∉ ({} : LogHub).fragment := List.not_mem_nil
  have held : replaced (written pieces).fragment ≤ replaced (readPieces parts.back) := by
    have suffix := foldl_suffix pieces begun
    rw [List.nil_append, parts.unfinished_read] at suffix
    exact suffix.sublist.count_le _
  obtain ⟨bound, equal⟩ := replaced_le_readPieces nothing_pending
    (parts.first.trans (List.nil_append _).symm)
  rw [List.length_nil, Nat.zero_add] at bound
  exact ⟨equal rfl (by omega), by omega⟩

end Parts

/-! ## Exactly when -/

theorem between_of_lines {text : List Char} {pieces : List (List UInt8)}
    (parts : Parts text pieces) (whole : Whole parts.front) {front back : List (List UInt8)}
    (same : pieces = front ++ back) (newline : 10 ∈ back.flatten) :
    ∃ part, front.flatten = encode part := by
  rcases parts.divides.cut same with ⟨others, first⟩ | ⟨others, -, second⟩
  · have early : Whole front := fun piece inside =>
      whole piece (first ▸ List.mem_append_left _ inside)
    exact ⟨_, early.flatten⟩
  · have last := parts.last
    rw [second, List.flatten_append] at last
    have inside : 10 ∈ encode (unfinished text) := last ▸ List.mem_append_right _ newline
    exact absurd (newline_mem_encode.mp inside) (plain_unfinished text)

/-- One write more: where a line would have to be broken, the rest of it is read without the
replacement characters that made it too long. -/
theorem room_of_lines {text : List Char} {pieces : List (List UInt8)} (parts : Parts text pieces)
    (lines : (written pieces).sent = kept (finished text))
    {front back : List (List UInt8)} {piece : List UInt8} (same : pieces = front ++ [piece] ++ back)
    (short : (unfinishedBytes (front ++ [piece]).flatten).length ≤ maxPartial)
    (fits : ∀ early late, front = early ++ late → size (unfinished (readPieces early)) ≤ maxPartial) :
    size (unfinished (readPieces (front ++ [piece]))) ≤ maxPartial := by
  obtain ⟨whole, held⟩ := parts.whole_of_lines lines
  rcases parts.divides.cut same with ⟨others, first⟩ | ⟨others, divides, second⟩
  · have early : Whole (front ++ [piece]) := fun p inside =>
      whole p (first ▸ List.mem_append_left _ inside)
    rwa [early.flatten, unfinishedBytes_encode, ← size_eq] at short
  · by_contra long
    have broken : (written (front ++ [piece])).fragment = [] := by
      obtain ⟨fragment, -⟩ := written_fits fits
      have read := readPieces_concat front piece
      rw [read, unfinished_append, Nat.not_le] at long
      rw [written_concat, LogHub.write, (LogHub.ingest_spec _).1, fragment, if_pos long]
    have late : replaced (written pieces).fragment ≤ replaced (readPieces back) := by
      have all : written pieces = back.foldl LogHub.write (written (front ++ [piece])) := by
        rw [same, written, List.foldl_append, written]
      have suffix := @foldl_suffix back (written (front ++ [piece]))
        (by rw [broken]; exact List.not_mem_nil)
      have inside : '\n' ∉ readPieces back := by
        have plain := parts.plain_read
        rw [second, readPieces_append] at plain
        exact fun there => plain (List.mem_append_right _ there)
      rw [broken, List.nil_append, unfinished_of_plain inside] at suffix
      rw [all]
      exact suffix.sublist.count_le _
    have clear : replaced (readPieces others) = 0 := by
      rw [second, readPieces_append, replaced_append] at held
      omega
    have stream := parts.last
    rw [second, List.flatten_append] at stream
    have text := (whole_of_unreplaced stream clear).flatten
    have plain : '\n' ∉ readPieces others := by
      have all := parts.plain_read
      rw [second, readPieces_append] at all
      exact fun there => all (List.mem_append_left _ there)
    have read := readPieces_divides divides (by rw [text]; exact fresh_encode _)
    rw [read, unfinished_closed parts.closed_read, unfinished_of_plain plain, size_eq, ← text] at long
    rw [divides.flatten, parts.first, unfinishedBytes_closed parts.isClosed] at short
    · exact long short
    · rw [text]
      exact mt newline_mem_encode.mp plain

theorem fits_of_lines {text : List Char} {pieces : List (List UInt8)} (parts : Parts text pieces)
    (lines : (written pieces).sent = kept (finished text))
    (short : ∀ front back, pieces = front ++ back →
      (unfinishedBytes front.flatten).length ≤ maxPartial)
    (front : List (List UInt8)) : ∀ back, pieces = front ++ back →
      ∀ early late, front = early ++ late → size (unfinished (readPieces early)) ≤ maxPartial := by
  induction front using List.reverseRecOn with
  | nil =>
      intro back same early late first
      rw [(List.append_eq_nil_iff.mp first.symm).1]
      exact Nat.zero_le _
  | append_singleton front piece inductionHypothesis =>
      intro back same early late first
      have before := inductionHypothesis ([piece] ++ back) (by rw [same, List.append_assoc])
      rcases List.eq_nil_or_concat' late with rfl | ⟨late, last, rfl⟩
      · rw [List.append_nil] at first
        rw [← first]
        exact room_of_lines parts lines same (short _ _ same) before
      · rw [← List.append_assoc] at first
        exact before early late (List.append_inj_left' first rfl)

/-- Up to the last newline the pieces are whole characters. -/
theorem CleanCuts.whole {text : List Char} {pieces : List (List UInt8)} (clean : CleanCuts pieces)
    (parts : Parts text pieces) : Whole parts.front := by
  refine whole_of_cuts fun early late same => ?_
  by_cases empty : late.flatten = []
  · have first := parts.first
    rw [same, List.flatten_append, empty, List.append_nil] at first
    exact ⟨_, first⟩
  · have more : late ≠ [] := fun none => empty (by rw [none]; rfl)
    obtain ⟨rest, whole, goesOn⟩ := parts.divides.cut_front same more
    refine clean.between early rest whole (goesOn.mem ?_)
    have first := parts.first
    rw [same, List.flatten_append] at first
    rcases parts.isClosed with none | ⟨body, ends⟩
    · rw [none, encode_nil] at first
      exact absurd (List.append_eq_nil_iff.mp first).2 empty
    · rw [ends, encode_append, encode_newline] at first
      obtain ⟨init, last, final⟩ := (List.eq_nil_or_concat' late.flatten).resolve_left empty
      rw [final, ← List.append_assoc] at first
      obtain rfl : last = 10 := List.singleton_inj.mp (List.append_inj_right' first rfl)
      rw [final]
      exact List.mem_append_right _ List.mem_cons_self

/-- The lines of the ring do not depend on how the text was cut exactly if no character was cut before
the last newline, and the cut ones behind it did not make the last line too long. -/
theorem reassembled_iff (text : List Char) (pieces : List (List UInt8))
    (whole : pieces.flatten = encode text)
    (short : ∀ front back, pieces = front ++ back →
      (unfinishedBytes front.flatten).length ≤ maxPartial) :
    Reassembled text pieces ↔ CleanCuts pieces := by
  obtain ⟨parts⟩ := exists_parts whole
  constructor
  · intro reassembled
    obtain ⟨closed, -⟩ := parts.whole_of_lines reassembled.lines
    exact {
      between := fun front back same => between_of_lines parts closed same
      fits := fun front back same =>
        fits_of_lines parts reassembled.lines short front back same front [] (List.append_nil _).symm }
  · intro clean
    have closed : readPieces parts.front = parts.closed :=
      encode_inj ((clean.whole parts).flatten.symm.trans parts.first)
    have lines : (written pieces).sent = kept (finished text) := by
      rw [(written_fits clean.fits).2, parts.finished_read, closed, parts.finished_text]
    have once : (written [encode text]).sent = kept (finished text) := by
      have read : readPieces [encode text] = text := by
        rw [readPieces_cons, fromUtf8Lossy_encode']
        exact List.append_nil _
      have room := short pieces [] (List.append_nil _).symm
      rw [whole, unfinishedBytes_encode, ← size_eq] at room
      have fits : ∀ front back, [encode text] = front ++ back →
          size (unfinished (readPieces front)) ≤ maxPartial := by
        intro front back same
        rcases List.singleton_eq_append_iff.mp same with ⟨rfl, -⟩ | ⟨rfl, -⟩
        · exact Nat.zero_le _
        · rwa [read]
      rw [(written_fits fits).2, read]
    exact {
      lines := lines
      single := lines.trans once.symm
      ring := (written_ring pieces).trans (by rw [lines])
      held := fun front _ _ => written_held front }

/-- Writes that are short together leave no long line. -/
theorem short_of_length {pieces : List (List UInt8)} (few : pieces.flatten.length ≤ maxPartial) :
    ∀ front back, pieces = front ++ back → (unfinishedBytes front.flatten).length ≤ maxPartial := by
  intro front back same
  have part : (unfinishedBytes front.flatten).length ≤ front.flatten.length :=
    (List.rtakeWhile_suffix ..).length_le
  rw [same, List.flatten_append, List.length_append] at few
  omega

/-- A character is cut here, but in a line that has not ended. -/
theorem unended_character_cut : Reassembled ['a', '\n', 'é'] [[0x61, 10], [0xC3], [0xA9]] := by
  refine (reassembled_iff _ _ (by decide) (short_of_length (by decide))).mpr ⟨?_, ?_⟩
  · intro front back same newline
    match front, same with
    | [], _ => exact ⟨[], rfl⟩
    | [piece], same =>
        obtain ⟨rfl, -⟩ := List.cons.inj same
        exact ⟨['a', '\n'], by decide⟩
    | piece :: other :: front, same =>
        have rest : back.flatten <:+ [0xC3, 0xA9] := by
          have all := congrArg List.flatten (List.cons.inj same).2
          exact ⟨(other :: front).flatten, by rw [← List.flatten_append]; exact all.symm⟩
        exact absurd (rest.mem newline) (by decide)
  · have all : ∀ front ∈ [[0x61, 10], [0xC3], [0xA9]].inits,
        size (unfinished (readPieces front)) ≤ maxPartial := by decide
    exact fun front back same => all front ((List.mem_inits _ _).mpr ⟨back, same.symm⟩)

/-- Each half of a character that is cut in two is read as a replacement character. -/
theorem cut_character_replaced :
    ¬ ∀ (text : List Char) (pieces : List (List UInt8)), pieces.flatten = encode text →
      (∀ front back, pieces = front ++ back →
        (unfinishedBytes front.flatten).length ≤ maxPartial) → Reassembled text pieces := by
  intro law
  have reassembled := law ['é', '\n'] [[0xC3], [0xA9, 10]] (by decide) (short_of_length (by decide))
  exact absurd reassembled.lines (by decide)

end Remgr.Logging
