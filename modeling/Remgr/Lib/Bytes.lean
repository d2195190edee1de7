/-
Module: Remgr.Lib.Bytes
Purpose: Big-endian byte strings of fixed width, and byte sources that deliver their contents in
  segments of any size. Nothing here depends on what the bytes mean.
Trusted boundary: none
Main exports: natToBe, natOfBe, i64OfNat, Source, Source.readExact, Source.readExact_of_append,
  Source.read, Source.read_of_filled
-/
import Mathlib.Data.List.Induction
import Mathlib.Tactic.Ring
import Mathlib.Tactic.NormNum

namespace Remgr.Lib

/-- The `width` big-endian bytes of `n`; bits above `8 * width` are dropped. -/
def natToBe : Nat → Nat → List UInt8
  | 0, _ => []
  | width + 1, n => natToBe width (n / 256) ++ [UInt8.ofNat (n % 256)]

/-- The natural number a byte string spells, most significant byte first. -/
def natOfBe (bytes : List UInt8) : Nat :=
  bytes.foldl (fun acc b => acc * 256 + b.toNat) 0

@[simp] theorem natToBe_length (width n : Nat) : (natToBe width n).length = width := by
  induction width generalizing n with
  | zero => rfl
  | succ width inductionHypothesis => simp [natToBe, inductionHypothesis]

@[simp] theorem natOfBe_nil : natOfBe [] = 0 := rfl

@[simp] theorem natOfBe_concat (bytes : List UInt8) (b : UInt8) :
    natOfBe (bytes ++ [b]) = natOfBe bytes * 256 + b.toNat := by
  simp [natOfBe]

/-- Writing a number and reading it back loses exactly the bits that did not fit. -/
theorem natOfBe_natToBe (width n : Nat) : natOfBe (natToBe width n) = n % 256 ^ width := by
  induction width generalizing n with
  | zero => simp [natToBe, Nat.mod_one]
  | succ width inductionHypothesis =>
      have byteEq : (UInt8.ofNat (n % 256)).toNat = n % 256 := by
        simp
      rw [natToBe, natOfBe_concat, inductionHypothesis, byteEq, Nat.pow_succ',
        Nat.mod_mul, Nat.mul_comm, Nat.add_comm]

/-- Every byte string of the right width is the spelling of the number it spells. -/
theorem natToBe_natOfBe (bytes : List UInt8) :
    natToBe bytes.length (natOfBe bytes) = bytes := by
  induction bytes using List.reverseRecOn with
  | nil => rfl
  | append_singleton bytes b inductionHypothesis =>
      have small : b.toNat < 256 := b.toNat_lt
      have quotient : (natOfBe bytes * 256 + b.toNat) / 256 = natOfBe bytes := by omega
      have remainder : (natOfBe bytes * 256 + b.toNat) % 256 = b.toNat := by omega
      rw [List.length_append, List.length_singleton, natToBe, natOfBe_concat, quotient,
        remainder, inductionHypothesis, UInt8.ofNat_toNat]

theorem natOfBe_lt (bytes : List UInt8) : natOfBe bytes < 256 ^ bytes.length := by
  induction bytes using List.reverseRecOn with
  | nil => simp
  | append_singleton bytes b inductionHypothesis =>
      have small : b.toNat < 256 := b.toNat_lt
      rw [natOfBe_concat, List.length_append, List.length_singleton, Nat.pow_succ]
      omega

/-- Two's complement reading of a 64-bit pattern. -/
def i64OfNat (n : Nat) : Int :=
  if n < 2 ^ 63 then (n : Int) else (n : Int) - 2 ^ 64

theorem i64OfNat_of_lt {n : Nat} (small : n < 2 ^ 63) : i64OfNat n = n := by
  rw [i64OfNat, if_pos small]

/-- A pattern whose signed reading is not negative is below the sign bit. -/
theorem lt_of_i64OfNat_nonneg {n : Nat} (width : n < 2 ^ 64) (nonneg : 0 ≤ i64OfNat n) :
    n < 2 ^ 63 := by
  unfold i64OfNat at nonneg
  split at nonneg
  · assumption
  · omega

/-! ## Segmented sources -/

/-- How a source ends after its last segment. -/
inductive Ending where
  | eof
  | failed
deriving Repr, DecidableEq, Inhabited

/-- The rest of an incoming stream: the segments in which it will be delivered and what the
reader sees after them. A segment is what one read could return at most. -/
structure Source (α : Type) where
  segments : List (List α)
  ending : Ending
deriving Repr, DecidableEq

namespace Source

variable {α : Type}

/-- What the source still has to deliver, segmentation forgotten. -/
def bytes (src : Source α) : List α := src.segments.flatten

/-- The loop of `read_exact` over the remaining segments: a segment that covers the request
leaves its tail for the next read, a shorter one is taken whole. -/
def readSegments : Nat → List (List α) → Option (List α × List (List α))
  | 0, segments => some ([], segments)
  | _ + 1, [] => none
  | need + 1, seg :: rest =>
      if need + 1 ≤ seg.length then
        some (seg.take (need + 1), seg.drop (need + 1) :: rest)
      else
        (readSegments (need + 1 - seg.length) rest).map fun got => (seg ++ got.1, got.2)

/-- `read_exact` of `need` bytes. It asks for nothing when `need` is zero, and reports the
ending when the source runs dry first. -/
def readExact (need : Nat) (src : Source α) : Except Ending (List α × Source α) :=
  match readSegments need src.segments with
  | some (got, rest) => .ok (got, { src with segments := rest })
  | none => .error src.ending

/-- The segment loop returns the first `need` bytes of the concatenation and leaves the others,
or nothing when there are fewer. -/
theorem readSegments_spec (need : Nat) (segments : List (List α)) :
    match readSegments need segments with
    | some (got, rest) =>
        got = segments.flatten.take need ∧ rest.flatten = segments.flatten.drop need ∧
          need ≤ segments.flatten.length
    | none => segments.flatten.length < need := by
  induction segments generalizing need with
  | nil => cases need <;> simp [readSegments]
  | cons seg rest inductionHypothesis =>
      cases need with
      | zero => simp [readSegments]
      | succ need =>
          by_cases covered : need + 1 ≤ seg.length
          · simp only [readSegments, covered, if_true, List.flatten_cons]
            refine ⟨?_, ?_, ?_⟩
            · rw [List.take_append_of_le_length covered]
            · rw [List.drop_append_of_le_length covered]
            · rw [List.length_append]
              omega
          · have tail := inductionHypothesis (need + 1 - seg.length)
            simp only [readSegments, covered, if_false, List.flatten_cons]
            have short : seg.length ≤ need + 1 := by omega
            cases readEq : readSegments (need + 1 - seg.length) rest with
            | none =>
                rw [readEq] at tail
                simp only [Option.map_none, List.length_append] at tail ⊢
                omega
            | some got =>
                rw [readEq] at tail
                obtain ⟨gotEq, restEq, enough⟩ := tail
                simp only [Option.map_some, List.length_append]
                refine ⟨?_, ?_, by omega⟩
                · rw [gotEq, List.take_append, List.take_of_length_le short]
                · rw [restEq, List.drop_append, List.drop_of_length_le short, List.nil_append]

/-- A satisfied `read_exact` returns the next bytes in order, whatever the segmentation. -/
theorem readExact_ok {need : Nat} {src rest : Source α} {got : List α}
    (read : src.readExact need = .ok (got, rest)) :
    src.bytes = got ++ rest.bytes ∧ got.length = need ∧ rest.ending = src.ending := by
  unfold readExact at read
  have spec := readSegments_spec need src.segments
  cases readEq : readSegments need src.segments with
  | none => rw [readEq] at read; cases read
  | some result =>
      obtain ⟨taken, left⟩ := result
      rw [readEq] at read spec
      obtain ⟨takenEq, leftEq, enough⟩ := spec
      simp only [Except.ok.injEq, Prod.mk.injEq] at read
      obtain ⟨rfl, rfl⟩ := read
      refine ⟨?_, ?_, rfl⟩
      · simp only [bytes, takenEq, leftEq, List.take_append_drop]
      · rw [takenEq, List.length_take]
        omega

/-- With enough bytes to come, `read_exact` succeeds. -/
theorem readExact_of_append {src : Source α} {got left : List α}
    (enough : src.bytes = got ++ left) :
    ∃ rest : Source α, src.readExact got.length = .ok (got, rest) ∧ rest.bytes = left ∧
      rest.ending = src.ending := by
  have spec := readSegments_spec got.length src.segments
  have flat : src.segments.flatten = got ++ left := enough
  cases readEq : readSegments got.length src.segments with
  | none =>
      rw [readEq, flat, List.length_append] at spec
      omega
  | some result =>
      obtain ⟨taken, rest⟩ := result
      rw [readEq, flat] at spec
      obtain ⟨takenEq, restEq, _⟩ := spec
      refine ⟨{ src with segments := rest }, ?_, ?_, rfl⟩
      · simp only [readExact, readEq, takenEq, List.take_left]
      · simpa [bytes] using restEq

/-- Otherwise it reports how the source ended. -/
theorem readExact_of_short {need : Nat} {src : Source α} (short : src.bytes.length < need) :
    src.readExact need = .error src.ending := by
  have spec := readSegments_spec need src.segments
  cases readEq : readSegments need src.segments with
  | none => simp only [readExact, readEq]
  | some result =>
      rw [readEq] at spec
      have enough : need ≤ src.bytes.length := spec.2.2
      omega

/-- One `read` of at most `most` bytes: part of the next segment that is not empty. -/
def readSome (most : Nat) : List (List α) → List α × List (List α)
  | [] => ([], [])
  | [] :: rest => readSome most rest
  | (first :: seg) :: rest => ((first :: seg).take most, (first :: seg).drop most :: rest)

/-- `read` into a buffer of `most` bytes. At the end of the stream it returns no bytes. -/
def read (most : Nat) (src : Source α) : Except Ending (List α × Source α) :=
  match readSome most src.segments, src.ending with
  | ([], _), .failed => .error .failed
  | (got, rest), _ => .ok (got, { src with segments := rest })

theorem readSome_spec {most : Nat} (room : 0 < most) (segments : List (List α)) :
    segments.flatten = (readSome most segments).1 ++ (readSome most segments).2.flatten ∧
      (readSome most segments).1.length ≤ most ∧
      (segments.flatten ≠ [] → (readSome most segments).1 ≠ []) := by
  induction segments with
  | nil => simp [readSome]
  | cons seg rest inductionHypothesis =>
      cases seg with
      | nil => simpa only [readSome, List.flatten_cons, List.nil_append] using inductionHypothesis
      | cons first seg =>
          simp only [readSome, List.flatten_cons]
          refine ⟨?_, List.length_take_le most _, ?_⟩
          · rw [← List.append_assoc, List.take_append_drop]
          · intro _ empty
            rcases List.take_eq_nil_iff.mp empty with nothing | nothing
            · omega
            · cases nothing

/-- While there are bytes to come, a read returns some of them. -/
theorem read_of_filled (most : Nat) (room : 0 < most) {src : Source α} (filled : src.bytes ≠ []) :
    ∃ (got : List α) (rest : Source α), src.read most = .ok (got, rest) ∧
      src.bytes = got ++ rest.bytes ∧ got ≠ [] ∧ got.length ≤ most := by
  obtain ⟨whole, fits, some'⟩ := readSome_spec room src.segments
  have got := some' filled
  refine ⟨_, { src with segments := (readSome most src.segments).2 }, ?_, whole, got, fits⟩
  unfold read
  cases parts : readSome most src.segments with
  | mk front back =>
      rw [parts] at got
      cases front with
      | nil => exact absurd rfl got
      | cons b front => rfl

/-- At the end of the stream a read returns nothing or fails. -/
theorem read_of_empty {most : Nat} {src : Source α} (empty : src.bytes = []) :
    src.read most = match src.ending with
      | .failed => .error .failed
      | .eof => .ok ([], { src with segments := (readSome most src.segments).2 }) := by
  have nothing : (readSome most src.segments).1 = [] := by
    obtain ⟨segments, ending⟩ := src
    induction segments with
    | nil => rfl
    | cons seg segments inductionHypothesis =>
        obtain ⟨rfl, rest⟩ := List.append_eq_nil_iff.mp empty
        exact inductionHypothesis rest
  unfold read
  cases parts : readSome most src.segments with
  | mk got rest =>
      rw [parts] at nothing
      cases nothing
      cases ending : src.ending <;> simp

theorem read_ending {most : Nat} {src rest : Source α} {got : List α}
    (done : src.read most = .ok (got, rest)) : rest.ending = src.ending := by
  unfold read at done
  split at done
  · cases done
  · cases done
    rfl

end Source

end Remgr.Lib
