/-
Module: Remgr.Frps.Frame
Purpose: The wire-v1 frame codec of `remgr-frps/src/msg.rs`: one type byte, a signed 64-bit
  big-endian length, and a body of at most `MAX_MSG_LEN` bytes.
Trusted boundary: `read_exact`, `write_all` and `flush` of the byte streams, as in `Remgr.Lib.Bytes`
Main exports: MAX_MSG_LEN, RawMsg, FrameError, readFrame, writeFrame, frames_round_trip
-/
import Remgr.Lib.Bytes

namespace Remgr.Frps

open Remgr.Lib

/-- `MAX_MSG_LEN`, an `i64` in the source because it is compared with a peer's signed length. -/
def MAX_MSG_LEN : Int := 10240

/-- A raw framed message: type byte and body. -/
abbrev RawMsg := UInt8 × List UInt8

/-- Ways in which `read_frame` and `write_frame` fail. -/
inductive FrameError where
  | io (ending : Ending)
  | outOfRange (len : Int)
  | tooLarge (len : Nat)
deriving Repr, DecidableEq

/-- The texts of the two errors the codec raises itself. -/
def FrameError.text : FrameError → String
  | .io .eof => "early eof"
  | .io .failed => "i/o error"
  | .outOfRange len => s!"frp message length out of range: {len}"
  | .tooLarge len => s!"frp message too large: {len}"

/-- `i64::from_be_bytes`. -/
def i64FromBe (bytes : List UInt8) : Int := i64OfNat (natOfBe bytes)

/-- `read_frame`: type byte, length, range check, body. The body is read only after the length
passed the check, so a hostile length never asks for memory. -/
def readFrame (src : Source UInt8) : Except FrameError (RawMsg × Source UInt8) :=
  match src.readExact 1 with
  | .error ending => .error (.io ending)
  | .ok (tb, src) =>
      match src.readExact 8 with
      | .error ending => .error (.io ending)
      | .ok (lb, src) =>
          let len := i64FromBe lb
          if len < 0 ∨ MAX_MSG_LEN < len then
            .error (.outOfRange len)
          else
            match src.readExact len.toNat with
            | .error ending => .error (.io ending)
            | .ok (body, src) => .ok ((tb.headD 0, body), src)

/-- The nine header bytes of a frame. -/
def frameHeader (typeByte : UInt8) (len : Nat) : List UInt8 :=
  typeByte :: natToBe 8 len

/-- `write_frame` onto a writer that has already accepted `out`. An oversized body is refused
before the first byte leaves; a slice is never longer than `isize::MAX`, so `body.len() as i64`
is its length. -/
def writeFrame (typeByte : UInt8) (body out : List UInt8) :
    Except FrameError Unit × List UInt8 :=
  if MAX_MSG_LEN < (body.length : Int) then
    (.error (.tooLarge body.length), out)
  else
    (.ok (), out ++ (frameHeader typeByte body.length ++ body))

/-- Writing several frames one after another onto the same writer. -/
def writeFrames (frames : List RawMsg) (out : List UInt8) : List UInt8 :=
  frames.foldl (fun out frame => (writeFrame frame.1 frame.2 out).2) out

/-- Reading a given number of frames one after another. -/
def readFrames : Nat → Source UInt8 → Except FrameError (List RawMsg × Source UInt8)
  | 0, src => .ok ([], src)
  | count + 1, src =>
      match readFrame src with
      | .error e => .error e
      | .ok (frame, src) =>
          match readFrames count src with
          | .error e => .error e
          | .ok (frames, src) => .ok (frame :: frames, src)

@[simp] theorem frameHeader_length (typeByte : UInt8) (len : Nat) :
    (frameHeader typeByte len).length = 9 := by
  simp [frameHeader]

/-- A body within the limit is always written, header first. -/
theorem writeFrame_of_le (typeByte : UInt8) {body : List UInt8} (out : List UInt8)
    (fits : (body.length : Int) ≤ MAX_MSG_LEN) :
    writeFrame typeByte body out =
      (.ok (), out ++ (frameHeader typeByte body.length ++ body)) := by
  rw [writeFrame, if_neg (not_lt.mpr fits)]

theorem writeFrame_of_lt {typeByte : UInt8} {body out : List UInt8}
    (big : MAX_MSG_LEN < (body.length : Int)) :
    writeFrame typeByte body out = (.error (.tooLarge body.length), out) := by
  rw [writeFrame, if_pos big]

/-- The length bytes of a frame within the limit read back as its length. -/
theorem i64FromBe_natToBe {len : Nat} (fits : (len : Int) ≤ MAX_MSG_LEN) :
    i64FromBe (natToBe 8 len) = len := by
  have small : len < 2 ^ 63 := by
    simp only [MAX_MSG_LEN] at fits
    omega
  have width : len % 256 ^ 8 = len := Nat.mod_eq_of_lt (by omega)
  rw [i64FromBe, natOfBe_natToBe, width, i64OfNat_of_lt small]

/-- Conversely, eight bytes that read as a length within the limit are its only spelling. -/
theorem natToBe_i64FromBe {bytes : List UInt8} (width : bytes.length = 8)
    (nonneg : 0 ≤ i64FromBe bytes) : natToBe 8 (i64FromBe bytes).toNat = bytes := by
  have bound : natOfBe bytes < 2 ^ 64 := by
    have := natOfBe_lt bytes
    rw [width] at this
    omega
  have small := lt_of_i64OfNat_nonneg bound nonneg
  rw [i64FromBe, i64OfNat_of_lt small, Int.toNat_natCast, ← width, natToBe_natOfBe]

/-- Whatever follows a header on the wire, `read_frame` gets to its length check. -/
theorem readFrame_header {src : Source UInt8} {tb : UInt8} {lb left : List UInt8}
    (width : lb.length = 8) (wire : src.bytes = tb :: lb ++ left) :
    ∃ body : Source UInt8, body.bytes = left ∧ body.ending = src.ending ∧
      readFrame src =
        if i64FromBe lb < 0 ∨ MAX_MSG_LEN < i64FromBe lb then
          .error (.outOfRange (i64FromBe lb))
        else
          match body.readExact (i64FromBe lb).toNat with
          | .error ending => .error (.io ending)
          | .ok (content, rest) => .ok ((tb, content), rest) := by
  have typeSplit : src.bytes = [tb] ++ (lb ++ left) := wire
  obtain ⟨afterType, readType, typeBytes, typeEnding⟩ := Source.readExact_of_append typeSplit
  obtain ⟨afterLen, readLen, lenBytes, lenEnding⟩ := Source.readExact_of_append typeBytes
  refine ⟨afterLen, lenBytes, lenEnding.trans typeEnding, ?_⟩
  rw [List.length_singleton] at readType
  rw [width] at readLen
  simp only [readFrame, readType, readLen, List.headD_cons]

/-- A frame that was written is read back, and nothing after it is touched. -/
theorem readFrame_of_written {src : Source UInt8} {frame : RawMsg} {left : List UInt8}
    (fits : (frame.2.length : Int) ≤ MAX_MSG_LEN)
    (wire : src.bytes = frameHeader frame.1 frame.2.length ++ frame.2 ++ left) :
    ∃ rest : Source UInt8, readFrame src = .ok (frame, rest) ∧ rest.bytes = left := by
  have headerSplit : src.bytes =
      frame.1 :: natToBe 8 frame.2.length ++ (frame.2 ++ left) := by
    simpa [frameHeader] using wire
  obtain ⟨body, bodyBytes, _, readEq⟩ :=
    readFrame_header (natToBe_length 8 frame.2.length) headerSplit
  obtain ⟨rest, readBody, restBytes, _⟩ := Source.readExact_of_append bodyBytes
  refine ⟨rest, ?_, restBytes⟩
  have inRange : ¬ ((frame.2.length : Int) < 0 ∨ MAX_MSG_LEN < (frame.2.length : Int)) := by
    omega
  rw [readEq, i64FromBe_natToBe fits, if_neg inRange, Int.toNat_natCast, readBody]

/-- A successful read consumed exactly one well-formed frame. -/
theorem readFrame_ok {src rest : Source UInt8} {frame : RawMsg}
    (read : readFrame src = .ok (frame, rest)) :
    (frame.2.length : Int) ≤ MAX_MSG_LEN ∧
      src.bytes = frameHeader frame.1 frame.2.length ++ frame.2 ++ rest.bytes := by
  unfold readFrame at read
  split at read
  · cases read
  · rename_i tb afterType readType
    obtain ⟨typeBytes, typeLen, _⟩ := Source.readExact_ok readType
    split at read
    · cases read
    · rename_i lb afterLen readLen
      obtain ⟨lenBytes, lenLen, _⟩ := Source.readExact_ok readLen
      simp only at read
      split at read
      · cases read
      · rename_i inRange
        split at read
        · cases read
        · rename_i body afterBody readBody
          obtain ⟨bodyBytes, bodyLen, _⟩ := Source.readExact_ok readBody
          simp only [Except.ok.injEq, Prod.mk.injEq] at read
          obtain ⟨rfl, rfl⟩ := read
          obtain ⟨t, rfl⟩ := List.length_eq_one_iff.mp typeLen
          have nonneg : 0 ≤ i64FromBe lb := by omega
          have spelling := natToBe_i64FromBe lenLen nonneg
          refine ⟨by simp only; omega, ?_⟩
          simp only [List.headD_cons, frameHeader, bodyLen, spelling]
          rw [typeBytes, lenBytes, bodyBytes]
          simp

/-- The sequence version: any number of frames, in any segmentation, with anything behind them. -/
theorem readFrames_of_written (frames : List RawMsg) (src : Source UInt8) (left : List UInt8)
    (fits : ∀ frame ∈ frames, (frame.2.length : Int) ≤ MAX_MSG_LEN)
    (wire : src.bytes =
      (frames.map fun frame => frameHeader frame.1 frame.2.length ++ frame.2).flatten ++ left) :
    ∃ rest : Source UInt8, readFrames frames.length src = .ok (frames, rest) ∧
      rest.bytes = left := by
  induction frames generalizing src with
  | nil => exact ⟨src, rfl, by simpa using wire⟩
  | cons frame frames inductionHypothesis =>
      obtain ⟨middle, readHead, middleBytes⟩ :=
        readFrame_of_written (fits frame (List.mem_cons_self ..)) (by
          simpa only [List.map_cons, List.flatten_cons, List.append_assoc] using wire)
      obtain ⟨rest, readTail, restBytes⟩ :=
        inductionHypothesis middle
          (fun other member => fits other (List.mem_cons_of_mem frame member)) middleBytes
      refine ⟨rest, ?_, restBytes⟩
      simp only [List.length_cons, readFrames, readHead, readTail]

/-- What a sequence of accepted writes leaves on the wire. -/
theorem writeFrames_eq (frames : List RawMsg) (out : List UInt8)
    (fits : ∀ frame ∈ frames, (frame.2.length : Int) ≤ MAX_MSG_LEN) :
    writeFrames frames out =
      out ++ (frames.map fun frame => frameHeader frame.1 frame.2.length ++ frame.2).flatten := by
  induction frames generalizing out with
  | nil => simp [writeFrames]
  | cons frame frames inductionHypothesis =>
      have headEq := writeFrame_of_le frame.1 out (fits frame (List.mem_cons_self ..))
      have tailEq := inductionHypothesis
        (out ++ (frameHeader frame.1 frame.2.length ++ frame.2))
        (fun other member => fits other (List.mem_cons_of_mem frame member))
      simp only [writeFrames, List.foldl_cons, headEq] at tailEq ⊢
      rw [tailEq]
      simp

/-- With a complete header on the wire, `read_frame` fails exactly for a length outside the
range or a body that the stream ends inside of. -/
theorem readFrame_fails_iff {src : Source UInt8} {tb : UInt8} {lb left : List UInt8}
    (width : lb.length = 8) (wire : src.bytes = tb :: lb ++ left) :
    (∃ e, readFrame src = .error e) ↔
      i64FromBe lb < 0 ∨ MAX_MSG_LEN < i64FromBe lb ∨
        (left.length : Int) < i64FromBe lb := by
  obtain ⟨body, bodyBytes, _, readEq⟩ := readFrame_header width wire
  rw [readEq]
  by_cases range : i64FromBe lb < 0 ∨ MAX_MSG_LEN < i64FromBe lb
  · rw [if_pos range]
    exact ⟨fun _ => by tauto, fun _ => ⟨_, rfl⟩⟩
  · rw [if_neg range]
    by_cases short : (left.length : Int) < i64FromBe lb
    · have dry : body.bytes.length < (i64FromBe lb).toNat := by
        rw [bodyBytes]
        omega
      rw [Source.readExact_of_short dry]
      exact ⟨fun _ => Or.inr (Or.inr short), fun _ => ⟨_, rfl⟩⟩
    · have enough : (i64FromBe lb).toNat ≤ left.length := by omega
      have split : body.bytes =
          left.take (i64FromBe lb).toNat ++ left.drop (i64FromBe lb).toNat := by
        rw [bodyBytes, List.take_append_drop]
      obtain ⟨rest, readBody, _⟩ := Source.readExact_of_append split
      rw [List.length_take, Nat.min_eq_left enough] at readBody
      rw [readBody]
      constructor
      · rintro ⟨e, impossible⟩
        cases impossible
      · intro outside
        exact absurd outside (by tauto)

/-- The frame codec round-trips both ways: written frames are read back one by one from any
segmentation, what a read consumed is what a write of its result emits, a complete header fails
exactly on its length or a cut body, and an oversized body emits nothing. -/
theorem frames_round_trip :
    (∀ (frames : List RawMsg) (src : Source UInt8) (left : List UInt8),
      (∀ frame ∈ frames, (frame.2.length : Int) ≤ MAX_MSG_LEN) →
      src.bytes = writeFrames frames [] ++ left →
      ∃ rest : Source UInt8, readFrames frames.length src = .ok (frames, rest) ∧
        rest.bytes = left) ∧
    (∀ (src rest : Source UInt8) (frame : RawMsg),
      readFrame src = .ok (frame, rest) →
      ∃ wire, writeFrame frame.1 frame.2 [] = (.ok (), wire) ∧
        src.bytes = wire ++ rest.bytes) ∧
    (∀ (src : Source UInt8) (tb : UInt8) (lb left : List UInt8),
      lb.length = 8 → src.bytes = tb :: lb ++ left →
      ((∃ e, readFrame src = .error e) ↔
        i64FromBe lb < 0 ∨ MAX_MSG_LEN < i64FromBe lb ∨
          (left.length : Int) < i64FromBe lb)) ∧
    (∀ (tb : UInt8) (body out : List UInt8),
      MAX_MSG_LEN < (body.length : Int) →
      writeFrame tb body out = (.error (.tooLarge body.length), out)) := by
  refine ⟨?_, ?_, ?_, ?_⟩
  · intro frames src left fits wire
    rw [writeFrames_eq frames [] fits, List.nil_append] at wire
    exact readFrames_of_written frames src left fits wire
  · intro src rest frame read
    obtain ⟨fits, consumed⟩ := readFrame_ok read
    exact ⟨_, writeFrame_of_le frame.1 [] fits, consumed⟩
  · intro src tb lb left width wire
    exact readFrame_fails_iff width wire
  · intro tb body out big
    exact writeFrame_of_lt big

/-- Two frames cut into one-byte and three-byte segments are read back, with one byte left. -/
theorem two_frames_round_trip :
    ∃ rest : Source UInt8,
      readFrames 2
          ⟨[[112], [0, 0, 0], [0, 0, 0], [0, 1], [9, 104], [0, 0, 0, 0], [0, 0, 0, 0, 77]], .eof⟩
        = .ok ([(112, [9]), (104, [])], rest) ∧ rest.bytes = [77] :=
  frames_round_trip.1 [(112, [9]), (104, [])] _ [77] (by decide) (by decide)

end Remgr.Frps
