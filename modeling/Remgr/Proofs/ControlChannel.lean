/-
Module: Remgr.Proofs.ControlChannel
Purpose: The control connection from one end to the other: frames that are written one after another
  into a `CryptoStream`, carried by any in-order transport, and read by `read_frame` behind the
  `CryptoStream` of the peer. The reader gets the frames that were written, in their order, as far
  as they have arrived, and never sees a broken one.
Trusted boundary: as in `Remgr.Frps.Crypto`
Main exports: sentBuffers, accepted, readFrame_of_lead, readFrames_of_lead, control_channel_frames
-/
import Remgr.Frps.Wire
import Remgr.Proofs.CryptoLink
import Mathlib.Data.List.TakeWhile

namespace Remgr.Frps

open Remgr.Lib

/-! ## What the writer puts on the way -/

/-- The buffers that `write_frame` hands to the stream, one for each frame. The writer stops at the
first frame that is refused. -/
def sentBuffers : List RawMsg → List (List UInt8)
  | [] => []
  | frame :: frames =>
      match writeFrame frame.1 frame.2 [] with
      | (.ok (), buf) => buf :: sentBuffers frames
      | (.error _, _) => []

/-- The frames up to the first that is too large. -/
def accepted (frames : List RawMsg) : List RawMsg :=
  frames.takeWhile fun frame => decide ((frame.2.length : Int) ≤ MAX_MSG_LEN)

theorem accepted_fits {frames : List RawMsg} {frame : RawMsg} (member : frame ∈ accepted frames) :
    (frame.2.length : Int) ≤ MAX_MSG_LEN := by
  have small := List.mem_takeWhile_imp (p := fun frame => decide _) member
  exact of_decide_eq_true small

theorem sentBuffers_flatten (frames : List RawMsg) :
    (sentBuffers frames).flatten = (accepted frames).flatMap Wire.frameBytes := by
  induction frames with
  | nil => rfl
  | cons frame frames inductionHypothesis =>
      unfold sentBuffers accepted
      rw [List.takeWhile_cons]
      by_cases fits : (frame.2.length : Int) ≤ MAX_MSG_LEN
      · rw [writeFrame_of_le frame.1 [] fits, if_pos (decide_eq_true fits), List.flatMap_cons]
        exact congrArg (Wire.frameBytes frame ++ ·) inductionHypothesis
      · rw [writeFrame_of_lt (Int.not_le.mp fits), decide_eq_false fits]
        rfl

/-! ## What the reader makes of a beginning of it -/

/-- How `read_frame` ends on a beginning of these frames: it takes the first of them whole, or runs
out of bytes inside it. -/
inductive ReadLead (frames : List RawMsg) (src : Source UInt8) :
    Except FrameError (RawMsg × Source UInt8) → Prop
  | whole {frame : RawMsg} {left : List RawMsg} {rest : Source UInt8} (next : frames = frame :: left)
      (bytes : src.bytes = Wire.frameBytes frame ++ rest.bytes)
      (lead : rest.bytes <+: left.flatMap Wire.frameBytes) (ending : rest.ending = src.ending) :
      ReadLead frames src (.ok (frame, rest))
  | dry (short : ∀ frame left, frames = frame :: left →
      src.bytes.length < (Wire.frameBytes frame).length) :
      ReadLead frames src (.error (.io src.ending))

variable {frames : List RawMsg}

theorem frameBytes_length (frame : RawMsg) :
    (Wire.frameBytes frame).length = 9 + frame.2.length := by
  rw [Wire.frameBytes, List.length_append, frameHeader_length]

/-- A source that ends inside of a header. -/
theorem readFrame_dry_header {src : Source UInt8} (short : src.bytes.length < 9) :
    readFrame src = .error (.io src.ending) := by
  unfold readFrame
  by_cases none : src.bytes.length < 1
  · rw [Source.readExact_of_short none]
  · have split : src.bytes = src.bytes.take 1 ++ src.bytes.drop 1 :=
      (List.take_append_drop 1 _).symm
    rcases Source.readExact_of_append split with ⟨afterType, readType, typeBytes, ending⟩
    have one : (src.bytes.take 1).length = 1 := by
      rw [List.length_take]
      omega
    have few : afterType.bytes.length < 8 := by
      rw [typeBytes, List.length_drop]
      omega
    rw [one] at readType
    rw [readType]
    dsimp only
    rw [Source.readExact_of_short few, ending]

/-- A source that ends behind the header of a frame and inside of its body. -/
theorem readFrame_dry_body {src : Source UInt8} {frame : RawMsg} {left : List UInt8}
    (fits : (frame.2.length : Int) ≤ MAX_MSG_LEN)
    (bytes : src.bytes = frameHeader frame.1 frame.2.length ++ left)
    (few : left.length < frame.2.length) : readFrame src = .error (.io src.ending) := by
  rcases readFrame_header (natToBe_length 8 frame.2.length) bytes with
    ⟨body, bodyBytes, ending, readEq⟩
  have inRange : ¬ ((frame.2.length : Int) < 0 ∨ MAX_MSG_LEN < (frame.2.length : Int)) := by
    omega
  have dry : body.bytes.length < frame.2.length := bodyBytes ▸ few
  rw [readEq, i64FromBe_natToBe fits, if_neg inRange, Int.toNat_natCast,
    Source.readExact_of_short dry, ending]

theorem readFrame_ending {src rest : Source UInt8} {frame : RawMsg}
    (read : readFrame src = .ok (frame, rest)) : rest.ending = src.ending := by
  unfold readFrame at read
  split at read
  · cases read
  · next tb afterType readType =>
      split at read
      · cases read
      · next lb afterLen readLen =>
          dsimp only at read
          split at read
          · cases read
          · split at read
            · cases read
            · next body afterBody readBody =>
                cases read
                exact (Source.readExact_ok readBody).2.2.trans
                  ((Source.readExact_ok readLen).2.2.trans (Source.readExact_ok readType).2.2)

/-- One `read_frame`. -/
theorem readFrame_of_lead {src : Source UInt8}
    (fits : ∀ frame ∈ frames, (frame.2.length : Int) ≤ MAX_MSG_LEN)
    (lead : src.bytes <+: frames.flatMap Wire.frameBytes) :
    ReadLead frames src (readFrame src) := by
  by_cases header : src.bytes.length < 9
  · rw [readFrame_dry_header header]
    refine .dry fun frame left _ => ?_
    rw [frameBytes_length]
    omega
  · cases frames with
    | nil =>
        rw [List.flatMap_nil, List.prefix_nil] at lead
        rw [lead] at header
        exact absurd (Nat.zero_lt_succ _) header
    | cons frame left =>
        have small := fits frame (List.mem_cons_self ..)
        rw [List.flatMap_cons] at lead
        by_cases whole : (Wire.frameBytes frame).length ≤ src.bytes.length
        · rcases List.prefix_of_prefix_length_le (List.prefix_append ..) lead whole with ⟨rest, bytes⟩
          rw [← bytes, List.prefix_append_right_inj] at lead
          rcases readFrame_of_written small bytes.symm with ⟨src', read, restBytes⟩
          rw [read]
          exact .whole rfl (by rw [restBytes, bytes]) (restBytes ▸ lead) (readFrame_ending read)
        · have cut : src.bytes <+: Wire.frameBytes frame :=
            List.prefix_of_prefix_length_le lead (List.prefix_append ..) (Nat.le_of_not_le whole)
          have start : frameHeader frame.1 frame.2.length <+: src.bytes := by
            refine List.prefix_of_prefix_length_le (List.prefix_append _ frame.2) cut ?_
            rw [frameHeader_length]
            exact Nat.not_lt.mp header
          rcases start with ⟨body, bytes⟩
          rw [readFrame_dry_body small bytes.symm]
          · refine .dry fun other rest same => ?_
            cases same
            exact Nat.not_le.mp whole
          · rw [frameBytes_length, ← bytes, List.length_append, frameHeader_length] at whole
            omega

/-- How `count` calls of `read_frame` end on a beginning of these frames: they take the first
`count` of them, or run out of bytes before they have them all. -/
inductive ReadsLead (frames : List RawMsg) (src : Source UInt8) (count : Nat) :
    Except FrameError (List RawMsg × Source UInt8) → Prop
  | all {rest : Source UInt8} (enough : count ≤ frames.length)
      (bytes : src.bytes = (frames.take count).flatMap Wire.frameBytes ++ rest.bytes) :
      ReadsLead frames src count (.ok (frames.take count, rest))
  | dry (short : count ≤ frames.length →
      src.bytes.length < ((frames.take count).flatMap Wire.frameBytes).length) :
      ReadsLead frames src count (.error (.io src.ending))

/-- Any number of calls, by induction on it. -/
theorem readFrames_of_lead {src : Source UInt8} (count : Nat)
    (fits : ∀ frame ∈ frames, (frame.2.length : Int) ≤ MAX_MSG_LEN)
    (lead : src.bytes <+: frames.flatMap Wire.frameBytes) :
    ReadsLead frames src count (readFrames count src) := by
  induction count generalizing frames src with
  | zero => exact .all (Nat.zero_le _) rfl
  | succ count inductionHypothesis =>
      have first := readFrame_of_lead fits lead
      unfold readFrames
      generalize readFrame src = result at first ⊢
      cases first with
      | dry short =>
          refine .dry fun enough => ?_
          cases frames with
          | nil => exact absurd enough (Nat.not_succ_le_zero count)
          | cons frame left =>
              rw [List.take_succ_cons, List.flatMap_cons, List.length_append]
              exact Nat.lt_add_right _ (short frame left rfl)
      | @whole frame left rest next bytes lead' ending =>
          subst next
          dsimp only
          have fits' : ∀ other ∈ left, (other.2.length : Int) ≤ MAX_MSG_LEN :=
            fun other member => fits other (List.mem_cons_of_mem frame member)
          have others := inductionHypothesis fits' lead'
          generalize readFrames count rest = results at others ⊢
          cases others with
          | @all rest' enough bytes' =>
              refine .all (Nat.succ_le_succ enough) ?_
              rw [bytes, bytes', List.take_succ_cons, List.flatMap_cons, List.append_assoc]
          | dry short =>
              rw [ending]
              refine .dry fun enough => ?_
              have few := short (Nat.le_of_succ_le_succ enough)
              rw [bytes, List.take_succ_cons, List.flatMap_cons, List.length_append,
                List.length_append]
              exact Nat.add_lt_add_left few _

/-! ## The whole connection -/

/-- Frames are written one after another into a `CryptoStream`, and read behind that of the peer.
However the transport cuts the bytes and however far it has come, the reader gets the frames that
were accepted, in their order, and nothing but the end of the bytes stops it: it never sees a frame
with a bad length or one that was not written. Once everything is delivered it gets all of them. -/
theorem control_channel_frames (aes : Aes) (deriveKey : List UInt8 → List UInt8 → IvBlock)
    (token salt : List UInt8) (iv readerIv : IvBlock) (frames : List RawMsg)
    (events : List LinkEvent) :
    let link :=
      (CryptoLink.start deriveKey token salt iv readerIv (sentBuffers frames)).run aes events
    (∀ (src : Source UInt8) (count : Nat), src.bytes = link.handed →
      ReadsLead (accepted frames) src count (readFrames count src)) ∧
    (link.todo = [] → link.net = [] → ∀ src : Source UInt8, src.bytes = link.handed →
      ∃ rest, readFrames (accepted frames).length src = .ok (accepted frames, rest) ∧
        rest.bytes = []) := by
  intro link
  have handed := crypto_link_handed aes deriveKey token salt iv readerIv (sentBuffers frames) events
  rw [sentBuffers_flatten] at handed
  refine ⟨?_, ?_⟩
  · intro src count bytes
    exact readFrames_of_lead count (fun _ => accepted_fits) (bytes ▸ handed.1)
  · intro finished delivered src bytes
    refine readFrames_of_written _ src [] (fun _ => accepted_fits) ?_
    rw [bytes, List.append_nil]
    exact handed.2 finished delivered

/-- Three frames are written, the last of them too large. The reader gets the other two. -/
theorem control_channel_two_frames :
    let frames : List RawMsg := [(112, [9]), (104, []), (112, List.replicate 10241 0)]
    let link := (CryptoLink.start (fun token _ => Block.ofList 16 token) [5] [] (.replicate 16 1)
        (.replicate 16 2) (sentBuffers frames)).run (fun key block => key.zipWith (· + ·) block)
      [.write [.accept 4, .pending], .read 8 [.chunk 2], .write [.accept 20, .accept 20], .write [.accept 20],
        .read 64 [.chunk 20, .chunk 9], .read 64 [.chunk 40]]
    ∃ rest, readFrames 2 ⟨[link.handed], .eof⟩ = .ok ([(112, [9]), (104, [])], rest) ∧
      rest.bytes = [] := by
  intro frames link
  have finished : link.todo = [] := by decide +kernel
  have delivered : link.net = [] := by decide +kernel
  have fitting : accepted frames = [(112, [9]), (104, [])] := by decide +kernel
  have all := (control_channel_frames (fun key block => key.zipWith (· + ·) block)
    (fun token _ => Block.ofList 16 token) [5] [] (.replicate 16 1) (.replicate 16 2) frames _).2
    finished delivered ⟨[link.handed], .eof⟩ (List.append_nil _)
  rwa [fitting] at all

end Remgr.Frps
