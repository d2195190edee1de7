/-
Module: Remgr.Frps.Wire
Purpose: One direction of an in-order work connection, with `read_frame` and `write_frame` of
  `remgr-frps/src/msg.rs` at its two ends. Whatever is read from it is the next of the frames that
  were written, also when the connection fails in the middle of one.
Trusted boundary: the connection keeps the order of the bytes; when it fails, some of the last bytes
  are lost and nothing follows
Main exports: Wire, Wire.writeFrame, Wire.readFrame, Wire.Carries
-/
import Remgr.Frps.Frame

namespace Remgr.Frps

open Remgr.Lib

/-- The bytes on the way, and whether the connection has ended behind them. -/
structure Wire where
  bytes : List UInt8 := []
  closed : Bool := false
deriving Repr, DecidableEq

namespace Wire

/-- Bytes that are written after the end are lost. -/
def append (wire : Wire) (bytes : List UInt8) : Wire :=
  if wire.closed then wire else { wire with bytes := wire.bytes ++ bytes }

/-- The connection ends; the reader still gets `count` bytes. -/
def breaks (wire : Wire) (count : Nat) : Wire :=
  { bytes := wire.bytes.take count, closed := true }

/-- `write_frame`, and whether it returned `Ok`. With a `failure` the connection fails after that
many bytes of the frame. -/
def writeFrame (wire : Wire) (typeByte : UInt8) (body : List UInt8) (failure : Option Nat) :
    Bool × Wire :=
  match Frps.writeFrame typeByte body [] with
  | (.error _, _) => (false, wire)
  | (.ok (), frame) =>
      match failure with
      | none => (true, wire.append frame)
      | some count => (false, { wire.append (frame.take count) with closed := true })

/-- `read_frame`. It waits, with no result, for bytes that may still come. -/
def readFrame (wire : Wire) : Option (Except FrameError (RawMsg × Wire)) :=
  match Frps.readFrame ⟨[wire.bytes], .eof⟩ with
  | .ok (frame, rest) => some (.ok (frame, { wire with bytes := rest.bytes }))
  | .error (.io ending) => if wire.closed then some (.error (.io ending)) else none
  | .error error => some (.error error)

/-! ## Frames on the way -/

/-- A frame as it is written. -/
def frameBytes (frame : RawMsg) : List UInt8 := frameHeader frame.1 frame.2.length ++ frame.2

/-- A frame that fits is written whole, and read back from an empty wire. -/
theorem writeFrame_empty {frame : RawMsg} (fits : (frame.2.length : Int) ≤ MAX_MSG_LEN) :
    ({} : Wire).writeFrame frame.1 frame.2 none = (true, { bytes := frameBytes frame }) := by
  simp only [Wire.writeFrame, writeFrame_of_le frame.1 [] fits]
  rfl

theorem readFrame_single {frame : RawMsg} (fits : (frame.2.length : Int) ≤ MAX_MSG_LEN) :
    ({ bytes := frameBytes frame } : Wire).readFrame = some (.ok (frame, {})) := by
  have wire : (⟨[frameBytes frame], .eof⟩ : Source UInt8).bytes =
      frameHeader frame.1 frame.2.length ++ frame.2 ++ [] := by
    simp [Source.bytes, frameBytes]
  obtain ⟨rest, read, nothing⟩ := readFrame_of_written fits wire
  simp only [Wire.readFrame, read, nothing]

/-- The frames on the way, the last of them perhaps cut off. -/
structure Carries (wire : Wire) (frames : List RawMsg) : Prop where
  fits : ∀ frame ∈ frames, (frame.2.length : Int) ≤ MAX_MSG_LEN
  lead : wire.bytes <+: frames.flatMap frameBytes
  whole : wire.closed = false → wire.bytes = frames.flatMap frameBytes

namespace Carries

variable {wire wire' : Wire} {frames : List RawMsg}

theorem empty : Carries {} [] := ⟨nofun, List.prefix_rfl, fun _ => rfl⟩

theorem breaks (carries : wire.Carries frames) (count : Nat) : (wire.breaks count).Carries frames :=
  ⟨carries.fits, (List.take_prefix ..).trans carries.lead, nofun⟩

theorem close (carries : wire.Carries frames) : Carries { wire with closed := true } frames :=
  ⟨carries.fits, carries.lead, nofun⟩

/-- A frame that is written is the last one on the way, unless it is lost. -/
theorem writeFrame (carries : wire.Carries frames) (typeByte : UInt8) (body : List UInt8)
    (failure : Option Nat) :
    (wire.writeFrame typeByte body failure).2.Carries frames ∨
      (wire.writeFrame typeByte body failure).2.Carries (frames ++ [(typeByte, body)]) := by
  unfold Wire.writeFrame
  by_cases big : MAX_MSG_LEN < (body.length : Int)
  · rw [writeFrame_of_lt big]
    exact .inl carries
  · have fits : ∀ frame ∈ frames ++ [(typeByte, body)], (frame.2.length : Int) ≤ MAX_MSG_LEN := by
      intro frame inside
      rcases List.mem_append.mp inside with before | last
      · exact carries.fits frame before
      · cases List.mem_singleton.mp last
        exact not_lt.mp big
    rw [writeFrame_of_le typeByte [] (not_lt.mp big), List.nil_append]
    cases closed : wire.closed with
    | true =>
        left
        cases failure with
        | none => simpa only [append, closed, if_true] using carries
        | some count => simpa only [append, closed, if_true] using carries.close
    | false =>
        right
        have all : (frames ++ [(typeByte, body)]).flatMap frameBytes =
            wire.bytes ++ frameBytes (typeByte, body) := by
          rw [carries.whole closed, List.flatMap_append, List.flatMap_singleton]
        cases failure with
        | none =>
            simp only [append, closed, Bool.false_eq_true, if_false]
            exact ⟨fits, all ▸ List.prefix_rfl, fun _ => all.symm⟩
        | some count =>
            simp only [append, closed, Bool.false_eq_true, if_false]
            refine ⟨fits, ?_, nofun⟩
            rw [all]
            exact (List.prefix_append_right_inj _).mpr (List.take_prefix ..)

/-- What is read is the first frame on the way. Both are read from the same bytes, those that were
written: `read_frame` cannot give two results for them. -/
theorem readFrame (carries : wire.Carries frames) {frame : RawMsg}
    (read : wire.readFrame = some (.ok (frame, wire'))) :
    ∃ left, frames = frame :: left ∧ wire'.Carries left := by
  unfold Wire.readFrame at read
  split at read
  · next got rest found =>
      cases read
      rcases readFrame_ok found with ⟨fits, split⟩
      have bytes : wire.bytes = frameBytes frame ++ rest.bytes := by
        simpa [Source.bytes, frameBytes] using split
      rcases carries.lead with ⟨cut, written⟩
      have again : ∀ {frame : RawMsg} {left : List UInt8}, (frame.2.length : Int) ≤ MAX_MSG_LEN →
          wire.bytes ++ cut = frameBytes frame ++ left →
          ∃ rest : Source UInt8, Frps.readFrame ⟨[wire.bytes ++ cut], .eof⟩ = .ok (frame, rest) ∧
            rest.bytes = left := by
        intro frame left fits split
        exact readFrame_of_written fits (by simpa [Source.bytes, frameBytes] using split)
      have first := @again frame (rest.bytes ++ cut) fits (by rw [bytes, List.append_assoc])
      cases frames with
      | nil =>
          rw [bytes] at written
          simp [frameBytes, frameHeader] at written
      | cons head left =>
          have second := @again head (left.flatMap frameBytes)
            (carries.fits head (List.mem_cons_self ..)) (by rw [written, List.flatMap_cons])
          rcases first with ⟨rest₁, read₁, left₁⟩
          rcases second with ⟨rest₂, read₂, left₂⟩
          cases read₁.symm.trans read₂
          refine ⟨left, rfl, ?_, ?_, ?_⟩
          · exact fun other inside => carries.fits other (List.mem_cons_of_mem _ inside)
          · exact ⟨cut, left₁.symm.trans left₂⟩
          · intro isOpen
            have whole := carries.whole isOpen
            rw [bytes, List.flatMap_cons] at whole
            exact List.append_cancel_left whole
  · split at read <;> cases read
  · cases read

end Carries

end Wire

end Remgr.Frps
