/-
Module: Remgr.Lib.ByteSource
Purpose: Byte streams read poll by poll into buffers of any size: the buffer, the answer to a poll,
  and the law of a reader that hands its unread bytes out in order.
Trusted boundary: none
Main exports: ReadBuf, ReadPoll, Polled, AsyncRead, PollLaw, ByteSource, ByteSource.pollAll_unread,
  ByteSource.pollAll_drains
-/
import Mathlib.Data.List.Basic

namespace Remgr.Lib

/-- A caller's buffer: how much it holds, and what has been put into it. -/
structure ReadBuf where
  capacity : Nat
  filled : List UInt8
  fits : filled.length ≤ capacity

namespace ReadBuf

/-- An empty buffer of this size. -/
def new (capacity : Nat) : ReadBuf := { capacity, filled := [], fits := Nat.zero_le _ }

def remaining (buf : ReadBuf) : Nat := buf.capacity - buf.filled.length

/-- Append to what is in the buffer, where there is room. -/
def putSlice (buf : ReadBuf) (bytes : List UInt8) (room : bytes.length ≤ buf.remaining) :
    ReadBuf where
  capacity := buf.capacity
  filled := buf.filled ++ bytes
  fits := by
    have fits := buf.fits
    rw [remaining] at room
    rw [List.length_append]
    omega

@[simp] theorem new_remaining (capacity : Nat) : (new capacity).remaining = capacity := rfl

@[simp] theorem putSlice_filled (buf : ReadBuf) (bytes : List UInt8)
    (room : bytes.length ≤ buf.remaining) :
    (buf.putSlice bytes room).filled = buf.filled ++ bytes := rfl

@[simp] theorem putSlice_capacity (buf : ReadBuf) (bytes : List UInt8)
    (room : bytes.length ≤ buf.remaining) : (buf.putSlice bytes room).capacity = buf.capacity := rfl

end ReadBuf

/-- How a poll for bytes ends. -/
inductive ReadPoll where
  | ready
  | pending
  | error
deriving Repr, DecidableEq

/-- What one poll leaves behind. -/
structure Polled (ι : Type) where
  reply : ReadPoll
  reader : ι
  buf : ReadBuf

namespace Polled

variable {ι κ : Type}

/-- The same poll, of a reader around the one polled. -/
def map (wrap : ι → κ) (polled : Polled ι) : Polled κ :=
  { reply := polled.reply, reader := wrap polled.reader, buf := polled.buf }

/-- What the poll has put behind the earlier content of the buffer. -/
def added (polled : Polled ι) (buf : ReadBuf) : List UInt8 :=
  polled.buf.filled.drop buf.filled.length

/-- The end of the stream, as a caller is told of it: room, and nothing put there. -/
def atEnd (polled : Polled ι) (buf : ReadBuf) : Bool :=
  polled.reply = .ready && 0 < buf.remaining && (polled.added buf).isEmpty

end Polled

/-- A reader that is polled; `α` is what its environment answers to a poll. -/
class AsyncRead (ι : Type) (α : outParam Type) where
  pollRead : α → ι → ReadBuf → Polled ι

/-- One poll keeps to the stream: what it adds is taken off the front of what was unread, only a
finished stream ends, and it makes progress when asked promptly. -/
structure PollLaw {ι : Type} (unread : ι → List UInt8) (finished : ι → Prop) (prompt : Prop)
    (reader : ι) (buf : ReadBuf) (polled : Polled ι) : Prop where
  capacity : polled.buf.capacity = buf.capacity
  filled : polled.buf.filled = buf.filled ++ polled.added buf
  taken : unread reader = polled.added buf ++ unread polled.reader
  idle : polled.reply ≠ .ready → polled.added buf = []
  ends : polled.atEnd buf = true → unread reader = [] ∧ finished reader
  finished_iff : finished polled.reader ↔ finished reader
  moves : prompt → 0 < buf.remaining → unread reader ≠ [] → polled.added buf ≠ []

/-- A reader all of whose polls keep to its stream, whatever the environment answers. -/
class ByteSource (ι : Type) (α : outParam Type) extends AsyncRead ι α where
  unread : ι → List UInt8
  finished : ι → Prop
  prompt : α → Prop
  lawful : ∀ answer reader buf,
    PollLaw unread finished (prompt answer) reader buf (pollRead answer reader buf)

section PollLaw

variable {ι : Type} {unread : ι → List UInt8} {finished : ι → Prop} {prompt : Prop} {reader : ι}
  {buf : ReadBuf} {polled : Polled ι}

/-- A poll that says what it adds. -/
theorem PollLaw.of_added (bytes : List UInt8) (capacity : polled.buf.capacity = buf.capacity)
    (filled : polled.buf.filled = buf.filled ++ bytes)
    (taken : unread reader = bytes ++ unread polled.reader)
    (idle : polled.reply ≠ .ready → bytes = [])
    (ends : polled.reply = .ready → 0 < buf.remaining → bytes = [] →
      unread reader = [] ∧ finished reader)
    (finished_iff : finished polled.reader ↔ finished reader)
    (moves : prompt → 0 < buf.remaining → unread reader ≠ [] → bytes ≠ []) :
    PollLaw unread finished prompt reader buf polled := by
  have added : polled.added buf = bytes := by
    rw [Polled.added, filled, List.drop_left]
  refine ⟨capacity, ?_, ?_, ?_, ?_, finished_iff, ?_⟩
  · rw [added]
    exact filled
  · rw [added]
    exact taken
  · rw [added]
    exact idle
  · intro told
    simp only [Polled.atEnd, added, Bool.and_eq_true, decide_eq_true_eq,
      List.isEmpty_iff] at told
    exact ends told.1.1 told.1.2 told.2
  · rw [added]
    exact moves

/-- What a poll adds fits the buffer it was given. -/
theorem PollLaw.added_fits (law : PollLaw unread finished prompt reader buf polled) :
    (polled.added buf).length ≤ buf.remaining := by
  have fits := polled.buf.fits
  rw [law.filled, law.capacity, List.length_append] at fits
  rw [ReadBuf.remaining]
  omega

/-- A poll that passes a wrapper with bytes of its own in front: it has none, or none would fit. -/
theorem PollLaw.behind {κ : Type} {unreadAround : κ → List UInt8} {finishedAround : κ → Prop}
    {wrap : ι → κ} (law : PollLaw unread finished prompt reader buf polled) (held : List UInt8)
    (sameUnread : ∀ r, unreadAround (wrap r) = held ++ unread r)
    (sameFinished : ∀ r, finishedAround (wrap r) ↔ finished r)
    (passes : held = [] ∨ buf.remaining = 0) :
    PollLaw unreadAround finishedAround prompt (wrap reader) buf (polled.map wrap) := by
  have noneFits (room : 0 < buf.remaining) : held = [] :=
    passes.resolve_right (Nat.pos_iff_ne_zero.mp room)
  refine ⟨law.capacity, law.filled, ?_, law.idle, ?_, ?_, ?_⟩
  · show unreadAround (wrap reader) = polled.added buf ++ unreadAround (wrap polled.reader)
    rw [sameUnread, sameUnread, law.taken]
    rcases passes with none | full
    · rw [none, List.nil_append, List.nil_append]
    · have nothing : polled.added buf = [] :=
        List.length_eq_zero_iff.mp (Nat.le_zero.mp (full ▸ law.added_fits))
      rw [nothing, List.nil_append, List.nil_append]
  · intro told
    have room : 0 < buf.remaining := by
      simp only [Polled.atEnd, Bool.and_eq_true, decide_eq_true_eq] at told
      exact told.1.2
    rw [sameUnread, noneFits room, sameFinished]
    exact law.ends told
  · exact (sameFinished _).trans (law.finished_iff.trans (sameFinished _).symm)
  · intro asked room
    rw [sameUnread, noneFits room]
    exact law.moves asked room

end PollLaw

namespace ByteSource

variable {ι α : Type} [ByteSource ι α]

/-- A caller's polls, one after another: the reader they leave, and all they have added. -/
def pollAll : List (α × ReadBuf) → ι → ι × List UInt8
  | [], reader => (reader, [])
  | (answer, buf) :: polls, reader =>
      let polled := AsyncRead.pollRead answer reader buf
      let rest := pollAll polls polled.reader
      (rest.1, polled.added buf ++ rest.2)

/-- Whatever the buffers and the answers, the caller gets the unread bytes in order. -/
theorem pollAll_unread (polls : List (α × ReadBuf)) (reader : ι) :
    unread reader = (pollAll polls reader).2 ++ unread (pollAll polls reader).1 := by
  induction polls generalizing reader with
  | nil => rfl
  | cons poll polls inductionHypothesis =>
      obtain ⟨answer, buf⟩ := poll
      rw [(lawful answer reader buf).taken, pollAll, List.append_assoc]
      exact congrArg _ (inductionHypothesis _)

/-- Enough prompt polls with room leave nothing unread. -/
theorem pollAll_drains {polls : List (α × ReadBuf)} {reader : ι}
    (served : ∀ poll ∈ polls, prompt ι poll.1 ∧ 0 < poll.2.remaining)
    (enough : (unread reader).length ≤ polls.length) : unread (pollAll polls reader).1 = [] := by
  induction polls generalizing reader with
  | nil => exact List.length_eq_zero_iff.mp (Nat.le_zero.mp enough)
  | cons poll polls inductionHypothesis =>
      obtain ⟨answer, buf⟩ := poll
      obtain ⟨prompt, room⟩ := served _ (List.mem_cons_self ..)
      have law := lawful answer reader buf
      have shorter :
          (unread (AsyncRead.pollRead answer reader buf).reader).length ≤ polls.length := by
        have lengths := congrArg List.length law.taken
        rw [List.length_append] at lengths
        by_cases none : unread reader = []
        · rw [none, List.length_nil] at lengths
          omega
        · have some := List.length_pos_of_ne_nil (law.moves prompt room none)
          rw [List.length_cons] at enough
          omega
      have servedLater : ∀ later ∈ polls, ByteSource.prompt ι later.1 ∧ 0 < later.2.remaining :=
        fun later inside => served later (List.mem_cons_of_mem _ inside)
      exact inductionHypothesis servedLater shorter

end ByteSource

end Remgr.Lib
