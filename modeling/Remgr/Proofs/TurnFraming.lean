/-
Module: Remgr.Proofs.TurnFraming
Purpose: TURN over TLS keeps message boundaries: what the senders wrote is received message by
  message, the padding of ChannelData removed, however the stream is segmented.
Trusted boundary: Remgr.Turn.TlsConn
Main exports: WellFormed, frame, stream_eq, recv_frame, messages_received
-/
import Remgr.Turn.TlsConn

namespace Remgr.Turn

open Lib

/-- The messages a TURN server sends: a STUN message of the length it says, or ChannelData without
its padding or with it. -/
inductive WellFormed (buf : List UInt8) : Prop where
  | stun (kind : framing buf = 0x00) (size : buf.length = 20 + lengthField buf)
  | channel (kind : framing buf = 0x40) (size : buf.length = 4 + lengthField buf)
  | padded (kind : framing buf = 0x40)
      (size : buf.length = 4 + lengthField buf + (4 - lengthField buf % 4) % 4)

/-- A message as it stands on the stream. -/
def frame (buf : List UInt8) : List UInt8 := buf ++ padding buf

/-- A message without the padding that stream transports need. -/
def message (buf : List UInt8) : List UInt8 :=
  if framing buf = 0x40 then buf.take (4 + lengthField buf) else buf

/-! ### The write side -/

/-- What the senders have put on the stream: whole frames, and so much of the last one as its sender
does not still have to write. -/
def Framed (s : Sends) : Prop :=
  match s.writer with
  | none | some .flush => s.stream = s.order.flatMap frame
  | some (.message rest padding) => s.stream ++ (rest ++ padding) = s.order.flatMap frame
  | some (.padding rest) => s.stream ++ rest = s.order.flatMap frame

theorem Framed.step {s s' : Sends} {move : SendStep} (framed : Framed s)
    (moved : sendStep s move = some s') : Framed s' := by
  rcases s with ⟨writer, stream, order⟩
  cases move with
  | lock buf =>
      obtain ⟨free, same⟩ := Option.ite_none_right_eq_some.mp moved
      cases same
      cases free
      have before : stream = order.flatMap frame := framed
      simp only [Framed, List.flatMap_append, List.flatMap_singleton, frame, before]
  | write count =>
      cases writer with
      | none => cases moved
      | some sending =>
          cases sending with
          | message rest padding =>
              obtain ⟨-, same⟩ := Option.ite_none_right_eq_some.mp moved
              cases same
              have before : stream ++ (rest ++ padding) = order.flatMap frame := framed
              simp only [Framed, ← before, List.append_assoc]
              rw [← List.append_assoc (rest.take count), List.take_append_drop]
          | padding rest =>
              obtain ⟨-, same⟩ := Option.ite_none_right_eq_some.mp moved
              cases same
              have before : stream ++ rest = order.flatMap frame := framed
              simp only [Framed, ← before, List.append_assoc, List.take_append_drop]
          | flush => cases moved
  | wrote =>
      simp only [sendStep] at moved
      split at moved
      · cases moved
        exact framed
      · cases moved
        have before : stream ++ [] = order.flatMap frame := framed
        rwa [List.append_nil] at before
      · cases moved
  | unlock =>
      obtain ⟨held, same⟩ := Option.ite_none_right_eq_some.mp moved
      cases same
      cases held
      exact framed

/-- Every message sent is well formed. -/
def SendStep.Proper : SendStep → Prop
  | .lock buf => WellFormed buf
  | _ => True

theorem order_step {s s' : Sends} {move : SendStep} (moved : sendStep s move = some s') :
    s'.order = s.order ∨ ∃ buf, move = .lock buf ∧ s'.order = s.order ++ [buf] := by
  cases move with
  | lock buf =>
      obtain ⟨-, same⟩ := Option.ite_none_right_eq_some.mp moved
      cases same
      exact .inr ⟨buf, rfl, rfl⟩
  | write count =>
      simp only [sendStep] at moved
      split at moved
      · obtain ⟨-, same⟩ := Option.ite_none_right_eq_some.mp moved
        cases same
        exact .inl rfl
      · obtain ⟨-, same⟩ := Option.ite_none_right_eq_some.mp moved
        cases same
        exact .inl rfl
      · cases moved
  | wrote =>
      simp only [sendStep] at moved
      split at moved <;> cases moved <;> exact .inl rfl
  | unlock =>
      obtain ⟨-, same⟩ := Option.ite_none_right_eq_some.mp moved
      cases same
      exact .inl rfl

/-- The stream holds the frames of well-formed messages. -/
structure Sound (s : Sends) : Prop where
  framed : Framed s
  proper : ∀ buf ∈ s.order, WellFormed buf

theorem reaches_sound {s : Sends} (run : sends.Reaches (fun _ move => move.Proper) s) : Sound s := by
  refine run.invariant (P := Sound) ?_ ?_
  · rintro s rfl
    exact ⟨rfl, by simp⟩
  · intro s move s' _ sound allowed moved
    refine ⟨sound.framed.step moved, ?_⟩
    rcases order_step moved with same | ⟨buf, rfl, more⟩
    · exact same ▸ sound.proper
    · intro other inside
      rw [more] at inside
      rcases List.mem_append.mp inside with earlier | last
      · exact sound.proper other earlier
      · exact List.mem_singleton.mp last ▸ allowed

/-! ### The read side -/

/-- The loop of `recv_from` fills the buffer with the next bytes of the stream. -/
theorem fill_eq (fuel : Nat) {conn : TlsTurnConn} {got rest : List UInt8} (buf : List UInt8)
    (filled : Nat) (arrives : conn.read.bytes = got ++ rest) (enough : got.length ≤ fuel)
    (room : filled + got.length ≤ buf.length) :
    ∃ conn', fill fuel conn buf filled (filled + got.length) =
        (.ok (buf.take filled ++ got ++ buf.drop (filled + got.length)), conn') ∧
      conn'.read.bytes = rest ∧ conn'.closed = conn.closed := by
  induction fuel generalizing conn got buf filled with
  | zero =>
      have nothing : got = [] := List.length_eq_zero_iff.mp (by omega)
      subst nothing
      exact ⟨conn, by simp [fill], arrives, rfl⟩
  | succ fuel inductionHypothesis =>
      by_cases done : got = []
      · subst done
        exact ⟨conn, by simp [fill], arrives, rfl⟩
      · have positive := List.length_pos_iff.mpr done
        have more : filled < filled + got.length := by omega
        have toCome : conn.read.bytes ≠ [] := by
          rw [arrives]
          exact List.append_ne_nil_of_left_ne_nil done rest
        obtain ⟨front, left, read, whole, nonempty, most⟩ :=
          Source.read_of_filled (filled + got.length - filled) (by omega) toCome
        obtain ⟨tail, rfl, left'⟩ : ∃ tail, got = front ++ tail ∧ left.bytes = tail ++ rest := by
          rcases List.append_eq_append_iff.mp (arrives.symm.trans whole) with
            ⟨tail, here, there⟩ | ⟨tail, here, there⟩
          · have short : tail = [] := by
              have sizes := congrArg List.length here
              rw [List.length_append] at sizes
              exact List.length_eq_zero_iff.mp (by omega)
            subst short
            exact ⟨[], by simpa using here.symm, by simpa using there.symm⟩
          · exact ⟨tail, here, there⟩
        rw [List.length_append] at enough room more
        have size := List.length_pos_iff.mpr nonempty
        have start : (buf.take filled).length = filled := List.length_take_of_le (by omega)
        have front' : (buf.take filled ++ front).length = filled + front.length := by
          rw [List.length_append, start]
        obtain ⟨conn', filledRest, bytes, closed⟩ :=
          @inductionHypothesis { conn with read := left } tail
            (buf.take filled ++ front ++ buf.drop (filled + front.length)) (filled + front.length)
            left' (by omega) (by rw [List.length_append, front', List.length_drop]; omega)
        refine ⟨conn', ?_, bytes, closed⟩
        have taken : (buf.take filled ++ front ++ buf.drop (filled + front.length)).take
            (filled + front.length) = buf.take filled ++ front := List.take_left' front'
        have dropped : (buf.take filled ++ front ++ buf.drop (filled + front.length)).drop
            (filled + front.length + tail.length) = buf.drop (filled + (front ++ tail).length) := by
          rw [← List.drop_drop, List.drop_left' front', List.drop_drop, List.length_append,
            Nat.add_assoc]
        rw [taken, dropped] at filledRest
        rw [fill, if_pos (by rw [List.length_append]; omega), read]
        cases front with
        | nil => exact absurd rfl nonempty
        | cons b front =>
            simp only
            rw [List.length_append, ← Nat.add_assoc, filledRest]
            simp only [List.append_assoc, List.length_append, Nat.add_assoc]

/-! ### Whole messages -/

theorem lengthField_append {buf : List UInt8} (four : 4 ≤ buf.length) (more : List UInt8) :
    lengthField ((buf ++ more).take 4) = lengthField buf := by
  rw [List.take_append_of_le_length four, lengthField, lengthField, List.drop_take, List.take_take]
  rfl

theorem framing_append {buf : List UInt8} (four : 4 ≤ buf.length) (more : List UInt8) :
    framing ((buf ++ more).take 4) = framing buf := by
  cases buf with
  | nil => simp at four
  | cons b buf => rfl

theorem WellFormed.four {buf : List UInt8} (proper : WellFormed buf) : 4 ≤ buf.length := by
  cases proper <;> omega

/-- The head of a frame tells how long the frame is. -/
theorem frameLen_frame {buf : List UInt8} (proper : WellFormed buf) :
    frameLen ((frame buf).take 4) = some ((frame buf).length, decide (framing buf = 0x40)) := by
  have four := proper.four
  rw [frame, frameLen, lengthField_append four, framing_append four, List.length_append, padding]
  cases proper with
  | stun kind size => simp [kind, size]
  | channel kind size =>
      rw [if_neg (by rw [kind]; decide), if_pos kind, if_pos ⟨four, kind⟩, List.length_replicate,
        decide_eq_true kind, size, Nat.add_mod_left]
  | padded kind size =>
      have full : (4 - buf.length % 4) % 4 = 0 := by omega
      rw [if_neg (by rw [kind]; decide), if_pos kind, if_pos ⟨four, kind⟩, List.length_replicate,
        decide_eq_true kind, full, size, Nat.add_zero]

/-- The message at the front of its frame, without the padding. -/
theorem take_frame {msg : List UInt8} (proper : WellFormed msg) (more : List UInt8) :
    (frame msg ++ more).take (if framing msg = 0x40 then 4 + lengthField msg else (frame msg).length) =
      message msg := by
  unfold message
  by_cases kind : framing msg = 0x40
  · have inside : 4 + lengthField msg ≤ msg.length := by
      cases proper with
      | stun other size => exact absurd (kind.symm.trans other) (by decide)
      | channel _ size => exact Nat.le_of_eq size.symm
      | padded _ size => omega
    rw [if_pos kind, if_pos kind, frame, List.append_assoc, List.take_append_of_le_length inside]
  · have none : padding msg = [] := if_neg fun both => kind both.2
    rw [if_neg kind, if_neg kind, List.take_left, frame, none, List.append_nil]

/-- One message is received from its frame. -/
theorem recv_frame {conn : TlsTurnConn} {msg rest : List UInt8} (proper : WellFormed msg)
    (arrives : conn.read.bytes = frame msg ++ rest) (buf : List UInt8)
    (room : (frame msg).length ≤ buf.length) :
    ∃ buf' n conn', recvFrom conn buf = (.ok (buf', n), conn') ∧ buf'.take n = message msg ∧
      conn'.read.bytes = rest ∧ conn'.closed = conn.closed := by
  have four := proper.four
  have long : 4 ≤ (frame msg).length := by
    rw [frame, List.length_append]
    omega
  have headSize : ((frame msg).take 4).length = 4 := List.length_take_of_le long
  have parts : conn.read.bytes = (frame msg).take 4 ++ ((frame msg).drop 4 ++ rest) := by
    rw [arrives, ← List.append_assoc, List.take_append_drop]
  obtain ⟨afterHead, readHead, bytes, -⟩ := Source.readExact_of_append parts
  rw [headSize] at readHead
  have total : 4 + ((frame msg).drop 4).length = (frame msg).length := by
    rw [List.length_drop]
    omega
  have size : ((frame msg).take 4 ++ buf.drop 4).length = buf.length := by
    rw [List.length_append, headSize, List.length_drop]
    omega
  obtain ⟨conn', filled, left, closed⟩ := @fill_eq ((frame msg).length - 4)
    { conn with read := afterHead } _ _ ((frame msg).take 4 ++ buf.drop 4) 4 bytes
    (by rw [List.length_drop]) (by rw [total, size]; exact room)
  rw [total, List.take_left' headSize, List.take_append_drop] at filled
  have received : recvFrom conn buf = (.ok (frame msg ++ ((frame msg).take 4 ++ buf.drop 4).drop
      (frame msg).length, if framing msg = 0x40 then 4 + lengthField msg else (frame msg).length),
      conn') := by
    rw [recvFrom, readHead]
    simp only
    rw [frameLen_frame proper, frame, lengthField_append four, ← frame]
    simp only
    rw [if_neg (by omega), filled]
    simp only [decide_eq_true_eq]
  exact ⟨_, _, conn', received, take_frame proper _, left, closed⟩

/-- Successive receives, one for each buffer: the messages, unless one of them fails. -/
def recvAll : TlsTurnConn → List (List UInt8) → Option (List (List UInt8)) × TlsTurnConn
  | conn, [] => (some [], conn)
  | conn, buf :: bufs =>
      match recvFrom conn buf with
      | (.error _, conn) => (none, conn)
      | (.ok (buf, n), conn) => ((recvAll conn bufs).1.map (buf.take n :: ·), (recvAll conn bufs).2)

theorem recvAll_frames {msgs : List (List UInt8)} {conn : TlsTurnConn} {rest : List UInt8}
    {bufs : List (List UInt8)} (proper : ∀ msg ∈ msgs, WellFormed msg)
    (arrives : conn.read.bytes = msgs.flatMap frame ++ rest)
    (room : List.Forall₂ (fun buf msg => (frame msg).length ≤ buf.length) bufs msgs) :
    ∃ conn', recvAll conn bufs = (some (msgs.map message), conn') ∧ conn'.read.bytes = rest ∧
      conn'.closed = conn.closed := by
  induction room generalizing conn with
  | nil => exact ⟨conn, rfl, arrives, rfl⟩
  | @cons buf msg bufs msgs fits _ inductionHypothesis =>
      rw [List.flatMap_cons, List.append_assoc] at arrives
      obtain ⟨buf', n, conn', received, text, left, closed⟩ :=
        recv_frame (proper msg List.mem_cons_self) arrives buf fits
      obtain ⟨conn'', others, left', closed'⟩ :=
        inductionHypothesis (fun msg inside => proper msg (List.mem_cons_of_mem _ inside)) left
      refine ⟨conn'', ?_, left', closed'.trans closed⟩
      simp [recvAll, received, others, text]

/-- What the senders sent is received, message by message and to the last byte. -/
theorem messages_received (s : Sends) (run : sends.Reaches (fun _ move => move.Proper) s)
    (idle : s.writer = none) (conn : TlsTurnConn) (rest : List UInt8)
    (arrives : conn.read.bytes = s.stream ++ rest) (bufs : List (List UInt8))
    (room : List.Forall₂ (fun buf msg => (frame msg).length ≤ buf.length) bufs s.order) :
    ∃ conn', recvAll conn bufs = (some (s.order.map message), conn') ∧ conn'.read.bytes = rest ∧
      conn'.closed = conn.closed := by
  obtain ⟨framed, proper⟩ := reaches_sound run
  have stream : s.stream = s.order.flatMap frame := by
    rw [Framed, idle] at framed
    exact framed
  rw [stream] at arrives
  exact recvAll_frames proper arrives room

theorem wellFormed_iff {buf : List UInt8} : WellFormed buf ↔
    (framing buf = 0x00 ∧ buf.length = 20 + lengthField buf) ∨
      (framing buf = 0x40 ∧ (buf.length = 4 + lengthField buf ∨
        buf.length = 4 + lengthField buf + (4 - lengthField buf % 4) % 4)) := by
  constructor
  · rintro (⟨kind, size⟩ | ⟨kind, size⟩ | ⟨kind, size⟩)
    · exact .inl ⟨kind, size⟩
    · exact .inr ⟨kind, .inl size⟩
    · exact .inr ⟨kind, .inr size⟩
  · rintro (⟨kind, size⟩ | ⟨kind, size | size⟩)
    · exact .stun kind size
    · exact .channel kind size
    · exact .padded kind size

instance (buf : List UInt8) : Decidable (WellFormed buf) := decidable_of_iff' _ wellFormed_iff

instance (move : SendStep) : Decidable move.Proper :=
  match move with
  | .lock buf => inferInstanceAs (Decidable (WellFormed buf))
  | .write _ | .wrote | .unlock => inferInstanceAs (Decidable True)

def properStep (move : SendStep) (s : Sends) : Option Sends :=
  if move.Proper then sendStep s move else none

/-- ChannelData of one byte, sent without padding. -/
def sampleChannel : List UInt8 := [0x40, 0x01, 0, 1, 7]

/-- A STUN message without attributes. -/
def sampleStun : List UInt8 := [0, 1, 0, 0] ++ List.replicate 16 0x21

/-- The ChannelData is accepted in two portions, its padding in one; the other sender then has the
lock. -/
def sampleSends : List SendStep :=
  [.lock sampleChannel, .write 2, .write 3, .wrote, .write 3, .wrote, .unlock,
    .lock sampleStun, .write 20, .wrote, .wrote, .unlock]

/-- The two frames, every byte a segment of its own. -/
def sampleConn : TlsTurnConn where
  read := { segments := (frame sampleChannel ++ frame sampleStun).map fun b => [b], ending := .eof }
  closed := false

theorem messages_received_bytewise :
    ∃ conn', recvAll sampleConn [List.replicate 1500 0, List.replicate 1500 0] =
        (some [sampleChannel, sampleStun], conn') ∧
      conn'.read.bytes = [] ∧ conn'.closed = false := by
  have done : System.execute properStep sampleSends { writer := none, stream := [], order := [] } =
      some ⟨none, frame sampleChannel ++ frame sampleStun, [sampleChannel, sampleStun]⟩ := by
    decide +kernel
  have run : sends.Reaches (fun _ move => move.Proper) _ :=
    System.reaches_of_execute (fun _ moved => Option.ite_none_right_eq_some.mp moved) (.start rfl) done
  exact messages_received _ run rfl sampleConn [] (by decide +kernel) _
    (.cons (by decide +kernel) (.cons (by decide +kernel) .nil))

end Remgr.Turn
