/-
Module: Remgr.Frps.Crypto
Purpose: The control-channel cipher of `remgr-frps/src/crypto.rs`: the byte-granular `Cfb`, and
  `CryptoStream` with its half-sent and half-received IV and its retained ciphertext buffer.
Trusted boundary: AES-128 (an arbitrary function of key and block), PBKDF2 (an arbitrary
  function of token and salt), and the poll results of the inner transport
Main exports: IV_LEN, Cfb, Cfb.apply, Cfb.apply_append, Cfb.decrypt_encrypt,
  Cfb.apply_new_eq_cfbEncrypt, CryptoStream, CryptoStream.pollWrite, CryptoStream.pollRead
-/
import Remgr.Lib.Cfb

namespace Remgr.Frps

open Remgr.Lib

/-- `IV_LEN`, which is also the key and block length. -/
abbrev IV_LEN : Nat := 16

/-- `[u8; IV_LEN]`. -/
abbrev IvBlock := Block IV_LEN

/-- `Aes128::encrypt_block` under a key. -/
abbrev Aes := IvBlock → IvBlock → IvBlock

/-! ## The keystream -/

/-- `struct Cfb`. The two invariants the source keeps implicitly are fields here: the position
stays within the block, and `ks` is always the image of the register. -/
structure Cfb where
  enc : IvBlock → IvBlock
  reg : IvBlock
  ks : IvBlock
  ct : IvBlock
  pos : Nat
  decrypt : Bool
  pos_le : pos ≤ IV_LEN
  ks_eq : ks = enc reg

namespace Cfb

/-- `Cfb::refresh` on a register: a new keystream block, read from its first byte. -/
def refresh (enc : IvBlock → IvBlock) (reg ct : IvBlock) (decrypt : Bool) : Cfb :=
  { enc := enc, reg := reg, ks := enc reg, ct := ct, pos := 0, decrypt := decrypt
    pos_le := Nat.zero_le _, ks_eq := rfl }

/-- `Cfb::new`. -/
def new (aes : Aes) (key iv : IvBlock) (decrypt : Bool) : Cfb :=
  refresh (aes key) iv (Vector.replicate IV_LEN 0) decrypt

/-- The head of the loop in `apply`: a used-up keystream block is replaced by the image of the
ciphertext it produced. -/
def turn (s : Cfb) : Cfb :=
  if s.pos = IV_LEN then refresh s.enc s.ct s.ct s.decrypt else s

theorem turn_pos_lt (s : Cfb) : s.turn.pos < IV_LEN := by
  unfold turn
  split
  · exact Nat.zero_lt_succ _
  · rename_i inside
    exact Nat.lt_of_le_of_ne s.pos_le inside

/-- One byte of `apply` after the head of the loop: the feedback takes the ciphertext, which is
the input when decrypting and the output when encrypting. -/
def applyAt (s : Cfb) (inside : s.pos < IV_LEN) (b : UInt8) : Cfb × UInt8 :=
  let out := b ^^^ s.ks[s.pos]
  ({ s with
      ct := s.ct.set s.pos (if s.decrypt then b else out)
      pos := s.pos + 1
      pos_le := inside }, out)

def applyByte (s : Cfb) (b : UInt8) : Cfb × UInt8 :=
  s.turn.applyAt s.turn_pos_lt b

/-- `Cfb::apply` over a slice: the state it leaves and the bytes it leaves in the slice. -/
def apply (s : Cfb) : List UInt8 → Cfb × List UInt8
  | [] => (s, [])
  | b :: data =>
      let one := s.applyByte b
      let rest := apply one.1 data
      (rest.1, one.2 :: rest.2)

@[simp] theorem apply_nil (s : Cfb) : s.apply [] = (s, []) := rfl

@[simp] theorem apply_cons (s : Cfb) (b : UInt8) (data : List UInt8) :
    s.apply (b :: data) =
      (((s.applyByte b).1.apply data).1,
        (s.applyByte b).2 :: ((s.applyByte b).1.apply data).2) := rfl

@[simp] theorem apply_length (s : Cfb) (data : List UInt8) :
    (s.apply data).2.length = data.length := by
  induction data generalizing s with
  | nil => rfl
  | cons b data inductionHypothesis => simp [inductionHypothesis]

/-- The keystream is continuous: how the data is cut into calls makes no difference. -/
theorem apply_append (s : Cfb) (first second : List UInt8) :
    s.apply (first ++ second) =
      (((s.apply first).1.apply second).1,
        (s.apply first).2 ++ ((s.apply first).1.apply second).2) := by
  induction first generalizing s with
  | nil => rfl
  | cons b first inductionHypothesis => simp [inductionHypothesis]

/-! ### Decryption undoes encryption

The two directions keep the same register, keystream and feedback; only the flag differs. -/

/-- The same keystream position, read in the other direction. -/
def flipped (s : Cfb) (decrypt : Bool) : Cfb := { s with decrypt := decrypt }

@[simp] theorem flipped_new (aes : Aes) (key iv : IvBlock) (was is : Bool) :
    (new aes key iv was).flipped is = new aes key iv is := rfl

theorem flipped_turn (s : Cfb) (decrypt : Bool) :
    (s.flipped decrypt).turn = s.turn.flipped decrypt := by
  unfold turn
  split
  · rename_i used
    rw [if_pos (show s.pos = IV_LEN from used)]
    rfl
  · rename_i unused
    rw [if_neg (show ¬ s.pos = IV_LEN from unused)]

theorem turn_decrypt (s : Cfb) : s.turn.decrypt = s.decrypt := by
  unfold turn
  split <;> rfl

theorem applyAt_congr {s t : Cfb} (same : s = t) (left : s.pos < IV_LEN) (right : t.pos < IV_LEN)
    (b : UInt8) : s.applyAt left b = t.applyAt right b := by
  subst same
  rfl

theorem decrypt_applyAt {s : Cfb} (encrypts : s.decrypt = false) (inside : s.pos < IV_LEN)
    (b : UInt8) :
    (s.flipped true).applyAt inside (s.applyAt inside b).2 =
      ((s.applyAt inside b).1.flipped true, b) := by
  have xorTwice : ∀ x y : UInt8, x ^^^ y ^^^ y = x := by
    intro x y
    rw [UInt8.xor_assoc, UInt8.xor_self, UInt8.xor_zero]
  simp only [applyAt, flipped, encrypts, if_true, Bool.false_eq_true, if_false, xorTwice]

/-- Decrypting the ciphertext of one byte gives the byte and ends at the same position. -/
theorem decrypt_applyByte {s : Cfb} (encrypts : s.decrypt = false) (b : UInt8) :
    (s.flipped true).applyByte (s.applyByte b).2 = ((s.applyByte b).1.flipped true, b) := by
  have direction : s.turn.decrypt = false := by rw [turn_decrypt, encrypts]
  simp only [applyByte]
  rw [applyAt_congr (flipped_turn s true) (turn_pos_lt _) s.turn_pos_lt]
  exact decrypt_applyAt direction s.turn_pos_lt b

theorem applyByte_decrypt (s : Cfb) (b : UInt8) : (s.applyByte b).1.decrypt = s.decrypt :=
  turn_decrypt s

/-- A decrypting stream fed the ciphertext of an encrypting one, from the same position on,
returns the plaintext and stays at the same position. -/
theorem decrypt_encrypt {s : Cfb} (encrypts : s.decrypt = false) (data : List UInt8) :
    (s.flipped true).apply (s.apply data).2 = ((s.apply data).1.flipped true, data) := by
  induction data generalizing s with
  | nil => rfl
  | cons b data inductionHypothesis =>
      have stillEncrypts : (s.applyByte b).1.decrypt = false := by
        rw [applyByte_decrypt, encrypts]
      rw [apply_cons, apply_cons, decrypt_applyByte encrypts,
        inductionHypothesis stillEncrypts]

/-! ### The textbook mode -/

/-- What the textbook continues from: the ciphertext bytes of the current block so far. -/
def done (s : Cfb) : List UInt8 := s.ct.toList.take s.pos

theorem done_length (s : Cfb) : s.done.length = s.pos := by
  rw [done, List.length_take, Vector.length_toList]
  exact Nat.min_eq_left s.pos_le

/-- A full block becomes the register of the next one, in the textbook as in the loop. -/
theorem cfbFrom_turn (s : Cfb) (data : List UInt8) :
    cfbFrom s.turn.enc s.turn.reg s.turn.done data = cfbFrom s.enc s.reg s.done data := by
  unfold turn
  split
  · rename_i used
    have whole : s.done = s.ct.toList := by
      rw [done, used]
      exact List.take_of_length_le (by simp)
    rw [whole, cfbFrom_full s.enc (by simp), Block.ofList_toList]
    exact cfbFrom_zero s.enc s.ct data
  · rfl

/-- One byte inside a block is one byte of the textbook. -/
theorem applyAt_eq_cfbFrom {s : Cfb} (encrypts : s.decrypt = false) (inside : s.pos < IV_LEN)
    (b : UInt8) (data : List UInt8) :
    cfbFrom s.enc s.reg s.done (b :: data) =
      (s.applyAt inside b).2 ::
        cfbFrom s.enc s.reg (s.applyAt inside b).1.done data := by
  have room : s.done.length < IV_LEN := by
    rw [done_length]
    exact inside
  have keystream : (s.enc s.reg)[s.done.length] = s.ks[s.pos] := by
    simp only [done_length, s.ks_eq]
  have grown : (s.applyAt inside b).1.done = s.done ++ [b ^^^ s.ks[s.pos]] := by
    simp only [applyAt, encrypts, Bool.false_eq_true, if_false, done]
    rw [Vector.toList_set, List.take_succ_eq_append_getElem (by simpa using inside),
      List.getElem_set_self, List.take_set_of_le (Nat.le_refl _)]
  rw [cfbFrom_cons s.enc b room, keystream, grown]
  rfl

/-- From any position on, an encrypting `Cfb` continues the textbook encryption. -/
theorem apply_eq_cfbFrom {s : Cfb} (encrypts : s.decrypt = false) (data : List UInt8) :
    (s.apply data).2 = cfbFrom s.enc s.reg s.done data := by
  induction data generalizing s with
  | nil => simp
  | cons b data inductionHypothesis =>
      have direction : s.turn.decrypt = false := by rw [turn_decrypt, encrypts]
      have stillEncrypts : (s.applyByte b).1.decrypt = false := by
        rw [applyByte_decrypt, encrypts]
      rw [apply_cons, inductionHypothesis stillEncrypts, ← cfbFrom_turn s,
        applyAt_eq_cfbFrom direction s.turn_pos_lt]
      rfl

/-- An encrypting `Cfb` computes textbook cipher feedback over its whole input. -/
theorem apply_new_eq_cfbEncrypt (aes : Aes) (key iv : IvBlock) (data : List UInt8) :
    ((new aes key iv false).apply data).2 = cfbEncrypt (aes key) iv data := by
  rw [apply_eq_cfbFrom rfl]
  exact cfbFrom_zero (aes key) iv data

end Cfb

/-! ## The stream -/

/-- Result of a poll: `Poll::Ready(Ok _)`, `Poll::Pending`, `Poll::Ready(Err _)`. -/
inductive Poll (α : Type) where
  | ready (value : α)
  | pending
  | error
deriving Repr, DecidableEq

/-- What the inner transport answers to one `poll_write` of a non-empty slice: it takes a
non-empty prefix of it, `extra + 1` bytes or all there are, or is not ready, or fails. -/
inductive InnerWrite where
  | accept (extra : Nat)
  | pending
  | error
deriving Repr, DecidableEq

/-- What the inner transport answers to one `poll_read`: a non-empty chunk of what has arrived
that fits the buffer, nothing yet, the end of the stream, or a failure. -/
inductive InnerRead where
  | chunk (extra : Nat)
  | pending
  | eof
  | error
deriving Repr, DecidableEq

/-- `struct CryptoStream`, without the inner transport. `iv_buf[..iv_read]` is the list of the
IV bytes received so far. -/
structure CryptoStream where
  key : IvBlock
  writeKey : Option IvBlock
  ivBuf : List UInt8
  dec : Option Cfb
  ivWritten : Nat
  iv : IvBlock
  enc : Option Cfb
  pending : Option (List UInt8 × Nat)

namespace CryptoStream

/-- `CryptoStream::with_salt`; `iv` is the value the random generator produced. -/
def withSalt (deriveKey : List UInt8 → List UInt8 → IvBlock) (iv : IvBlock)
    (readPass : List UInt8) (writePass : Option (List UInt8)) (salt : List UInt8) :
    CryptoStream :=
  { key := deriveKey readPass salt
    writeKey := writePass.map fun pass => deriveKey pass salt
    ivBuf := []
    dec := none
    ivWritten := 0
    iv := iv
    enc := none
    pending := none }

/-- Why a loop over inner polls stopped. -/
inductive Stop where
  | finished
  | pending
  | error
deriving Repr, DecidableEq

/-- `while off < len { inner.poll_write(&data[off..]) .. }`, against the answers the inner
transport gives during one call. A call whose answers are used up sees `Pending`. -/
def drain (data : List UInt8) : Nat → List InnerWrite → Stop × Nat × List InnerWrite
  | off, [] => if off < data.length then (.pending, off, []) else (.finished, off, [])
  | off, answer :: answers =>
      if off < data.length then
        match answer with
        | .accept extra => drain data (off + min (extra + 1) (data.length - off)) answers
        | .pending => (.pending, off, answers)
        | .error => (.error, off, answers)
      else
        (.finished, off, answer :: answers)

/-- Encrypt the caller's buffer exactly once: a retained buffer is kept with its offset. -/
def prepare (st : CryptoStream) (enc : Cfb) (buf : List UInt8) : Cfb × List UInt8 × Nat :=
  match st.pending with
  | some waiting => (enc, waiting)
  | none => ((enc.apply buf).1, (enc.apply buf).2, 0)

/-- Push prepared ciphertext out from an offset on. Returns the poll result, the stream, and the
bytes that reached the wire. -/
def push (st : CryptoStream) (enc : Cfb) (data : List UInt8) (off : Nat)
    (answers : List InnerWrite) : Poll Nat × CryptoStream × List UInt8 :=
  let sent := drain data off answers
  let wire := (data.take sent.2.1).drop off
  match sent.1 with
  | .finished => (.ready data.length, { st with enc := some enc, pending := none }, wire)
  | .pending => (.pending, { st with enc := some enc, pending := some (data, sent.2.1) }, wire)
  | .error => (.error, { st with enc := some enc, pending := some (data, sent.2.1) }, wire)

/-- The second half of `poll_write`: the ciphertext, new or retained, goes to the inner writer. -/
def writePending (st : CryptoStream) (enc : Cfb) (buf : List UInt8) (answers : List InnerWrite) :
    Poll Nat × CryptoStream × List UInt8 :=
  let ready := st.prepare enc buf
  st.push ready.1 ready.2.1 ready.2.2 answers

/-- `CryptoStream::poll_write`: our IV goes out before any ciphertext. -/
def pollWrite (aes : Aes) (st : CryptoStream) (buf : List UInt8) (answers : List InnerWrite) :
    Poll Nat × CryptoStream × List UInt8 :=
  match st.enc with
  | some enc => st.writePending enc buf answers
  | none =>
      let sent := drain st.iv.toList st.ivWritten answers
      let wire := (st.iv.toList.take sent.2.1).drop st.ivWritten
      let st := { st with ivWritten := sent.2.1 }
      match sent.1 with
      | .pending => (.pending, st, wire)
      | .error => (.error, st, wire)
      | .finished =>
          let enc := Cfb.new aes (st.writeKey.getD st.key) st.iv false
          let rest := st.writePending enc buf sent.2.2
          (rest.1, rest.2.1, wire ++ rest.2.2)

/-- Number of bytes one inner `poll_read` with room for `cap` delivers out of those that have
arrived. -/
def chunkSize (extra cap : Nat) (arrived : List UInt8) : Nat :=
  min (extra + 1) (min cap arrived.length)

/-- The IV loop of `poll_read`. Returns why it stopped, the IV bytes held, what is left of the
arrived bytes, and the answers not used. -/
def fillIv (ivBuf : List UInt8) (arrived : List UInt8) :
    List InnerRead → Stop × List UInt8 × List UInt8 × List InnerRead
  | [] =>
      if ivBuf.length < IV_LEN then (.pending, ivBuf, arrived, [])
      else (.finished, ivBuf, arrived, [])
  | answer :: answers =>
      if ivBuf.length < IV_LEN then
        match answer with
        | .chunk extra =>
            let n := chunkSize extra (IV_LEN - ivBuf.length) arrived
            -- nothing has arrived: the transport is not ready
            if n = 0 then (.pending, ivBuf, arrived, answers)
            else fillIv (ivBuf ++ arrived.take n) (arrived.drop n) answers
        | .pending => (.pending, ivBuf, arrived, answers)
        -- an end of stream inside the IV is an error (`eof while reading crypto iv`)
        | .eof => (.error, ivBuf, arrived, answers)
        | .error => (.error, ivBuf, arrived, answers)
      else
        (.finished, ivBuf, arrived, answer :: answers)

/-- The second half of `poll_read`: one inner read into the caller's buffer with room for `cap`
bytes, decrypted in place. Returns the bytes handed out and what is left of the arrived ones. -/
def readInto (st : CryptoStream) (dec : Cfb) (cap : Nat) (arrived : List UInt8)
    (answers : List InnerRead) : Poll (List UInt8) × CryptoStream × List UInt8 :=
  let st := { st with dec := some dec }
  match answers with
  | .chunk extra :: _ =>
      let n := chunkSize extra cap arrived
      if n = 0 ∧ 0 < cap then (.pending, st, arrived)
      else
        let opened := dec.apply (arrived.take n)
        (.ready opened.2, { st with dec := some opened.1 }, arrived.drop n)
  | .eof :: _ => (.ready [], st, arrived)
  | .error :: _ => (.error, st, arrived)
  | .pending :: _ => (.pending, st, arrived)
  | [] => (.pending, st, arrived)

/-- `CryptoStream::poll_read`: the peer's IV arrives before any ciphertext. -/
def pollRead (aes : Aes) (st : CryptoStream) (cap : Nat) (arrived : List UInt8)
    (answers : List InnerRead) : Poll (List UInt8) × CryptoStream × List UInt8 :=
  match st.dec with
  | some dec => st.readInto dec cap arrived answers
  | none =>
      let got := fillIv st.ivBuf arrived answers
      let st := { st with ivBuf := got.2.1 }
      match got.1 with
      | .pending => (.pending, st, got.2.2.1)
      | .error => (.error, st, got.2.2.1)
      | .finished =>
          let dec := Cfb.new aes st.key (Block.ofList IV_LEN st.ivBuf) true
          st.readInto dec cap got.2.2.1 got.2.2.2

end CryptoStream

end Remgr.Frps
