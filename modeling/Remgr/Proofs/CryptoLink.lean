/-
Module: Remgr.Proofs.CryptoLink
Purpose: Two `CryptoStream`s joined by an in-order transport. A writer offers its buffers one
  after another, re-offering the same one until it is reported written; a reader polls with any
  buffer sizes; the transport answers every inner poll as it likes. Over every such run the wire
  carries the IV and one continuous encryption, and the reader hands out a prefix of the plaintext.
Trusted boundary: as in `Remgr.Frps.Crypto`
Main exports: CryptoLink, LinkEvent, CryptoLink.run, crypto_link_handed, crypto_link_faithful
-/
import Remgr.Frps.Crypto

namespace Remgr.Frps

open Remgr.Lib

/-- The two ends and what lies between them. `todo` starts with the buffer currently offered,
`reported` lists the buffers whose `poll_write` returned `Ready`, with the count it returned. -/
structure CryptoLink where
  writer : CryptoStream
  todo : List (List UInt8)
  reported : List (List UInt8 × Nat)
  wire : List UInt8
  net : List UInt8
  reader : CryptoStream
  handed : List UInt8

/-- One poll of either end, with the answers the transport gives during it. -/
inductive LinkEvent where
  | write (answers : List InnerWrite)
  | read (cap : Nat) (answers : List InnerRead)
deriving Repr, DecidableEq

namespace CryptoLink

/-- Both ends as `with_salt` builds them from one token and salt. -/
def start (deriveKey : List UInt8 → List UInt8 → IvBlock) (token salt : List UInt8)
    (iv readerIv : IvBlock) (bufs : List (List UInt8)) : CryptoLink :=
  { writer := CryptoStream.withSalt deriveKey iv token none salt
    todo := bufs
    reported := []
    wire := []
    net := []
    reader := CryptoStream.withSalt deriveKey readerIv token none salt
    handed := [] }

/-- What the caller does with the result of `poll_write` for the buffer `buf`: a buffer reported
written is done with, and after `Pending` the same one will be offered again. -/
def afterWrite (link : CryptoLink) (buf : List UInt8) (rest : List (List UInt8))
    (polled : Poll Nat × CryptoStream × List UInt8) : CryptoLink :=
  { link with
    writer := polled.2.1
    wire := link.wire ++ polled.2.2
    net := link.net ++ polled.2.2
    todo := match polled.1 with
      | .ready _ => rest
      | .pending => buf :: rest
      | .error => buf :: rest
    reported := match polled.1 with
      | .ready count => link.reported ++ [(buf, count)]
      | .pending => link.reported
      | .error => link.reported }

/-- What the caller does with the result of `poll_read`. -/
def afterRead (link : CryptoLink) (polled : Poll (List UInt8) × CryptoStream × List UInt8) :
    CryptoLink :=
  { link with
    reader := polled.2.1
    net := polled.2.2
    handed := match polled.1 with
      | .ready data => link.handed ++ data
      | .pending => link.handed
      | .error => link.handed }

/-- One poll of either end. -/
def step (aes : Aes) (link : CryptoLink) : LinkEvent → CryptoLink
  | .write answers =>
      match link.todo with
      | [] => link
      | buf :: rest => link.afterWrite buf rest (link.writer.pollWrite aes buf answers)
  | .read cap answers => link.afterRead (link.reader.pollRead aes cap link.net answers)

/-- A run of polls in any order. -/
def run (aes : Aes) (link : CryptoLink) (events : List LinkEvent) : CryptoLink :=
  events.foldl (step aes) link

/-- The buffers reported written so far. -/
def done (link : CryptoLink) : List (List UInt8) := link.reported.map Prod.fst

end CryptoLink

/-! ## The send loop -/

/-- The offset only moves forward, stays within the data, and the loop finishes exactly at the
end. -/
theorem drain_spec (data : List UInt8) (off : Nat) (answers : List InnerWrite)
    (inside : off ≤ data.length) :
    off ≤ (CryptoStream.drain data off answers).2.1 ∧
      (CryptoStream.drain data off answers).2.1 ≤ data.length ∧
      ((CryptoStream.drain data off answers).1 = .finished ↔
        (CryptoStream.drain data off answers).2.1 = data.length) := by
  induction answers generalizing off with
  | nil =>
      unfold CryptoStream.drain
      split
      · rename_i more
        simp only [reduceCtorEq, false_iff]
        omega
      · simp only [true_iff]
        omega
  | cons answer answers inductionHypothesis =>
      unfold CryptoStream.drain
      split
      · rename_i more
        cases answer with
        | accept extra =>
            have grown := inductionHypothesis
              (off + min (extra + 1) (data.length - off)) (by omega)
            exact ⟨Nat.le_trans (Nat.le_add_right _ _) grown.1, grown.2.1, grown.2.2⟩
        | pending =>
            simp only [reduceCtorEq, false_iff]
            omega
        | error =>
            simp only [reduceCtorEq, false_iff]
            omega
      · simp only [true_iff]
        omega

/-- What the loop put on the wire and what it left behind make up what was waiting. -/
theorem drain_split (data : List UInt8) {off till : Nat} (forward : off ≤ till) :
    (data.take till).drop off ++ data.drop till = data.drop off := by
  rw [List.drop_take]
  have tail : data.drop till = (data.drop off).drop (till - off) := by
    rw [List.drop_drop]
    congr 1
    omega
  rw [tail, List.take_append_drop]

/-! ## The writer -/

section Writer

variable (aes : Aes) (key iv : IvBlock)

/-- The stream every byte of this direction is encrypted with. -/
def sealing : Cfb := Cfb.new aes key iv false

/-- Ciphertext of a plaintext from the start of the stream. -/
def sealed (plain : List UInt8) : List UInt8 := ((sealing aes key iv).apply plain).2

theorem sealed_append (first second : List UInt8) :
    sealed aes key iv (first ++ second) =
      sealed aes key iv first ++
        (((sealing aes key iv).apply first).1.apply second).2 := by
  simp only [sealed, Cfb.apply_append]

@[simp] theorem sealed_length (plain : List UInt8) :
    (sealed aes key iv plain).length = plain.length :=
  Cfb.apply_length _ _

/-- The ciphertext of a cut plaintext is the ciphertext, cut. -/
theorem sealed_take (plain : List UInt8) (n : Nat) :
    sealed aes key iv (plain.take n) = (sealed aes key iv plain).take n := by
  have whole := sealed_append aes key iv (plain.take n) (plain.drop n)
  rw [List.take_append_drop] at whole
  rcases Nat.lt_or_ge plain.length n with beyond | within
  · rw [List.take_of_length_le (Nat.le_of_lt beyond), List.take_of_length_le]
    exact Nat.le_of_lt (by simpa using beyond)
  · have cut : (sealed aes key iv (plain.take n)).length = n := by
      rw [sealed_length, List.length_take]
      exact Nat.min_eq_left within
    rw [whole]
    exact (List.take_left' cut).symm

/-- Ciphertext `data` is on its way out from offset `off`: together with what is on the wire it
makes up the encryption of `plain`, the last `count` bytes of which are the current buffer. -/
structure OnItsWay (wire data plain : List UInt8) (off count : Nat) : Prop where
  bound : off ≤ data.length
  sameLength : data.length = count
  wireEq : wire ++ data.drop off = iv.toList ++ sealed aes key iv plain

/-- Pushing ciphertext out keeps it on its way, from wherever the loop stopped. -/
theorem OnItsWay.drain {wire data plain : List UInt8} {off count : Nat}
    (way : OnItsWay aes key iv wire data plain off count) (answers : List InnerWrite) :
    OnItsWay aes key iv
      (wire ++ (data.take (CryptoStream.drain data off answers).2.1).drop off)
      data plain (CryptoStream.drain data off answers).2.1 count := by
  rcases drain_spec data off answers way.bound with ⟨forward, inside, _⟩
  refine ⟨inside, way.sameLength, ?_⟩
  rw [List.append_assoc, drain_split data forward, way.wireEq]

/-- The loop finished: the wire carries the whole encryption. -/
theorem OnItsWay.arrived {wire data plain : List UInt8} {count : Nat}
    (way : OnItsWay aes key iv wire data plain data.length count) :
    wire = iv.toList ++ sealed aes key iv plain := by
  simpa using way.wireEq

/-- What `poll_write` can leave behind once its IV is out: the buffer reported in full and on the
wire, or its ciphertext retained from some offset on. -/
inductive Written (before buf wire : List UInt8) (polled : Poll Nat)
    (after : CryptoStream) : Prop where
  | whole (reported : polled = .ready buf.length) (nothingWaits : after.pending = none)
      (wireEq : wire = iv.toList ++ sealed aes key iv (before ++ buf))
  | part (data : List UInt8) (off : Nat) (notReported : ∀ count, polled ≠ .ready count)
      (waits : after.pending = some (data, off))
      (way : OnItsWay aes key iv wire data (before ++ buf) off buf.length)

/-- A reported count is always the length of the buffer. -/
theorem Written.count {before buf wire : List UInt8} {polled : Poll Nat} {after : CryptoStream}
    (written : Written aes key iv before buf wire polled after) (count : Nat)
    (result : polled = .ready count) : count = buf.length := by
  cases written with
  | whole reported =>
      rw [result] at reported
      injection reported
  | part data off notReported => exact absurd result (notReported count)

/-- Pushing prepared ciphertext out either completes the buffer or retains the rest. -/
theorem push_spec {st : CryptoStream} (enc : Cfb) {before buf wire data : List UInt8} {off : Nat}
    (answers : List InnerWrite)
    (way : OnItsWay aes key iv wire data (before ++ buf) off buf.length) :
    (st.push enc data off answers).2.1.enc = some enc ∧
      Written aes key iv before buf (wire ++ (st.push enc data off answers).2.2)
        (st.push enc data off answers).1 (st.push enc data off answers).2.1 := by
  have moved := way.drain aes key iv answers
  have finished := (drain_spec data off answers way.bound).2.2
  cases stop : (CryptoStream.drain data off answers).1 with
  | finished =>
      have till := finished.mp stop
      simp only [CryptoStream.push, stop]
      rw [till] at moved ⊢
      exact ⟨trivial, .whole (by rw [way.sameLength]) rfl (moved.arrived aes key iv)⟩
  | pending =>
      simp only [CryptoStream.push, stop]
      exact ⟨trivial, .part data _ (by simp) rfl moved⟩
  | error =>
      simp only [CryptoStream.push, stop]
      exact ⟨trivial, .part data _ (by simp) rfl moved⟩

/-- The half of `poll_write` after the IV, from either of the two states it can be called in. -/
theorem writePending_spec (st : CryptoStream) {enc : Cfb} {before wire : List UInt8}
    (buf : List UInt8) (answers : List InnerWrite)
    (called :
      (st.pending = none ∧ enc = ((sealing aes key iv).apply before).1 ∧
          wire = iv.toList ++ sealed aes key iv before) ∨
        ∃ data off, st.pending = some (data, off) ∧
          enc = ((sealing aes key iv).apply (before ++ buf)).1 ∧
          OnItsWay aes key iv wire data (before ++ buf) off buf.length) :
    (st.writePending enc buf answers).2.1.enc =
        some ((sealing aes key iv).apply (before ++ buf)).1 ∧
      Written aes key iv before buf (wire ++ (st.writePending enc buf answers).2.2)
        (st.writePending enc buf answers).1 (st.writePending enc buf answers).2.1 := by
  unfold CryptoStream.writePending CryptoStream.prepare
  rcases called with ⟨fresh, encEq, wireEq⟩ | ⟨data, off, waits, encEq, way⟩
  · have way : OnItsWay aes key iv wire (enc.apply buf).2 (before ++ buf) 0 buf.length := by
      refine ⟨Nat.zero_le _, Cfb.apply_length _ _, ?_⟩
      rw [List.drop_zero, wireEq, sealed_append, encEq, List.append_assoc]
    have cipher : (enc.apply buf).1 = ((sealing aes key iv).apply (before ++ buf)).1 := by
      rw [Cfb.apply_append, encEq]
    rw [fresh, ← cipher]
    exact push_spec aes key iv _ answers way
  · rw [waits, ← encEq]
    exact push_spec aes key iv _ answers way

/-- Where the writer is: still sending its IV, between two buffers, or inside one. -/
inductive WriterAt (link : CryptoLink) : Prop where
  | inIv (noCipher : link.writer.enc = none) (nothingWaits : link.writer.pending = none)
      (nothingReported : link.reported = []) (inside : link.writer.ivWritten ≤ IV_LEN)
      (wireEq : link.wire = iv.toList.take link.writer.ivWritten)
  | between
      (cipher : link.writer.enc = some ((sealing aes key iv).apply link.done.flatten).1)
      (nothingWaits : link.writer.pending = none)
      (wireEq : link.wire = iv.toList ++ sealed aes key iv link.done.flatten)
  | inside (buf data : List UInt8) (rest : List (List UInt8)) (off : Nat)
      (current : link.todo = buf :: rest)
      (cipher : link.writer.enc = some ((sealing aes key iv).apply (link.done.flatten ++ buf)).1)
      (waits : link.writer.pending = some (data, off))
      (way : OnItsWay aes key iv link.wire data (link.done.flatten ++ buf) off buf.length)

/-- Everything the writer keeps true along a run over the buffers `bufs`. -/
structure WriterInvariant (bufs : List (List UInt8)) (link : CryptoLink) : Prop where
  keyEq : link.writer.writeKey.getD link.writer.key = key
  ivEq : link.writer.iv = iv
  inOrder : bufs = link.done ++ link.todo
  fully : ∀ report ∈ link.reported, report.2 = report.1.length
  place : WriterAt aes key iv link

/-- Sending never touches the key or the IV. -/
theorem pollWrite_keeps (st : CryptoStream) (buf : List UInt8) (answers : List InnerWrite) :
    (st.pollWrite aes buf answers).2.1.key = st.key ∧
      (st.pollWrite aes buf answers).2.1.writeKey = st.writeKey ∧
      (st.pollWrite aes buf answers).2.1.iv = st.iv := by
  have half : ∀ (st : CryptoStream) (enc : Cfb) (answers : List InnerWrite),
      (st.writePending enc buf answers).2.1.key = st.key ∧
        (st.writePending enc buf answers).2.1.writeKey = st.writeKey ∧
        (st.writePending enc buf answers).2.1.iv = st.iv := by
    intro st enc answers
    unfold CryptoStream.writePending CryptoStream.push
    simp only
    split <;> exact ⟨rfl, rfl, rfl⟩
  unfold CryptoStream.pollWrite
  split
  · exact half st _ answers
  · simp only
    split
    · exact ⟨rfl, rfl, rfl⟩
    · exact ⟨rfl, rfl, rfl⟩
    · exact half _ _ _

/-- `poll_write` while the IV is still going out: either it stays so, or the IV is complete and
the buffer follows it. -/
theorem pollWrite_iv {st : CryptoStream} {wire : List UInt8} (buf : List UInt8)
    (answers : List InnerWrite) (keyEq : st.writeKey.getD st.key = key) (ivEq : st.iv = iv)
    (noCipher : st.enc = none) (nothingWaits : st.pending = none)
    (inside : st.ivWritten ≤ IV_LEN) (wireEq : wire = iv.toList.take st.ivWritten) :
    ((∀ count, (st.pollWrite aes buf answers).1 ≠ .ready count) ∧
        (st.pollWrite aes buf answers).2.1.enc = none ∧
        (st.pollWrite aes buf answers).2.1.pending = none ∧
        (st.pollWrite aes buf answers).2.1.ivWritten ≤ IV_LEN ∧
        wire ++ (st.pollWrite aes buf answers).2.2 =
          iv.toList.take (st.pollWrite aes buf answers).2.1.ivWritten) ∨
      ((st.pollWrite aes buf answers).2.1.enc =
          some ((sealing aes key iv).apply ([] ++ buf)).1 ∧
        Written aes key iv [] buf (wire ++ (st.pollWrite aes buf answers).2.2)
          (st.pollWrite aes buf answers).1 (st.pollWrite aes buf answers).2.1) := by
  subst ivEq
  have bound : st.ivWritten ≤ st.iv.toList.length := by simpa using inside
  rcases drain_spec st.iv.toList st.ivWritten answers bound with ⟨forward, within, finished⟩
  have wireGrows : wire ++
      (st.iv.toList.take (CryptoStream.drain st.iv.toList st.ivWritten answers).2.1).drop
        st.ivWritten =
      st.iv.toList.take (CryptoStream.drain st.iv.toList st.ivWritten answers).2.1 := by
    rw [wireEq, List.drop_take, ← List.take_add, Nat.add_sub_cancel' forward]
  have within' : (CryptoStream.drain st.iv.toList st.ivWritten answers).2.1 ≤ IV_LEN := by
    simpa using within
  cases stop : (CryptoStream.drain st.iv.toList st.ivWritten answers).1 with
  | pending =>
      simp only [CryptoStream.pollWrite, noCipher, stop]
      exact Or.inl ⟨by simp, trivial, nothingWaits, within', wireGrows⟩
  | error =>
      simp only [CryptoStream.pollWrite, noCipher, stop]
      exact Or.inl ⟨by simp, trivial, nothingWaits, within', wireGrows⟩
  | finished =>
      have whole : st.iv.toList.take (CryptoStream.drain st.iv.toList st.ivWritten answers).2.1 =
          st.iv.toList ++ sealed aes key st.iv [] := by
        rw [finished.mp stop, List.take_length]
        simp [sealed]
      simp only [CryptoStream.pollWrite, noCipher, stop, keyEq]
      rw [← List.append_assoc, wireGrows]
      exact Or.inr (writePending_spec aes key st.iv _ buf _ (Or.inl ⟨nothingWaits, rfl, whole⟩))

/-- Once the IV is out, what `poll_write` leaves is one of the two places with a cipher. -/
theorem WriterAt.ofWritten {link : CryptoLink} {buf : List UInt8} {rest : List (List UInt8)}
    {polled : Poll Nat × CryptoStream × List UInt8}
    (cipher : polled.2.1.enc = some ((sealing aes key iv).apply (link.done.flatten ++ buf)).1)
    (written : Written aes key iv link.done.flatten buf (link.wire ++ polled.2.2) polled.1
      polled.2.1) :
    WriterAt aes key iv (link.afterWrite buf rest polled) := by
  cases written with
  | whole reported nothingWaits wireEq =>
      have grown : (link.afterWrite buf rest polled).done.flatten =
          link.done.flatten ++ buf := by
        simp [CryptoLink.done, CryptoLink.afterWrite, reported]
      refine .between ?_ nothingWaits ?_
      · rw [grown]
        exact cipher
      · rw [grown]
        exact wireEq
  | part data off notReported waits way =>
      have same : (link.afterWrite buf rest polled).done = link.done ∧
          (link.afterWrite buf rest polled).todo = buf :: rest := by
        cases result : polled.1 with
        | ready count => exact absurd result (notReported count)
        | pending => simp [CryptoLink.done, CryptoLink.afterWrite, result]
        | error => simp [CryptoLink.done, CryptoLink.afterWrite, result]
      refine .inside buf data rest off same.2 ?_ waits ?_
      · rw [same.1]
        exact cipher
      · rw [same.1]
        exact way

/-- `poll_write` takes the writer from each of its places to one of them, and what it reports is
the length of the buffer it was given. -/
theorem pollWrite_place {bufs : List (List UInt8)} {link : CryptoLink}
    (invariant : WriterInvariant aes key iv bufs link) {buf : List UInt8}
    {rest : List (List UInt8)} (current : link.todo = buf :: rest) (answers : List InnerWrite) :
    WriterAt aes key iv (link.afterWrite buf rest (link.writer.pollWrite aes buf answers)) ∧
      ∀ count, (link.writer.pollWrite aes buf answers).1 = .ready count →
        count = buf.length := by
  cases invariant.place with
  | inIv noCipher nothingWaits nothingReported inside wireEq =>
      have nothingDone : link.done = [] := by simp [CryptoLink.done, nothingReported]
      rcases pollWrite_iv aes key iv buf answers invariant.keyEq invariant.ivEq noCipher
          nothingWaits inside wireEq with
        ⟨notReported, noCipher', nothingWaits', inside', wireEq'⟩ | ⟨cipher, written⟩
      · have stillNothing :
            (link.afterWrite buf rest (link.writer.pollWrite aes buf answers)).reported = [] := by
          cases result : (link.writer.pollWrite aes buf answers).1 with
          | ready count => exact absurd result (notReported count)
          | pending => simp [CryptoLink.afterWrite, result, nothingReported]
          | error => simp [CryptoLink.afterWrite, result, nothingReported]
        exact ⟨.inIv noCipher' nothingWaits' stillNothing inside' wireEq',
          fun count result => absurd result (notReported count)⟩
      · have before : link.done.flatten = [] := by rw [nothingDone, List.flatten_nil]
        rw [← before] at cipher written
        exact ⟨.ofWritten aes key iv cipher written, written.count aes key iv⟩
  | between cipher nothingWaits wireEq =>
      have half := writePending_spec aes key iv link.writer buf answers
        (Or.inl ⟨nothingWaits, rfl, wireEq⟩)
      simp only [CryptoStream.pollWrite, cipher]
      exact ⟨.ofWritten aes key iv half.1 half.2, half.2.count aes key iv⟩
  | inside buf' data rest' off current' cipher waits way =>
      rw [current] at current'
      cases current'
      have half := writePending_spec aes key iv link.writer buf answers
        (Or.inr ⟨data, off, waits, rfl, way⟩)
      simp only [CryptoStream.pollWrite, cipher]
      exact ⟨.ofWritten aes key iv half.1 half.2, half.2.count aes key iv⟩

/-- A write poll keeps the writer's invariant. -/
theorem WriterInvariant.write {bufs : List (List UInt8)} {link : CryptoLink}
    (invariant : WriterInvariant aes key iv bufs link) (answers : List InnerWrite) :
    WriterInvariant aes key iv bufs (link.step aes (.write answers)) := by
  unfold CryptoLink.step
  cases current : link.todo with
  | nil => exact invariant
  | cons buf rest =>
      have kept := pollWrite_keeps aes link.writer buf answers
      rcases pollWrite_place aes key iv invariant current answers with ⟨place, counted⟩
      refine ⟨?_, ?_, ?_, ?_, place⟩
      · simp only [CryptoLink.afterWrite, kept.1, kept.2.1]
        exact invariant.keyEq
      · simp only [CryptoLink.afterWrite, kept.2.2]
        exact invariant.ivEq
      · rw [invariant.inOrder, current]
        cases result : (link.writer.pollWrite aes buf answers).1 with
        | ready count => simp [CryptoLink.done, CryptoLink.afterWrite, result]
        | pending => simp [CryptoLink.done, CryptoLink.afterWrite, result]
        | error => simp [CryptoLink.done, CryptoLink.afterWrite, result]
      · cases result : (link.writer.pollWrite aes buf answers).1 with
        | pending => simpa [CryptoLink.afterWrite, result] using invariant.fully
        | error => simpa [CryptoLink.afterWrite, result] using invariant.fully
        | ready count =>
            intro report member
            simp only [CryptoLink.afterWrite, result, List.mem_append,
              List.mem_singleton] at member
            rcases member with old | new
            · exact invariant.fully report old
            · rw [new, counted count result]

/-- The writer does not notice reads. -/
theorem WriterInvariant.read {bufs : List (List UInt8)} {link : CryptoLink}
    (invariant : WriterInvariant aes key iv bufs link) (cap : Nat) (answers : List InnerRead) :
    WriterInvariant aes key iv bufs (link.step aes (.read cap answers)) := by
  refine ⟨invariant.keyEq, invariant.ivEq, invariant.inOrder, invariant.fully, ?_⟩
  cases invariant.place with
  | inIv noCipher nothingWaits nothingReported inside wireEq =>
      exact .inIv noCipher nothingWaits nothingReported inside wireEq
  | between cipher nothingWaits wireEq => exact .between cipher nothingWaits wireEq
  | inside buf data rest off current cipher waits way =>
      exact .inside buf data rest off current cipher waits way

/-- At any moment the wire carries a beginning of the IV and the encryption of all buffers, and
all of it once the last of them is reported. -/
theorem WriterInvariant.wire_eq {bufs : List (List UInt8)} {link : CryptoLink}
    (invariant : WriterInvariant aes key iv bufs link) :
    link.wire <+: iv.toList ++ sealed aes key iv bufs.flatten ∧
      (link.todo = [] → bufs ≠ [] →
        link.wire = iv.toList ++ sealed aes key iv bufs.flatten) := by
  have order := invariant.inOrder
  cases invariant.place with
  | inIv noCipher nothingWaits nothingReported inside wireEq =>
      constructor
      · rw [wireEq]
        exact (List.take_prefix _ _).trans (List.prefix_append _ _)
      · intro finished nonempty
        simp [order, finished, CryptoLink.done, nothingReported] at nonempty
  | between cipher nothingWaits wireEq =>
      constructor
      · rw [wireEq, order, List.flatten_append, sealed_append, ← List.append_assoc]
        exact List.prefix_append _ _
      · intro finished _
        rw [wireEq, order, finished, List.append_nil]
  | inside buf data rest off current cipher waits way =>
      constructor
      · have soFar : link.wire <+:
            iv.toList ++ sealed aes key iv (link.done.flatten ++ buf) := by
          rw [← way.wireEq]
          exact List.prefix_append _ _
        refine soFar.trans ?_
        rw [order, current, List.flatten_append, List.flatten_cons, ← List.append_assoc,
          sealed_append aes key iv (link.done.flatten ++ buf), ← List.append_assoc]
        exact List.prefix_append _ _
      · intro finished
        rw [current] at finished
        cases finished

end Writer

/-! ## The reader -/

/-- The IV loop only moves bytes from the arrived ones to the IV, and finishes when the IV is
complete. -/
theorem fillIv_spec (ivBuf arrived : List UInt8) (answers : List InnerRead)
    (inside : ivBuf.length ≤ IV_LEN) :
    (CryptoStream.fillIv ivBuf arrived answers).2.1 ++
        (CryptoStream.fillIv ivBuf arrived answers).2.2.1 = ivBuf ++ arrived ∧
      (CryptoStream.fillIv ivBuf arrived answers).2.1.length ≤ IV_LEN ∧
      ((CryptoStream.fillIv ivBuf arrived answers).1 = .finished ↔
        (CryptoStream.fillIv ivBuf arrived answers).2.1.length = IV_LEN) := by
  induction answers generalizing ivBuf arrived with
  | nil =>
      unfold CryptoStream.fillIv
      split
      · rename_i missing
        exact ⟨rfl, inside, by simp [Nat.ne_of_lt missing]⟩
      · rename_i complete
        exact ⟨rfl, inside, by simp; omega⟩
  | cons answer answers inductionHypothesis =>
      unfold CryptoStream.fillIv
      split
      · rename_i missing
        have waiting : ¬ ivBuf.length = IV_LEN := Nat.ne_of_lt missing
        cases answer with
        | pending => exact ⟨rfl, inside, by simp [waiting]⟩
        | eof => exact ⟨rfl, inside, by simp [waiting]⟩
        | error => exact ⟨rfl, inside, by simp [waiting]⟩
        | chunk extra =>
            simp only
            split
            · exact ⟨rfl, inside, by simp [waiting]⟩
            · have fits : (ivBuf ++ arrived.take (CryptoStream.chunkSize extra
                  (IV_LEN - ivBuf.length) arrived)).length ≤ IV_LEN := by
                simp only [List.length_append, List.length_take, CryptoStream.chunkSize]
                omega
              have rest := inductionHypothesis
                (ivBuf ++ arrived.take (CryptoStream.chunkSize extra
                  (IV_LEN - ivBuf.length) arrived))
                (arrived.drop (CryptoStream.chunkSize extra (IV_LEN - ivBuf.length) arrived)) fits
              rw [List.append_assoc, List.take_append_drop] at rest
              exact rest
      · exact ⟨rfl, inside, by simp; omega⟩

/-- The bytes a read result hands to the caller. -/
def Poll.bytes : Poll (List UInt8) → List UInt8
  | .ready data => data
  | .pending => []
  | .error => []

/-- One inner read: some arrived bytes are decrypted and handed out, the others stay. -/
theorem readInto_spec (st : CryptoStream) (dec : Cfb) (cap : Nat) (arrived : List UInt8)
    (answers : List InnerRead) :
    ∃ taken, arrived = taken ++ (st.readInto dec cap arrived answers).2.2 ∧
      (st.readInto dec cap arrived answers).2.1.dec = some (dec.apply taken).1 ∧
      (st.readInto dec cap arrived answers).1.bytes = (dec.apply taken).2 ∧
      (st.readInto dec cap arrived answers).2.1.key = st.key := by
  unfold CryptoStream.readInto
  cases answers with
  | nil => exact ⟨[], rfl, rfl, rfl, rfl⟩
  | cons answer answers =>
      cases answer with
      | pending => exact ⟨[], rfl, rfl, rfl, rfl⟩
      | eof => exact ⟨[], rfl, rfl, rfl, rfl⟩
      | error => exact ⟨[], rfl, rfl, rfl, rfl⟩
      | chunk extra =>
          simp only
          split
          · exact ⟨[], rfl, rfl, rfl, rfl⟩
          · exact ⟨arrived.take (CryptoStream.chunkSize extra cap arrived),
              (List.take_append_drop _ _).symm, rfl, rfl, rfl⟩

section Reader

variable (aes : Aes) (key : IvBlock)

/-- Where the reader is: still collecting the IV, or decrypting what followed it. -/
inductive ReaderAt (link : CryptoLink) : Prop where
  | inIv (noCipher : link.reader.dec = none) (missing : link.reader.ivBuf.length < IV_LEN)
      (wireEq : link.wire = link.reader.ivBuf ++ link.net) (nothing : link.handed = [])
  | open (peerIv taken : List UInt8) (complete : peerIv.length = IV_LEN)
      (wireEq : link.wire = peerIv ++ taken ++ link.net)
      (cipher : link.reader.dec =
        some ((Cfb.new aes key (Block.ofList IV_LEN peerIv) true).apply taken).1)
      (handedEq : link.handed =
        ((Cfb.new aes key (Block.ofList IV_LEN peerIv) true).apply taken).2)

structure ReaderInvariant (link : CryptoLink) : Prop where
  keyEq : link.reader.key = key
  place : ReaderAt aes key link

theorem afterRead_handed (link : CryptoLink)
    (polled : Poll (List UInt8) × CryptoStream × List UInt8) :
    (link.afterRead polled).handed = link.handed ++ polled.1.bytes := by
  cases result : polled.1 <;> simp [CryptoLink.afterRead, Poll.bytes, result]

/-- Reading on with a cipher extends what was taken and what was handed out together. -/
theorem ReaderInvariant.readOn {link : CryptoLink} {st : CryptoStream} {dec : Cfb}
    {peerIv arrived : List UInt8} (taken : List UInt8) (cap : Nat) (answers : List InnerRead)
    (keyEq : st.key = key) (complete : peerIv.length = IV_LEN)
    (wireEq : link.wire = peerIv ++ taken ++ arrived)
    (cipher : dec = ((Cfb.new aes key (Block.ofList IV_LEN peerIv) true).apply taken).1)
    (handedEq : link.handed =
      ((Cfb.new aes key (Block.ofList IV_LEN peerIv) true).apply taken).2) :
    ReaderInvariant aes key (link.afterRead (st.readInto dec cap arrived answers)) := by
  rcases readInto_spec st dec cap arrived answers with
    ⟨more, arrivedEq, decEq, bytesEq, sameKey⟩
  refine ⟨sameKey.trans keyEq, .open peerIv (taken ++ more) complete ?_ ?_ ?_⟩
  · rw [show (link.afterRead (st.readInto dec cap arrived answers)).wire = link.wire from rfl,
      wireEq]
    conv_lhs => rw [arrivedEq]
    simp [CryptoLink.afterRead]
  · rw [Cfb.apply_append, ← cipher]
    exact decEq
  · rw [afterRead_handed, bytesEq, Cfb.apply_append, ← cipher, handedEq]

/-- A read poll keeps the reader's invariant. -/
theorem ReaderInvariant.read {link : CryptoLink} (invariant : ReaderInvariant aes key link)
    (cap : Nat) (answers : List InnerRead) :
    ReaderInvariant aes key (link.step aes (.read cap answers)) := by
  unfold CryptoLink.step CryptoStream.pollRead
  cases invariant.place with
  | «open» peerIv taken complete wireEq cipher handedEq =>
      simp only [cipher]
      exact ReaderInvariant.readOn aes key taken cap answers invariant.keyEq complete wireEq rfl
        handedEq
  | inIv noCipher missing wireEq nothing =>
      rcases fillIv_spec link.reader.ivBuf link.net answers (Nat.le_of_lt missing) with
        ⟨moved, within, finished⟩
      rw [← moved] at wireEq
      simp only [noCipher]
      cases stop : (CryptoStream.fillIv link.reader.ivBuf link.net answers).1 with
      | finished =>
          refine ReaderInvariant.readOn aes key [] cap _ invariant.keyEq (finished.mp stop)
            ?_ ?_ ?_
          · rw [wireEq, List.append_nil]
          · rw [invariant.keyEq]
            rfl
          · rw [nothing]
            rfl
      | pending =>
          have short : ¬ (CryptoStream.fillIv link.reader.ivBuf link.net answers).2.1.length =
              IV_LEN := fun full => by simp [finished.mpr full] at stop
          exact ⟨invariant.keyEq, .inIv rfl (Nat.lt_of_le_of_ne within short) wireEq nothing⟩
      | error =>
          have short : ¬ (CryptoStream.fillIv link.reader.ivBuf link.net answers).2.1.length =
              IV_LEN := fun full => by simp [finished.mpr full] at stop
          exact ⟨invariant.keyEq, .inIv rfl (Nat.lt_of_le_of_ne within short) wireEq nothing⟩

/-- A write poll only appends to what is under way to the reader. -/
theorem ReaderInvariant.write {link : CryptoLink} (invariant : ReaderInvariant aes key link)
    (answers : List InnerWrite) :
    ReaderInvariant aes key (link.step aes (.write answers)) := by
  unfold CryptoLink.step
  cases link.todo with
  | nil => exact invariant
  | cons buf rest =>
      refine ⟨invariant.keyEq, ?_⟩
      cases invariant.place with
      | inIv noCipher missing wireEq nothing =>
          refine .inIv noCipher missing ?_ nothing
          simp [CryptoLink.afterWrite, wireEq]
      | «open» peerIv taken complete wireEq cipher handedEq =>
          refine .open peerIv taken complete ?_ cipher handedEq
          simp [CryptoLink.afterWrite, wireEq]

end Reader

/-! ## Both ends -/

/-- Decrypting a beginning of the ciphertext gives the same beginning of the plaintext. -/
theorem unsealed_take {aes : Aes} {key iv : IvBlock} {taken plain : List UInt8}
    (beginning : taken <+: sealed aes key iv plain) :
    ((Cfb.new aes key iv true).apply taken).2 = plain.take taken.length := by
  have cut : taken = sealed aes key iv (plain.take taken.length) := by
    rw [sealed_take]
    exact List.prefix_iff_eq_take.mp beginning
  have undone := Cfb.decrypt_encrypt (s := sealing aes key iv) rfl (plain.take taken.length)
  rw [show ((sealing aes key iv).apply (plain.take taken.length)).2 = taken from cut.symm]
    at undone
  have flipped : (sealing aes key iv).flipped true = Cfb.new aes key iv true := rfl
  rw [flipped] at undone
  rw [undone]

/-- The reader's IV is the writer's, and what it decrypted is a beginning of what was written. -/
theorem ReaderAt.handed_eq {aes : Aes} {key iv : IvBlock} {plain peerIv taken net : List UInt8}
    (complete : peerIv.length = IV_LEN)
    (onWire : peerIv ++ taken ++ net <+: iv.toList ++ sealed aes key iv plain) :
    peerIv = iv.toList ∧
      ((Cfb.new aes key (Block.ofList IV_LEN peerIv) true).apply taken).2 =
        plain.take taken.length := by
  rcases onWire with ⟨unsent, wireEq⟩
  rw [List.append_assoc, List.append_assoc] at wireEq
  rcases List.append_inj wireEq (by simpa using complete) with ⟨ivEq, restEq⟩
  refine ⟨ivEq, ?_⟩
  rw [ivEq, Block.ofList_toList]
  exact unsealed_take ⟨net ++ unsent, restEq⟩

/-- Both invariants hold along every run. -/
theorem crypto_link_invariants (aes : Aes) (deriveKey : List UInt8 → List UInt8 → IvBlock)
    (token salt : List UInt8) (iv readerIv : IvBlock) (bufs : List (List UInt8))
    (events : List LinkEvent) :
    WriterInvariant aes (deriveKey token salt) iv bufs
        ((CryptoLink.start deriveKey token salt iv readerIv bufs).run aes events) ∧
      ReaderInvariant aes (deriveKey token salt)
        ((CryptoLink.start deriveKey token salt iv readerIv bufs).run aes events) := by
  have always : ∀ (events : List LinkEvent) (link : CryptoLink),
      WriterInvariant aes (deriveKey token salt) iv bufs link →
      ReaderInvariant aes (deriveKey token salt) link →
      WriterInvariant aes (deriveKey token salt) iv bufs (link.run aes events) ∧
        ReaderInvariant aes (deriveKey token salt) (link.run aes events) := by
    intro events
    induction events with
    | nil => exact fun link writer reader => ⟨writer, reader⟩
    | cons event events inductionHypothesis =>
        intro link writer reader
        cases event with
        | write answers =>
            exact inductionHypothesis _ (writer.write aes _ iv answers) (reader.write aes _ answers)
        | read cap answers =>
            exact inductionHypothesis _ (writer.read aes _ iv cap answers)
              (reader.read aes _ cap answers)
  apply always
  · exact ⟨rfl, rfl, rfl, fun report member => absurd member (List.not_mem_nil),
      .inIv rfl rfl rfl (Nat.zero_le _) (by simp [CryptoLink.start, CryptoStream.withSalt])⟩
  · exact ⟨rfl, .inIv rfl (Nat.zero_lt_succ _) rfl rfl⟩

/-- What the reader has handed out is a beginning of what was offered to the writer, and all of it
once nothing is left to write or to deliver. -/
theorem crypto_link_handed (aes : Aes) (deriveKey : List UInt8 → List UInt8 → IvBlock)
    (token salt : List UInt8) (iv readerIv : IvBlock) (bufs : List (List UInt8))
    (events : List LinkEvent) :
    let link := (CryptoLink.start deriveKey token salt iv readerIv bufs).run aes events
    link.handed <+: bufs.flatten ∧
      (link.todo = [] → link.net = [] → link.handed = bufs.flatten) := by
  intro link
  rcases crypto_link_invariants aes deriveKey token salt iv readerIv bufs events with
    ⟨writer, reader⟩
  change WriterInvariant aes _ iv bufs link at writer
  have wire := writer.wire_eq
  cases reader.place with
  | inIv noCipher missing wireEq nothing =>
      change link.handed = [] at nothing
      rw [nothing]
      refine ⟨List.nil_prefix, fun finished delivered => ?_⟩
      by_cases none : bufs = []
      · rw [none, List.flatten_nil]
      · change link.wire = link.reader.ivBuf ++ link.net at wireEq
        change link.reader.ivBuf.length < IV_LEN at missing
        have whole := congrArg List.length (wire.2 finished none)
        rw [wireEq, delivered, List.append_nil, List.length_append, Vector.length_toList] at whole
        omega
  | «open» peerIv taken complete wireEq cipher handedEq =>
      change link.wire = peerIv ++ taken ++ link.net at wireEq
      change link.handed = _ at handedEq
      rcases ReaderAt.handed_eq complete (wireEq ▸ wire.1) with ⟨ivEq, opened⟩
      rw [handedEq, opened]
      refine ⟨List.take_prefix .., fun finished delivered => ?_⟩
      by_cases none : bufs = []
      · rw [none, List.flatten_nil, List.take_nil]
      · have whole := wire.2 finished none
        rw [wireEq, delivered, List.append_nil, ivEq] at whole
        rw [List.append_cancel_left whole, sealed_length, List.take_length]

/-- Two streams from one token and salt, any buffers, any transport behaviour. The wire carries
the IV and one continuous cipher-feedback encryption of the concatenated buffers; the buffers are
reported in order, each once and in full; the reader hands out a beginning of the concatenated
buffers, and all of them once everything is written and delivered. -/
theorem crypto_link_faithful (aes : Aes) (deriveKey : List UInt8 → List UInt8 → IvBlock)
    (token salt : List UInt8) (iv readerIv : IvBlock) (bufs : List (List UInt8))
    (events : List LinkEvent) :
    let link := (CryptoLink.start deriveKey token salt iv readerIv bufs).run aes events
    let cipher := iv.toList ++ cfbEncrypt (aes (deriveKey token salt)) iv bufs.flatten
    (link.wire <+: cipher ∧ (link.todo = [] → bufs ≠ [] → link.wire = cipher)) ∧
    (bufs = link.reported.map Prod.fst ++ link.todo ∧
      ∀ report ∈ link.reported, report.2 = report.1.length) ∧
    (link.handed <+: bufs.flatten ∧
      (link.todo = [] → link.net = [] → link.handed = bufs.flatten)) := by
  intro link cipher
  have writer := (crypto_link_invariants aes deriveKey token salt iv readerIv bufs events).1
  change WriterInvariant aes _ iv bufs link at writer
  have wire := writer.wire_eq
  have textbook : sealed aes (deriveKey token salt) iv bufs.flatten =
      cfbEncrypt (aes (deriveKey token salt)) iv bufs.flatten :=
    Cfb.apply_new_eq_cfbEncrypt aes (deriveKey token salt) iv bufs.flatten
  refine ⟨?_, ⟨writer.inOrder, writer.fully⟩, ?_⟩
  · simp only [cipher, ← textbook]
    exact wire
  · exact crypto_link_handed aes deriveKey token salt iv readerIv bufs events

/-- A run in which the IV leaves in two parts and arrives in two parts, an empty buffer is
offered, and the ciphertext of the other one is retained over a `Pending`: all of it arrives. -/
theorem crypto_link_split_delivery :
    let bufs : List (List UInt8) := [[], [7, 8, 9]]
    let link := (CryptoLink.start (fun token _ => Block.ofList 16 token) [5] [] (.replicate 16 1)
        (.replicate 16 2) bufs).run (fun key block => key.zipWith (· + ·) block)
      [.write [.accept 4, .pending], .read 8 [.chunk 2], .write [.accept 20],
        .write [.accept 0, .pending], .read 8 [.chunk 20, .chunk 9], .write [.accept 9],
        .read 8 [.chunk 9]]
    link.todo = [] ∧ link.net = [] ∧ link.handed = bufs.flatten := by
  intro bufs link
  have finished : link.todo = [] := by decide
  have delivered : link.net = [] := by decide
  exact ⟨finished, delivered, (crypto_link_faithful _ _ _ _ _ _ _ _).2.2.2 finished delivered⟩

end Remgr.Frps
