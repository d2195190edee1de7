/-
Module: Remgr.Proofs.TurnTeardown
Purpose: A connection of TURN over TLS whose reading fails is ended and leaves the map of live servers,
  unless it fails with an I/O error inside the body of a frame.
Trusted boundary: Remgr.Turn.Serve
Main exports: BreaksInBody, Notifies, notifies_iff, Ends, recv_failure_ends, body_failure_strands
-/
import Remgr.Proofs.TurnFraming
import Remgr.Turn.Serve

namespace Remgr.Turn

open Lib

/-- The stream fails inside the body of a frame that fits the buffer. -/
def BreaksInBody (src : Source UInt8) (buf : List UInt8) : Prop :=
  match frameLen (src.bytes.take 4) with
  | some (total, _) => 4 ≤ src.bytes.length ∧ src.bytes.length < total ∧ total ≤ buf.length ∧
      src.ending = .failed
  | none => False

instance (src : Source UInt8) (buf : List UInt8) : Decidable (BreaksInBody src buf) := by
  unfold BreaksInBody
  split <;> infer_instance

/-- When `recv_from` returns an error, it has notified `closed`. -/
def Notifies (src : Source UInt8) (buf : List UInt8) : Prop :=
  ∀ e, (recvFrom ⟨src, false⟩ buf).1 = .error e → (recvFrom ⟨src, false⟩ buf).2.closed = true

/-! ## One read -/

theorem le_frameLen {head : List UInt8} {total : Nat} {isChannel : Bool}
    (size : frameLen head = some (total, isChannel)) : 4 ≤ total := by
  unfold frameLen at size
  dsimp only at size
  split at size
  · cases size
    omega
  · split at size
    · cases size
      omega
    · cases size

/-- The loop over the body when the stream ends before the body does. -/
theorem fill_short (fuel : Nat) {conn : TlsTurnConn} (buf : List UInt8) {filled total : Nat}
    (short : filled + conn.read.bytes.length < total) (enough : conn.read.bytes.length < fuel) :
    (conn.read.ending = .failed ∧ ∃ conn', fill fuel conn buf filled total =
        (.error (.io .failed), conn') ∧ conn'.closed = conn.closed) ∨
      (conn.read.ending = .eof ∧ ∃ conn', fill fuel conn buf filled total =
        (.error .closed, conn') ∧ conn'.closed = true) := by
  induction fuel generalizing conn buf filled with
  | zero => cases enough
  | succ fuel inductionHypothesis =>
      rw [fill, if_pos (by omega)]
      by_cases more : conn.read.bytes = []
      · rw [Source.read_of_empty more]
        cases ending : conn.read.ending with
        | failed => exact .inl ⟨rfl, conn, rfl, rfl⟩
        | eof => exact .inr ⟨rfl, _, rfl, rfl⟩
      · obtain ⟨got, rest, read, whole, filledGot, -⟩ :=
          Source.read_of_filled (total - filled) (by omega) more
        have size := congrArg List.length whole
        have positive := List.length_pos_iff.mpr filledGot
        rw [List.length_append] at size
        have onward := @inductionHypothesis { conn with read := rest }
          (buf.take filled ++ got ++ buf.drop (filled + got.length)) (filled + got.length)
          (by dsimp only; omega) (by dsimp only; omega)
        rw [read]
        cases got with
        | nil => exact absurd rfl filledGot
        | cons b got =>
            rw [← Source.read_ending read]
            exact onward

/-- What a failing `recv_from` tells the task. -/
theorem recvFrom_spec (conn : TlsTurnConn) (buf : List UInt8) :
    (BreaksInBody conn.read buf → (recvFrom conn buf).1 = .error (.io .failed) ∧
        (recvFrom conn buf).2.closed = conn.closed) ∧
      (¬ BreaksInBody conn.read buf → ∀ e, (recvFrom conn buf).1 = .error e →
        (recvFrom conn buf).2.closed = true) := by
  unfold BreaksInBody recvFrom
  by_cases long : 4 ≤ conn.read.bytes.length
  · have parts : conn.read.bytes = conn.read.bytes.take 4 ++ conn.read.bytes.drop 4 :=
      (List.take_append_drop ..).symm
    have size : (conn.read.bytes.take 4).length = 4 := List.length_take_of_le long
    obtain ⟨rest, readHead, bytes, ending⟩ := Source.readExact_of_append parts
    rw [size] at readHead
    rw [readHead]
    dsimp only
    cases frame : frameLen (conn.read.bytes.take 4) with
    | none => exact ⟨False.elim, fun _ _ _ => rfl⟩
    | some shape =>
        obtain ⟨total, isChannel⟩ := shape
        have least := le_frameLen frame
        dsimp only
        by_cases small : buf.length < total
        · rw [if_pos small]
          exact ⟨fun breaks => absurd small (Nat.not_lt.mpr breaks.2.2.1), fun _ _ _ => rfl⟩
        · rw [if_neg small]
          have left : rest.bytes.length = conn.read.bytes.length - 4 := by
            rw [bytes, List.length_drop]
          by_cases short : conn.read.bytes.length < total
          · rcases @fill_short (total - 4) { conn with read := rest }
                (conn.read.bytes.take 4 ++ buf.drop 4) 4 total (by dsimp only; omega)
                (by dsimp only; omega) with
              ⟨failed, conn', filled, closed⟩ | ⟨eof, conn', filled, closed⟩
            · rw [filled]
              refine ⟨fun _ => ⟨rfl, closed⟩, fun whole => absurd ⟨long, short, ?_, ?_⟩ whole⟩
              · exact Nat.not_lt.mp small
              · exact ending.symm.trans failed
            · rw [filled]
              refine ⟨?_, fun _ _ _ => closed⟩
              rintro ⟨-, -, -, failed⟩
              cases (ending.trans failed).symm.trans eof
          · have body : rest.bytes = (rest.bytes.take (total - 4)) ++ rest.bytes.drop (total - 4) :=
              (List.take_append_drop ..).symm
            have bodySize : (rest.bytes.take (total - 4)).length = total - 4 :=
              List.length_take_of_le (by omega)
            have room : (conn.read.bytes.take 4 ++ buf.drop 4).length = buf.length := by
              rw [List.length_append, size, List.length_drop]
              omega
            obtain ⟨conn', filled, -, -⟩ := @fill_eq (total - 4) { conn with read := rest } _ _
              (conn.read.bytes.take 4 ++ buf.drop 4) 4 body (Nat.le_of_eq bodySize)
              (by rw [bodySize, room]; omega)
            have all : 4 + (total - 4) = total := by omega
            rw [bodySize, all] at filled
            rw [filled]
            refine ⟨fun breaks => absurd breaks.2.1 short, ?_⟩
            intro _ e failed
            cases failed
  · rw [Source.readExact_of_short (Nat.not_le.mp long)]
    refine ⟨?_, fun _ _ _ => rfl⟩
    intro breaks
    split at breaks
    · exact absurd breaks.1 long
    · cases breaks

/-- Nothing takes a notification back but the task. -/
theorem recvFrom_closed (conn : TlsTurnConn) (buf : List UInt8) (closed : conn.closed = true) :
    (recvFrom conn buf).2.closed = true := by
  have through : ∀ (fuel : Nat) (conn : TlsTurnConn) (buf : List UInt8) (filled total : Nat),
      conn.closed = true → (fill fuel conn buf filled total).2.closed = true := by
    intro fuel
    induction fuel with
    | zero => exact fun _ _ _ _ closed => closed
    | succ fuel inductionHypothesis =>
        intro conn buf filled total closed
        rw [fill]
        split
        · split
          · exact closed
          · rfl
          · exact inductionHypothesis _ _ _ _ closed
        · exact closed
  unfold recvFrom
  split
  · rfl
  · split
    · rfl
    · split
      · rfl
      · next head rest _ _ total isChannel _ _ =>
          have after :=
            through (total - 4) { conn with read := rest } (head ++ buf.drop 4) 4 total closed
          split
          · next filled =>
              rw [filled] at after
              exact after
          · next filled =>
              rw [filled] at after
              exact after

/-- `recv_from` tells the task of every error, exactly when the stream does not fail inside a body. -/
theorem notifies_iff (src : Source UInt8) (buf : List UInt8) :
    Notifies src buf ↔ ¬ BreaksInBody src buf := by
  obtain ⟨breaking, whole⟩ := recvFrom_spec ⟨src, false⟩ buf
  constructor
  · intro notifies breaks
    obtain ⟨failed, silent⟩ := breaking breaks
    cases silent.symm.trans (notifies _ failed)
  · exact fun fits => whole fits

/-! ## The tasks -/

/-- How many steps a task has before it. -/
def Phase.left : Phase → Nat
  | .accepting => 6
  | .starting => 5
  | .inserting => 4
  | .waiting => 3
  | .closing => 2
  | .removing => 1
  | .done => 0

/-- The steps of the task that serves a connection. -/
def own (id : Nat) : ServeStep → Bool
  | .handshake i _ | .start i _ | .insert i | .notified i | .cancelled i | .closeServer i
  | .remove i => i == id
  | _ => false

/-- The task ends the connection, whatever happens meanwhile: it is not held up, each of its steps
brings it nearer to its end, and at the end the connection is out of the map. -/
structure Ends (s : TlsTurn) (id : Nat) (c : Served) : Prop where
  removed : c.phase = .done → id ∉ s.map
  moves : c.phase ≠ .done → ∃ move s', own id move = true ∧ serveStep s move = some s'
  nearer : ∀ move s', serveStep s move = some s' → ∃ c', s'.conns id = some c' ∧
    if own id move then c'.phase.left < c.phase.left else c'.phase = c.phase

/-- No read of the TURN server breaks inside a body. -/
def Unbroken (s : TlsTurn) : ServeStep → Prop
  | .recv id buf => ∀ c ∈ s.conns id, ¬ BreaksInBody c.conn.read buf
  | _ => True

/-- A connection is read only after its server has started, and its task knows of the failure as long
as it needs to. -/
structure Told (c : Served) : Prop where
  started : c.reading = true ∨ c.failed.isSome = true → c.phase.left ≤ 4
  told : c.failed.isSome = true → 3 ≤ c.phase.left → c.conn.closed = true

/-- The map holds the connections that its task has put there and not yet taken out. -/
def Served.listed (c : Served) : Prop := 1 ≤ c.phase.left ∧ c.phase.left ≤ 3

structure Tracked (s : TlsTurn) : Prop where
  fresh : ∀ id, s.nextId ≤ id → s.conns id = none
  listed : ∀ id ∈ s.map, ∃ c, s.conns id = some c ∧ c.listed
  told : ∀ id c, s.conns id = some c → Told c

/-- A task that goes on keeps what it was told. -/
theorem Told.onward {c : Served} {phase : Phase} (told : Told c) (later : phase.left ≤ c.phase.left) :
    Told { c with phase := phase } where
  started reads := Nat.le_trans later (told.started reads)
  told failed waits := told.told failed (Nat.le_trans waits later)

theorem Told.settled {c : Served} (late : c.phase.left ≤ 2) : Told c where
  started _ := Nat.le_trans late (by decide)
  told _ waits := absurd (Nat.le_trans waits late) (by decide)

theorem during_eq_some {s : TlsTurn} {id : Nat} {phase : Phase} {c : Served} :
    s.during id phase = some c ↔ s.conns id = some c ∧ c.phase = phase := by
  rw [TlsTurn.during, Option.filter_eq_some_iff, decide_eq_true_iff]

theorem conns_put_self (s : TlsTurn) (id : Nat) (c : Served) : (s.put id c).conns id = some c :=
  Function.update_self ..

theorem conns_put_of_ne (s : TlsTurn) {id i : Nat} (c : Served) (other : i ≠ id) :
    (s.put id c).conns i = s.conns i :=
  Function.update_of_ne other ..

variable {s s' : TlsTurn} {id : Nat} {c c' : Served} {move : ServeStep}

/-- One connection changes, and the map with it. -/
theorem Tracked.put (tracked : Tracked s) (there : s.conns id = some c) (told : Told c')
    {map : List Nat} (listed : ∀ i ∈ map, i ≠ id ∧ i ∈ s.map ∨ i = id ∧ c'.listed) :
    Tracked { s.put id c' with map := map } where
  fresh i unused := by
    have other : i ≠ id := by
      rintro rfl
      cases there.symm.trans (tracked.fresh _ unused)
    exact (conns_put_of_ne s c' other).trans (tracked.fresh i unused)
  listed i inside := by
    rcases listed i inside with ⟨other, before⟩ | ⟨rfl, here⟩
    · obtain ⟨d, found, isListed⟩ := tracked.listed i before
      exact ⟨d, (conns_put_of_ne s c' other).trans found, isListed⟩
    · exact ⟨c', conns_put_self .., here⟩
  told i d found := by
    by_cases same : i = id
    · subst same
      cases (conns_put_self s i c').symm.trans found
      exact told
    · exact tracked.told i d ((conns_put_of_ne s c' same).symm.trans found)

/-- One connection changes, and stays in the map if it is there. -/
theorem Tracked.put_listed (tracked : Tracked s) (there : s.conns id = some c) (told : Told c')
    (stays : c.listed → c'.listed) : Tracked (s.put id c') := by
  refine tracked.put there told fun i inside => ?_
  by_cases same : i = id
  · subst same
    obtain ⟨d, found, isListed⟩ := tracked.listed i inside
    cases there.symm.trans found
    exact .inr ⟨rfl, stays isListed⟩
  · exact .inl ⟨same, inside⟩

theorem Tracked.step (tracked : Tracked s) (unbroken : Unbroken s move)
    (moved : serveStep s move = some s') : Tracked s' := by
  cases move with
  | cancel =>
      cases moved
      exact ⟨tracked.fresh, tracked.listed, tracked.told⟩
  | accept read =>
      obtain ⟨-, same⟩ := Option.ite_none_right_eq_some.mp moved
      cases same
      have unused := tracked.fresh s.nextId (Nat.le_refl _)
      refine ⟨?_, ?_, ?_⟩
      · intro i above
        have other : i ≠ s.nextId := Nat.ne_of_gt above
        exact (conns_put_of_ne s _ other).trans (tracked.fresh i (Nat.le_of_lt above))
      · intro i inside
        obtain ⟨c, found, isListed⟩ := tracked.listed i inside
        have other : i ≠ s.nextId := by
          rintro rfl
          cases unused.symm.trans found
        exact ⟨c, (conns_put_of_ne s _ other).trans found, isListed⟩
      · intro i c found
        by_cases same : i = s.nextId
        · subst same
          cases (conns_put_self s _ _).symm.trans found
          exact ⟨by simp, by simp⟩
        · exact tracked.told i c ((conns_put_of_ne s _ same).symm.trans found)
  | drain =>
      obtain ⟨-, same⟩ := Option.ite_none_right_eq_some.mp moved
      cases same
      refine ⟨?_, nofun, ?_⟩
      · intro i unused
        dsimp only
        rw [tracked.fresh i unused]
        rfl
      · intro i c found
        obtain ⟨d, before, rfl⟩ := Option.map_eq_some_iff.mp found
        have told := tracked.told i d before
        split
        · exact ⟨fun failed => told.started (.inr (failed.resolve_left Bool.false_ne_true)), told.told⟩
        · exact told
  | handshake id ok =>
      obtain ⟨c, here, same⟩ := Option.bind_eq_some_iff.mp moved
      cases same
      obtain ⟨there, phase⟩ := during_eq_some.mp here
      refine tracked.put_listed there ((tracked.told id c there).onward ?_) fun isListed => ?_
      · rw [phase]
        cases ok <;> decide
      · rw [Served.listed, phase] at isListed
        exact absurd isListed (by decide)
  | start id ok =>
      obtain ⟨c, here, same⟩ := Option.bind_eq_some_iff.mp moved
      cases same
      obtain ⟨there, phase⟩ := during_eq_some.mp here
      have fine : ¬ c.failed.isSome = true := by
        intro failed
        have started := (tracked.told id c there).started (.inr failed)
        rw [phase] at started
        exact absurd started (by decide)
      refine tracked.put_listed there ⟨fun _ => ?_, fun failed => absurd failed fine⟩ fun isListed => ?_
      · cases ok <;> simp [Phase.left]
      · rw [Served.listed, phase] at isListed
        exact absurd isListed (by decide)
  | insert id =>
      obtain ⟨c, here, same⟩ := Option.bind_eq_some_iff.mp moved
      cases same
      obtain ⟨there, phase⟩ := during_eq_some.mp here
      refine tracked.put there ((tracked.told id c there).onward ?_) fun i inside => ?_
      · rw [phase]
        decide
      · by_cases same : i = id
        · exact .inr ⟨same, by simp [Served.listed, Phase.left]⟩
        · exact .inl ⟨same, (List.mem_cons.mp inside).resolve_left same⟩
  | notified id =>
      obtain ⟨c, here, same⟩ := Option.bind_eq_some_iff.mp moved
      obtain ⟨-, same⟩ := Option.ite_none_right_eq_some.mp same
      cases same
      obtain ⟨there, phase⟩ := during_eq_some.mp here
      refine tracked.put_listed there (.settled (by simp [Phase.left])) ?_
      exact fun _ => by simp [Served.listed, Phase.left]
  | cancelled id =>
      obtain ⟨c, here, same⟩ := Option.bind_eq_some_iff.mp moved
      obtain ⟨-, same⟩ := Option.ite_none_right_eq_some.mp same
      cases same
      obtain ⟨there, phase⟩ := during_eq_some.mp here
      refine tracked.put_listed there ((tracked.told id c there).onward ?_) ?_
      · rw [phase]
        decide
      · exact fun _ => by simp [Served.listed, Phase.left]
  | closeServer id =>
      obtain ⟨c, here, same⟩ := Option.bind_eq_some_iff.mp moved
      cases same
      obtain ⟨there, phase⟩ := during_eq_some.mp here
      refine tracked.put_listed there (.settled (by simp [Phase.left])) ?_
      exact fun _ => by simp [Served.listed, Phase.left]
  | remove id =>
      obtain ⟨c, here, same⟩ := Option.bind_eq_some_iff.mp moved
      cases same
      obtain ⟨there, phase⟩ := during_eq_some.mp here
      refine tracked.put there ((tracked.told id c there).onward (Nat.zero_le _)) fun i inside => ?_
      obtain ⟨before, other⟩ := List.mem_filter.mp inside
      exact .inl ⟨of_decide_eq_true other, before⟩
  | recv id buf =>
      obtain ⟨c, there, same⟩ := Option.bind_eq_some_iff.mp moved
      obtain ⟨reads, same⟩ := Option.ite_none_right_eq_some.mp same
      have told := tracked.told id c there
      have whole := (recvFrom_spec c.conn buf).2 (unbroken c there)
      have kept := recvFrom_closed c.conn buf
      split at same
      · next conn received =>
          cases same
          rw [received] at kept
          refine tracked.put_listed there ⟨told.started, fun failed waits => ?_⟩
            fun isListed => isListed
          exact kept (told.told failed waits)
      · next e conn received =>
          cases same
          rw [received] at whole
          refine tracked.put_listed there ⟨fun _ => told.started (.inl reads), ?_⟩
            fun isListed => isListed
          exact fun _ _ => whole e rfl
  | close id =>
      obtain ⟨c, there, same⟩ := Option.bind_eq_some_iff.mp moved
      obtain ⟨-, same⟩ := Option.ite_none_left_eq_some.mp same
      cases same
      have told := tracked.told id c there
      exact tracked.put_listed there ⟨told.started, fun _ _ => rfl⟩ fun isListed => isListed

theorem reaches_tracked (run : tlsTurn.Reaches Unbroken s) : Tracked s := by
  refine run.invariant (P := Tracked) ?_ fun _ tracked unbroken moved => tracked.step unbroken moved
  rintro s rfl
  exact ⟨fun _ _ => rfl, nofun, nofun⟩

/-! ## The way of a task -/

/-- A task's own step on one connection leaves the others alone. -/
theorem phase_of_own {i : Nat} {d d' : Served} (there : s.conns id = some c)
    (here : s.conns i = some d) (isOwn : own id move = (i == id))
    (less : d'.phase.left < d.phase.left) :
    ∃ c', (s.put i d').conns id = some c' ∧
      if own id move then c'.phase.left < c.phase.left else c'.phase = c.phase := by
  by_cases same : i = id
  · subst same
    cases here.symm.trans there
    rw [isOwn, beq_self_eq_true]
    exact ⟨d', conns_put_self .., less⟩
  · rw [isOwn, beq_false_of_ne same]
    exact ⟨c, (conns_put_of_ne s d' (Ne.symm same)).trans there, rfl⟩

/-- What is not the task's own step does not move it. -/
theorem phase_of_other {i : Nat} {d d' : Served} (there : s.conns id = some c)
    (here : s.conns i = some d) (other : own id move = false) (same : d'.phase = d.phase) :
    ∃ c', (s.put i d').conns id = some c' ∧
      if own id move then c'.phase.left < c.phase.left else c'.phase = c.phase := by
  rw [other]
  by_cases isIt : i = id
  · subst isIt
    cases here.symm.trans there
    exact ⟨d', conns_put_self .., same⟩
  · exact ⟨c, (conns_put_of_ne s d' (Ne.symm isIt)).trans there, rfl⟩

theorem step_nearer (tracked : Tracked s) (there : s.conns id = some c)
    (moved : serveStep s move = some s') :
    ∃ c', s'.conns id = some c' ∧
      if own id move then c'.phase.left < c.phase.left else c'.phase = c.phase := by
  cases move with
  | cancel =>
      cases moved
      exact ⟨c, there, rfl⟩
  | accept read =>
      obtain ⟨-, same⟩ := Option.ite_none_right_eq_some.mp moved
      cases same
      have other : id ≠ s.nextId := by
        rintro rfl
        cases (tracked.fresh s.nextId (Nat.le_refl _)).symm.trans there
      exact ⟨c, (conns_put_of_ne s _ other).trans there, rfl⟩
  | drain =>
      obtain ⟨-, same⟩ := Option.ite_none_right_eq_some.mp moved
      cases same
      refine ⟨if id ∈ s.map then { c with reading := false } else c, by simp [there], ?_⟩
      change (if id ∈ s.map then { c with reading := false } else c).phase = c.phase
      split <;> rfl
  | handshake i ok =>
      obtain ⟨d, here, same⟩ := Option.bind_eq_some_iff.mp moved
      cases same
      obtain ⟨here, phase⟩ := during_eq_some.mp here
      refine phase_of_own there here rfl ?_
      rw [phase]
      cases ok <;> simp [Phase.left]
  | start i ok =>
      obtain ⟨d, here, same⟩ := Option.bind_eq_some_iff.mp moved
      cases same
      obtain ⟨here, phase⟩ := during_eq_some.mp here
      refine phase_of_own there here rfl ?_
      rw [phase]
      cases ok <;> simp [Phase.left]
  | insert i =>
      obtain ⟨d, here, same⟩ := Option.bind_eq_some_iff.mp moved
      cases same
      obtain ⟨here, phase⟩ := during_eq_some.mp here
      refine phase_of_own there here rfl ?_
      simp [phase, Phase.left]
  | notified i =>
      obtain ⟨d, here, same⟩ := Option.bind_eq_some_iff.mp moved
      obtain ⟨-, same⟩ := Option.ite_none_right_eq_some.mp same
      cases same
      obtain ⟨here, phase⟩ := during_eq_some.mp here
      refine phase_of_own there here rfl ?_
      simp [phase, Phase.left]
  | cancelled i =>
      obtain ⟨d, here, same⟩ := Option.bind_eq_some_iff.mp moved
      obtain ⟨-, same⟩ := Option.ite_none_right_eq_some.mp same
      cases same
      obtain ⟨here, phase⟩ := during_eq_some.mp here
      refine phase_of_own there here rfl ?_
      simp [phase, Phase.left]
  | closeServer i =>
      obtain ⟨d, here, same⟩ := Option.bind_eq_some_iff.mp moved
      cases same
      obtain ⟨here, phase⟩ := during_eq_some.mp here
      refine phase_of_own there here rfl ?_
      simp [phase, Phase.left]
  | remove i =>
      obtain ⟨d, here, same⟩ := Option.bind_eq_some_iff.mp moved
      cases same
      obtain ⟨here, phase⟩ := during_eq_some.mp here
      refine phase_of_own there here rfl ?_
      simp [phase, Phase.left]
  | recv i buf =>
      obtain ⟨d, here, same⟩ := Option.bind_eq_some_iff.mp moved
      obtain ⟨-, same⟩ := Option.ite_none_right_eq_some.mp same
      split at same <;> cases same <;> exact phase_of_other there here rfl rfl
  | close i =>
      obtain ⟨d, here, same⟩ := Option.bind_eq_some_iff.mp moved
      obtain ⟨-, same⟩ := Option.ite_none_left_eq_some.mp same
      cases same
      exact phase_of_other there here rfl rfl

/-- A task that was told is never held up. -/
theorem exists_own_step (there : s.conns id = some c)
    (told : c.phase = .waiting → c.conn.closed = true) (more : c.phase ≠ .done) :
    ∃ move s', own id move = true ∧ serveStep s move = some s' := by
  have self : (id == id) = true := beq_self_eq_true id
  have here : s.during id c.phase = some c := during_eq_some.mpr ⟨there, rfl⟩
  cases phase : c.phase with
  | accepting =>
      rw [phase] at here
      exact ⟨.handshake id true, _, self, by rw [serveStep, here]; rfl⟩
  | starting =>
      rw [phase] at here
      exact ⟨.start id true, _, self, by rw [serveStep, here]; rfl⟩
  | inserting =>
      rw [phase] at here
      exact ⟨.insert id, _, self, by rw [serveStep, here]; rfl⟩
  | waiting =>
      rw [phase] at here
      have taken : serveStep s (.notified id) =
          some (s.put id { c with phase := .closing, conn := { c.conn with closed := false } }) := by
        rw [serveStep, here]
        exact if_pos (told phase)
      exact ⟨.notified id, _, self, taken⟩
  | closing =>
      rw [phase] at here
      exact ⟨.closeServer id, _, self, by rw [serveStep, here]; rfl⟩
  | removing =>
      rw [phase] at here
      exact ⟨.remove id, _, self, by rw [serveStep, here]; rfl⟩
  | done => exact absurd phase more

/-- `recv_from` tells of its errors exactly where the stream does not fail inside a body; and in every
run without such a failure, whenever it has returned an error, the task ends the connection and takes
it out of the map. -/
theorem recv_failure_ends {s : TlsTurn} (run : tlsTurn.Reaches Unbroken s) :
    (∀ src buf, Notifies src buf ↔ ¬ BreaksInBody src buf) ∧
      ∀ id c, s.conns id = some c → c.failed.isSome = true → Ends s id c := by
  refine ⟨notifies_iff, fun id c there failed => ?_⟩
  have tracked := reaches_tracked run
  have told := tracked.told id c there
  refine ⟨?_, ?_, fun move s' moved => step_nearer tracked there moved⟩
  · intro ended inside
    obtain ⟨d, found, isListed⟩ := tracked.listed id inside
    cases there.symm.trans found
    rw [Served.listed, ended] at isListed
    exact absurd isListed (by decide)
  · refine exists_own_step there fun waiting => told.told failed ?_
    rw [waiting]
    decide

/-! ## Where it holds and where it does not -/

/-- The head of a STUN message of 20 bytes, and then the end. -/
def cutShort (ending : Ending) : Source UInt8 := ⟨[[0, 1, 0, 0]], ending⟩

/-- The first connection is served, and its only frame is cut short. -/
def cutRun (ending : Ending) : List ServeStep :=
  [.accept (cutShort ending), .handshake 0 true, .start 0 true, .insert 0,
    .recv 0 (List.replicate 1500 0)]

def start : TlsTurn := ⟨false, true, 0, [], fun _ => none⟩

instance (s : TlsTurn) (move : ServeStep) : Decidable (Unbroken s move) :=
  match move with
  | .recv id buf => inferInstanceAs (Decidable (∀ c ∈ s.conns id, ¬ BreaksInBody c.conn.read buf))
  | .cancel | .accept _ | .drain | .handshake .. | .start .. | .insert _ | .notified _ | .cancelled _
  | .closeServer _ | .remove _ | .close _ => inferInstanceAs (Decidable True)

def unbrokenStep (move : ServeStep) (s : TlsTurn) : Option TlsTurn :=
  if Unbroken s move then serveStep s move else none

/-- The stream ends inside a body: the connection is on its way out of the map. -/
theorem end_of_stream_ends : ∃ s c, tlsTurn.Reachable s ∧ s.conns 0 = some c ∧
    c.failed = some .closed ∧ 0 ∈ s.map ∧ Ends s 0 c := by
  have passed : (System.execute unbrokenStep (cutRun .eof) start).any (fun s =>
      ((s.conns 0).any fun c => c.failed == some .closed) && decide (0 ∈ s.map)) = true := by
    decide +kernel
  obtain ⟨s, run, checked⟩ := System.reaches_of_any
    (fun _ moved => Option.ite_none_right_eq_some.mp moved)
    (.start rfl : tlsTurn.Reaches Unbroken start) passed
  obtain ⟨found, inside⟩ := Bool.and_eq_true_iff.mp checked
  obtain ⟨c, there, failed⟩ := (Option.any_eq_true _ _).mp found
  have failed' : c.failed = some .closed := beq_iff_eq.mp failed
  refine ⟨s, c, run.reachable, there, failed', of_decide_eq_true inside, ?_⟩
  exact (recv_failure_ends run).2 0 c there (by rw [failed']; rfl)

/-- The stream fails inside a body: the task is not told, and waits with the connection in the map. -/
theorem body_failure_strands :
    (¬ ∀ src buf, Notifies src buf) ∧
      ∃ s c, tlsTurn.Reachable s ∧ s.conns 0 = some c ∧ c.failed = some (.io .failed) ∧ 0 ∈ s.map ∧
        ∀ move, own 0 move = true → serveStep s move = none := by
  constructor
  · intro notifies
    have silent : (recvFrom ⟨cutShort .failed, false⟩ (List.replicate 1500 0)).2.closed = false ∧
        (recvFrom ⟨cutShort .failed, false⟩ (List.replicate 1500 0)).1 = .error (.io .failed) := by
      decide +kernel
    cases silent.1.symm.trans (notifies _ _ _ silent.2)
  · have passed : (System.execute (fun move s => serveStep s move) (cutRun .failed) start).any (fun s =>
        ((s.conns 0).any fun c => c.failed == some (.io .failed) && c.phase == .waiting &&
          !c.conn.closed) && decide (0 ∈ s.map) && !s.cancelled) = true := by
      decide +kernel
    obtain ⟨s, run, checked⟩ := System.reaches_of_any (fun _ moved => ⟨trivial, moved⟩)
      (.start rfl : tlsTurn.Reachable start) passed
    simp only [Bool.and_eq_true, Bool.not_eq_true', decide_eq_true_eq, Option.any_eq_true,
      beq_iff_eq] at checked
    obtain ⟨⟨⟨c, there, ⟨failed, waiting⟩, silent⟩, inside⟩, goesOn⟩ := checked
    refine ⟨s, c, run, there, failed, inside, fun move isOwn => ?_⟩
    have elsewhere : ∀ phase, phase ≠ .waiting → s.during 0 phase = none := by
      intro phase other
      rw [TlsTurn.during, there]
      simp [waiting, Ne.symm other]
    have here : s.during 0 .waiting = some c := during_eq_some.mpr ⟨there, waiting⟩
    cases move with
    | cancel | accept _ | drain | recv _ _ | close _ => cases isOwn
    | handshake i ok | start i ok =>
        obtain rfl : i = 0 := beq_iff_eq.mp isOwn
        rw [serveStep, elsewhere _ (by decide)]
        rfl
    | insert i | closeServer i | remove i =>
        obtain rfl : i = 0 := beq_iff_eq.mp isOwn
        rw [serveStep, elsewhere _ (by decide)]
        rfl
    | notified i =>
        obtain rfl : i = 0 := beq_iff_eq.mp isOwn
        rw [serveStep, here]
        exact if_neg (by rw [silent]; exact Bool.false_ne_true)
    | cancelled i =>
        obtain rfl : i = 0 := beq_iff_eq.mp isOwn
        rw [serveStep, here]
        exact if_neg (by rw [goesOn]; exact Bool.false_ne_true)

end Remgr.Turn
