/-
Module: Remgr.Proofs.TurnShutdown
Purpose: The map of the TURN servers behind the TLS listener, in every order in which its tasks, its
  accept loop and its connections can go on: it is what the status counts, no server reads that
  nobody is going to close, and a stop empties it for good, also when a connection gets into the map
  after the accept loop has drained it.
Trusted boundary: as in `Remgr.Turn.Serve`
Main exports: Mapped, reachable_mapped, tls_map_exact, winds, Gone, tls_shutdown_completes
-/
import Mathlib.Algebra.Order.BigOperators.Group.Finset
import Remgr.Proofs.TurnTeardown

namespace Remgr.Turn

open Lib

/-! ## What the map holds -/

/-- The phases in which the server of a connection may read. -/
def Phase.serves : Phase → Bool
  | .inserting | .waiting | .closing => true
  | _ => false

/-- The tasks that are past their insertion and before their removal are in the map, unless the accept
loop has drained it and closed their servers. -/
structure Mapped (s : TlsTurn) : Prop where
  fresh : ∀ id, s.nextId ≤ id → s.conns id = none
  nodup : s.map.Nodup
  listed : ∀ id ∈ s.map, ∃ c, s.conns id = some c ∧ c.listed
  mapped : ∀ id c, s.conns id = some c → c.listed →
    id ∈ s.map ∨ s.listening = false ∧ c.reading = false
  reads : ∀ id c, s.conns id = some c → c.reading = true → c.phase.serves = true
  drained : s.listening = false → s.cancelled = true

variable {s s' : TlsTurn} {id : Nat} {c c' : Served} {move : ServeStep}

/-- One connection changes, and its place in the map with it. -/
theorem Mapped.put (mapped : Mapped s) (there : s.conns id = some c) {map : List Nat}
    (nodup : map.Nodup) (others : ∀ i, i ≠ id → (i ∈ map ↔ i ∈ s.map))
    (listed : id ∈ map → c'.listed)
    (isMapped : c'.listed → id ∈ map ∨ s.listening = false ∧ c'.reading = false)
    (reads : c'.reading = true → c'.phase.serves = true) :
    Mapped { s.put id c' with map := map } where
  fresh i unused := by
    have other : i ≠ id := by
      rintro rfl
      cases there.symm.trans (mapped.fresh i unused)
    exact (conns_put_of_ne s c' other).trans (mapped.fresh i unused)
  nodup := nodup
  listed i inside := by
    by_cases same : i = id
    · subst same
      exact ⟨c', conns_put_self .., listed inside⟩
    · obtain ⟨d, found, isListed⟩ := mapped.listed i ((others i same).mp inside)
      exact ⟨d, (conns_put_of_ne s c' same).trans found, isListed⟩
  mapped i d found isListed := by
    by_cases same : i = id
    · subst same
      cases (conns_put_self s i c').symm.trans found
      exact isMapped isListed
    · have before := (conns_put_of_ne s c' same).symm.trans found
      exact (mapped.mapped i d before isListed).imp_left (others i same).mpr
  reads i d found := by
    by_cases same : i = id
    · subst same
      cases (conns_put_self s i c').symm.trans found
      exact reads
    · exact mapped.reads i d ((conns_put_of_ne s c' same).symm.trans found)
  drained := mapped.drained

/-- One connection changes, and the map does not. -/
theorem Mapped.put_kept (mapped : Mapped s) (there : s.conns id = some c)
    (listed : c'.listed ↔ c.listed) (quiet : c.listed → c'.reading = true → c.reading = true)
    (reads : c'.reading = true → c'.phase.serves = true) : Mapped (s.put id c') := by
  refine mapped.put there mapped.nodup (fun _ _ => Iff.rfl) (fun inside => ?_) (fun isListed => ?_) reads
  · obtain ⟨d, found, isListed⟩ := mapped.listed id inside
    cases there.symm.trans found
    exact listed.mpr isListed
  · have before := listed.mp isListed
    refine (mapped.mapped id c there before).imp_right fun ⟨ended, silent⟩ => ⟨ended, ?_⟩
    cases reading : c'.reading with
    | false => rfl
    | true => exact (quiet before reading).symm.trans silent

theorem not_listed_of_left {c : Served} (outside : c.phase.left = 0 ∨ 4 ≤ c.phase.left) :
    ¬ c.listed := by
  rintro ⟨least, most⟩
  omega

theorem Mapped.step (mapped : Mapped s) (moved : serveStep s move = some s') : Mapped s' := by
  cases move with
  | cancel =>
      cases moved
      exact { mapped with drained := fun _ => rfl }
  | accept read =>
      obtain ⟨going, same⟩ := Option.ite_none_right_eq_some.mp moved
      cases same
      have unused := mapped.fresh s.nextId (Nat.le_refl _)
      have other : ∀ {i d}, s.conns i = some d → i ≠ s.nextId := by
        rintro i d found rfl
        cases unused.symm.trans found
      refine ⟨?_, mapped.nodup, ?_, ?_, ?_, mapped.drained⟩
      · intro i above
        have later : i ≠ s.nextId := Nat.ne_of_gt above
        exact (conns_put_of_ne s _ later).trans (mapped.fresh i (Nat.le_of_lt above))
      · intro i inside
        obtain ⟨d, found, isListed⟩ := mapped.listed i inside
        exact ⟨d, (conns_put_of_ne s _ (other found)).trans found, isListed⟩
      · intro i d found isListed
        by_cases same : i = s.nextId
        · subst same
          cases (conns_put_self s _ _).symm.trans found
          have early : 4 ≤ Phase.accepting.left := by decide
          exact absurd isListed (not_listed_of_left (.inr early))
        · exact mapped.mapped i d ((conns_put_of_ne s _ same).symm.trans found) isListed
      · intro i d found reading
        by_cases same : i = s.nextId
        · subst same
          cases (conns_put_self s _ _).symm.trans found
          cases reading
        · exact mapped.reads i d ((conns_put_of_ne s _ same).symm.trans found) reading
  | drain =>
      obtain ⟨ending, same⟩ := Option.ite_none_right_eq_some.mp moved
      cases same
      obtain ⟨cancelled, going⟩ := Bool.and_eq_true_iff.mp ending
      refine ⟨?_, List.nodup_nil, fun _ inside => absurd inside List.not_mem_nil, ?_, ?_,
        fun _ => cancelled⟩
      · intro i unused
        exact congrArg (Option.map _) (mapped.fresh i unused)
      · intro i d found isListed
        obtain ⟨e, there, same⟩ := Option.map_eq_some_iff.mp found
        refine .inr ⟨rfl, ?_⟩
        by_cases inside : i ∈ s.map
        · rw [if_pos inside] at same
          rw [← same]
        · rw [if_neg inside] at same
          subst same
          refine ((mapped.mapped i e there isListed).resolve_left inside).2
      · intro i d found reading
        obtain ⟨e, there, same⟩ := Option.map_eq_some_iff.mp found
        by_cases inside : i ∈ s.map
        · rw [if_pos inside] at same
          rw [← same] at reading
          cases reading
        · rw [if_neg inside] at same
          subst same
          exact mapped.reads i e there reading
  | handshake i ok =>
      obtain ⟨d, here, same⟩ := Option.bind_eq_some_iff.mp moved
      cases same
      obtain ⟨here, phase⟩ := during_eq_some.mp here
      have silent : d.reading ≠ true := fun reading => by
        have serves := mapped.reads i d here reading
        rw [phase] at serves
        cases serves
      refine mapped.put_kept here ?_ (fun _ reading => reading) fun reading => absurd reading silent
      cases ok <;> simp [Served.listed, Phase.left, phase]
  | start i ok =>
      obtain ⟨d, here, same⟩ := Option.bind_eq_some_iff.mp moved
      cases same
      obtain ⟨here, phase⟩ := during_eq_some.mp here
      have early : ¬ d.listed := not_listed_of_left (.inr (by rw [phase]; decide))
      refine mapped.put_kept here ?_ (fun isListed => absurd isListed early) fun reading => ?_
      · cases ok <;> simp [Served.listed, Phase.left, phase]
      · change ok = true at reading
        subst reading
        rfl
  | insert i =>
      obtain ⟨d, here, same⟩ := Option.bind_eq_some_iff.mp moved
      cases same
      obtain ⟨here, phase⟩ := during_eq_some.mp here
      have early : ¬ d.listed := not_listed_of_left (.inr (by rw [phase]; decide))
      have absent : i ∉ s.map := fun inside => by
        obtain ⟨e, found, isListed⟩ := mapped.listed i inside
        cases here.symm.trans found
        exact early isListed
      refine mapped.put here (List.nodup_cons.mpr ⟨absent, mapped.nodup⟩) (fun j other => ?_)
        (fun _ => ?_) (fun _ => .inl (List.mem_cons_self ..)) fun _ => rfl
      · rw [List.mem_cons, or_iff_right other]
      · change 1 ≤ Phase.waiting.left ∧ Phase.waiting.left ≤ 3
        decide
  | notified i =>
      obtain ⟨d, here, same⟩ := Option.bind_eq_some_iff.mp moved
      obtain ⟨-, same⟩ := Option.ite_none_right_eq_some.mp same
      cases same
      obtain ⟨here, phase⟩ := during_eq_some.mp here
      refine mapped.put_kept here ?_ (fun _ reading => reading) fun _ => rfl
      simp [Served.listed, Phase.left, phase]
  | cancelled i =>
      obtain ⟨d, here, same⟩ := Option.bind_eq_some_iff.mp moved
      obtain ⟨-, same⟩ := Option.ite_none_right_eq_some.mp same
      cases same
      obtain ⟨here, phase⟩ := during_eq_some.mp here
      refine mapped.put_kept here ?_ (fun _ reading => reading) fun _ => rfl
      simp [Served.listed, Phase.left, phase]
  | closeServer i =>
      obtain ⟨d, here, same⟩ := Option.bind_eq_some_iff.mp moved
      cases same
      obtain ⟨here, phase⟩ := during_eq_some.mp here
      have silent : ∀ {p : Prop}, false = true → p := Bool.noConfusion
      refine mapped.put_kept here ?_ (fun _ => silent) silent
      simp [Served.listed, Phase.left, phase]
  | remove i =>
      obtain ⟨d, here, same⟩ := Option.bind_eq_some_iff.mp moved
      cases same
      obtain ⟨here, phase⟩ := during_eq_some.mp here
      have outside : i ∉ s.map.filter (· ≠ i) := fun inside => by
        simp at inside
      have silent : d.reading ≠ true := fun reading => by
        have serves := mapped.reads i d here reading
        rw [phase] at serves
        cases serves
      refine mapped.put here (mapped.nodup.filter _) (fun j other => ?_)
        (fun inside => absurd inside outside) (fun isListed => ?_) fun reading => absurd reading silent
      · simp [other]
      · exact absurd isListed (not_listed_of_left (.inl rfl))
  | recv i buf =>
      obtain ⟨d, here, same⟩ := Option.bind_eq_some_iff.mp moved
      obtain ⟨reading, same⟩ := Option.ite_none_right_eq_some.mp same
      split at same
      · cases same
        exact mapped.put_kept here Iff.rfl (fun _ => id) fun _ => mapped.reads i d here reading
      · cases same
        have silent : ∀ {p : Prop}, false = true → p := Bool.noConfusion
        exact mapped.put_kept here Iff.rfl (fun _ => silent) silent
  | close i =>
      obtain ⟨d, here, same⟩ := Option.bind_eq_some_iff.mp moved
      obtain ⟨-, same⟩ := Option.ite_none_left_eq_some.mp same
      cases same
      exact mapped.put_kept here Iff.rfl (fun _ => id) (mapped.reads i d here)

theorem reachable_mapped (run : tlsTurn.Reachable s) : Mapped s := by
  refine run.invariant ?_ fun _ mapped _ moved => mapped.step moved
  rintro _ rfl
  exact ⟨fun _ _ => rfl, List.nodup_nil, nofun, nofun, nofun, nofun⟩

/-- The map has no connection twice and none whose task has not put it there or has taken it out; while
the accept loop runs it has all that its tasks have put there; and a server that reads is in the map,
or its task is about to put it there. -/
theorem tls_map_exact (run : tlsTurn.Reachable s) :
    s.map.Nodup ∧ (∀ id ∈ s.map, ∃ c, s.conns id = some c ∧ c.listed) ∧
      (s.listening = true → ∀ id c, s.conns id = some c → c.listed → id ∈ s.map) ∧
      ∀ id c, s.conns id = some c → c.reading = true → id ∈ s.map ∨ c.phase = .inserting := by
  have mapped := reachable_mapped run
  refine ⟨mapped.nodup, mapped.listed, fun going id c there isListed => ?_,
    fun id c there reading => ?_⟩
  · refine (mapped.mapped id c there isListed).resolve_right fun drained => ?_
    exact Bool.noConfusion (going.symm.trans drained.1)
  · have serves := mapped.reads id c there reading
    have inside : c.listed → id ∈ s.map := fun isListed =>
      (mapped.mapped id c there isListed).resolve_right fun drained =>
        Bool.noConfusion (reading.symm.trans drained.2)
    cases phase : c.phase with
    | inserting => exact .inr rfl
    | waiting | closing =>
        refine .inl (inside ?_)
        rw [Served.listed, phase]
        decide
    | accepting | starting | removing | done =>
        rw [phase] at serves
        cases serves

/-- A connection gets into the map after the accept loop has drained it. -/
theorem late_insertion : ∃ s, tlsTurn.Reachable s ∧ s.cancelled = true ∧ s.listening = false ∧
    s.map = [0] := by
  have passed : (System.execute (fun move s => serveStep s move)
      [.accept ⟨[], .eof⟩, .handshake 0 true, .start 0 true, .cancel, .drain, .insert 0] start).any
        (fun s => s.cancelled && !s.listening && s.map == [0]) = true := by
    decide +kernel
  obtain ⟨s, run, checked⟩ := System.reaches_of_any (fun _ moved => ⟨trivial, moved⟩)
    (.start rfl : tlsTurn.Reachable start) passed
  rw [Bool.and_eq_true, Bool.and_eq_true, Bool.not_eq_true', beq_iff_eq] at checked
  exact ⟨s, run, checked.1.1, checked.1.2, checked.2⟩

theorem tls_map_exact_late : ∃ s c, tlsTurn.Reachable s ∧ s.map = [0] ∧ s.conns 0 = some c ∧
    c.listed := by
  obtain ⟨s, run, -, -, one⟩ := late_insertion
  obtain ⟨c, there, isListed⟩ := (tls_map_exact run).2.1 0 (by rw [one]; exact List.mem_singleton_self 0)
  exact ⟨s, c, run, one, there, isListed⟩

/-! ## The way to the end -/

/-- What the accept loop and the tasks do after a stop: the handshakes end, whatever they give. -/
def winds : ServeStep → Bool
  | .drain | .handshake .. | .start .. | .insert _ | .cancelled _ | .closeServer _ | .remove _ => true
  | _ => false

/-- Nothing of the listener is left. -/
structure Gone (s : TlsTurn) : Prop where
  cancelled : s.cancelled = true
  closed : s.listening = false
  empty : s.map = []
  ended : ∀ id c, s.conns id = some c → c.phase = .done ∧ c.reading = false

/-- How many steps are left: those of the tasks, and the draining. -/
def TlsTurn.left (s : TlsTurn) : Nat :=
  (∑ id ∈ Finset.range s.nextId, (s.conns id).elim 0 fun c => c.phase.left) +
    if s.listening then 1 else 0

/-- After a stop a task can always go on. -/
theorem exists_winding (cancelled : s.cancelled = true) (there : s.conns id = some c)
    (more : c.phase ≠ .done) :
    ∃ move c' map, winds move = true ∧ c'.phase.left < c.phase.left ∧
      serveStep s move = some { s.put id c' with map := map } := by
  have here : s.during id c.phase = some c := during_eq_some.mpr ⟨there, rfl⟩
  cases phase : c.phase with
  | accepting =>
      rw [phase] at here
      refine ⟨.handshake id false, { c with phase := .done }, s.map, rfl,
        Nat.le_of_ble_eq_true rfl, ?_⟩
      rw [serveStep, here]
      rfl
  | starting =>
      rw [phase] at here
      refine ⟨.start id false, { c with phase := .done, reading := false }, s.map, rfl,
        Nat.le_of_ble_eq_true rfl, ?_⟩
      rw [serveStep, here]
      rfl
  | inserting =>
      rw [phase] at here
      refine ⟨.insert id, { c with phase := .waiting }, id :: s.map, rfl,
        Nat.le_of_ble_eq_true rfl, ?_⟩
      rw [serveStep, here]
      rfl
  | waiting =>
      rw [phase] at here
      refine ⟨.cancelled id, { c with phase := .closing }, s.map, rfl,
        Nat.le_of_ble_eq_true rfl, ?_⟩
      rw [serveStep, here]
      exact if_pos cancelled
  | closing =>
      rw [phase] at here
      refine ⟨.closeServer id, { c with phase := .removing, reading := false }, s.map, rfl,
        Nat.le_of_ble_eq_true rfl, ?_⟩
      rw [serveStep, here]
      rfl
  | removing =>
      rw [phase] at here
      refine ⟨.remove id, { c with phase := .done }, s.map.filter (· ≠ id), rfl,
        Nat.le_of_ble_eq_true rfl, ?_⟩
      rw [serveStep, here]
      rfl
  | done => exact absurd phase more

/-- A task that goes on has less before it. -/
theorem left_put (mapped : Mapped s) (there : s.conns id = some c)
    (less : c'.phase.left < c.phase.left) (map : List Nat) :
    TlsTurn.left { s.put id c' with map := map } < s.left := by
  have begun : id < s.nextId := by
    by_contra unused
    cases there.symm.trans (mapped.fresh id (Nat.le_of_not_lt unused))
  refine Nat.add_lt_add_right (Finset.sum_lt_sum (fun i _ => ?_) ⟨id, Finset.mem_range.mpr begun, ?_⟩) _
  · by_cases same : i = id
    · subst same
      change ((s.put i c').conns i).elim 0 _ ≤ _
      rw [conns_put_self, there]
      exact Nat.le_of_lt less
    · change ((s.put id c').conns i).elim 0 _ ≤ _
      rw [conns_put_of_ne s c' same]
  · change ((s.put id c').conns id).elim 0 _ < _
    rw [conns_put_self, there]
    exact less

/-- The draining leaves the tasks where they are. -/
theorem left_drain (cancelled : s.cancelled = true) (going : s.listening = true) :
    ∃ s', serveStep s .drain = some s' ∧ s'.cancelled = true ∧ s'.left < s.left := by
  have ending : (s.cancelled && s.listening) = true := by
    rw [cancelled, going]
    rfl
  refine ⟨_, if_pos ending, cancelled, ?_⟩
  have same : ∀ id, ((s.conns id).map fun c =>
      if id ∈ s.map then { c with reading := false } else c).elim 0 (fun c => c.phase.left) =
        (s.conns id).elim 0 fun c => c.phase.left := by
    intro id
    cases s.conns id with
    | none => rfl
    | some c =>
        change Phase.left (Served.phase (if id ∈ s.map then _ else _)) = _
        split <;> rfl
  change (∑ id ∈ Finset.range s.nextId, _) + 0 < (∑ id ∈ Finset.range s.nextId, _) + _
  rw [Finset.sum_congr rfl fun id _ => same id, going]
  exact Nat.lt_succ_self _

/-- After a stop a step of the loop or of a task is left, or nothing is. -/
theorem winds_on (mapped : Mapped s) (cancelled : s.cancelled = true) :
    Gone s ∨ ∃ move s', winds move = true ∧ tlsTurn.step s move s' ∧
      (Mapped s' ∧ s'.cancelled = true) ∧ s'.left < s.left := by
  cases going : s.listening with
  | true =>
      obtain ⟨s', moved, still, less⟩ := left_drain cancelled going
      exact .inr ⟨.drain, s', rfl, moved, ⟨mapped.step moved, still⟩, less⟩
  | false =>
      by_cases busy : ∃ id c, s.conns id = some c ∧ c.phase ≠ .done
      · obtain ⟨id, c, there, more⟩ := busy
        obtain ⟨move, c', map, isWinding, less, moved⟩ := exists_winding cancelled there more
        exact .inr ⟨move, _, isWinding, moved, ⟨mapped.step moved, cancelled⟩,
          left_put mapped there less map⟩
      · have ended : ∀ id c, s.conns id = some c → c.phase = .done := by
          intro id c there
          by_contra more
          exact busy ⟨id, c, there, more⟩
        refine .inl ⟨cancelled, going, ?_, fun id c there => ⟨ended id c there, ?_⟩⟩
        · refine List.eq_nil_iff_forall_not_mem.mpr fun id inside => ?_
          obtain ⟨c, there, isListed⟩ := mapped.listed id inside
          refine not_listed_of_left (.inl ?_) isListed
          rw [ended id c there]
          rfl
        · cases reading : c.reading with
          | false => rfl
          | true =>
              have serves := mapped.reads id c there reading
              rw [ended id c there] at serves
              cases serves

/-- What is gone does not come back. -/
theorem Gone.step (gone : Gone s) (moved : serveStep s move = some s') : Gone s' := by
  have idle : ∀ {id phase}, phase ≠ .done → s.during id phase = none := by
    intro id phase busy
    refine Option.eq_none_iff_forall_ne_some.mpr fun c here => ?_
    obtain ⟨there, same⟩ := during_eq_some.mp here
    exact busy (same.symm.trans (gone.ended id c there).1)
  cases move with
  | cancel =>
      cases moved
      exact { gone with cancelled := rfl }
  | accept read =>
      have going := (Option.ite_none_right_eq_some.mp moved).1
      exact Bool.noConfusion (going.symm.trans gone.closed)
  | drain =>
      have ending := (Option.ite_none_right_eq_some.mp moved).1
      exact Bool.noConfusion ((Bool.and_eq_true_iff.mp ending).2.symm.trans gone.closed)
  | handshake id ok =>
      rw [serveStep, idle (by decide)] at moved
      cases moved
  | start id ok =>
      rw [serveStep, idle (by decide)] at moved
      cases moved
  | insert id | notified id | cancelled id | closeServer id | remove id =>
      rw [serveStep, idle (by decide)] at moved
      cases moved
  | recv id buf =>
      obtain ⟨c, there, same⟩ := Option.bind_eq_some_iff.mp moved
      have reading := (Option.ite_none_right_eq_some.mp same).1
      exact Bool.noConfusion (reading.symm.trans (gone.ended id c there).2)
  | close id =>
      obtain ⟨c, there, same⟩ := Option.bind_eq_some_iff.mp moved
      obtain ⟨-, same⟩ := Option.ite_none_left_eq_some.mp same
      cases same
      refine ⟨gone.cancelled, gone.closed, gone.empty, fun i d found => ?_⟩
      by_cases isIt : i = id
      · subst isIt
        cases (conns_put_self s i _).symm.trans found
        exact gone.ended i c there
      · exact gone.ended i d ((conns_put_of_ne s _ isIt).symm.trans found)

/-- A stop can always be carried to its end: from every state reached with the token cancelled, the
accept loop and the tasks alone, whatever the handshakes that are under way give, get to where the
loop has ended, no server reads and the map is empty; and in all that may follow it stays so. -/
theorem tls_shutdown_completes (run : tlsTurn.Reachable s) (cancelled : s.cancelled = true) :
    ∃ s', (tlsTurn.startedAt s).Reaches (fun _ move => winds move = true) s' ∧
      ∀ s'', (tlsTurn.startedAt s').Reachable s'' → Gone s'' := by
  have progress : ∀ {t}, Mapped t ∧ t.cancelled = true → Gone t ∨ ∃ move t', winds move = true ∧
      tlsTurn.step t move t' ∧ (Mapped t' ∧ t'.cancelled = true) ∧ t'.left < t.left :=
    fun ⟨mapped, stopped⟩ => winds_on mapped stopped
  obtain ⟨s', onward, -, gone⟩ :=
    System.exists_reaches_of_measure TlsTurn.left progress ⟨reachable_mapped run, cancelled⟩
  refine ⟨s', onward, fun s'' later => later.invariant ?_ fun _ gone _ moved => gone.step moved⟩
  rintro _ rfl
  exact gone

/-- Also from where the map holds a connection that came too late for the draining. -/
theorem tls_shutdown_completes_late : ∃ s s', tlsTurn.Reachable s ∧ s.map = [0] ∧
    s.listening = false ∧ (tlsTurn.startedAt s).Reaches (fun _ move => winds move = true) s' ∧
    Gone s' := by
  obtain ⟨s, run, cancelled, closed, one⟩ := late_insertion
  obtain ⟨s', onward, stays⟩ := tls_shutdown_completes run cancelled
  exact ⟨s, s', run, one, closed, onward, stays s' (.start rfl)⟩

end Remgr.Turn
