/-
Module: Remgr.Proofs.MuxOpen
Purpose: Every request for a stream that `mux_driver` has taken is answered once. A call of `open`
  that waits is in the channel, or pending, or has its answer; when the driver has returned, all have
  theirs. Every stream of the session belongs to one call, or was reset because its call had gone.
Trusted boundary: as in `Remgr.Frpc.Mux`
Main exports: Turn, step_turn, Waits, mux_open_answered, Owned, mux_streams_owned
-/
import Remgr.Frpc.Mux
import Mathlib.Data.List.Nodup

namespace Remgr.Frpc.Mux

open Remgr.Lib

/-! ## What a step can be -/

/-- The requests that the driver has not answered. -/
def State.asked (s : State) : List CallId := s.queue ++ s.pending

/-- The steps, by what they do to the requests. -/
inductive Turn (s : State) : State → Prop
  | opens : Turn s { s.setCall s.nextCall .sending with nextCall := s.nextCall + 1 }
  | refused {c : CallId} (sending : s.calls c = .sending) (ended : s.driver = .finished) :
      Turn s (s.setCall c (.returned (.error "the yamux session is closed")))
  | sends {c : CallId} (sending : s.calls c = .sending) (going : s.driver ≠ .finished)
      (room : s.queue.length < OPEN_CAPACITY) :
      Turn s { s.setCall c .waiting with queue := s.queue ++ [c] }
  | returns {c : CallId} {a : Answer} (waiting : s.calls c = .waiting) (got : s.slots c = some a) :
      Turn s (s.setCall c (.returned a.result))
  | drops {c : CallId} (begun : s.calls c = .sending ∨ s.calls c = .waiting) : Turn s (s.drop c)
  | serves {c : CallId} {rest : List CallId} (last : s.pending = rest ++ [c])
      (going : s.driver ≠ .finished) : Turn s (s.serve c rest)
  | fails {answers : CallId → Option Answer} {queue : List CallId} {driver : DriverPc}
      (left : queue = s.queue ∧ driver ≠ .finished ∨ queue = [])
      (told : ∀ c, answers c = s.slots c ∨ (c ∈ s.pending ∨ c ∈ s.queue ∧ queue = []) ∧
        s.calls c = .waiting ∧ ∃ a, answers c = some a ∧ a.stream = none)
      (all : ∀ c, c ∈ s.asked → c ∉ queue → s.calls c = .waiting → answers c ≠ none) :
      Turn s { s with slots := answers, queue, pending := [], driver }
  | takes {c : CallId} {rest : List CallId} (first : s.queue = c :: rest)
      (going : s.driver ≠ .finished) :
      Turn s { s with queue := rest, pending := s.pending ++ [c], driver := .serving }
  | moves {driver : DriverPc} (going : s.driver ≠ .finished) (goes : driver ≠ .finished) :
      Turn s { s with driver }

variable {s s' : State}

theorem listens_iff (c : CallId) : s.listens c = true ↔ s.calls c = .waiting := by
  unfold State.listens
  split
  · next waiting => exact ⟨fun _ => waiting, fun _ => rfl⟩
  · next other => exact ⟨nofun, fun waiting => absurd waiting other⟩

theorem atLoop_ne_finished (pending : List CallId) : State.atLoop pending ≠ .finished := by
  unfold State.atLoop
  split <;> nofun

/-- Who is told something by `answer`. -/
theorem answer_told (asked : List CallId) (a : Answer) (c : CallId) :
    s.answer asked a c = s.slots c ∨
      c ∈ asked ∧ s.calls c = .waiting ∧ s.answer asked a c = some a := by
  unfold State.answer
  split
  · next guard => exact .inr ⟨guard.1, (listens_iff c).mp guard.2, rfl⟩
  · exact .inl rfl

theorem answer_of_waiting {asked : List CallId} (a : Answer) {c : CallId} (member : c ∈ asked)
    (waiting : s.calls c = .waiting) : s.answer asked a c = some a :=
  if_pos ⟨member, (listens_iff c).mpr waiting⟩

theorem driverStep_turn {input : DriverInput} (move : s.driverStep input = some s') : Turn s s' := by
  cases input with
  | opened =>
      unfold State.driverStep at move
      dsimp only at move
      split at move
      · next serving last =>
          cases move
          refine .serves ?_ (by rw [serving]; nofun)
          rw [← List.reverse_reverse s.pending, last, List.reverse_cons]
      · cases move
  | refused e =>
      rcases Option.ite_none_right_eq_some.mp move with ⟨⟨serving, some⟩, same⟩
      cases same
      refine .fails (.inl ⟨rfl, nofun⟩) (fun c => ?_) (fun c member out waiting => ?_)
      · refine (answer_told s.pending _ c).imp_right fun ⟨member, waiting, told⟩ => ?_
        exact ⟨.inl member, waiting, _, told, rfl⟩
      · rw [answer_of_waiting _ ((List.mem_append.mp member).resolve_left out) waiting]
        nofun
  | stalled =>
      rcases Option.ite_none_right_eq_some.mp move with ⟨⟨serving, _⟩, same⟩
      cases same
      exact .moves (by rw [serving]; nofun) nofun
  | recv =>
      unfold State.driverStep at move
      dsimp only at move
      split at move
      · next selecting first =>
          cases move
          exact .takes first (by rw [selecting]; nofun)
      · cases move
  | hungUp =>
      rcases Option.ite_none_right_eq_some.mp move with ⟨⟨selecting, _⟩, same⟩
      cases same
      exact .moves (by rw [selecting]; nofun) nofun
  | retry =>
      rcases Option.ite_none_right_eq_some.mp move with ⟨⟨selecting, _⟩, same⟩
      cases same
      exact .moves (by rw [selecting]; nofun) nofun
  | inbound =>
      rcases Option.ite_none_right_eq_some.mp move with ⟨selecting, same⟩
      cases same
      exact .moves (by rw [selecting]; nofun) (atLoop_ne_finished _)
  | ends =>
      rcases Option.ite_none_right_eq_some.mp move with ⟨selecting, same⟩
      cases same
      exact .moves (by rw [selecting]; nofun) nofun
  | drain =>
      rcases Option.ite_none_right_eq_some.mp move with ⟨draining, same⟩
      cases same
      refine .fails (.inr rfl) (fun c => ?_) (fun c member _ waiting => ?_)
      · split
        · refine (answer_told s.queue _ c).imp_right fun ⟨member, waiting, told⟩ => ?_
          exact ⟨.inr ⟨member, rfl⟩, waiting, _, told, rfl⟩
        · refine (answer_told s.pending _ c).imp_right fun ⟨member, waiting, told⟩ => ?_
          exact ⟨.inl member, waiting, _, told, rfl⟩
      · split
        · next queued =>
            rw [answer_of_waiting _ queued waiting]
            nofun
        · next other =>
            rw [answer_of_waiting _ ((List.mem_append.mp member).resolve_left other) waiting]
            nofun

theorem step_turn {a : Action} (move : step a s = some s') : Turn s s' := by
  cases a with
  | «open» =>
      cases move
      exact .opens
  | send c =>
      unfold step at move
      dsimp only at move
      split at move
      · next sending =>
          split at move
          · next ended =>
              cases move
              exact .refused sending ended
          · next going =>
              rcases Option.ite_none_right_eq_some.mp move with ⟨room, same⟩
              cases same
              exact .sends sending going room
      · cases move
  | await c =>
      unfold step at move
      dsimp only at move
      split at move
      · next waiting got =>
          cases move
          exact .returns waiting got
      · cases move
  | abandon c =>
      unfold step at move
      dsimp only at move
      split at move
      · next sending =>
          cases move
          exact .drops (.inl sending)
      · next waiting =>
          cases move
          exact .drops (.inr waiting)
      · cases move
  | driver input => exact driverStep_turn move

/-! ## Requests and their answers -/

/-- The calls that have sent nothing. -/
def CallPc.silent : CallPc → Bool
  | .unborn | .sending => true
  | _ => false

structure Waits (s : State) : Prop where
  nodup : s.asked.Nodup
  room : s.queue.length ≤ OPEN_CAPACITY
  begun : ∀ ⦃c⦄, c ∈ s.asked → s.calls c = .waiting ∨ s.calls c = .abandoned
  unanswered : ∀ ⦃c⦄, c ∈ s.asked → s.slots c = none
  waits : ∀ ⦃c⦄, s.calls c = .waiting → s.slots c = none → c ∈ s.asked
  silent : ∀ ⦃c⦄, (s.calls c).silent = true → s.slots c = none
  fresh : ∀ ⦃c⦄, s.nextCall ≤ c → s.calls c = .unborn
  ended : s.driver = .finished → s.asked = []

theorem Waits.unasked (waits : Waits s) {c : CallId} (silent : (s.calls c).silent = true) :
    c ∉ s.asked := by
  intro member
  rcases waits.begun member with waiting | abandoned
  · rw [waiting] at silent
    cases silent
  · rw [abandoned] at silent
    cases silent

/-- A call that is not among the requests changes. -/
theorem Waits.setCall (waits : Waits s) {c : CallId} (outside : c ∉ s.asked) {pc : CallPc}
    (born : c < s.nextCall) (answered : pc ≠ .waiting ∨ s.slots c ≠ none)
    (silent : pc.silent = true → s.slots c = none) : Waits (s.setCall c pc) where
  nodup := waits.nodup
  room := waits.room
  begun d member := by
    have other : d ≠ c := fun same => outside (same ▸ member)
    change Function.update s.calls c pc d = _ ∨ Function.update s.calls c pc d = _
    rw [Function.update_of_ne other]
    exact waits.begun member
  unanswered := waits.unanswered
  waits d waiting none := by
    change Function.update s.calls c pc d = _ at waiting
    by_cases same : d = c
    · subst same
      rw [Function.update_self] at waiting
      exact answered.elim (absurd waiting) (absurd none)
    · rw [Function.update_of_ne same] at waiting
      exact waits.waits waiting none
  silent d quiet := by
    change (Function.update s.calls c pc d).silent = true at quiet
    by_cases same : d = c
    · subst same
      rw [Function.update_self] at quiet
      exact silent quiet
    · rw [Function.update_of_ne same] at quiet
      exact waits.silent quiet
  fresh d later := by
    have other : d ≠ c := fun same => Nat.not_le.mpr born (same ▸ later)
    exact (Function.update_of_ne other ..).trans (waits.fresh later)
  ended := waits.ended

theorem Waits.born (waits : Waits s) {c : CallId} (begun : s.calls c ≠ .unborn) :
    c < s.nextCall := by
  by_contra later
  exact begun (waits.fresh (Nat.not_lt.mp later))

/-- Some requests are answered, or their calls have gone, and are no longer asked. -/
theorem Waits.answer (waits : Waits s) {slots : CallId → Option Answer}
    {queue pending : List CallId} {driver : DriverPc} {nextStream : StreamId} {lost : List StreamId}
    (fewer : (queue ++ pending).Sublist s.asked) (short : queue.length ≤ s.queue.length)
    (told : ∀ c, slots c = s.slots c ∨ c ∈ s.asked ∧ c ∉ queue ++ pending ∧ s.calls c = .waiting)
    (all : ∀ c, c ∈ s.asked → c ∉ queue ++ pending → s.calls c = .waiting → slots c ≠ none)
    (ended : driver = .finished → queue ++ pending = []) :
    Waits { s with slots, queue, pending, driver, nextStream, lost } where
  nodup := waits.nodup.sublist fewer
  room := Nat.le_trans short waits.room
  begun c member := waits.begun (fewer.subset member)
  unanswered c member := by
    rcases told c with same | ⟨_, out, _⟩
    · exact same.trans (waits.unanswered (fewer.subset member))
    · exact absurd member out
  waits c waiting none := by
    by_contra out
    refine all c ?_ out waiting none
    rcases told c with same | ⟨asked, _⟩
    · exact waits.waits waiting (same.symm.trans none)
    · exact asked
  silent c quiet := by
    rcases told c with same | ⟨_, _, waiting⟩
    · exact same.trans (waits.silent quiet)
    · change (s.calls c).silent = true at quiet
      rw [waiting] at quiet
      cases quiet
  fresh := waits.fresh
  ended := ended

/-- The next request is put into the channel. -/
theorem Waits.send (waits : Waits s) {c : CallId} (sending : s.calls c = .sending)
    (going : s.driver ≠ .finished) (room : s.queue.length < OPEN_CAPACITY) :
    Waits { s.setCall c .waiting with queue := s.queue ++ [c] } := by
  have outside := waits.unasked (c := c) (by rw [sending]; rfl)
  have place : ∀ {d}, d ∈ (s.queue ++ [c]) ++ s.pending ↔ d ∈ s.asked ∨ d = c := by
    intro d
    rw [List.append_assoc, List.mem_append, List.mem_append, List.mem_singleton, State.asked,
      List.mem_append]
    tauto
  have at_c : (s.setCall c .waiting).calls c = .waiting := Function.update_self ..
  have elsewhere : ∀ {d}, d ≠ c → (s.setCall c .waiting).calls d = s.calls d :=
    fun other => Function.update_of_ne other ..
  constructor
  · change ((s.queue ++ [c]) ++ s.pending).Nodup
    rw [List.append_assoc, List.singleton_append]
    exact List.nodup_middle.mpr (List.nodup_cons.mpr ⟨outside, waits.nodup⟩)
  · change (s.queue ++ [c]).length ≤ _
    rw [List.length_append]
    exact room
  · intro d member
    by_cases same : d = c
    · exact .inl (same ▸ at_c)
    · change (s.setCall c .waiting).calls d = _ ∨ (s.setCall c .waiting).calls d = _
      rw [elsewhere same]
      exact waits.begun ((place.mp member).resolve_right same)
  · intro d member
    rcases place.mp member with before | rfl
    · exact waits.unanswered before
    · exact waits.silent (by rw [sending]; rfl)
  · intro d waiting none
    refine place.mpr ?_
    by_cases same : d = c
    · exact .inr same
    · exact .inl (waits.waits ((elsewhere same).symm.trans waiting) none)
  · intro d quiet
    by_cases same : d = c
    · subst same
      change ((s.setCall d .waiting).calls d).silent = true at quiet
      rw [at_c] at quiet
      cases quiet
    · change ((s.setCall c .waiting).calls d).silent = true at quiet
      rw [elsewhere same] at quiet
      exact waits.silent quiet
  · intro d later
    have born : c < s.nextCall := waits.born (by rw [sending]; nofun)
    have other : d ≠ c := fun same => Nat.not_le.mpr born (same ▸ later)
    exact (elsewhere other).trans (waits.fresh later)
  · intro ended
    exact absurd ended going

/-- A call is dropped by its task, wherever its request is. -/
theorem Waits.drop (waits : Waits s) {c : CallId} (begun : s.calls c ≠ .unborn) :
    Waits (s.drop c) := by
  have at_c : (s.drop c).calls c = .abandoned := Function.update_self ..
  have slot_c : (s.drop c).slots c = none := Function.update_self ..
  have elsewhere : ∀ {d}, d ≠ c → (s.drop c).calls d = s.calls d ∧ (s.drop c).slots d = s.slots d :=
    fun other => ⟨Function.update_of_ne other .., Function.update_of_ne other ..⟩
  constructor
  · exact waits.nodup
  · exact waits.room
  · intro d member
    by_cases same : d = c
    · exact .inr (same ▸ at_c)
    · rw [(elsewhere same).1]
      exact waits.begun member
  · intro d member
    by_cases same : d = c
    · exact same ▸ slot_c
    · exact (elsewhere same).2.trans (waits.unanswered member)
  · intro d waiting none
    by_cases same : d = c
    · subst same
      cases at_c.symm.trans waiting
    · exact waits.waits ((elsewhere same).1.symm.trans waiting) ((elsewhere same).2.symm.trans none)
  · intro d quiet
    by_cases same : d = c
    · exact same ▸ slot_c
    · rw [(elsewhere same).1] at quiet
      exact (elsewhere same).2.trans (waits.silent quiet)
  · intro d later
    have other : d ≠ c := fun same => Nat.not_le.mpr (waits.born begun) (same ▸ later)
    exact (elsewhere other).1.trans (waits.fresh later)
  · exact waits.ended

theorem Waits.step (waits : Waits s) (turn : Turn s s') : Waits s' := by
  cases turn with
  | opens =>
      have fresh : Waits { s with nextCall := s.nextCall + 1 } :=
        { waits with fresh := fun _ later => waits.fresh (Nat.le_of_succ_le later) }
      have unborn := waits.fresh (Nat.le_refl s.nextCall)
      have quiet : (s.calls s.nextCall).silent = true := by rw [unborn]; rfl
      exact fresh.setCall (waits.unasked quiet) (Nat.lt_succ_self _) (.inl nofun)
        fun _ => waits.silent quiet
  | @refused c sending ended =>
      have quiet : (s.calls c).silent = true := by rw [sending]; rfl
      exact waits.setCall (waits.unasked quiet) (waits.born (by rw [sending]; nofun)) (.inl nofun)
        nofun
  | sends sending going room => exact waits.send sending going room
  | @returns c a waiting got =>
      refine waits.setCall ?_ (waits.born (by rw [waiting]; nofun)) (.inl nofun) nofun
      intro member
      cases (waits.unanswered member).symm.trans got
  | drops begun =>
      refine waits.drop ?_
      rcases begun with sending | waiting
      · rw [sending]
        nofun
      · rw [waiting]
        nofun
  | @serves c rest last going =>
      have asked : s.asked = (s.queue ++ rest) ++ [c] := by
        rw [State.asked, last, List.append_assoc]
      have out : c ∉ s.queue ++ rest := by
        have nodup := waits.nodup
        rw [asked] at nodup
        intro member
        exact (List.nodup_append.mp nodup).2.2 c member c (List.mem_singleton_self c) rfl
      have member : c ∈ s.asked := by
        rw [asked]
        exact List.mem_append_right _ (List.mem_singleton_self c)
      refine waits.answer ?_ (Nat.le_refl _) (fun d => ?_) (fun d asked' out' waiting => ?_)
        fun finished => absurd finished (atLoop_ne_finished rest)
      · rw [asked]
        exact List.sublist_append_left ..
      · refine (answer_told [c] _ d).imp_right fun ⟨one, waiting, _⟩ => ?_
        cases List.mem_singleton.mp one
        exact ⟨member, out, waiting⟩
      · rw [asked] at asked'
        rw [answer_of_waiting _ ((List.mem_append.mp asked').resolve_left out') waiting]
        nofun
  | @fails answers queue driver left told all =>
      have fewer : queue.Sublist s.queue := by
        rcases left with ⟨same, _⟩ | none
        · rw [same]
        · rw [none]
          exact List.nil_sublist _
      refine waits.answer ?_ fewer.length_le (fun c => ?_) (fun c asked out waiting => ?_) ?_
      · rw [List.append_nil]
        exact fewer.trans (List.sublist_append_left ..)
      · rw [List.append_nil]
        refine (told c).imp_right fun ⟨place, waiting, _⟩ => ?_
        rcases place with member | ⟨member, none⟩
        · refine ⟨List.mem_append_right _ member, fun queued => ?_, waiting⟩
          exact (List.nodup_append.mp waits.nodup).2.2 c (fewer.subset queued) c member rfl
        · refine ⟨List.mem_append_left _ member, ?_, waiting⟩
          rw [none]
          exact List.not_mem_nil
      · rw [List.append_nil] at out
        exact all c asked out waiting
      · intro finished
        rw [List.append_nil]
        rcases left with ⟨_, going⟩ | none
        · exact absurd finished going
        · exact none
  | @takes c rest first going =>
      have same : (rest ++ (s.pending ++ [c])).Perm s.asked := by
        rw [State.asked, first, ← List.append_assoc]
        exact List.perm_append_singleton ..
      constructor
      · exact same.nodup_iff.mpr waits.nodup
      · have room := waits.room
        rw [first] at room
        exact Nat.le_trans (Nat.le_succ _) room
      · exact fun d member => waits.begun (same.mem_iff.mp member)
      · exact fun d member => waits.unanswered (same.mem_iff.mp member)
      · exact fun d waiting none => same.mem_iff.mpr (waits.waits waiting none)
      · exact waits.silent
      · exact waits.fresh
      · nofun
  | moves going goes => exact { waits with ended := fun finished => absurd finished goes }

theorem mux_waits (run : mux.Reachable s) : Waits s := by
  refine run.invariant ?_ fun _ waits _ move => waits.step (step_turn move)
  rintro _ rfl
  exact ⟨List.nodup_nil, Nat.zero_le _, nofun, nofun, nofun, fun _ _ => rfl, fun _ _ => rfl, nofun⟩

/-- A call that waits has its answer, or its request is in the channel or pending, once, and never
both. When the driver has returned, whatever ended it, every call that waits has its answer. -/
theorem mux_open_answered (run : mux.Reachable s) :
    (∀ c, s.calls c = .waiting → (s.slots c = none ↔ c ∈ s.queue ++ s.pending)) ∧
      (s.queue ++ s.pending).Nodup ∧ s.queue.length ≤ OPEN_CAPACITY ∧
      (s.driver = .finished → ∀ c, s.calls c = .waiting → s.slots c ≠ none) := by
  have waits := mux_waits run
  refine ⟨fun c waiting => ⟨waits.waits waiting, fun member => waits.unanswered member⟩,
    waits.nodup, waits.room, ?_⟩
  intro finished c waiting none
  have member := waits.waits waiting none
  rw [waits.ended finished] at member
  exact List.not_mem_nil member

/-- A run that evaluates is one of the session. -/
theorem sample_session (actions : List Action) (check : State → Bool)
    (passed : (System.execute step actions {}).any check = true) :
    ∃ s, mux.Reachable s ∧ check s = true :=
  System.reaches_of_any (fun _ move => ⟨trivial, move⟩) (.start rfl) passed

/-- Of two requests one is given a stream. The other is left in the channel when the session ends, and
is told so. -/
theorem mux_open_answered_left :
    ∃ s : State, s.driver = .finished ∧ s.calls 1 = .waiting ∧ s.slots 1 ≠ none := by
  obtain ⟨s, run, passed⟩ := sample_session
    [.open, .open, .send 0, .send 1, .driver .recv, .driver .opened, .driver .ends, .driver .drain]
    (fun s => s.driver = .finished && s.listens 1) (by decide +kernel)
  rw [Bool.and_eq_true, decide_eq_true_eq, listens_iff] at passed
  exact ⟨s, passed.1, passed.2, (mux_open_answered run).2.2.2 passed.1 1 passed.2⟩

/-! ## Streams and their owners -/

/-- The stream that a call was given. -/
def State.streamOf (s : State) (c : CallId) : Option StreamId := (s.slots c).bind Answer.stream

structure Owned (s : State) : Prop where
  given : ∀ ⦃c n⦄, s.streamOf c = some n → n < s.nextStream ∧ n ∉ s.lost
  once : ∀ ⦃c d n⦄, s.streamOf c = some n → s.streamOf d = some n → c = d
  lost : s.lost.Nodup ∧ ∀ n ∈ s.lost, n < s.nextStream
  all : ∀ ⦃n⦄, n < s.nextStream → n ∈ s.lost ∨ ∃ c, s.streamOf c = some n
  kept : ∀ ⦃c n⦄, s.calls c = .returned (.ok n) → s.streamOf c = some n

theorem result_stream {a : Answer} {n : StreamId} (got : a.result = .ok n) : a.stream = some n := by
  cases a with
  | sent result =>
      cases got
      rfl
  | dropped => cases got

/-- What happens to the calls alone. -/
theorem Owned.setCall (owned : Owned s) (c : CallId) {pc : CallPc}
    (kept : ∀ n, pc = .returned (.ok n) → s.streamOf c = some n) : Owned (s.setCall c pc) where
  given := owned.given
  once := owned.once
  lost := owned.lost
  all := owned.all
  kept d n returned := by
    change Function.update s.calls c pc d = _ at returned
    by_cases same : d = c
    · subst same
      rw [Function.update_self] at returned
      exact kept n returned
    · rw [Function.update_of_ne same] at returned
      exact owned.kept returned

/-- Answers without a stream to calls that had none. -/
theorem Owned.answer (owned : Owned s) {slots : CallId → Option Answer}
    {queue pending : List CallId} {driver : DriverPc}
    (same : ∀ c, (slots c).bind Answer.stream = s.streamOf c) :
    Owned { s with slots, queue, pending, driver } where
  given c _ at_c := owned.given ((same c).symm.trans at_c)
  once c d _ at_c at_d := owned.once ((same c).symm.trans at_c) ((same d).symm.trans at_d)
  lost := owned.lost
  all _ old := (owned.all old).imp_right fun ⟨c, at_c⟩ => ⟨c, (same c).trans at_c⟩
  kept c _ returned := (same c).trans (owned.kept returned)

/-- A call is dropped; its stream, if it was given one, is lost. -/
theorem Owned.drop (owned : Owned s) (c : CallId) : Owned (s.drop c) := by
  have slot_c : (s.drop c).streamOf c = none := by
    change (Function.update s.slots c none c).bind Answer.stream = none
    rw [Function.update_self]
    rfl
  have elsewhere : ∀ {d}, d ≠ c → (s.drop c).streamOf d = s.streamOf d := by
    intro d other
    change (Function.update s.slots c none d).bind Answer.stream = _
    rw [Function.update_of_ne other]
    rfl
  have lost : ∀ {n}, n ∈ (s.drop c).lost ↔ s.streamOf c = some n ∨ n ∈ s.lost := by
    intro n
    change n ∈ (s.streamOf c).toList ++ s.lost ↔ _
    rw [List.mem_append, Option.mem_toList]
  refine ⟨?_, ?_, ⟨?_, ?_⟩, ?_, ?_⟩
  · intro d n at_d
    by_cases same : d = c
    · subst same
      cases slot_c.symm.trans at_d
    · rw [elsewhere same] at at_d
      refine ⟨(owned.given at_d).1, fun gone => ?_⟩
      rcases lost.mp gone with at_c | before
      · exact same (owned.once at_d at_c)
      · exact (owned.given at_d).2 before
  · intro d d' n at_d at_d'
    by_cases same : d = c
    · subst same
      cases slot_c.symm.trans at_d
    · by_cases same' : d' = c
      · subst same'
        cases slot_c.symm.trans at_d'
      · exact owned.once ((elsewhere same).symm.trans at_d) ((elsewhere same').symm.trans at_d')
  · change ((s.streamOf c).toList ++ s.lost).Nodup
    cases at_c : s.streamOf c with
    | none => exact owned.lost.1
    | some n => exact List.nodup_cons.mpr ⟨(owned.given at_c).2, owned.lost.1⟩
  · intro n gone
    rcases lost.mp gone with at_c | before
    · exact (owned.given at_c).1
    · exact owned.lost.2 n before
  · intro n old
    rcases owned.all old with before | ⟨d, at_d⟩
    · exact .inl (lost.mpr (.inr before))
    · by_cases same : d = c
      · exact .inl (lost.mpr (.inl (same ▸ at_d)))
      · exact .inr ⟨d, (elsewhere same).trans at_d⟩
  · intro d n returned
    by_cases same : d = c
    · subst same
      change Function.update s.calls d .abandoned d = _ at returned
      rw [Function.update_self] at returned
      cases returned
    · change Function.update s.calls c .abandoned d = _ at returned
      rw [Function.update_of_ne same] at returned
      exact (elsewhere same).trans (owned.kept returned)

/-- A stream is opened for a request that had no answer. -/
theorem Owned.serve (owned : Owned s) {c : CallId} (none : s.slots c = none)
    (rest : List CallId) : Owned (s.serve c rest) := by
  have newer : ∀ {d}, s.streamOf d ≠ some s.nextStream :=
    fun at_d => Nat.lt_irrefl _ (owned.given at_d).1
  have later : ∀ {n}, n < s.nextStream + 1 → n = s.nextStream ∨ n < s.nextStream :=
    fun old => Nat.lt_succ_iff_lt_or_eq.mp old |>.symm
  have free : s.nextStream ∉ s.lost := fun gone => Nat.lt_irrefl _ (owned.lost.2 _ gone)
  have elsewhere : ∀ {d}, d ≠ c → (s.serve c rest).streamOf d = s.streamOf d := by
    intro d other
    change (s.answer [c] (.sent (.ok s.nextStream)) d).bind Answer.stream = _
    rw [State.answer, if_neg fun guard => other (List.mem_singleton.mp guard.1)]
    rfl
  cases listens : s.listens c with
  | true =>
      have waiting := (listens_iff c).mp listens
      have at_c : (s.serve c rest).streamOf c = some s.nextStream := by
        change (s.answer [c] (.sent (.ok s.nextStream)) c).bind Answer.stream = _
        rw [answer_of_waiting _ (List.mem_singleton_self c) waiting]
        rfl
      have lost : (s.serve c rest).lost = s.lost := by
        change (if s.listens c = true then _ else _) = _
        rw [if_pos listens]
      refine ⟨?_, ?_, ⟨lost ▸ owned.lost.1, ?_⟩, ?_, ?_⟩
      · intro d n at_d
        by_cases same : d = c
        · subst same
          cases at_c.symm.trans at_d
          exact ⟨Nat.lt_succ_self _, lost ▸ free⟩
        · have before := owned.given ((elsewhere same).symm.trans at_d)
          exact ⟨Nat.lt_succ_of_lt before.1, lost ▸ before.2⟩
      · intro d d' n at_d at_d'
        by_cases same : d = c
        · subst same
          cases at_c.symm.trans at_d
          by_contra other
          exact newer ((elsewhere (Ne.symm other)).symm.trans at_d')
        · by_cases same' : d' = c
          · subst same'
            cases at_c.symm.trans at_d'
            exact absurd ((elsewhere same).symm.trans at_d) newer
          · exact owned.once ((elsewhere same).symm.trans at_d) ((elsewhere same').symm.trans at_d')
      · intro n gone
        rw [lost] at gone
        exact Nat.lt_succ_of_lt (owned.lost.2 n gone)
      · intro n old
        rcases later old with rfl | before
        · exact .inr ⟨c, at_c⟩
        · rcases owned.all before with gone | ⟨d, at_d⟩
          · exact .inl (lost ▸ gone)
          · have other : d ≠ c := by
              rintro rfl
              rw [State.streamOf, none] at at_d
              cases at_d
            exact .inr ⟨d, (elsewhere other).trans at_d⟩
      · intro d n returned
        have other : d ≠ c := by
          rintro rfl
          cases waiting.symm.trans returned
        exact (elsewhere other).trans (owned.kept returned)
  | false =>
      have same : ∀ d, (s.serve c rest).streamOf d = s.streamOf d := by
        intro d
        by_cases at_c : d = c
        · subst at_c
          change (s.answer [d] (.sent (.ok s.nextStream)) d).bind Answer.stream = _
          rw [State.answer, if_neg fun guard => by rw [listens] at guard; cases guard.2]
          rfl
        · exact elsewhere at_c
      have lost : (s.serve c rest).lost = s.nextStream :: s.lost := by
        change (if s.listens c = true then _ else _) = _
        rw [if_neg (by rw [listens]; nofun)]
      refine ⟨?_, ?_, ⟨?_, ?_⟩, ?_, ?_⟩
      · intro d n at_d
        have before := owned.given ((same d).symm.trans at_d)
        refine ⟨Nat.lt_succ_of_lt before.1, fun gone => ?_⟩
        rw [lost] at gone
        rcases List.mem_cons.mp gone with rfl | gone
        · exact Nat.lt_irrefl _ before.1
        · exact before.2 gone
      · intro d d' n at_d at_d'
        exact owned.once ((same d).symm.trans at_d) ((same d').symm.trans at_d')
      · rw [lost]
        exact List.nodup_cons.mpr ⟨free, owned.lost.1⟩
      · intro n gone
        rw [lost] at gone
        rcases List.mem_cons.mp gone with rfl | gone
        · exact Nat.lt_succ_self _
        · exact Nat.lt_succ_of_lt (owned.lost.2 n gone)
      · intro n old
        rw [lost]
        rcases later old with rfl | before
        · exact .inl (List.mem_cons_self ..)
        · rcases owned.all before with gone | ⟨d, at_d⟩
          · exact .inl (List.mem_cons_of_mem _ gone)
          · exact .inr ⟨d, (same d).trans at_d⟩
      · intro d n returned
        exact (same d).trans (owned.kept returned)

theorem Owned.step (owned : Owned s) (waits : Waits s) (turn : Turn s s') : Owned s' := by
  cases turn with
  | opens =>
      have set : Owned (s.setCall s.nextCall .sending) := owned.setCall s.nextCall nofun
      exact { set with }
  | @refused c sending ended => exact owned.setCall c nofun
  | @sends c sending going room =>
      have set : Owned (s.setCall c .waiting) := owned.setCall c nofun
      exact { set with }
  | @returns c a waiting got =>
      refine owned.setCall c fun n returned => ?_
      rw [State.streamOf, got]
      exact result_stream (CallPc.returned.inj returned)
  | drops begun => exact owned.drop _
  | @serves c rest last going =>
      refine owned.serve (waits.unanswered ?_) rest
      rw [State.asked, last, ← List.append_assoc]
      exact List.mem_append_right _ (List.mem_singleton_self c)
  | fails left told all =>
      refine owned.answer fun c => ?_
      rcases told c with same | ⟨place, waiting, a, told, none⟩
      · rw [same]
        rfl
      · have asked : c ∈ s.asked :=
          place.elim (List.mem_append_right _) fun queued => List.mem_append_left _ queued.1
        rw [told, State.streamOf, waits.unanswered asked]
        exact none
  | takes first going => exact { owned with }
  | moves going goes => exact { owned with }

/-- Every stream that the session has opened is one call's and no other's, or was reset because the
call had gone; a call that returned a stream has that one. -/
theorem mux_streams_owned (run : mux.Reachable s) :
    (∀ n, n < s.nextStream →
      (n ∈ s.lost ∧ ∀ c, s.streamOf c ≠ some n) ∨ (n ∉ s.lost ∧ ∃! c, s.streamOf c = some n)) ∧
      ∀ c n, s.calls c = .returned (.ok n) → n < s.nextStream ∧ s.streamOf c = some n := by
  have owned : Owned s := by
    refine run.invariant ?_ fun before owned _ move => owned.step (mux_waits before) (step_turn move)
    rintro _ rfl
    exact ⟨nofun, nofun, ⟨List.nodup_nil, nofun⟩, fun _ old => absurd old (Nat.not_lt_zero _), nofun⟩
  refine ⟨fun n old => ?_, fun c n returned => ?_⟩
  · rcases owned.all old with gone | ⟨c, at_c⟩
    · exact .inl ⟨gone, fun c at_c => (owned.given at_c).2 gone⟩
    · exact .inr ⟨(owned.given at_c).2, c, at_c, fun d at_d => owned.once at_d at_c⟩
  · have at_c := owned.kept returned
    exact ⟨(owned.given at_c).1, at_c⟩

/-- Two calls ask for a stream, and the second is dropped before it gets one. -/
theorem mux_streams_owned_two : ∃ s : State, mux.Reachable s ∧ s.nextStream = 2 ∧
    (∀ c, s.streamOf c ≠ some 1) ∧ ∃! c, s.streamOf c = some 0 := by
  obtain ⟨s, run, passed⟩ := sample_session
    [.open, .open, .send 0, .send 1, .driver .recv, .driver .opened, .driver .recv, .abandon 1,
      .driver .opened]
    (fun s => s.nextStream = 2 && s.lost = [1]) (by decide +kernel)
  rw [Bool.and_eq_true, decide_eq_true_eq, decide_eq_true_eq] at passed
  obtain ⟨two, gone⟩ := passed
  have owners := (mux_streams_owned run).1
  rw [two, gone] at owners
  have first := (owners 0 (by decide)).resolve_left fun lost => by simp at lost
  have second := (owners 1 (by decide)).resolve_right fun kept => kept.1 (List.mem_singleton_self 1)
  exact ⟨s, run, two, second.2, first.2⟩

end Remgr.Frpc.Mux
