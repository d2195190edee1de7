/-
Module: Remgr.Proofs.UdpSockets
Purpose: The count of user sockets that all udp tunnels of a client share. It is the number of tasks
  started and not ended, and the table of a tunnel stays within its bound. The cap on the count is
  checked before two awaits and the count raised after them, so it holds in the runs where nobody
  else raises it in between, or what a tunnel saw leaves room for all of them, and a run of many
  tunnels exceeds it.
Trusted boundary: as in `Remgr.Udp.Tunnels`
Main exports: SocketsCapped, SinceCheck, Spaced, sockets_capped, sockets_capped_crossing,
  cap_exceeded
-/
import Remgr.Lib.Record
import Remgr.Lib.Tally
import Remgr.Proofs.UdpTunnels

namespace Remgr.Udp.Tunnels

open Remgr.Lib
open Remgr.Frps

/-- The tasks that have been started and have not ended. -/
def State.started (s : State) : Set SocketId := {i | (s.sockets i).pc.runs = true}

/-- The count says how many tasks there are and is not lowered below zero, and both caps hold. -/
structure SocketsCapped (s : State) : Prop where
  finite : s.started.Finite
  counted : s.udpUserSockets.toNat = s.started.ncard
  positive : ∀ i, (s.sockets i).pc = .lower → 0 < s.udpUserSockets.toNat
  capped : s.udpUserSockets.toNat ≤ maxUserSockets
  tables : ∀ t, (s.tunnels t).users.length ≤ maxUserSessions

/-! ## The condition on runs -/

/-- The tunnel compares the count with the cap. -/
def checks (t : TunnelId) (s : State) : Action → Bool
  | .reader u .go =>
      match (s.tunnels u).reader with
      | .check _ => u == t
      | _ => false
  | _ => false

/-- Some tunnel raises the count. -/
def raises (s : State) : Action → Bool
  | .reader t .go =>
      match (s.tunnels t).reader with
      | .raise _ => true
      | _ => false
  | _ => false

/-- The task of some socket lowers it. -/
def lowers (s : State) : Action → Bool
  | .task i .go =>
      match (s.sockets i).pc with
      | .lower => true
      | _ => false
  | _ => false

/-- The count that a tunnel saw when it last compared it with the cap, and how often it has been
raised and lowered since then. -/
structure SinceCheck where
  seen : Nat
  raised : Nat
  lowered : Nat

def sinceCheck (t : TunnelId) : List (State × Action) → SinceCheck
  | [] => ⟨0, 0, 0⟩
  | (s, a) :: past =>
      if checks t s a then ⟨s.udpUserSockets.toNat, 0, 0⟩
      else
        let since := sinceCheck t past
        ⟨since.seen, since.raised + (raises s a).toNat, since.lowered + (lowers s a).toNat⟩

/-- A tunnel raises the count only if nobody else has since it looked, or if there is room for all
of them. -/
def Spaced (h : System.Recorded State Action) : Action → Prop
  | .reader t .go => ∀ d, (h.1.tunnels t).reader = .raise d →
      (sinceCheck t h.2).raised = 0 ∨
        (sinceCheck t h.2).seen + (sinceCheck t h.2).raised <
          maxUserSockets + (sinceCheck t h.2).lowered
  | _ => True

/-! ## The tables -/

/-- The table is within its bound, and a reader that opens a socket has room for it. -/
structure Fits (tunnel : Tunnel) : Prop where
  size : tunnel.users.length ≤ maxUserSessions
  room : ∀ d ∈ tunnel.reader.opening, HasRoom tunnel.users d.user

theorem Fits.move {w : World} {old new : Tunnel} (fits : Fits old) (move : TunnelMove w old new) :
    Fits new where
  size := move.users.length_le.trans fits.size
  room d inside := by
    rcases move.opening d inside with ⟨before, same⟩ | room
    · rw [same]
      exact fits.room d before
    · exact room

/-- The entry of a user takes the place of the one there was, or there is room for it. -/
theorem insert_length {users : List (SocketAddr × SocketId)} {user : SocketAddr}
    (size : users.length ≤ maxUserSessions) (room : HasRoom users user) :
    (users.filter fun entry => entry.1 ≠ user).length + 1 ≤ maxUserSessions := by
  rcases room with known | small
  · obtain ⟨i, found⟩ := Option.ne_none_iff_exists'.mp known
    have shorter : (users.filter fun entry => entry.1 ≠ user).length < users.length :=
      List.length_filter_lt_length_iff_exists.mpr
        ⟨(user, i), mem_of_lookup found, by simp⟩
    omega
  · have shorter := List.length_filter_le (fun entry => decide (entry.1 ≠ user)) users
    omega

theorem Fits.step {w : World} {s s' : State} {a : Action} (fits : ∀ t, Fits (s.tunnels t))
    (turn : Turn w s a s') (t : TunnelId) : Fits (s'.tunnels t) := by
  have setTunnel : ∀ {u : TunnelId} {tunnel : Tunnel}, Fits tunnel →
      Fits ((s.setTunnel u tunnel).tunnels t) := by
    intro u tunnel own
    by_cases same : t = u
    · rwa [same, setTunnel_self]
    · rw [setTunnel_of_ne s same]
      exact fits t
  cases turn with
  | quiet moves tasks => exact (fits t).move (moves t)
  | @opens u d raises stage =>
      exact setTunnel ⟨insert_length (fits u).size ((fits u).room d (by rw [stage]; rfl)), nofun⟩
  | @delivers u d i stage => exact setTunnel ⟨(fits u).size, nofun⟩
  | receives content stage => exact fits t
  | @enqueues i u content stage => exact setTunnel ⟨(fits u).size, (fits u).room⟩
  | lowers ends stage => exact fits t
  | @writes u reply rest first => exact setTunnel ⟨(fits u).size, (fits u).room⟩

/-! ## The count -/

theorem mem_started {s : State} {i : SocketId} :
    i ∈ s.started ↔ (s.sockets i).pc.runs = true := Iff.rfl

/-- What a step does to the tasks and their count: nothing, or one begins under a raised count, or
one ends under a lowered one. -/
inductive CountTurn (s : State) (a : Action) (s' : State) : Prop
  | same (raised : raises s a = false) (lowered : lowers s a = false)
      (count : s'.udpUserSockets = s.udpUserSockets) (tasks : s'.started = s.started)
  | begins {t : TunnelId} {d : Datagram} (raising : a = .reader t .go)
      (stage : (s.tunnels t).reader = .raise d) (count : s'.udpUserSockets = s.udpUserSockets + 1)
      (tasks : s'.started = insert s.nextSocket s.started)
  | ends {i : SocketId} (lowering : a = .task i .go) (stage : (s.sockets i).pc = .lower)
      (count : s'.udpUserSockets = s.udpUserSockets - 1) (tasks : s'.started = s.started \ {i})

theorem raises_iff {s : State} {a : Action} : raises s a = true ↔
    ∃ t d, a = .reader t .go ∧ (s.tunnels t).reader = .raise d := by
  constructor
  · intro raising
    unfold raises at raising
    split at raising
    · next t =>
        split at raising
        · next d stage => exact ⟨t, d, rfl, stage⟩
        · cases raising
    · cases raising
  · rintro ⟨t, d, rfl, stage⟩
    simp only [raises, stage]

theorem lowers_iff {s : State} {a : Action} : lowers s a = true ↔
    ∃ i, a = .task i .go ∧ (s.sockets i).pc = .lower := by
  constructor
  · intro lowering
    unfold lowers at lowering
    split at lowering
    · next i =>
        split at lowering
        · next stage => exact ⟨i, rfl, stage⟩
        · cases lowering
    · cases lowering
  · rintro ⟨i, rfl, stage⟩
    simp only [lowers, stage]

theorem openSocket_started (s : State) (t : TunnelId) (d : Datagram) :
    (s.openSocket t d).started = insert s.nextSocket s.started := by
  ext i
  rw [Set.mem_insert_iff]
  by_cases own : i = s.nextSocket
  · refine iff_of_true ?_ (.inl own)
    rw [own, mem_started]
    exact congrArg (fun socket => socket.pc.runs) (setSocket_self _ _ _)
  · have same : (s.openSocket t d).sockets i = s.sockets i := setSocket_of_ne _ own _
    rw [mem_started, same, or_iff_right own, mem_started]

theorem ended_started (s : State) (i : SocketId) :
    (s.setSocket i { s.sockets i with pc := .ended }).started = s.started \ {i} := by
  ext j
  rw [Set.mem_sdiff_singleton]
  by_cases own : j = i
  · rw [own]
    refine iff_of_false ?_ fun other => other.2 rfl
    rw [mem_started, setSocket_self]
    exact Bool.false_ne_true
  · rw [mem_started, setSocket_of_ne s own, and_iff_left own, mem_started]

theorem step_counts {w : World} {s s' : State} {a : Action} (move : step w a s = some s') :
    CountTurn s a s' := by
  by_cases raising : raises s a = true
  · obtain ⟨t, d, rfl, stage⟩ := raises_iff.mp raising
    change readerStep w t s (s.tunnels t).reader .go = some s' at move
    rw [stage] at move
    cases move
    exact .begins rfl stage rfl (openSocket_started s t d)
  by_cases lowering : lowers s a = true
  · obtain ⟨i, rfl, stage⟩ := lowers_iff.mp lowering
    change taskStep i s (s.sockets i).pc .go = some s' at move
    rw [stage] at move
    cases move
    exact .ends rfl stage rfl (ended_started s i)
  have goesOn : ∀ {i : SocketId} {pc : TaskPc}, (s.sockets i).pc.runs = pc.runs →
      (s.setSocket i { s.sockets i with pc }).started = s.started := by
    intro i pc same
    ext j
    by_cases own : j = i
    · rw [own, mem_started, setSocket_self, mem_started, same]
    · rw [mem_started, setSocket_of_ne s own, mem_started]
  have same : s'.udpUserSockets = s.udpUserSockets → s'.started = s.started → CountTurn s a s' :=
    .same (Bool.eq_false_of_not_eq_true raising) (Bool.eq_false_of_not_eq_true lowering)
  cases step_turn move with
  | quiet moves tasks =>
      refine same rfl (Set.ext fun i => ?_)
      rw [mem_started, mem_started, (tasks i).runs]
  | opens raises stage => exact absurd (raises_iff.mpr ⟨_, _, raises, stage⟩) raising
  | delivers stage => exact same rfl rfl
  | receives content stage => exact same rfl (goesOn (by rw [stage]; rfl))
  | enqueues stage => exact same rfl (goesOn (by rw [stage]; rfl))
  | lowers ends stage => exact absurd (lowers_iff.mpr ⟨_, ends, stage⟩) lowering
  | writes first => exact same rfl rfl

/-- The next task is not one of those started. -/
theorem next_notMem {w : World} {s : State} (sound : Sound w s) : s.nextSocket ∉ s.started :=
  fun runs => Nat.lt_irrefl _ (sound.known s.nextSocket runs).1

theorem CountTurn.tally {w : World} {s s' : State} {a : Action} (turn : CountTurn s a s')
    (sound : Sound w s) (tally : Tally s.udpUserSockets s.started) :
    Tally s'.udpUserSockets s'.started := by
  cases turn with
  | same raised lowered count tasks =>
      rw [count, tasks]
      exact tally
  | begins raising stage count tasks =>
      rw [count, tasks]
      exact tally.enter (next_notMem sound)
  | ends lowering stage count tasks =>
      rw [count, tasks]
      exact tally.leave (mem_started.mpr (by rw [stage]; rfl))

theorem tunnels_fit {w : World} {allowed : State → Action → Prop} {s : State}
    (run : (tunnels w).Reaches allowed s) (t : TunnelId) : Fits (s.tunnels t) := by
  refine run.invariant (P := fun s => ∀ t, Fits (s.tunnels t)) ?_ ?_ t
  · rintro s rfl
    exact fun _ => ⟨Nat.zero_le _, nofun⟩
  · exact fun _ fits _ move => Fits.step fits (step_turn move)

theorem started_new : ({} : State).started = ∅ :=
  Set.eq_empty_iff_forall_notMem.mpr fun _ => Bool.false_ne_true

/-- Whatever the tunnels do, the count follows the tasks. -/
theorem tunnels_tally {w : World} {allowed : State → Action → Prop} {s : State}
    (run : (tunnels w).Reaches allowed s) : Tally s.udpUserSockets s.started := by
  refine run.invariant (P := fun s => Tally s.udpUserSockets s.started) ?_ ?_
  · rintro s rfl
    rw [started_new]
    exact .empty
  · exact fun before tally _ move => (step_counts move).tally (tunnels_sound before) tally

/-! ## Between the check and the raise -/

/-- The reader has compared the count with the cap and not raised it yet. -/
def ReaderPc.passed : ReaderPc → Bool
  | .bind _ | .connect _ | .raise _ => true
  | _ => false

section Passed

variable {w : World} {s s' : State} {t u : TunnelId} {a : Action}

theorem takeFrame_others (other : t ≠ u) (frame : RawMsg) :
    (takeFrame w s u frame).tunnels t = s.tunnels t := by
  unfold takeFrame
  split
  · rfl
  · split
    · exact setTunnel_of_ne s other _
    · split
      · rfl
      · next d parsed =>
          obtain ⟨users, sockets, made, -⟩ := Turn.makeRoom_eq s u d.user
          rw [made]
          unfold State.chooseSocket
          simp only [setTunnel_self, goto_setTunnel]
          split
          · exact setTunnel_of_ne s other _
          · exact setTunnel_of_ne s other _

/-- A frame brings the reader no further than the check. -/
theorem takeFrame_passed (stage : (s.tunnels t).reader = .frame) {frame : RawMsg} :
    ((takeFrame w s t frame).tunnels t).reader.passed = false := by
  unfold takeFrame
  split
  · rw [stage]
    rfl
  · split
    · rw [State.endReader, setTunnel_self]
      rfl
    · split
      · rw [stage]
        rfl
      · next d parsed =>
          obtain ⟨users, sockets, made, -⟩ := Turn.makeRoom_eq s t d.user
          rw [made]
          unfold State.chooseSocket
          simp only [setTunnel_self, goto_setTunnel]
          split
          · exact congrArg (fun tunnel => tunnel.reader.passed) (setTunnel_self s t _)
          · exact congrArg (fun tunnel => tunnel.reader.passed) (setTunnel_self s t _)

/-- The reader of another tunnel leaves this one alone. -/
theorem readerStep_others {pc : ReaderPc} {input : ReaderInput} (other : t ≠ u)
    (move : readerStep w u s pc input = some s') : s'.tunnels t = s.tunnels t := by
  cases pc with
  | unborn =>
      cases input <;> cases move
      exact setTunnel_of_ne s other _
  | frame =>
      cases input with
      | frame result =>
          cases result <;> cases move
          · exact setTunnel_of_ne s other _
          · exact takeFrame_others other _
      | cancelled =>
          obtain ⟨-, moved⟩ := Option.ite_none_right_eq_some.mp move
          cases moved
          exact setTunnel_of_ne s other _
      | _ => cases move
  | check d =>
      cases input <;> try cases move
      simp only [readerStep] at move
      split at move <;> cases move
      · exact setTunnel_of_ne s other _
      · exact setTunnel_of_ne s other _
  | bind d | connect d =>
      cases input <;> try cases move
      next ok => cases ok <;> exact setTunnel_of_ne s other _
  | raise d =>
      cases input <;> cases move
      exact setTunnel_of_ne s other _
  | deliver d i =>
      cases input with
      | called ok => cases ok <;> cases move <;> exact setTunnel_of_ne _ other _
      | _ => cases move
  | done => cases input <;> cases move

/-- Only its own reader moves a reader on. -/
theorem reader_kept (move : step w a s = some s') (other : ∀ input, a ≠ .reader t input) :
    (s'.tunnels t).reader = (s.tunnels t).reader := by
  have setTunnel : ∀ {u : TunnelId} {tunnel : Tunnel}, tunnel.reader = (s.tunnels u).reader →
      ((s.setTunnel u tunnel).tunnels t).reader = (s.tunnels t).reader := by
    intro u tunnel same
    by_cases own : t = u
    · rw [own, setTunnel_self, same]
    · rw [setTunnel_of_ne s own]
  cases a with
  | reader u input =>
      have others : t ≠ u := fun same => other input (same ▸ rfl)
      rw [readerStep_others others move]
  | writer u input =>
      cases input with
      | tick ok =>
          obtain ⟨-, moved⟩ := Option.ite_none_right_eq_some.mp move
          cases ok <;> cases moved
          · exact setTunnel rfl
          · rfl
      | write ok =>
          simp only [step, writerStep] at move
          split at move
          · cases move
          · obtain ⟨-, moved⟩ := Option.ite_none_right_eq_some.mp move
            split at moved
            · cases moved
              exact setTunnel rfl
            · cases ok <;> cases moved
              · exact setTunnel rfl
              · exact setTunnel rfl
      | stops =>
          obtain ⟨-, moved⟩ := Option.ite_none_right_eq_some.mp move
          cases moved
          exact setTunnel rfl
  | task i input =>
      change taskStep i s (s.sockets i).pc input = some s' at move
      generalize (s.sockets i).pc = pc at move
      cases pc with
      | loop =>
          cases input with
          | cancelled | recv datagram =>
              obtain ⟨-, moved⟩ := Option.ite_none_right_eq_some.mp move
              cases moved
              rfl
          | fails =>
              cases move
              rfl
          | go => cases move
      | send content =>
          cases input <;> try cases move
          simp only [taskStep] at move
          split at move
          · cases move
            rfl
          · obtain ⟨-, moved⟩ := Option.ite_none_right_eq_some.mp move
            cases moved
            exact setTunnel rfl
      | left | lower =>
          cases input <;> cases move
          rfl
      | unborn | ended => cases input <;> cases move
  | cancel u =>
      cases move
      exact setTunnel rfl

/-- A reader gets past the check when it sees a count below the cap, and is past it until it raises
the count or gives up. -/
theorem passed_cases (move : step w a s = some s') (passed : (s'.tunnels t).reader.passed = true) :
    (checks t s a = true ∧ s.udpUserSockets.toNat < maxUserSockets) ∨
      (checks t s a = false ∧ (s.tunnels t).reader.passed = true) := by
  by_cases own : ∃ input, a = .reader t input
  · obtain ⟨input, rfl⟩ := own
    change readerStep w t s (s.tunnels t).reader input = some s' at move
    cases stage : (s.tunnels t).reader with
    | check d =>
        rw [stage] at move
        cases input <;> try cases move
        simp only [readerStep] at move
        split at move <;> cases move
        · rw [State.goto, setTunnel_self] at passed
          cases passed
        · next below =>
            refine .inl ⟨?_, Nat.lt_of_not_le below⟩
            simp only [checks, stage, beq_self_eq_true]
    | bind d | connect d | raise d =>
        refine .inr ⟨?_, rfl⟩
        cases input with
        | go => simp only [checks, stage]
        | _ => rfl
    | unborn =>
        rw [stage] at move
        cases input <;> cases move
        rw [setTunnel_self] at passed
        cases passed
    | frame =>
        rw [stage] at move
        cases input with
        | frame result =>
            cases result <;> cases move
            · rw [State.endReader, setTunnel_self] at passed
              cases passed
            · cases (takeFrame_passed stage).symm.trans passed
        | cancelled =>
            obtain ⟨-, moved⟩ := Option.ite_none_right_eq_some.mp move
            cases moved
            rw [State.endReader, setTunnel_self] at passed
            cases passed
        | _ => cases move
    | deliver d i =>
        rw [stage] at move
        cases input with
        | called ok =>
            cases ok <;> cases move
            · rw [setTunnel_self] at passed
              cases passed
            · rw [State.goto, setTunnel_self] at passed
              cases passed
        | _ => cases move
    | done =>
        rw [stage] at move
        cases input <;> cases move
  · refine .inr ⟨?_, ?_⟩
    · unfold checks
      split
      · next u =>
          split
          · exact beq_eq_false_iff_ne.mpr fun same => own ⟨.go, same ▸ rfl⟩
          · rfl
      · rfl
    · rw [← reader_kept move fun input same => own ⟨input, same⟩]
      exact passed

end Passed

/-! ## The cap -/

section Cap

variable {w : World} {s s' : State} {a : Action} {past : List (State × Action)}

/-- The cap holds, and a tunnel past the check can tell how many tasks there are now from what it
saw and from what the others have done since. -/
structure Kept (h : System.Recorded State Action) : Prop where
  capped : h.1.started.ncard ≤ maxUserSockets
  since : ∀ t, (h.1.tunnels t).reader.passed = true →
    (sinceCheck t h.2).seen < maxUserSockets ∧
      h.1.started.ncard + (sinceCheck t h.2).lowered =
        (sinceCheck t h.2).seen + (sinceCheck t h.2).raised

theorem checks_iff {t : TunnelId} : checks t s a = true ↔
    a = .reader t .go ∧ ∃ d, (s.tunnels t).reader = .check d := by
  constructor
  · intro checked
    unfold checks at checked
    split at checked
    · next u =>
        split at checked
        · next d stage =>
            cases eq_of_beq checked
            exact ⟨rfl, d, stage⟩
        · cases checked
    · cases checked
  · rintro ⟨rfl, d, stage⟩
    simp only [checks, stage, beq_self_eq_true]

theorem sinceCheck_checked {t : TunnelId} (checked : checks t s a = true) :
    sinceCheck t ((s, a) :: past) = ⟨s.udpUserSockets.toNat, 0, 0⟩ := if_pos checked

theorem sinceCheck_later {t : TunnelId} (unchecked : checks t s a = false) :
    sinceCheck t ((s, a) :: past) =
      ⟨(sinceCheck t past).seen, (sinceCheck t past).raised + (raises s a).toNat,
        (sinceCheck t past).lowered + (lowers s a).toNat⟩ :=
  if_neg (by rw [unchecked]; exact Bool.false_ne_true)

/-- The number of tasks after a step. -/
theorem CountTurn.ncard (turn : CountTurn s a s') (sound : Sound w s) (finite : s.started.Finite) :
    s'.started.ncard + (lowers s a).toNat = s.started.ncard + (raises s a).toNat := by
  cases turn with
  | same raised lowered count tasks => rw [tasks, raised, lowered]
  | begins raising stage count tasks =>
      have raised : raises s a = true := raises_iff.mpr ⟨_, _, raising, stage⟩
      have lowered : lowers s a = false := by rw [raising]; rfl
      rw [tasks, raised, lowered, Set.ncard_insert_of_notMem (next_notMem sound) finite]
      rfl
  | @ends i lowering stage count tasks =>
      have raised : raises s a = false := by rw [lowering]; rfl
      have lowered : lowers s a = true := lowers_iff.mpr ⟨_, lowering, stage⟩
      have inside : i ∈ s.started := mem_started.mpr (by rw [stage]; rfl)
      rw [tasks, raised, lowered]
      exact Set.ncard_sdiff_singleton_add_one inside finite

theorem Kept.step (kept : Kept ⟨s, past⟩) (sound : Sound w s)
    (tally : Tally s.udpUserSockets s.started) (spaced : Spaced ⟨s, past⟩ a)
    (move : Tunnels.step w a s = some s') : Kept ⟨s', (s, a) :: past⟩ := by
  have turn := step_counts move
  have number := turn.ncard sound tally.finite
  constructor
  · change s'.started.ncard ≤ maxUserSockets
    cases turn with
    | same raised lowered count tasks =>
        rw [tasks]
        exact kept.capped
    | @begins t d raising stage count tasks =>
        subst raising
        have passed : (s.tunnels t).reader.passed = true := by
          rw [show (s.tunnels t).reader = _ from stage]
          rfl
        obtain ⟨below, counted⟩ := kept.since t passed
        rw [tasks, Set.ncard_insert_of_notMem (next_notMem sound) tally.finite]
        dsimp only at below counted
        rcases spaced d stage with alone | roomy
        · dsimp only at alone
          omega
        · dsimp only at roomy
          omega
    | ends lowering stage count tasks =>
        rw [tasks]
        exact (Set.ncard_le_ncard Set.sdiff_subset tally.finite).trans kept.capped
  · intro t passed
    change _ < _ ∧ s'.started.ncard + _ = _
    rcases passed_cases move passed with ⟨checked, below⟩ | ⟨unchecked, before⟩
    · obtain ⟨rfl, d, stage⟩ := checks_iff.mp checked
      have raised : raises s (.reader t .go) = false := by simp only [raises, stage]
      have lowered : lowers s (.reader t .go) = false := rfl
      rw [raised, lowered] at number
      rw [sinceCheck_checked checked]
      refine ⟨below, number.trans ?_⟩
      rw [tally.toNat_eq (kept.capped.trans_lt (by decide))]
      rfl
    · obtain ⟨below, counted⟩ := kept.since t before
      rw [sinceCheck_later unchecked]
      dsimp only at below counted ⊢
      exact ⟨below, by omega⟩

/-- No more tasks than the cap allows, in the runs that meet the condition. -/
theorem tunnels_kept {h : System.Recorded State Action}
    (run : (tunnels w).recorded.Reaches Spaced h) : Kept h := by
  refine run.invariant ?_ ?_
  · rintro ⟨s, past⟩ ⟨rfl, _⟩
    refine ⟨?_, fun t passed => Bool.noConfusion passed⟩
    change Set.ncard (({} : State).started) ≤ _
    rw [started_new, Set.ncard_empty]
    exact Nat.zero_le _
  · rintro ⟨s, past⟩ a ⟨s', past'⟩ before kept spaced ⟨move, rfl⟩
    have run : (tunnels w).Reachable s := before.unrecorded fun _ => trivial
    exact kept.step (tunnels_sound run) (tunnels_tally run) spaced move

end Cap

/-- In every run where nobody else raises the count between a tunnel's check and its raise, unless
what it saw leaves room for all of them: the count is the number of tasks, it is not lowered below
zero, and neither cap is exceeded. -/
theorem sockets_capped {w : World} {h : System.Recorded State Action}
    (run : (tunnels w).recorded.Reaches Spaced h) : SocketsCapped h.1 := by
  have reached : (tunnels w).Reachable h.1 := run.unrecorded fun _ => trivial
  have tally := tunnels_tally reached
  have capped := (tunnels_kept run).capped
  have counted : h.1.udpUserSockets.toNat = h.1.started.ncard :=
    tally.toNat_eq (capped.trans_lt (by decide))
  refine ⟨tally.finite, counted, fun i stage => ?_, counted ▸ capped,
    fun t => (tunnels_fit reached t).size⟩
  rw [counted]
  exact tally.pos_of_mem (mem_started.mpr (by rw [stage]; rfl))

instance (h : System.Recorded State Action) : DecidablePred (Spaced h)
  | .reader t .go =>
      match stage : (h.1.tunnels t).reader with
      | .raise d => decidable_of_iff _ ⟨fun spaced _ _ => spaced, fun spaced => spaced d stage⟩
      | .unborn | .frame | .check _ | .bind _ | .connect _ | .deliver _ _ | .done =>
          isTrue fun d raising => by rw [stage] at raising; cases raising
  | .reader _ .start | .reader _ (.frame _) | .reader _ .cancelled | .reader _ (.called _)
  | .writer _ _ | .task _ _ | .cancel _ => isTrue trivial

/-- Two tunnels have both passed the check before either raises the count; there is room for both.
-/
theorem sockets_capped_crossing :
    ∃ h, (tunnels sampleWorld).recorded.Reaches Spaced h ∧ (sinceCheck 1 h.2).raised = 2 ∧
      h.1.udpUserSockets = 2 ∧ SocketsCapped h.1 := by
  have passed : (System.execute
      (System.guarded (fun h a => decide (Spaced h a)) (System.recordedStep (step sampleWorld)))
      (openingRun 0 ++ openingRun 1 ++ [.reader 0 .go, .reader 1 .go]) ⟨{}, []⟩).any
      (fun h => decide ((sinceCheck 1 h.2).raised = 2 ∧ h.1.udpUserSockets = 2)) = true := by
    decide +kernel
  obtain ⟨h, done, shown⟩ := System.exists_of_any passed
  obtain ⟨raised, count⟩ := of_decide_eq_true shown
  have run : (tunnels sampleWorld).recorded.Reaches Spaced h :=
    System.recording_reaches id of_decide_eq_true rfl done
  exact ⟨h, run, raised, count, sockets_capped run⟩

/-! ## More tunnels than the cap -/

/-- What `sampleWorld` reads in a frame. -/
def sampleDatagram : Datagram := ⟨[], sampleAddr, [1]⟩

/-- A tunnel that has seen nothing but the frame its reader is busy with. -/
def firstFrame (pc : ReaderPc) : Tunnel := { reader := pc, writes := true }

section Opening

variable {s : State} {t : TunnelId}

theorem firstFrame_taken :
    takeFrame sampleWorld (s.setTunnel t (firstFrame .frame)) t (TYPE_UDP_PACKET, []) =
      s.setTunnel t (firstFrame (.check sampleDatagram)) := by
  have parsed : readPacket sampleWorld [] = some sampleDatagram := by decide +kernel
  have roomy : (s.setTunnel t (firstFrame .frame)).makeRoom t sampleDatagram.user =
      s.setTunnel t (firstFrame .frame) := by
    unfold State.makeRoom
    rw [setTunnel_self]
    exact if_neg fun crowded => absurd crowded.1 (by decide)
  rw [takeFrame, if_neg (by decide), if_neg (by decide), parsed]
  change State.chooseSocket (State.makeRoom _ _ _) _ _ = _
  rw [roomy]
  unfold State.chooseSocket
  rw [setTunnel_self]
  exact goto_setTunnel s t _ s.sockets _

/-- While nobody has raised the count, a fresh tunnel gets as far as raising it. -/
theorem openingRun_executes (blank : s.tunnels t = {}) (count : s.udpUserSockets = 0) :
    System.execute (step sampleWorld) (openingRun t) s =
      some (s.setTunnel t (firstFrame (.raise sampleDatagram))) := by
  have goes : ∀ pc pc', (s.setTunnel t (firstFrame pc)).goto t pc' =
      s.setTunnel t (firstFrame pc') := fun pc pc' => goto_setTunnel s t _ s.sockets pc'
  have started : step sampleWorld (.reader t .start) s =
      some (s.setTunnel t (firstFrame .frame)) := by
    simp only [step, blank, readerStep, firstFrame]
  have taken : step sampleWorld (.reader t (.frame (some (TYPE_UDP_PACKET, []))))
      (s.setTunnel t (firstFrame .frame)) =
        some (s.setTunnel t (firstFrame (.check sampleDatagram))) := by
    simp only [step, setTunnel_self, firstFrame, readerStep]
    exact congrArg some firstFrame_taken
  have checked : step sampleWorld (.reader t .go)
      (s.setTunnel t (firstFrame (.check sampleDatagram))) =
        some (s.setTunnel t (firstFrame (.bind sampleDatagram))) := by
    have below : ¬ maxUserSockets ≤ s.udpUserSockets.toNat := by
      rw [count]
      decide
    simp only [step, setTunnel_self, firstFrame, readerStep]
    exact (if_neg below).trans (congrArg some (goes _ _))
  have bound : step sampleWorld (.reader t (.called true))
      (s.setTunnel t (firstFrame (.bind sampleDatagram))) =
        some (s.setTunnel t (firstFrame (.connect sampleDatagram))) := by
    simp only [step, setTunnel_self, firstFrame, readerStep]
    exact congrArg some (goes _ _)
  have connected : step sampleWorld (.reader t (.called true))
      (s.setTunnel t (firstFrame (.connect sampleDatagram))) =
        some (s.setTunnel t (firstFrame (.raise sampleDatagram))) := by
    simp only [step, setTunnel_self, firstFrame, readerStep]
    exact congrArg some (goes _ _)
  simp only [openingRun, System.execute, started, taken, checked, bound, connected,
    Option.bind_some]

end Opening

/-- Any number of tunnels can have passed the check while the count is still zero. -/
theorem all_pass_check (n : Nat) :
    ∃ s, (tunnels sampleWorld).Reachable s ∧ s.udpUserSockets = 0 ∧
      (∀ t < n, (s.tunnels t).reader = .raise sampleDatagram) ∧ ∀ t ≥ n, s.tunnels t = {} := by
  induction n with
  | zero => exact ⟨{}, .start rfl, rfl, nofun, fun _ _ => rfl⟩
  | succ n inductionHypothesis =>
      obtain ⟨s, run, count, waiting, blank⟩ := inductionHypothesis
      refine ⟨s.setTunnel n (firstFrame (.raise sampleDatagram)), ?_, count, fun t below => ?_,
        fun t above => ?_⟩
      · exact System.reaches_of_execute (fun _ moved => ⟨trivial, moved⟩) run
          (openingRun_executes (blank n (Nat.le_refl n)) count)
      · by_cases same : t = n
        · rw [same, setTunnel_self]
          rfl
        · rw [setTunnel_of_ne s same]
          exact waiting t (by omega)
      · rw [setTunnel_of_ne s (Nat.ne_of_gt above)]
        exact blank t (Nat.le_of_lt above)

/-- Then each of them raises the count. -/
theorem all_raise (n k : Nat) (few : k ≤ n) :
    ∃ s, (tunnels sampleWorld).Reachable s ∧ s.udpUserSockets = UInt64.ofNat k ∧
      ∀ t < n, k ≤ t → (s.tunnels t).reader = .raise sampleDatagram := by
  induction k with
  | zero =>
      obtain ⟨s, run, count, waiting, -⟩ := all_pass_check n
      exact ⟨s, run, count, fun t below _ => waiting t below⟩
  | succ k inductionHypothesis =>
      obtain ⟨s, run, count, waiting⟩ := inductionHypothesis (by omega)
      refine ⟨s.openSocket k sampleDatagram, .next (a := .reader k .go) run trivial ?_, ?_,
        fun t below above => ?_⟩
      · change readerStep _ _ _ _ _ = _
        rw [waiting k (by omega) (Nat.le_refl k)]
        rfl
      · change s.udpUserSockets + 1 = _
        rw [count, UInt64.ofNat_add]
        rfl
      · have same : (s.openSocket k sampleDatagram).tunnels t = s.tunnels t :=
          setTunnel_of_ne s (Nat.ne_of_gt above) _
        rw [same]
        exact waiting t below (by omega)

/-- One tunnel more than the cap allows, all past the check before the first one raises the count.
-/
theorem cap_exceeded :
    ∃ s, (tunnels sampleWorld).Reachable s ∧ ¬ SocketsCapped s := by
  obtain ⟨s, run, count, -⟩ := all_raise 1025 1025 (Nat.le_refl _)
  refine ⟨s, run, fun caps => ?_⟩
  have capped := caps.capped
  rw [count] at capped
  exact absurd capped (by decide)

end Remgr.Udp.Tunnels
