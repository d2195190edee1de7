/-
Module: Remgr.Proofs.TcpDrain
Purpose: A tcp tunnel never keeps anything back. Once both ends copy and no connection has failed,
  everything that went in before the end can be brought out by the pumps of that direction alone, and
  the end behind it.
Trusted boundary: as in `Remgr.Tcp.Tunnel`
Main exports: PumpInput.carries, Carries, Progress, Copies.progress, Open, tunnel_drains
-/
import Remgr.Proofs.TcpTunnel

namespace Remgr.Tcp

open Remgr.Lib
open Remgr.Frps

/-- The inputs with which a pump gets on. -/
def PumpInput.carries : PumpInput → Bool
  | .read _ | .wrote _ => true
  | .fails | .dropped => false

/-- The steps of the two pumps of a direction, and reads at its end. -/
def Carries (way : Way) : Action → Prop
  | .near w input | .far w input => w = way ∧ input.carries = true
  | .recv w _ => w = way
  | _ => False

/-- One for a pump that still has its end to come. -/
def PumpPc.due : PumpPc → Nat
  | .over _ => 0
  | _ => 1

/-- What is left to do for a pump: a byte costs the more the further it is from getting out. -/
def due (weight : Nat) (inp : Pipe UInt8) (pump : Pump) (out : Pipe UInt8) : Nat :=
  (weight + 2) * inp.bytes.length + (weight + 1) * pump.pc.held.length +
    weight * out.bytes.length + pump.pc.due

/-- A step with which a pump gets on, whatever its place in the direction. -/
structure Progress (inp : Pipe UInt8) (pump : Pump) (out : Pipe UInt8)
    (next : Pipe UInt8 × Pump × Pipe UInt8) : Prop where
  moved : ∃ input, input.carries = true ∧ pump.step inp out input = some next
  sent : next.1.sent = inp.sent
  ended : next.1.ended = inp.ended
  inpBroken : next.1.broken = inp.broken
  outBroken : next.2.2.broken = out.broken
  uncut : next.2.1.pc ≠ .over true
  closer : ∀ weight, due weight next.1 next.2.1 next.2.2 < due weight inp pump out

section Pumps

variable {skip head : List UInt8} {inp out : Pipe UInt8} {pump : Pump}

/-- A pump that reads takes one byte, or the end. -/
theorem progress_reading (reading : pump.pc = .reading) (ended : inp.ended = true) :
    ∃ next, Progress inp pump out next := by
  cases bytes : inp.bytes with
  | nil =>
      refine ⟨(inp, pump.stop false fun _ => reading, out.finish), ⟨.read 0, rfl, ?_⟩, rfl, rfl, rfl,
        rfl, nofun, fun weight => ?_⟩
      · exact (dif_pos reading).trans (if_pos ⟨bytes, ended⟩)
      · unfold due
        rw [reading]
        exact Nat.lt_succ_self _
  | cons byte rest =>
      have there : 0 + 1 ≤ inp.bytes.length ∧ 0 + 1 ≤ PUMP_BUFFER := by
        rw [bytes, List.length_cons]
        exact ⟨Nat.succ_le_succ (Nat.zero_le _), by decide⟩
      refine ⟨(inp.pull 1, pump.take reading (inp.bytes.take 1) (Pump.take_ne_nil there.1), out),
        ⟨.read 1, rfl, ?_⟩, rfl, rfl, rfl, rfl, nofun, fun weight => ?_⟩
      · exact (dif_pos reading).trans (dif_pos there)
      · unfold due
        change (weight + 2) * (inp.bytes.drop 1).length +
          (weight + 1) * (inp.bytes.take 1).length + weight * out.bytes.length + 1 < _
        rw [reading, bytes]
        change (weight + 2) * rest.length + (weight + 1) * 1 + weight * out.bytes.length + 1 <
          (weight + 2) * (rest.length + 1) + (weight + 1) * 0 + weight * out.bytes.length + 1
        have one : (weight + 2) * (rest.length + 1) = (weight + 2) * rest.length + (weight + 2) :=
          Nat.mul_succ ..
        omega

/-- A pump that writes gets one byte out. -/
theorem progress_writing {left : List UInt8} (writing : pump.pc = .writing left)
    (going : out.ended = false) : ∃ next, Progress inp pump out next := by
  cases left with
  | nil => exact absurd writing pump.busy
  | cons byte rest =>
      have some : 0 < 1 ∧ 1 ≤ (byte :: rest).length ∧ out.ended = false :=
        ⟨Nat.one_pos, Nat.succ_le_succ (Nat.zero_le _), going⟩
      refine ⟨(inp, pump.give writing 1, out.push [byte]), ⟨.wrote 1, rfl, ?_⟩, rfl, rfl, rfl,
        Pipe.push_broken .., ?_, fun weight => ?_⟩
      · unfold Pump.step
        dsimp only
        split
        · next left writing' =>
            cases writing'.symm.trans writing
            exact if_pos some
        · next other => exact absurd writing (other _)
      · change (if rest = [] then PumpPc.reading else .writing rest) ≠ _
        split <;> exact fun same => PumpPc.noConfusion same
      · have held : (if rest = [] then PumpPc.reading else .writing rest).held = rest ∧
            (if rest = [] then PumpPc.reading else .writing rest).due = 1 := by
          split
          · next none => exact ⟨none.symm, rfl⟩
          · exact ⟨rfl, rfl⟩
        unfold due
        change (weight + 2) * inp.bytes.length +
          (weight + 1) * (if rest = [] then PumpPc.reading else .writing rest).held.length +
          weight * (out.push [byte]).bytes.length +
          (if rest = [] then PumpPc.reading else .writing rest).due < _
        rw [held.1, held.2, (Pipe.push_of_going going _).2.1, writing, List.length_append]
        change (weight + 2) * inp.bytes.length + (weight + 1) * rest.length +
            weight * (out.bytes.length + 1) + 1 <
          (weight + 2) * inp.bytes.length + (weight + 1) * (rest.length + 1) +
            weight * out.bytes.length + 1
        have one : weight * (out.bytes.length + 1) = weight * out.bytes.length + weight :=
          Nat.mul_succ ..
        have more : (weight + 1) * (rest.length + 1) = (weight + 1) * rest.length + (weight + 1) :=
          Nat.mul_succ ..
        omega

/-- A pump gets on until it is over, as long as nothing fails. -/
theorem Copies.progress (copies : Copies skip inp pump out head) (ended : inp.ended = true)
    (inpWhole : inp.broken = false) (outWhole : out.broken = false) (uncut : pump.pc ≠ .over true) :
    pump.pc = .over false ∨ ∃ next, Progress inp pump out next := by
  cases pc : pump.pc with
  | reading => exact .inr (progress_reading pc ended)
  | writing left =>
      refine .inr (progress_writing pc ?_)
      cases closed : out.ended with
      | false => rfl
      | true =>
          rcases copies.stops closed with broken | broken | finished
          · cases outWhole.symm.trans broken
          · cases inpWhole.symm.trans broken
          · cases pc.symm.trans finished
  | _ =>
      rename_i cut
      cases cut with
      | false => exact .inl rfl
      | true => exact absurd pc uncut

end Pumps

/-! ## The direction as a whole -/

section Directions

variable {e : Ends} {t : Tunnel} {way : Way} {all : List UInt8}

theorem setLane_lane (lane : Lane) : (t.setLane way lane).lane way = lane := by cases way <;> rfl

theorem setLane_ends (lane : Lane) :
    (t.setLane way lane).client = t.client ∧ (t.setLane way lane).server = t.server := by
  cases way <;> exact ⟨rfl, rfl⟩

/-- Both ends copy, and nothing of this direction has failed or was dropped. -/
structure Intact (way : Way) (t : Tunnel) : Prop where
  client : t.client = .serving
  server : t.server = .bridging
  inp : (t.lane way).inp.broken = false
  mid : (t.lane way).mid.broken = false
  out : (t.lane way).out.broken = false
  near : (t.lane way).near.pc ≠ .over true
  far : (t.lane way).far.pc ≠ .over true

/-- `all` of what goes in has gone in. -/
structure Open (e : Ends) (way : Way) (all : List UInt8) (t : Tunnel) : Prop extends
    Intact way t where
  sound : Sound e t
  ended : (t.lane way).inp.ended = true
  sent : (t.lane way).inp.sent = all

/-- What is left to do until everything is out. -/
def Lane.due (lane : Lane) : Nat :=
  Tcp.due 3 lane.inp lane.near lane.mid + 2 * lane.far.pc.held.length + lane.out.bytes.length +
    lane.far.pc.due

/-- The same sum, seen from the far end. -/
theorem Lane.due_far (lane : Lane) : lane.due =
    5 * lane.inp.bytes.length + 4 * lane.near.pc.held.length + lane.near.pc.due +
      Tcp.due 1 lane.mid lane.far lane.out := by
  unfold Lane.due Tcp.due
  omega

theorem Lane.due_recv {lane : Lane} {byte : UInt8} {rest : List UInt8}
    (bytes : lane.out.bytes = byte :: rest) :
    Lane.due { lane with out := lane.out.pull 1 } < lane.due := by
  unfold Lane.due
  dsimp only
  rw [Pipe.pull_bytes, bytes, List.length_cons]
  change _ + rest.length + _ < _
  omega

theorem Lane.due_farStep {lane : Lane} {next : Pipe UInt8 × Pump × Pipe UInt8}
    (gets : Progress lane.mid lane.far lane.out next) :
    Lane.due { lane with mid := next.1, far := next.2.1, out := next.2.2 } < lane.due := by
  rw [Lane.due_far, Lane.due_far]
  exact Nat.add_lt_add_left (gets.closer 1) _

theorem Lane.due_nearStep {lane : Lane} {next : Pipe UInt8 × Pump × Pipe UInt8}
    (gets : Progress lane.inp lane.near lane.mid next) :
    Lane.due { lane with inp := next.1, near := next.2.1, mid := next.2.2 } < lane.due := by
  have closer := gets.closer 3
  unfold Lane.due
  dsimp only
  omega

theorem Open.runs (opened : Open e way all t) : t.nearUp way = true ∧ t.farUp way = true := by
  unfold Tunnel.nearUp Tunnel.farUp
  rw [opened.client, opened.server]
  cases way <;> exact ⟨rfl, rfl⟩

theorem Open.copies (opened : Open e way all t) : ∃ head skip,
    Copies [] (t.lane way).inp (t.lane way).near (t.lane way).mid head ∧
      Copies skip (t.lane way).mid (t.lane way).far (t.lane way).out [] := by
  cases way with
  | down => exact ⟨_, _, opened.sound.down.near, opened.sound.down.far⟩
  | up => exact ⟨_, _, opened.sound.up.near, opened.sound.up.far⟩

theorem drops_of_carries {input : PumpInput} (carries : input.carries = true) (atClient : Bool) :
    Tunnel.drops atClient input = true := by
  cases input with
  | read | wrote | fails => rfl
  | dropped => cases carries

/-- A step of the near pump, of the far pump, or a read at the end. -/
theorem Open.progress (opened : Open e way all t) :
    ((t.lane way).far.pc = .over false ∧ (t.lane way).out.bytes = []) ∨
      ∃ a t', Carries way a ∧ Tunnel.step e a t = some t' ∧ Open e way all t' ∧
        (t'.lane way).due < (t.lane way).due := by
  rcases opened.copies with ⟨head, skip, near, far⟩
  have keeps : ∀ {a : Action} {lane' : Lane}, Tunnel.step e a t = some (t.setLane way lane') →
      lane'.inp.broken = false → lane'.mid.broken = false → lane'.out.broken = false →
      lane'.inp.ended = true → lane'.inp.sent = all → lane'.near.pc ≠ .over true →
      lane'.far.pc ≠ .over true → Open e way all (t.setLane way lane') := by
    intro a lane' move inp mid out ended sent nearUncut farUncut
    have same : (t.setLane way lane').lane way = lane' := setLane_lane lane'
    have ends : (t.setLane way lane').client = t.client ∧ (t.setLane way lane').server = t.server :=
      setLane_ends lane'
    refine ⟨⟨ends.1.trans opened.client, ends.2.trans opened.server, ?_, ?_, ?_, ?_, ?_⟩,
      step_sound opened.sound move, ?_, ?_⟩
    all_goals
      rw [same]
      assumption
  rcases near.progress opened.ended opened.inp opened.mid opened.near with nearOver | ⟨next, gets⟩
  · have midEnded := near.shuts nearOver
    rcases far.progress midEnded opened.mid opened.out opened.far with farOver | ⟨next, gets⟩
    · cases bytes : (t.lane way).out.bytes with
      | nil => exact .inl ⟨farOver, rfl⟩
      | cons byte rest =>
          right
          have move : Tunnel.step e (.recv way 1) t = some (t.setLane way
              { t.lane way with out := (t.lane way).out.pull 1 }) := rfl
          refine ⟨.recv way 1, _, rfl, move, keeps move opened.inp opened.mid opened.out opened.ended
            opened.sent opened.near opened.far, ?_⟩
          rw [setLane_lane]
          exact Lane.due_recv bytes
    · right
      rcases gets.moved with ⟨input, carries, stepped⟩
      have move : Tunnel.step e (.far way input) t = some (t.setLane way
          { t.lane way with mid := next.1, far := next.2.1, out := next.2.2 }) := by
        unfold Tunnel.step
        dsimp only
        rw [if_pos ⟨opened.runs.2, drops_of_carries carries _⟩, Lane.farStep, stepped]
        rfl
      refine ⟨.far way input, _, ⟨rfl, carries⟩, move, keeps move opened.inp (gets.inpBroken.trans opened.mid)
        (gets.outBroken.trans opened.out) opened.ended opened.sent opened.near gets.uncut, ?_⟩
      rw [setLane_lane]
      exact Lane.due_farStep gets
  · right
    rcases gets.moved with ⟨input, carries, stepped⟩
    have move : Tunnel.step e (.near way input) t = some (t.setLane way
        { t.lane way with inp := next.1, near := next.2.1, mid := next.2.2 }) := by
      unfold Tunnel.step
      dsimp only
      rw [if_pos ⟨opened.runs.1, drops_of_carries carries _⟩, Lane.nearStep, stepped]
      rfl
    refine ⟨.near way input, _, ⟨rfl, carries⟩, move, keeps move (gets.inpBroken.trans opened.inp)
      (gets.outBroken.trans opened.mid) opened.out (gets.ended.trans opened.ended)
      (gets.sent.trans opened.sent) gets.uncut opened.far, ?_⟩
    rw [setLane_lane]
    exact Lane.due_nearStep gets

/-- From every state in which both ends copy and nothing of the direction has failed, the steps of
its two pumps and reads at its end can bring out everything that was sent before the end, and the
end. -/
theorem tunnel_drains (run : (tunnel e).Reachable t) (intact : Intact way t)
    (ended : (t.lane way).inp.ended = true) :
    ∃ t', ((tunnel e).startedAt t).Reaches (fun _ a => Carries way a) t' ∧
      (t'.lane way).out.taken = (t.lane way).inp.sent ∧ (t'.lane way).out.ended = true := by
  have opened : Open e way (t.lane way).inp.sent t :=
    ⟨intact, tunnel_sound run, ended, rfl⟩
  have drains : ∃ t', ((tunnel e).startedAt t).Reaches (fun _ a => Carries way a) t' ∧
      Open e way (t.lane way).inp.sent t' ∧
      (t'.lane way).far.pc = .over false ∧ (t'.lane way).out.bytes = [] :=
    System.exists_reaches_of_measure (fun t' => (t'.lane way).due) Open.progress opened
  rcases drains with ⟨t', moved, after, finished, dry⟩
  rcases after.copies with ⟨_, _, _, farCopies⟩
  have outEnded := farCopies.shuts finished
  have transparent : (t'.lane way).Transparent := by
    cases way with
    | down => exact after.sound.down.transparent
    | up => exact after.sound.up.transparent
  refine ⟨t', moved, ?_, outEnded⟩
  rw [Pipe.taken_eq after.out dry, (transparent.complete after.inp after.mid after.out outEnded).1,
    after.sent]

end Directions

/-- In the sample run the other bytes can follow. -/
theorem tunnel_drains_sample :
    ∃ t, (tunnel sampleEnds).Reachable t ∧ t.down.out.taken = [1] ∧
      ∃ t', ((tunnel sampleEnds).startedAt t).Reaches (fun _ a => Carries .down a) t' ∧
        t'.down.out.taken = [1, 2, 3] ∧ t'.down.out.ended = true := by
  rcases sample_tunnel copiedRun (fun t => decide (t.client = .serving ∧ t.server = .bridging ∧
      t.down.inp.broken = false ∧ t.down.mid.broken = false ∧ t.down.out.broken = false ∧
      t.down.near.pc = .reading ∧ t.down.far.pc = .reading ∧ t.down.inp.ended = true ∧
      t.down.inp.sent = [1, 2, 3] ∧ t.down.out.taken = [1])) (by decide +kernel) with ⟨t, run, shown⟩
  rcases of_decide_eq_true shown with
    ⟨client, server, inp, mid, out, near, far, ended, sent, taken⟩
  have intact : Intact .down t :=
    { client, server, inp, mid, out
      near := fun finished => nomatch near.symm.trans finished
      far := fun finished => nomatch far.symm.trans finished }
  rcases tunnel_drains run intact ended with ⟨t', moved, all, last⟩
  exact ⟨t, run, taken, t', moved, all.trans sent, last⟩

end Remgr.Tcp
