/-
Module: Remgr.Tcp.Pump
Purpose: `pump` of `remgr-frps/src/server.rs` and `remgr-frps/src/client.rs`, the loop that copies one
  direction of a user's connection. It carries the account of what it has read and written.
Trusted boundary: `read` returns some of the bytes on the way, `write_all` gets them into the other
  connection piece by piece; which errors occur when is left to the connections
Main exports: Pump, PumpInput, Pump.step, Pump.Step, Pump.step_cases
-/
import Remgr.Lib.Pipe

namespace Remgr.Tcp

open Remgr.Lib

/-- The buffer of `pump`. -/
def PUMP_BUFFER : Nat := 16 * 1024

/-- Where a `pump` stands. It is over at the end of its input, or cut short by an error or because
the task around it was dropped. -/
inductive PumpPc where
  | reading
  | writing (left : List UInt8)
  | over (cut : Bool)
deriving Repr, DecidableEq

/-- What has been read and not yet written. -/
def PumpPc.held : PumpPc → List UInt8
  | .writing left => left
  | _ => []

/-- `moved` is all it has read, `put` all it has written. -/
structure Pump where
  pc : PumpPc
  moved : List UInt8
  put : List UInt8
  counter : UInt64
  lead : put ++ pc.held <+: moved
  whole : pc ≠ .over true → put ++ pc.held = moved
  busy : pc ≠ .writing []
  counted : counter = UInt64.ofNat moved.length
deriving DecidableEq

/-- One step: a `read` returns, with 0 for the end; `write_all` gets on by some bytes; one of them
fails; or the task is dropped. -/
inductive PumpInput where
  | read (count : Nat)
  | wrote (count : Nat)
  | fails
  | dropped
deriving Repr, DecidableEq

namespace Pump

def start : Pump where
  pc := .reading
  moved := []
  put := []
  counter := 0
  lead := List.prefix_rfl
  whole _ := rfl
  busy same := PumpPc.noConfusion same
  counted := rfl

theorem uncut_reading {pump : Pump} (reading : pump.pc = .reading) : pump.pc ≠ .over true := by
  rw [reading]
  exact fun same => PumpPc.noConfusion same

theorem uncut_writing {pump : Pump} {left : List UInt8} (writing : pump.pc = .writing left) :
    pump.pc ≠ .over true := by
  rw [writing]
  exact fun same => PumpPc.noConfusion same

/-- These bytes were read. -/
def take (pump : Pump) (reading : pump.pc = .reading) (got : List UInt8) (some : got ≠ []) : Pump :=
  have all : pump.put ++ got = pump.moved ++ got := by
    have before := pump.whole (uncut_reading reading)
    rw [reading] at before
    exact congrArg (· ++ got) ((List.append_nil _).symm.trans before)
  { pc := .writing got
    moved := pump.moved ++ got
    put := pump.put
    counter := pump.counter + UInt64.ofNat got.length
    lead := all ▸ List.prefix_rfl
    whole := fun _ => all
    busy := fun none => some (PumpPc.writing.inj none)
    counted := by rw [pump.counted, List.length_append, UInt64.ofNat_add] }

/-- `count` of the bytes it holds were written. It reads again when none is left. -/
def give (pump : Pump) {left : List UInt8} (writing : pump.pc = .writing left) (count : Nat) : Pump :=
  have all : pump.put ++ left.take count ++
      PumpPc.held (if left.drop count = [] then .reading else .writing (left.drop count)) =
        pump.moved := by
    have before := pump.whole (uncut_writing writing)
    rw [writing] at before
    have left' : PumpPc.held (if left.drop count = [] then .reading else .writing (left.drop count)) =
        left.drop count := by
      split
      · next none => rw [none]; rfl
      · rfl
    rw [left', List.append_assoc, List.take_append_drop]
    exact before
  { pc := if left.drop count = [] then .reading else .writing (left.drop count)
    moved := pump.moved
    put := pump.put ++ left.take count
    counter := pump.counter
    lead := all ▸ List.prefix_rfl
    whole := fun _ => all
    busy := by
      split
      · exact fun same => PumpPc.noConfusion same
      · next some => exact fun none => some (PumpPc.writing.inj none)
    counted := pump.counted }

/-- The loop ends, and with it what was held is lost. -/
def stop (pump : Pump) (cut : Bool) (clean : cut = false → pump.pc = .reading) : Pump :=
  { pump with
    pc := .over cut
    lead := by
      change pump.put ++ [] <+: pump.moved
      rw [List.append_nil]
      exact (List.prefix_append ..).trans pump.lead
    whole := by
      intro ended
      cases cut with
      | true => exact absurd rfl ended
      | false =>
          have reading := clean rfl
          have before := pump.whole (uncut_reading reading)
          rw [reading] at before
          exact before
    busy := fun same => PumpPc.noConfusion same }

theorem take_ne_nil {count : Nat} {bytes : List UInt8} (there : count + 1 ≤ bytes.length) :
    bytes.take (count + 1) ≠ [] := by
  intro none
  have size := congrArg List.length none
  rw [List.length_take, Nat.min_eq_left there] at size
  exact Nat.succ_ne_zero count size

/-- `pump` from one connection to another. The one it writes to is shut down behind the loop, unless
the task was dropped in it. -/
def step (inp : Pipe UInt8) (pump : Pump) (out : Pipe UInt8) :
    PumpInput → Option (Pipe UInt8 × Pump × Pipe UInt8)
  | .read 0 =>
      if reading : pump.pc = .reading then
        if inp.bytes = [] ∧ inp.ended = true then
          some (inp, pump.stop false fun _ => reading, out.finish)
        else none
      else none
  | .read (count + 1) =>
      if reading : pump.pc = .reading then
        if there : count + 1 ≤ inp.bytes.length ∧ count + 1 ≤ PUMP_BUFFER then
          some (inp.pull (count + 1),
            pump.take reading (inp.bytes.take (count + 1)) (take_ne_nil there.1), out)
        else none
      else none
  | .wrote count =>
      match pc : pump.pc with
      | .writing left =>
          if 0 < count ∧ count ≤ left.length ∧ out.ended = false then
            some (inp, pump.give pc count, out.push (left.take count))
          else none
      | _ => none
  | .fails =>
      match pump.pc with
      | .reading =>
          if inp.broken then
            some (inp, pump.stop true (fun same => Bool.noConfusion same), out.finish)
          else none
      | .writing _ =>
          if out.ended then
            some (inp, pump.stop true (fun same => Bool.noConfusion same), out.finish)
          else none
      | .over _ => none
  | .dropped =>
      match pump.pc with
      | .over _ => none
      | _ => some (inp, pump.stop true (fun same => Bool.noConfusion same), out)

/-! ## What a step can be -/

/-- The steps of a `pump`, with what they need. -/
inductive Step (inp : Pipe UInt8) (pump : Pump) (out : Pipe UInt8) :
    PumpInput → Pipe UInt8 × Pump × Pipe UInt8 → Prop
  | eof (reading : pump.pc = .reading) (dry : inp.bytes = []) (ended : inp.ended = true) :
      Step inp pump out (.read 0) (inp, pump.stop false fun _ => reading, out.finish)
  | read {count : Nat} (reading : pump.pc = .reading) (there : count + 1 ≤ inp.bytes.length)
      (room : count + 1 ≤ PUMP_BUFFER) :
      Step inp pump out (.read (count + 1))
        (inp.pull (count + 1),
          pump.take reading (inp.bytes.take (count + 1)) (take_ne_nil there), out)
  | wrote {count : Nat} {left : List UInt8} (writing : pump.pc = .writing left) (some : 0 < count)
      (there : count ≤ left.length) (going : out.ended = false) :
      Step inp pump out (.wrote count) (inp, pump.give writing count, out.push (left.take count))
  | readFails (reading : pump.pc = .reading) (broken : inp.broken = true) :
      Step inp pump out .fails (inp, pump.stop true (fun same => Bool.noConfusion same), out.finish)
  | writeFails {left : List UInt8} (writing : pump.pc = .writing left) (ended : out.ended = true) :
      Step inp pump out .fails (inp, pump.stop true (fun same => Bool.noConfusion same), out.finish)
  | dropped (going : ∀ cut, pump.pc ≠ .over cut) :
      Step inp pump out .dropped (inp, pump.stop true (fun same => Bool.noConfusion same), out)

theorem step_cases {inp out : Pipe UInt8} {pump : Pump} {input : PumpInput}
    {next : Pipe UInt8 × Pump × Pipe UInt8} (move : step inp pump out input = some next) :
    Step inp pump out input next := by
  unfold step at move
  split at move
  · split at move
    · split at move
      · next guard =>
          cases move
          exact .eof _ guard.1 guard.2
      · cases move
    · cases move
  · split at move
    · split at move
      · next guard =>
          cases move
          exact .read _ guard.1 guard.2
      · cases move
    · cases move
  · split at move
    · split at move
      · next guard =>
          cases move
          exact .wrote _ guard.1 guard.2.1 guard.2.2
      · cases move
    · cases move
  · split at move
    · next reading =>
        split at move
        · next broken =>
            cases move
            exact .readFails reading broken
        · cases move
    · next writing =>
        split at move
        · next ended =>
            cases move
            exact .writeFails writing ended
        · cases move
    · cases move
  · split at move
    · cases move
    · next going =>
        cases move
        exact .dropped going

end Pump

end Remgr.Tcp
