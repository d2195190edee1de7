/-
Module: Remgr.Proofs.TcpTunnel
Purpose: A tcp tunnel is transparent. Whatever the ends, the pumps and the connections do, what comes
  out at the far end of a direction is a beginning of what went in, no byte of the frames exchanged
  first gets into it, and the counters count what was read. An end that is seen on connections that
  have not failed is the end of all of it.
Trusted boundary: as in `Remgr.Tcp.Tunnel`
Main exports: Copies, Lane.Sound, step_sound, tunnel_transparent
-/
import Remgr.Tcp.Tunnel

namespace Remgr.Tcp

open Remgr.Lib
open Remgr.Frps
open Remgr.Lib.Json (toVec)

/-! ## A pump between two connections -/

/-- A `pump` that copies from `inp`, behind the bytes `skip`, to `out`, behind the bytes `head`. -/
structure Copies (skip : List UInt8) (inp : Pipe UInt8) (pump : Pump) (out : Pipe UInt8)
    (head : List UInt8) : Prop where
  reads : inp.taken = skip ++ pump.moved
  writes : out.sent = head ++ pump.put
  ends : pump.pc = .over false → inp.bytes = [] ∧ inp.ended = true
  shuts : pump.pc = .over false → out.ended = true
  stops : out.ended = true → out.broken = true ∨ inp.broken = true ∨ pump.pc = .over false

/-- What the others do to the connection that a pump reads: they leave alone what was read, and
nothing comes behind its end. -/
structure FedBy (inp inp' : Pipe UInt8) : Prop where
  taken : inp'.taken = inp.taken
  dry : inp.ended = true → inp.bytes = [] → inp'.bytes = [] ∧ inp'.ended = true
  broken : inp.broken = true → inp'.broken = true

/-- What the others do to the connection that a pump writes: they do not write, and end it only by
breaking it. -/
structure DrainedBy (out out' : Pipe UInt8) : Prop where
  sent : out'.sent = out.sent
  ended : out.ended = true → out'.ended = true
  stops : out'.ended = true → out'.broken = true ∨ out.ended = true ∧ out'.broken = out.broken

section Pipes

variable (p : Pipe UInt8)

theorem fedBy_push (data : List UInt8) : FedBy p (p.push data) where
  taken := p.push_taken data
  dry ended none := by
    unfold Pipe.push
    rw [dif_neg (by rw [ended]; nofun)]
    exact ⟨none, ended⟩
  broken := (p.push_broken data).trans

theorem fedBy_finish : FedBy p p.finish := ⟨rfl, fun _ none => ⟨none, rfl⟩, id⟩

theorem FedBy.refl : FedBy p p := ⟨rfl, fun ended none => ⟨none, ended⟩, id⟩

theorem fedBy_cut (count : Nat) : FedBy p (p.cut count) where
  taken := rfl
  dry _ none := by
    refine ⟨?_, rfl⟩
    change p.bytes.take count = []
    rw [none, List.take_nil]
  broken _ := rfl

theorem DrainedBy.refl : DrainedBy p p := ⟨rfl, id, fun ended => .inr ⟨ended, rfl⟩⟩

theorem drainedBy_pull (count : Nat) : DrainedBy p (p.pull count) :=
  ⟨rfl, id, fun ended => .inr ⟨ended, rfl⟩⟩

theorem drainedBy_cut (count : Nat) : DrainedBy p (p.cut count) :=
  ⟨rfl, fun _ => rfl, fun _ => .inl rfl⟩

end Pipes

section Copying

variable {skip head : List UInt8} {inp inp' out out' : Pipe UInt8} {pump pump' : Pump}

theorem copies_start (nothing : inp.taken = []) (unsaid : out.sent = []) (going : out.ended = false) :
    Copies [] inp .start out [] :=
  ⟨nothing, unsaid, nofun, nofun, fun ended => nomatch going.symm.trans ended⟩

theorem Copies.fed (copies : Copies skip inp pump out head) (fed : FedBy inp inp') :
    Copies skip inp' pump out head where
  reads := fed.taken.trans copies.reads
  writes := copies.writes
  ends := fun finished => fed.dry (copies.ends finished).2 (copies.ends finished).1
  shuts := copies.shuts
  stops := fun ended => (copies.stops ended).imp_right (Or.imp_left fed.broken)

theorem Copies.drained (copies : Copies skip inp pump out head) (drained : DrainedBy out out') :
    Copies skip inp pump out' head where
  reads := copies.reads
  writes := drained.sent.trans copies.writes
  ends := copies.ends
  shuts := fun finished => drained.ended (copies.shuts finished)
  stops := by
    intro ended
    rcases drained.stops ended with broken | ⟨before, same⟩
    · exact .inl broken
    · rw [same]
      exact copies.stops before

/-- A step of the pump itself. For those at the other ends of the two connections it is one that
reads, or one that writes and shuts down. -/
theorem Copies.step (copies : Copies skip inp pump out head) {input : PumpInput}
    (move : pump.step inp out input = some (inp', pump', out')) :
    Copies skip inp' pump' out' head ∧ DrainedBy inp inp' ∧ FedBy out out' := by
  cases Pump.step_cases move with
  | eof reading dry ended =>
      exact ⟨⟨copies.reads, copies.writes, fun _ => ⟨dry, ended⟩, fun _ => rfl,
        fun _ => .inr (.inr rfl)⟩, .refl inp, fedBy_finish out⟩
  | @read count reading there room =>
      refine ⟨⟨?_, copies.writes, nofun, nofun, fun ended => ?_⟩, drainedBy_pull inp _, .refl out⟩
      · rw [Pipe.pull_taken, copies.reads, List.append_assoc]
        rfl
      · rcases copies.stops ended with broken | broken | finished
        · exact .inl broken
        · exact .inr (.inl broken)
        · cases reading.symm.trans finished
  | @wrote count left writing some there going =>
      have goes : ∀ cut, (pump.give writing count).pc ≠ .over cut := by
        intro cut finished
        change (if left.drop count = [] then PumpPc.reading else .writing (left.drop count)) = _
          at finished
        split at finished <;> cases finished
      refine ⟨⟨copies.reads, ?_, fun finished => absurd finished (goes _),
        fun finished => absurd finished (goes _), fun ended => ?_⟩, .refl inp, fedBy_push out _⟩
      · rw [(Pipe.push_of_going going _).1, copies.writes, List.append_assoc]
        rfl
      · rw [Pipe.push_ended] at ended
        cases going.symm.trans ended
  | readFails reading broken =>
      exact ⟨⟨copies.reads, copies.writes, nofun, nofun, fun _ => .inr (.inl broken)⟩, .refl inp,
        fedBy_finish out⟩
  | writeFails writing ended =>
      refine ⟨⟨copies.reads, copies.writes, nofun, nofun, fun _ => ?_⟩, .refl inp, fedBy_finish out⟩
      rcases copies.stops ended with broken | broken | finished
      · exact .inl broken
      · exact .inr (.inl broken)
      · cases writing.symm.trans finished
  | dropped going =>
      refine ⟨⟨copies.reads, copies.writes, nofun, nofun, fun ended => ?_⟩, .refl inp, .refl out⟩
      rcases copies.stops ended with broken | broken | finished
      · exact .inl broken
      · exact .inr (.inl broken)
      · exact absurd finished (going false)

/-- What was put out is a beginning of what was taken in. -/
theorem put_isLead (pump : Pump) : pump.put <+: pump.moved :=
  (List.prefix_append ..).trans pump.lead

/-- A pump that was not cut short has put out all that it took in, if it has ended. -/
theorem put_of_over (finished : pump.pc = .over false) : pump.put = pump.moved := by
  have all := pump.whole (by rw [finished]; nofun)
  rw [finished] at all
  exact (List.append_nil _).symm.trans all

end Copying

/-! ## The frame ahead of the pumps -/

def Fits (frame : RawMsg) : Prop := (frame.2.length : Int) ≤ MAX_MSG_LEN

/-- A frame is told by its bytes, whatever is behind it. -/
theorem frameBytes_inj {one other : RawMsg} {behind behind' : List UInt8} (fits : Fits one)
    (fits' : Fits other)
    (same : Wire.frameBytes one ++ behind = Wire.frameBytes other ++ behind') : one = other := by
  let src : Source UInt8 := ⟨[Wire.frameBytes one ++ behind], .eof⟩
  have bytes : src.bytes = Wire.frameBytes one ++ behind := List.append_nil _
  rcases readFrame_of_written fits bytes with ⟨_, read, _⟩
  have bytes' : src.bytes = Wire.frameBytes other ++ behind' := bytes.trans same
  rcases readFrame_of_written fits' bytes' with ⟨_, read', _⟩
  cases read.symm.trans read'
  rfl

/-- How far the near end has got with the frame that it writes first. -/
inductive Spoken where
  | unsaid
  | saying (left : List UInt8)
  | said
  | gone

/-- How far the far end has got with reading it. -/
inductive Heard where
  | unheard
  | heard
  | gone

inductive SpokenAt (frame : RawMsg) (head : List UInt8) (near : Pump) : Spoken → Prop
  | unsaid (nothing : head = []) (idle : near = .start) : SpokenAt frame head near .unsaid
  | saying {left : List UInt8} (part : head ++ left = Wire.frameBytes frame) (idle : near = .start)
      (fits : Fits frame) : SpokenAt frame head near (.saying left)
  | said (all : head = Wire.frameBytes frame) (fits : Fits frame) : SpokenAt frame head near .said
  | gone {before : Spoken} (place : SpokenAt frame head near before) : SpokenAt frame head near .gone

inductive HeardAt (frame : RawMsg) (head skip : List UInt8) (far : Pump) : Heard → Prop
  | unheard (nothing : skip = []) (idle : far = .start) : HeardAt frame head skip far .unheard
  | heard (all : skip = Wire.frameBytes frame) (said : head = Wire.frameBytes frame) :
      HeardAt frame head skip far .heard
  | gone {before : Heard} (place : HeardAt frame head skip far before) :
      HeardAt frame head skip far .gone

structure Lane.Sound (lane : Lane) (frame : RawMsg) (spoken : Spoken) (hearing : Heard) : Prop where
  near : Copies [] lane.inp lane.near lane.mid lane.head
  far : Copies lane.skip lane.mid lane.far lane.out []
  speaks : SpokenAt frame lane.head lane.near spoken
  hears : HeardAt frame lane.head lane.skip lane.far hearing

section Frames

variable {lane : Lane} {frame : RawMsg} {spoken : Spoken} {hearing : Heard} {head skip : List UInt8}
  {near far : Pump}

theorem SpokenAt.began (place : SpokenAt frame head near spoken) :
    head <+: Wire.frameBytes frame ∧ (near = .start ∨ head = Wire.frameBytes frame) ∧
      (head = [] ∨ Fits frame) := by
  induction place with
  | unsaid nothing idle => exact ⟨nothing ▸ List.nil_prefix, .inl idle, .inl nothing⟩
  | saying part idle fits => exact ⟨⟨_, part⟩, .inl idle, .inr fits⟩
  | said all fits => exact ⟨all ▸ List.prefix_rfl, .inr all, .inr fits⟩
  | gone _ inductionHypothesis => exact inductionHypothesis

theorem HeardAt.part (place : HeardAt frame head skip far hearing) :
    skip = [] ∧ far = .start ∨ skip = Wire.frameBytes frame ∧ head = Wire.frameBytes frame := by
  induction place with
  | unheard nothing idle => exact .inl ⟨nothing, idle⟩
  | heard all said => exact .inr ⟨all, said⟩
  | gone _ inductionHypothesis => exact inductionHypothesis

/-- A whole frame at the front of what was written is the one that the near end writes first. -/
theorem SpokenAt.first (place : SpokenAt frame head near spoken) {got : RawMsg} (fits : Fits got)
    (lead : Wire.frameBytes got <+: head ++ near.put) :
    got = frame ∧ head = Wire.frameBytes frame := by
  rcases place.began with ⟨began, started, said⟩
  have size : (Wire.frameBytes got).length ≠ 0 := by
    rw [Wire.frameBytes, List.length_append, frameHeader_length]
    omega
  rcases started with idle | whole
  · rw [idle] at lead
    change _ <+: head ++ [] at lead
    rw [List.append_nil] at lead
    have fits' : Fits frame := by
      refine said.resolve_left fun nothing => size ?_
      rw [nothing, List.prefix_nil] at lead
      rw [lead, List.length_nil]
    rcases lead.trans began with ⟨behind, same⟩
    have alone : Wire.frameBytes got ++ behind = Wire.frameBytes frame ++ [] :=
      same.trans (List.append_nil _).symm
    have same : got = frame := frameBytes_inj fits fits' alone
    subst same
    exact ⟨rfl, began.eq_of_length (Nat.le_antisymm began.length_le lead.length_le)⟩
  · have fits' : Fits frame := by
      refine said.resolve_left fun nothing => ?_
      rw [nothing] at whole
      have none := congrArg List.length whole
      rw [Wire.frameBytes, List.length_append, frameHeader_length, List.length_nil] at none
      omega
    rcases lead with ⟨behind, same⟩
    rw [whole] at same
    exact ⟨frameBytes_inj fits fits' same, whole⟩

/-- The far end reads the frame of the near end, to its last byte. -/
theorem Lane.Sound.hear (sound : lane.Sound frame spoken .unheard) {got : RawMsg}
    {rest : Source UInt8} (read : readFrame ⟨[lane.mid.bytes], .eof⟩ = .ok (got, rest)) :
    got = frame ∧ (lane.hear (Wire.frameBytes got).length).Sound frame spoken .heard := by
  rcases sound with ⟨near, far, speaks, ⟨nothing, idle⟩⟩
  rcases readFrame_ok read with ⟨fits, bytes⟩
  have split : lane.mid.bytes = Wire.frameBytes got ++ rest.bytes :=
    (List.append_nil _).symm.trans bytes
  have unread : lane.mid.taken = [] := by
    rw [far.reads, nothing, idle]
    rfl
  have lead := lane.mid.lead
  rw [unread, List.nil_append, near.writes, split] at lead
  rcases speaks.first fits ((List.prefix_append ..).trans lead) with ⟨rfl, said⟩
  have taken : lane.mid.bytes.take (Wire.frameBytes got).length = Wire.frameBytes got := by
    rw [split, List.take_left]
  have fresh : ∀ cut, lane.far.pc ≠ .over cut := by
    rw [idle]
    nofun
  refine ⟨rfl, near.drained (drainedBy_pull _ _), ⟨?_, far.writes,
    fun finished => absurd finished (fresh _), far.shuts, far.stops⟩, speaks, ?_⟩
  · change lane.mid.taken ++ lane.mid.bytes.take _ =
      (lane.skip ++ lane.mid.bytes.take _) ++ lane.far.moved
    rw [unread, nothing, idle]
    exact (List.append_nil _).symm
  · refine .heard ?_ said
    change lane.skip ++ lane.mid.bytes.take _ = _
    rw [nothing, taken, List.nil_append]

/-- What was heard stays heard while the near end says more of its frame. -/
theorem HeardAt.grow {head' : List UInt8} (place : HeardAt frame head skip far hearing)
    (more : head <+: head') (part : head' <+: Wire.frameBytes frame) :
    HeardAt frame head' skip far hearing := by
  induction place with
  | unheard nothing idle => exact .unheard nothing idle
  | heard all said =>
      refine .heard all (part.eq_of_length (Nat.le_antisymm part.length_le ?_))
      rw [← said]
      exact more.length_le
  | gone _ inductionHypothesis => exact .gone inductionHypothesis

/-- The near end gets on with its frame. -/
theorem Lane.Sound.say {left : List UInt8} (sound : lane.Sound frame (.saying left) hearing)
    (going : lane.mid.ended = false) (count : Nat) :
    (lane.say (left.take count)).Sound frame
      (if left.drop count = [] then .said else .saying (left.drop count)) hearing := by
  rcases sound with ⟨near, far, speaks, hears⟩
  cases speaks with
  | saying part idle fits =>
      have got : lane.head ++ left.take count ++ left.drop count = Wire.frameBytes frame := by
        rw [List.append_assoc, List.take_append_drop, part]
      refine ⟨⟨near.reads, ?_, near.ends, fun finished => ?_, ?_⟩, far.fed (fedBy_push _ _), ?_,
        hears.grow (List.prefix_append ..) ⟨_, got⟩⟩
      · change (lane.mid.push _).sent = lane.head ++ left.take count ++ lane.near.put
        rw [(Pipe.push_of_going going _).1, near.writes, idle]
        change lane.head ++ [] ++ _ = lane.head ++ left.take count ++ []
        rw [List.append_nil, List.append_nil]
      · exact (Pipe.push_ended ..).trans (near.shuts finished)
      · intro ended
        change (lane.mid.push _).ended = true at ended
        rw [Pipe.push_ended] at ended
        cases going.symm.trans ended
      · split
        · next none =>
            rw [none, List.append_nil] at got
            exact .said got fits
        · exact .saying got idle fits

/-- An end that gives up leaves the lane as it is. -/
theorem Lane.Sound.speakerGone (sound : lane.Sound frame spoken hearing) :
    lane.Sound frame .gone hearing :=
  ⟨sound.near, sound.far, .gone sound.speaks, sound.hears⟩

theorem Lane.Sound.hearerGone (sound : lane.Sound frame spoken hearing) :
    lane.Sound frame spoken .gone :=
  ⟨sound.near, sound.far, sound.speaks, .gone sound.hears⟩

/-- The pump of the near end runs once its frame is written. -/
theorem Lane.Sound.nearStep {lane' : Lane} {input : PumpInput}
    (sound : lane.Sound frame .said hearing) (move : lane.nearStep input = some lane') :
    lane'.Sound frame .said hearing := by
  rcases Option.map_eq_some_iff.mp move with ⟨next, stepped, rfl⟩
  rcases sound.near.step stepped with ⟨near, _, fed⟩
  cases sound.speaks with
  | said all fits => exact ⟨near, sound.far.fed fed, .said all fits, sound.hears⟩

/-- The pump of the far end runs once it has read the frame. -/
theorem Lane.Sound.farStep {lane' : Lane} {input : PumpInput}
    (sound : lane.Sound frame spoken .heard) (move : lane.farStep input = some lane') :
    lane'.Sound frame spoken .heard := by
  rcases Option.map_eq_some_iff.mp move with ⟨next, stepped, rfl⟩
  rcases sound.far.step stepped with ⟨far, drained, _⟩
  cases sound.hears with
  | heard all said => exact ⟨sound.near.drained drained, far, sound.speaks, .heard all said⟩

end Frames

/-! ## The whole tunnel -/

/-- How far the client has got with its greeting, and with the server's answer. -/
def ClientPc.spoken : ClientPc → Spoken
  | .opening => .unsaid
  | .greeting left => .saying left
  | .waiting | .dialing | .serving => .said
  | .over => .gone

def ClientPc.hearing : ClientPc → Heard
  | .opening | .greeting _ | .waiting => .unheard
  | .dialing | .serving => .heard
  | .over => .gone

def ServerPc.spoken : ServerPc → Spoken
  | .first | .pooled => .unsaid
  | .starting left => .saying left
  | .bridging => .said
  | .over => .gone

def ServerPc.hearing : ServerPc → Heard
  | .first => .unheard
  | .pooled | .starting _ | .bridging => .heard
  | .over => .gone

structure Sound (e : Ends) (t : Tunnel) : Prop where
  down : t.down.Sound e.reply t.server.spoken t.client.hearing
  up : t.up.Sound e.greeting t.client.spoken t.server.hearing

section Whole

variable {e : Ends} {t t' : Tunnel}

theorem lane_start_sound (frame : RawMsg) : Lane.start.Sound frame .unsaid .unheard :=
  ⟨copies_start rfl rfl rfl, copies_start rfl rfl rfl, .unsaid rfl rfl, .unheard rfl rfl⟩

theorem writeFrame_ok {frame : RawMsg} {buf : List UInt8}
    (written : writeFrame frame.1 frame.2 [] = (.ok (), buf)) :
    Fits frame ∧ buf = Wire.frameBytes frame := by
  by_cases fits : (frame.2.length : Int) ≤ MAX_MSG_LEN
  · rw [writeFrame_of_le frame.1 [] fits] at written
    cases written
    exact ⟨fits, rfl⟩
  · rw [writeFrame_of_lt (Int.not_le.mp fits)] at written
    cases written

/-- A frame that fits may be begun. -/
theorem Lane.Sound.begin {lane : Lane} {frame : RawMsg} {hearing : Heard} {buf : List UInt8}
    (sound : lane.Sound frame .unsaid hearing)
    (written : writeFrame frame.1 frame.2 [] = (.ok (), buf)) :
    lane.Sound frame (.saying buf) hearing := by
  rcases writeFrame_ok written with ⟨fits, rfl⟩
  rcases sound with ⟨near, far, speaks, hears⟩
  cases speaks with
  | unsaid nothing idle =>
      exact ⟨near, far, .saying (by rw [nothing, List.nil_append]) idle fits, hears⟩

theorem clientStep_sound (sound : Sound e t) {input : ClientInput}
    (move : t.clientStep e input = some t') : Sound e t' := by
  rcases t with ⟨client, server, down, up⟩
  rcases sound with ⟨downSound, upSound⟩
  have gone : Sound e { client := .over, server, down, up } :=
    ⟨downSound.hearerGone, upSound.speakerGone⟩
  cases input with
  | greet =>
      cases client with
      | opening =>
          unfold Tunnel.clientStep at move
          dsimp only at move
          split at move
          · next buf written =>
              cases move
              exact ⟨downSound, upSound.begin written⟩
          · cases move
            exact gone
      | _ => cases move
  | wrote count =>
      cases client with
      | greeting left =>
          unfold Tunnel.clientStep at move
          dsimp only at move
          split at move
          · next guard =>
              cases move
              have said := upSound.say guard.2.2 count
              refine ⟨?_, ?_⟩
              · dsimp only
                split <;> exact downSound
              · dsimp only
                split at said <;> rename_i none
                · rw [if_pos none]
                  exact said
                · rw [if_neg none]
                  exact said
          · cases move
      | _ => cases move
  | frame =>
      cases client with
      | waiting =>
          unfold Tunnel.clientStep at move
          dsimp only at move
          split at move
          · next got rest read =>
              cases move
              have heard := (downSound.hear read).2
              split
              · exact ⟨heard, upSound⟩
              · exact ⟨heard.hearerGone, upSound.speakerGone⟩
          · split at move
            · cases move
              exact gone
            · cases move
          · cases move
            exact gone
      | _ => cases move
  | dialed ok =>
      cases client with
      | dialing =>
          cases move
          cases ok with
          | true => exact ⟨downSound, upSound⟩
          | false => exact gone
      | _ => cases move
  | gone =>
      cases client with
      | opening | greeting | waiting | dialing =>
          cases move
          exact gone
      | _ => cases move

theorem serverStep_sound (sound : Sound e t) {input : ServerInput}
    (move : t.serverStep e input = some t') : Sound e t' := by
  rcases t with ⟨client, server, down, up⟩
  rcases sound with ⟨downSound, upSound⟩
  have gone : Sound e { client, server := .over, down, up } :=
    ⟨downSound.speakerGone, upSound.hearerGone⟩
  cases input with
  | frame =>
      cases server with
      | first =>
          unfold Tunnel.serverStep at move
          dsimp only at move
          split at move
          · next got rest read =>
              cases move
              exact ⟨downSound, (upSound.hear read).2⟩
          · split at move
            · cases move
              exact gone
            · cases move
          · cases move
            exact gone
      | _ => cases move
  | assign =>
      cases server with
      | pooled =>
          unfold Tunnel.serverStep at move
          dsimp only at move
          split at move
          · next buf written =>
              cases move
              exact ⟨downSound.begin written, upSound⟩
          · cases move
            exact gone
      | _ => cases move
  | wrote count =>
      cases server with
      | starting left =>
          unfold Tunnel.serverStep at move
          dsimp only at move
          split at move
          · next guard =>
              cases move
              have said := downSound.say guard.2.2 count
              by_cases none : left.drop count = []
              · rw [if_pos none] at said
                rw [if_neg (not_not.mpr none)]
                split
                · exact ⟨said, upSound⟩
                · exact ⟨said.speakerGone, upSound.hearerGone⟩
              · rw [if_neg none] at said
                rw [if_pos none]
                exact ⟨said, upSound⟩
          · cases move
      | _ => cases move
  | gone =>
      cases server with
      | first | pooled | starting =>
          cases move
          exact gone
      | _ => cases move

/-- What the others do to the connections of a lane, or their failing. -/
inductive Touched (lane : Lane) : Lane → Prop
  | inp {inp' : Pipe UInt8} (fed : FedBy lane.inp inp') : Touched lane { lane with inp := inp' }
  | mid (count : Nat) : Touched lane { lane with mid := lane.mid.cut count }
  | out {out' : Pipe UInt8} (drained : DrainedBy lane.out out') :
      Touched lane { lane with out := out' }

theorem Lane.Sound.touched {lane lane' : Lane} {frame : RawMsg} {spoken : Spoken} {hearing : Heard}
    (sound : lane.Sound frame spoken hearing) (touched : Touched lane lane') :
    lane'.Sound frame spoken hearing := by
  cases touched with
  | inp fed => exact ⟨sound.near.fed fed, sound.far, sound.speaks, sound.hears⟩
  | mid count =>
      exact ⟨sound.near.drained (drainedBy_cut _ count), sound.far.fed (fedBy_cut _ count),
        sound.speaks, sound.hears⟩
  | out drained => exact ⟨sound.near, sound.far.drained drained, sound.speaks, sound.hears⟩

theorem Sound.touch (sound : Sound e t) (way : Way) {lane' : Lane}
    (touched : Touched (t.lane way) lane') : Sound e (t.setLane way lane') := by
  cases way with
  | down => exact ⟨sound.down.touched touched, sound.up⟩
  | up => exact ⟨sound.down, sound.up.touched touched⟩

theorem nearStep_sound (sound : Sound e t) {way : Way} {lane' : Lane} {input : PumpInput}
    (runs : t.nearUp way = true) (move : (t.lane way).nearStep input = some lane') :
    Sound e (t.setLane way lane') := by
  rcases sound with ⟨down, up⟩
  cases way with
  | down =>
      have bridging : t.server = .bridging := eq_of_beq runs
      refine ⟨?_, up⟩
      change lane'.Sound e.reply t.server.spoken t.client.hearing
      rw [bridging] at down ⊢
      exact down.nearStep move
  | up =>
      have serving : t.client = .serving := eq_of_beq runs
      refine ⟨down, ?_⟩
      change lane'.Sound e.greeting t.client.spoken t.server.hearing
      rw [serving] at up ⊢
      exact up.nearStep move

theorem farStep_sound (sound : Sound e t) {way : Way} {lane' : Lane} {input : PumpInput}
    (runs : t.farUp way = true) (move : (t.lane way).farStep input = some lane') :
    Sound e (t.setLane way lane') := by
  rcases sound with ⟨down, up⟩
  cases way with
  | down =>
      have serving : t.client = .serving := eq_of_beq runs
      refine ⟨?_, up⟩
      change lane'.Sound e.reply t.server.spoken t.client.hearing
      rw [serving] at down ⊢
      exact down.farStep move
  | up =>
      have bridging : t.server = .bridging := eq_of_beq runs
      refine ⟨down, ?_⟩
      change lane'.Sound e.greeting t.client.spoken t.server.hearing
      rw [bridging] at up ⊢
      exact up.farStep move

theorem step_sound {a : Action} (sound : Sound e t) (move : Tunnel.step e a t = some t') :
    Sound e t' := by
  cases a with
  | client input => exact clientStep_sound sound move
  | server input => exact serverStep_sound sound move
  | near way input =>
      unfold Tunnel.step at move
      dsimp only at move
      split at move
      · next guard =>
          rcases Option.map_eq_some_iff.mp move with ⟨lane', stepped, rfl⟩
          exact nearStep_sound sound guard.1 stepped
      · cases move
  | far way input =>
      unfold Tunnel.step at move
      dsimp only at move
      split at move
      · next guard =>
          rcases Option.map_eq_some_iff.mp move with ⟨lane', stepped, rfl⟩
          exact farStep_sound sound guard.1 stepped
      · cases move
  | send way data =>
      cases move
      exact sound.touch way (.inp (fedBy_push _ data))
  | shut way =>
      cases move
      exact sound.touch way (.inp (fedBy_finish _))
  | recv way count =>
      cases move
      exact sound.touch way (.out (drainedBy_pull _ count))
  | fail way leg count =>
      cases leg with
      | inp =>
          cases move
          exact sound.touch way (.inp (fedBy_cut _ count))
      | mid =>
          cases move
          exact sound.touch way (.mid count)
      | out =>
          cases move
          exact sound.touch way (.out (drainedBy_cut _ count))

theorem tunnel_sound (run : (tunnel e).Reachable t) : Sound e t := by
  refine run.invariant ?_ ?_
  · rintro _ rfl
    exact ⟨lane_start_sound _, lane_start_sound _⟩
  · intro t a t' _ sound _ move
    exact step_sound sound move

end Whole

/-! ## Transparency -/

/-- What both ends of a direction may rely on. -/
structure Lane.Transparent (lane : Lane) : Prop where
  /-- The far end has put out a beginning of what the near end was sent, and nothing else. -/
  delivers : lane.out.sent <+: lane.inp.taken
  /-- The counters count the bytes of the tunnel that each end has read. -/
  near : lane.near.counter = UInt64.ofNat lane.inp.taken.length
  far : lane.far.counter = UInt64.ofNat (lane.mid.taken.length - lane.skip.length)
  /-- An end that did not come from a failure is the end of everything. -/
  complete : lane.inp.broken = false → lane.mid.broken = false → lane.out.broken = false →
    lane.out.ended = true → lane.out.sent = lane.inp.sent ∧ lane.inp.ended = true

/-- What the far end has read behind the frame is a beginning of what the near end wrote behind it. -/
theorem Lane.Sound.crosses {lane : Lane} {frame : RawMsg} {spoken : Spoken} {hearing : Heard}
    (sound : lane.Sound frame spoken hearing) : lane.far.moved <+: lane.near.put := by
  rcases sound.hears.part with ⟨_, idle⟩ | ⟨skipped, said⟩
  · rw [idle]
    exact List.nil_prefix
  · have lead := lane.mid.taken_isLead
    rw [sound.far.reads, sound.near.writes, skipped, said, List.prefix_append_right_inj] at lead
    exact lead

theorem Lane.Sound.transparent {lane : Lane} {frame : RawMsg} {spoken : Spoken} {hearing : Heard}
    (sound : lane.Sound frame spoken hearing) : lane.Transparent := by
  have nearReads : lane.inp.taken = lane.near.moved := sound.near.reads
  have farWrites : lane.out.sent = lane.far.put := sound.far.writes
  refine ⟨?_, ?_, ?_, ?_⟩
  · rw [farWrites, nearReads]
    exact (put_isLead _).trans (sound.crosses.trans (put_isLead _))
  · rw [lane.near.counted, nearReads]
  · rw [lane.far.counted, sound.far.reads, List.length_append, Nat.add_sub_cancel_left]
  · intro inpWhole midWhole outWhole ended
    have farOver : lane.far.pc = .over false := by
      rcases sound.far.stops ended with broken | broken | finished
      · cases outWhole.symm.trans broken
      · cases midWhole.symm.trans broken
      · exact finished
    rcases sound.far.ends farOver with ⟨midDry, midEnded⟩
    have nearOver : lane.near.pc = .over false := by
      rcases sound.near.stops midEnded with broken | broken | finished
      · cases midWhole.symm.trans broken
      · cases inpWhole.symm.trans broken
      · exact finished
    rcases sound.near.ends nearOver with ⟨inpDry, inpEnded⟩
    refine ⟨?_, inpEnded⟩
    have crossed := Pipe.taken_eq midWhole midDry
    rcases sound.hears.part with ⟨_, idle⟩ | ⟨skipped, said⟩
    · rw [idle] at farOver
      cases farOver
    · rw [sound.far.reads, sound.near.writes, skipped, said, List.append_cancel_left_eq] at crossed
      rw [farWrites, put_of_over farOver, crossed, put_of_over nearOver, ← nearReads,
        Pipe.taken_eq inpWhole inpDry]

/-- In both directions, whatever the two ends, their pumps, the user, the local service and the
connections have done. -/
theorem tunnel_transparent {e : Ends} {t : Tunnel} (run : (tunnel e).Reachable t) (way : Way) :
    (t.lane way).out.taken <+: (t.lane way).inp.sent ∧ (t.lane way).Transparent := by
  have transparent : (t.lane way).Transparent := by
    have sound := tunnel_sound run
    cases way with
    | down => exact sound.down.transparent
    | up => exact sound.up.transparent
  refine ⟨?_, transparent⟩
  exact ((Pipe.taken_isLead _).trans transparent.delivers).trans (Pipe.taken_isLead _)

/-! ## A sample -/

/-- A client with one proxy. Its parser knows the one answer it gets. -/
def sampleEnds : Ends :=
  let start : StartWorkConn := { proxyName := "web" }
  { fromSlice := fun body => if body = toVec start.toJson then some start.toJson else none
    published := ["web"]
    hello := { runId := "one" }
    verdict := .ok start }

/-- Both ends get to copying, while the first bytes of the user wait. -/
def copyingRun : List Action := [
  .send .down [1, 2, 3], .client .greet, .client (.wrote 9), .client (.wrote 16), .server .frame,
  .server .assign, .server (.wrote 29), .client .frame, .client (.dialed true)]

/-- Two of the bytes get through, and the user shuts down. -/
def copiedRun : List Action :=
  copyingRun ++ [.near .down (.read 2), .near .down (.wrote 2), .far .down (.read 2),
    .far .down (.wrote 1), .far .down (.wrote 1), .recv .down 1, .shut .down]

/-- A run that evaluates is one of the system. -/
theorem sample_tunnel (actions : List Action) (check : Tunnel → Bool)
    (passed : (System.execute (Tunnel.step sampleEnds) actions .start).any check = true) :
    ∃ t, (tunnel sampleEnds).Reachable t ∧ check t = true :=
  System.reaches_of_any (fun _ move => ⟨trivial, move⟩) (.start rfl) passed

/-- The local service has the first byte of the user. -/
theorem tunnel_transparent_two_bytes :
    ∃ t, (tunnel sampleEnds).Reachable t ∧ t.down.out.taken = [1] ∧
      t.down.out.taken <+: t.down.inp.sent ∧ t.down.Transparent := by
  rcases sample_tunnel copiedRun (fun t => decide (t.down.out.taken = [1])) (by decide +kernel) with
    ⟨t, run, shown⟩
  have transparent := tunnel_transparent run .down
  exact ⟨t, run, of_decide_eq_true shown, transparent.1, transparent.2⟩

end Remgr.Tcp
