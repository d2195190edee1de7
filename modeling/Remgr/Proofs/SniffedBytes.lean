/-
Module: Remgr.Proofs.SniffedBytes
Purpose: The layer above the sniffing of `handle_accepted` sees the client's bytes: in every run,
  with whatever buffers it polls and however often a poll is not ready.
Trusted boundary: Remgr.Frps.Server.Accept
Main exports: meant, Placed, SeesClientBytes, ServesReads, layer_above_sees_client_bytes
-/
import Remgr.Frps.Server.Accept

namespace Remgr.Frps.Accept

open Lib

/-- What of the client's bytes is meant for the layer above: all but the custom marker. -/
def meant : List UInt8 → List UInt8
  | [] => []
  | first :: rest => if first = 0x17 then rest else first :: rest

/-- Where the sniffed byte is: it was the marker, or `Prefixed` still has it and nothing has been
seen, or it has been seen, first. -/
inductive Placed (first : UInt8) (seen : List UInt8) : Above → Sniffed → Prop where
  | marker {tcp : TcpStream} (custom : first = 0x17) : Placed first seen .tls (.stream tcp)
  | held {above : Above} {tcp : TcpStream} (kept : first ≠ 0x17)
      (hello : above = .tls ↔ first = 0x16) (unseen : seen = []) :
      Placed first seen above (.replay ⟨some first, tcp⟩)
  | replayed {above : Above} {tcp : TcpStream} {more : List UInt8} (kept : first ≠ 0x17)
      (hello : above = .tls ↔ first = 0x16) (firstSeen : seen = first :: more) :
      Placed first seen above (.replay ⟨none, tcp⟩)

/-- What the layer above has seen of a connection, and what it has yet to see. -/
structure Accounted (s : Conn) (above : Above) (io : Sniffed) : Prop where
  whole : meant s.sent = s.seen ++ io.unread ++ s.lost
  placed : ∃ first rest, s.sent = first :: rest ∧ Placed first s.seen above io
  ended : s.ended = true → io.unread = [] ∧ io.tcp.closed = true

/-- The layer above sees what the client has sent and is meant for it: nothing else, in order, and
nothing is lost unless the connection breaks. -/
structure SeesClientBytes (s : Conn) : Prop where
  inOrder : s.seen <+: meant s.sent
  unbroken : s.broken = false → s.lost = []
  shut : ∀ tcp, s.phase.tcp = some tcp → s.broken = true → tcp.closed = true
  sniffing : ∀ tcp, s.phase = .sniffing tcp →
    s.seen = [] ∧ s.ended = false ∧ s.sent = tcp.unread ++ s.lost
  accepted : ∀ above io, s.phase = .accepted above io → Accounted s above io

/-- The polls of the layer above: each keeps to the stream, and enough of those that the connection
answers bring all that is left. -/
structure ServesReads (s : Conn) (io : Sniffed) : Prop where
  lawful : ∀ answer buf,
    PollLaw Sniffed.unread (fun io => io.tcp.closed = true) (∃ extra, answer = .ready extra) io buf
      (io.pollRead answer buf)
  drains : ∀ polls : List (Readiness × ReadBuf),
    (∀ poll ∈ polls, (∃ extra, poll.1 = .ready extra) ∧ 0 < poll.2.remaining) →
    io.unread.length ≤ polls.length →
    ∃ s', System.execute step (polls.map fun poll => .read poll.1 poll.2) s = some s' ∧
      s'.sent = s.sent ∧ s'.seen ++ s.lost = meant s.sent

/-! ## One poll -/

theorem TcpStream.pollRead_lawful (answer : Readiness) (tcp : TcpStream) (buf : ReadBuf) :
    PollLaw TcpStream.unread (fun tcp => tcp.closed = true) (∃ extra, answer = .ready extra) tcp buf
      (tcp.pollRead answer buf) := by
  cases answer with
  | pending =>
      exact .of_added [] rfl (List.append_nil _).symm rfl (fun _ => rfl) nofun Iff.rfl nofun
  | error => exact .of_added [] rfl (List.append_nil _).symm rfl (fun _ => rfl) nofun Iff.rfl nofun
  | ready extra =>
      by_cases waits : tcp.unread = [] ∧ tcp.closed = false ∧ 0 < buf.remaining
      · rw [TcpStream.pollRead, if_pos waits]
        exact .of_added [] rfl (List.append_nil _).symm rfl (fun _ => rfl) nofun Iff.rfl
          fun _ _ some => absurd waits.1 some
      · rw [TcpStream.pollRead, if_neg waits]
        have someTaken (room : 0 < buf.remaining) : 0 < min (extra + 1) buf.remaining := by omega
        refine .of_added _ rfl rfl (List.take_append_drop _ _).symm
          (fun notReady => absurd rfl notReady) ?_ Iff.rfl ?_
        · intro _ room none
          have nothing : tcp.unread = [] := by
            rcases List.take_eq_nil_iff.mp none with zero | nothing
            · exact absurd zero (Nat.pos_iff_ne_zero.mp (someTaken room))
            · exact nothing
          refine ⟨nothing, ?_⟩
          cases shut : tcp.closed with
          | true => rfl
          | false => exact absurd ⟨nothing, shut, room⟩ waits
        · intro _ room some none
          rcases List.take_eq_nil_iff.mp none with zero | nothing
          · exact absurd zero (Nat.pos_iff_ne_zero.mp (someTaken room))
          · exact some nothing

instance : ByteSource TcpStream Readiness where
  unread := TcpStream.unread
  finished tcp := tcp.closed = true
  prompt answer := ∃ extra, answer = .ready extra
  lawful := TcpStream.pollRead_lawful

/-- The byte in front is handed out by the first poll that has room for it; every other poll goes to
the stream behind it. -/
instance {ι α : Type} [source : ByteSource ι α] : ByteSource (Prefixed ι) α where
  unread this := this.prefixByte.toList ++ source.unread this.inner
  finished this := source.finished this.inner
  prompt := source.prompt
  lawful answer this buf := by
    obtain ⟨prefixByte, inner⟩ := this
    have law := source.lawful answer inner buf
    show PollLaw _ _ _ _ _ (Prefixed.pollRead answer ⟨prefixByte, inner⟩ buf)
    by_cases room : 0 < buf.remaining
    · cases prefixByte with
      | none =>
          rw [Prefixed.pollRead, dif_pos room]
          exact law.behind [] (fun _ => rfl) (fun _ => Iff.rfl) (.inl rfl)
      | some b =>
          rw [Prefixed.pollRead, dif_pos room]
          exact .of_added [b] rfl rfl rfl (fun notReady => absurd rfl notReady) nofun
            Iff.rfl nofun
    · rw [Prefixed.pollRead, dif_neg room]
      exact law.behind prefixByte.toList (fun _ => rfl) (fun _ => Iff.rfl)
        (.inr (Nat.eq_zero_of_not_pos room))

instance : ByteSource Sniffed Readiness where
  unread := Sniffed.unread
  finished io := io.tcp.closed = true
  prompt answer := ∃ extra, answer = .ready extra
  lawful answer io buf := by
    cases io with
    | stream tcp =>
        exact (ByteSource.lawful answer tcp buf).behind [] (fun _ => rfl) (fun _ => Iff.rfl)
          (.inl rfl)
    | replay prefixed =>
        exact (ByteSource.lawful answer prefixed buf).behind [] (fun _ => rfl) (fun _ => Iff.rfl)
          (.inl rfl)

/-! ## What one step keeps -/

theorem meant_append {first : UInt8} {rest : List UInt8} (bytes : List UInt8) :
    meant (first :: rest ++ bytes) = meant (first :: rest) ++ bytes := by
  rw [List.cons_append, meant, meant]
  split
  · rfl
  · rfl

namespace Sniffed

/-- What `Prefixed` still holds. -/
def held : Sniffed → List UInt8
  | stream _ => []
  | replay prefixed => prefixed.prefixByte.toList

theorem unread_eq (io : Sniffed) : io.unread = io.held ++ io.tcp.unread := by
  cases io with
  | stream tcp => rfl
  | replay prefixed => rfl

@[simp] theorem unread_setTcp (io : Sniffed) (tcp : TcpStream) :
    (io.setTcp tcp).unread = io.held ++ tcp.unread := by
  cases io with
  | stream _ => rfl
  | replay _ => rfl

@[simp] theorem tcp_setTcp (io : Sniffed) (tcp : TcpStream) : (io.setTcp tcp).tcp = tcp := by
  cases io with
  | stream _ => rfl
  | replay _ => rfl

end Sniffed

variable {first : UInt8} {seen : List UInt8} {above : Above} {io : Sniffed} {s s' : Conn}

/-- What the client does leaves the sniffed byte where it is. -/
theorem Placed.setTcp (placed : Placed first seen above io) (tcp : TcpStream) :
    Placed first seen above (io.setTcp tcp) := by
  cases placed with
  | marker custom => exact .marker custom
  | held kept hello unseen => exact .held kept hello unseen
  | replayed kept hello firstSeen => exact .replayed kept hello firstSeen

/-- A poll moves the byte only when it adds it, as the first. -/
theorem Placed.pollRead (placed : Placed first seen above io) (answer : Readiness) (buf : ReadBuf) :
    Placed first (seen ++ (io.pollRead answer buf).added buf) above
      (io.pollRead answer buf).reader := by
  cases placed with
  | marker custom => exact .marker custom
  | @held _ tcp kept hello unseen =>
      subst unseen
      rw [Sniffed.pollRead, Prefixed.pollRead]
      by_cases room : 0 < buf.remaining
      · rw [dif_pos room]
        have added : List.drop buf.filled.length (buf.filled ++ [first]) = first :: [] :=
          List.drop_left
        exact .replayed kept hello added
      · rw [dif_neg room]
        have law := TcpStream.pollRead_lawful answer tcp buf
        have nothing : (tcp.pollRead answer buf).added buf = [] := by
          have fits := law.added_fits
          exact List.length_eq_zero_iff.mp (by omega)
        exact .held kept hello nothing
  | @replayed _ tcp more kept hello firstSeen =>
      subst firstSeen
      rw [Sniffed.pollRead, Prefixed.pollRead]
      split
      · exact .replayed kept hello rfl
      · exact .replayed kept hello rfl

/-- What a step of the client can do: it sends more, on an open connection only, or it ends its
stream, or the connection breaks and keeps a part of what is unread. -/
structure ClientMove (s s' : Conn) (tcp tcp' : TcpStream) (bytes : List UInt8) : Prop where
  phase : s'.phase = s.phase.setTcp tcp'
  sent : s'.sent = s.sent ++ bytes
  seen : s'.seen = s.seen
  ended : s'.ended = s.ended
  moved : tcp'.unread ++ s'.lost = tcp.unread ++ s.lost ++ bytes
  unbroken : s'.broken = false → s'.lost = []
  shut : s'.broken = true → tcp'.closed = true
  finished : tcp.closed = true → tcp'.closed = true
  emptied : tcp.closed = true → tcp.unread = [] → tcp'.unread = []

theorem clientStep_cases {tcp : TcpStream} {act : ClientStep}
    (unbroken : s.broken = false → s.lost = [])
    (shut : s.broken = true → tcp.closed = true) (move : clientStep s tcp act = some s') :
    ∃ tcp' bytes, ClientMove s s' tcp tcp' bytes := by
  cases act with
  | send bytes =>
      obtain ⟨isOpen, moved⟩ := Option.ite_none_left_eq_some.mp move
      cases moved
      have whole : s.broken = false := by
        cases broken : s.broken with
        | false => rfl
        | true => exact absurd (shut broken) isOpen
      refine ⟨{ tcp with unread := tcp.unread ++ bytes }, bytes, rfl, rfl, rfl, rfl, ?_, unbroken,
        shut, id, fun closed => absurd closed isOpen⟩
      show tcp.unread ++ bytes ++ s.lost = tcp.unread ++ s.lost ++ bytes
      rw [unbroken whole, List.append_nil, List.append_nil]
  | close =>
      cases move
      exact ⟨{ tcp with closed := true }, [], rfl, (List.append_nil _).symm, rfl, rfl,
        (List.append_nil _).symm, unbroken, fun _ => rfl, fun _ => rfl, fun _ nothing => nothing⟩
  | reset kept =>
      obtain ⟨whole, moved⟩ := Option.ite_none_left_eq_some.mp move
      cases moved
      refine ⟨{ unread := tcp.unread.take kept, closed := true }, [], rfl, (List.append_nil _).symm,
        rfl, rfl, ?_, nofun, fun _ => rfl, fun _ => rfl, fun _ nothing => ?_⟩
      · show tcp.unread.take kept ++ tcp.unread.drop kept = tcp.unread ++ s.lost ++ []
        rw [unbroken (Bool.eq_false_iff.mpr whole), List.take_append_drop, List.append_nil,
          List.append_nil]
      · show tcp.unread.take kept = []
        rw [nothing, List.take_nil]

theorem Accounted.client {tcp tcp' : TcpStream} {bytes : List UInt8}
    (accounted : Accounted s above io) (below : io.tcp = tcp)
    (move : ClientMove s s' tcp tcp' bytes) : Accounted s' above (io.setTcp tcp') := by
  subst below
  obtain ⟨first, rest, sent, placed⟩ := accounted.placed
  refine ⟨?_, ⟨first, rest ++ bytes, ?_, ?_⟩, ?_⟩
  · calc meant s'.sent
      _ = meant s.sent ++ bytes := by rw [move.sent, sent, meant_append]
      _ = s.seen ++ (io.held ++ (io.tcp.unread ++ s.lost ++ bytes)) := by
          rw [accounted.whole, Sniffed.unread_eq]
          simp only [List.append_assoc]
      _ = s'.seen ++ (io.setTcp tcp').unread ++ s'.lost := by
          rw [← move.moved, move.seen, Sniffed.unread_setTcp]
          simp only [List.append_assoc]
  · rw [move.sent, sent, List.cons_append]
  · rw [move.seen]
    exact placed.setTcp tcp'
  · intro ended
    rw [move.ended] at ended
    obtain ⟨nothing, closed⟩ := accounted.ended ended
    rw [Sniffed.unread_eq] at nothing
    obtain ⟨noneHeld, noneUnread⟩ := List.append_eq_nil_iff.mp nothing
    rw [Sniffed.unread_setTcp, Sniffed.tcp_setTcp, noneHeld, move.emptied closed noneUnread]
    exact ⟨rfl, move.finished closed⟩

/-- The sniffing takes one byte off the stream, or nothing. -/
theorem readFirst_ready {answer : Readiness} {tcp left : TcpStream}
    (found : readFirst answer tcp = (.ready first, left)) :
    tcp.unread = first :: left.unread ∧ (left.closed = true ↔ tcp.closed = true) := by
  have law := TcpStream.pollRead_lawful answer tcp (.new 1)
  have filled : (tcp.pollRead answer (.new 1)).buf.filled =
      (tcp.pollRead answer (.new 1)).added (.new 1) := law.filled
  unfold readFirst at found
  dsimp only at found
  split at found
  · rename_i byte more reply given
    cases found
    rw [given] at filled
    have fits := law.added_fits
    rw [← filled, ReadBuf.new_remaining, List.length_cons] at fits
    have single : more = [] := List.length_eq_zero_iff.mp (by omega)
    have taken := law.taken
    rw [← filled, single] at taken
    exact ⟨taken, law.finished_iff⟩
  · cases found
  · cases found
  · cases found

theorem readFirst_pending {answer : Readiness} {tcp left : TcpStream}
    (waits : readFirst answer tcp = (.pending, left)) :
    left.unread = tcp.unread ∧ (left.closed = true ↔ tcp.closed = true) := by
  have law := TcpStream.pollRead_lawful answer tcp (.new 1)
  unfold readFirst at waits
  dsimp only at waits
  split at waits
  · cases waits
  · cases waits
  · rename_i reply
    cases waits
    have nothing := law.idle (by rw [reply]; nofun)
    have taken := law.taken
    rw [nothing, List.nil_append] at taken
    exact ⟨taken.symm, law.finished_iff⟩
  · cases waits

theorem accept_tcp (first : UInt8) (tcp : TcpStream) : (accept first tcp).2.tcp = tcp := by
  unfold accept
  split
  · rfl
  · split
    · rfl
    · rfl

theorem Accounted.inOrder (accounted : Accounted s above io) : s.seen <+: meant s.sent := by
  rw [accounted.whole, List.append_assoc]
  exact List.prefix_append _ _

namespace SeesClientBytes

theorem of_sniffing {tcp : TcpStream} (phase : s.phase = .sniffing tcp) (unseen : s.seen = [])
    (goesOn : s.ended = false) (whole : s.sent = tcp.unread ++ s.lost)
    (unbroken : s.broken = false → s.lost = []) (shut : s.broken = true → tcp.closed = true) :
    SeesClientBytes s where
  inOrder := by
    rw [unseen]
    exact List.nil_prefix
  unbroken := unbroken
  shut stream there := by
    rw [phase] at there
    cases there
    exact shut
  sniffing stream sniffs := by
    rw [phase] at sniffs
    cases sniffs
    exact ⟨unseen, goesOn, whole⟩
  accepted _ _ reads := by
    rw [phase] at reads
    cases reads

theorem of_accepted (phase : s.phase = .accepted above io) (accounted : Accounted s above io)
    (unbroken : s.broken = false → s.lost = []) (shut : s.broken = true → io.tcp.closed = true) :
    SeesClientBytes s where
  inOrder := accounted.inOrder
  unbroken := unbroken
  shut stream there := by
    rw [phase] at there
    cases there
    exact shut
  sniffing _ sniffs := by
    rw [phase] at sniffs
    cases sniffs
  accepted _ _ reads := by
    rw [phase] at reads
    cases reads
    exact accounted

/-- The server lets go of the connection, with what has been seen of it. -/
theorem drop (sees : SeesClientBytes s) : SeesClientBytes { s with phase := .dropped } where
  inOrder := sees.inOrder
  unbroken := sees.unbroken
  shut _ there := nomatch there
  sniffing _ sniffs := nomatch sniffs
  accepted _ _ reads := nomatch reads

theorem client {tcp tcp' : TcpStream} {bytes : List UInt8} (sees : SeesClientBytes s)
    (there : s.phase.tcp = some tcp) (move : ClientMove s s' tcp tcp' bytes) :
    SeesClientBytes s' := by
  have after := move.phase
  cases phase : s.phase with
  | sniffing stream =>
      rw [phase] at there after
      cases there
      obtain ⟨unseen, goesOn, whole⟩ := sees.sniffing tcp phase
      refine of_sniffing after (move.seen.trans unseen) (move.ended.trans goesOn) ?_ move.unbroken
        move.shut
      rw [move.sent, whole, move.moved]
  | accepted above io =>
      rw [phase] at there after
      cases there
      have accounted := (sees.accepted above io phase).client rfl move
      refine of_accepted after accounted move.unbroken ?_
      rw [Sniffed.tcp_setTcp]
      exact move.shut
  | dropped =>
      rw [phase] at there
      cases there

/-- The first byte is taken off the stream and `accept` puts it where it belongs. -/
theorem accepts (first : UInt8) (tcp : TcpStream) {rest : List UInt8} (unseen : s.seen = [])
    (goesOn : s.ended = false) (whole : s.sent = first :: rest)
    (left : rest = tcp.unread ++ s.lost) :
    Accounted { s with phase := .accepted (accept first tcp).1 (accept first tcp).2 }
      (accept first tcp).1 (accept first tcp).2 := by
  have notEnded : s.ended ≠ true := ne_true_of_eq_false goesOn
  by_cases custom : first = 0x17
  · rw [accept, if_pos custom]
    refine ⟨?_, ⟨first, rest, whole, .marker custom⟩, fun ended => absurd ended notEnded⟩
    show meant s.sent = s.seen ++ tcp.unread ++ s.lost
    rw [whole, meant, if_pos custom, unseen, List.nil_append, left]
  · have replays : accept first tcp =
        (if first = 0x16 then .tls else .plain, .replay ⟨some first, tcp⟩) := by
      rw [accept, if_neg custom]
      split
      · rfl
      · rfl
    have hello : (if first = 0x16 then Above.tls else .plain) = .tls ↔ first = 0x16 := by
      split
      · rename_i isHello
        exact iff_of_true rfl isHello
      · rename_i other
        exact iff_of_false nofun other
    rw [replays]
    refine ⟨?_, ⟨first, rest, whole, .held custom hello unseen⟩, fun ended => absurd ended notEnded⟩
    show meant s.sent = s.seen ++ (first :: tcp.unread) ++ s.lost
    rw [whole, meant, if_neg custom, unseen, List.nil_append, left, List.cons_append]

theorem sniff {tcp : TcpStream} (sees : SeesClientBytes s) (sniffs : s.phase = .sniffing tcp)
    (answer : Readiness) : SeesClientBytes (sniffStep s answer tcp) := by
  obtain ⟨unseen, goesOn, whole⟩ := sees.sniffing tcp sniffs
  have open_of_shut : s.broken = true → tcp.closed = true :=
    sees.shut tcp (by rw [sniffs, Phase.tcp])
  rw [sniffStep]
  split
  · rename_i first left found
    obtain ⟨taken, closed⟩ := readFirst_ready found
    have started : s.sent = first :: (left.unread ++ s.lost) := by
      rw [whole, taken, List.cons_append]
    have accounted := accepts first left unseen goesOn started rfl
    refine of_accepted rfl accounted sees.unbroken fun broken => ?_
    rw [accept_tcp]
    exact closed.mpr (open_of_shut broken)
  · rename_i left waits
    obtain ⟨same, closed⟩ := readFirst_pending waits
    refine of_sniffing rfl unseen goesOn ?_ sees.unbroken fun broken =>
      closed.mpr (open_of_shut broken)
    rw [same]
    exact whole
  · exact sees.drop

/-- A read of the layer above hands out what comes next, and no more than that. -/
theorem read (sees : SeesClientBytes s) (reads : s.phase = .accepted above io) (answer : Readiness)
    (buf : ReadBuf) : SeesClientBytes (readStep s above io answer buf) := by
  have accounted := sees.accepted above io reads
  have law : PollLaw Sniffed.unread (fun io => io.tcp.closed = true)
      (∃ extra, answer = .ready extra) io buf (io.pollRead answer buf) :=
    ByteSource.lawful answer io buf
  obtain ⟨first, rest, sent, placed⟩ := accounted.placed
  have after :
      Accounted (readStep s above io answer buf) above (io.pollRead answer buf).reader := by
    refine ⟨?_, ⟨first, rest, sent, placed.pollRead answer buf⟩, ?_⟩
    · show meant s.sent = s.seen ++ (io.pollRead answer buf).added buf ++ _ ++ s.lost
      rw [accounted.whole, law.taken]
      simp only [List.append_assoc]
    · intro ended
      rw [law.finished_iff]
      have atEnd : io.unread = [] ∧ io.tcp.closed = true := by
        rcases Bool.or_eq_true_iff.mp ended with before | now
        · exact accounted.ended before
        · exact law.ends now
      refine ⟨?_, atEnd.2⟩
      have nothing := law.taken
      rw [atEnd.1] at nothing
      exact (List.append_eq_nil_iff.mp nothing.symm).2
  refine of_accepted rfl after sees.unbroken fun broken => law.finished_iff.mpr ?_
  exact sees.shut io.tcp (by rw [reads, Phase.tcp]) broken

theorem step (sees : SeesClientBytes s) {act : Step} (move : Accept.step act s = some s') :
    SeesClientBytes s' := by
  unfold Accept.step at move
  split at move
  · obtain ⟨tcp, there, moves⟩ := Option.bind_eq_some_iff.mp move
    obtain ⟨tcp', bytes, moved⟩ := clientStep_cases sees.unbroken (sees.shut tcp there) moves
    exact sees.client there moved
  · rename_i answer tcp sniffs
    cases move
    exact sees.sniff sniffs answer
  · cases move
    exact sees.drop
  · rename_i answer buf above io reads
    cases move
    exact sees.read reads answer buf
  · cases move
    exact sees.drop
  · cases move

theorem reached (run : connections.Reachable s) : SeesClientBytes s := by
  refine run.invariant ?_ fun _ sees _ move => sees.step move
  intro start initial
  cases initial
  exact of_sniffing rfl rfl rfl rfl (fun _ => rfl) nofun

end SeesClientBytes

/-! ## The reads of the layer above -/

/-- Reads alone: the layer above sees what the polls add, and the client nothing of it. -/
theorem execute_reads (polls : List (Readiness × ReadBuf)) (reads : s.phase = .accepted above io) :
    ∃ s', System.execute step (polls.map fun poll => .read poll.1 poll.2) s = some s' ∧
      s'.sent = s.sent ∧ s'.seen = s.seen ++ (ByteSource.pollAll polls io).2 := by
  induction polls generalizing s io with
  | nil => exact ⟨s, rfl, rfl, (List.append_nil _).symm⟩
  | cons poll polls inductionHypothesis =>
      obtain ⟨answer, buf⟩ := poll
      have moved : step (.read answer buf) s = some (readStep s above io answer buf) := by
        unfold step
        rw [reads]
      obtain ⟨s', done, sent, seen⟩ := inductionHypothesis
        (show (readStep s above io answer buf).phase = .accepted above _ from rfl)
      refine ⟨s', ?_, sent, ?_⟩
      · rw [List.map_cons, System.execute, moved]
        exact done
      · rw [seen, ByteSource.pollAll, ← List.append_assoc]
        rfl

theorem SeesClientBytes.serves (sees : SeesClientBytes s) (reads : s.phase = .accepted above io) :
    ServesReads s io where
  lawful answer buf := ByteSource.lawful answer io buf
  drains polls served enough := by
    obtain ⟨s', done, sent, seen⟩ := execute_reads polls reads
    refine ⟨s', done, sent, ?_⟩
    have drained : io.unread = (ByteSource.pollAll polls io).2 := by
      have left : ByteSource.unread (ByteSource.pollAll polls io).1 = [] :=
        ByteSource.pollAll_drains served enough
      have whole := ByteSource.pollAll_unread polls io
      rw [left, List.append_nil] at whole
      exact whole
    rw [seen, (sees.accepted above io reads).whole, drained]

/-- In every run, the layer above has seen the client's bytes from the first one that is meant for
it on, has the rest still to read, and is told of the end only when there is no rest. -/
theorem layer_above_sees_client_bytes (run : connections.Reachable s) :
    SeesClientBytes s ∧
      (∀ above io, s.phase = .accepted above io → ServesReads s io) ∧
      (s.ended = true → ∀ above io, s.phase = .accepted above io → s.broken = false →
        s.seen = meant s.sent) := by
  have sees := SeesClientBytes.reached run
  refine ⟨sees, fun above io reads => sees.serves reads, fun ended above io reads whole => ?_⟩
  have accounted := sees.accepted above io reads
  rw [accounted.whole, (accounted.ended ended).1, sees.unbroken whole, List.append_nil,
    List.append_nil]

/-- A ClientHello comes in pieces and is read in pieces: with no room, then by polls that are not
ready, of which the first brings the sniffed byte, then all that is left, and the end. -/
def helloRun : List Step :=
  [.sniff .pending, .client (.send [0x16, 3]), .sniff (.ready 0), .read (.ready 0) (.new 0),
    .read .pending (.new 1), .read .pending (.new 8), .client (.send [1, 2]),
    .read (.ready 7) (.new 8), .client .close, .read (.ready 7) (.new 8)]

/-- The end of that run. -/
def helloRead (s : Conn) : Bool :=
  s.sent = [0x16, 3, 1, 2] && s.seen = [0x16, 3, 1, 2] && s.ended && !s.broken &&
    s.phase = .accepted .tls (.replay ⟨none, ⟨[], true⟩⟩)

theorem layer_above_sees_hello :
    ∃ s, connections.Reachable s ∧ helloRead s = true ∧ s.seen = meant s.sent := by
  have passed : (System.execute step helloRun {}).any helloRead = true := by decide
  have started : connections.Reachable {} := .start rfl
  obtain ⟨s, run, checked⟩ :=
    System.reaches_of_any (fun _ moved => ⟨trivial, moved⟩) started passed
  refine ⟨s, run, checked, ?_⟩
  simp only [helloRead, Bool.and_eq_true, decide_eq_true_eq, Bool.not_eq_true'] at checked
  obtain ⟨⟨⟨-, ended⟩, whole⟩, reads⟩ := checked
  exact (layer_above_sees_client_bytes run).2.2 ended _ _ reads whole

/-- The marker is not seen, and a byte like it further on is. -/
example : (System.execute step
    [.client (.send [0x17, 0x16]), .sniff (.ready 0), .read (.ready 7) (.new 8),
      .client (.send [0x17]), .read (.ready 0) (.new 1)] {}).map Conn.seen = some [0x16, 0x17] := by
  decide

end Remgr.Frps.Accept
