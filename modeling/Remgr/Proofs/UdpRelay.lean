/-
Module: Remgr.Proofs.UdpRelay
Purpose: What arrives at the two ends of a udp relay. Toward the local service every datagram arrives
  as the server's buffer has cut it, attributed to the address and port of its user, in order and at
  most once; toward the users every datagram arrives as it was sent, or not at all.
Trusted boundary: as in `Remgr.Udp.Relay`; of the JSON parser it is assumed that it reads back the
  packets of the run
Main exports: Reads, relay_down, relay_up, relay_exact
-/
import Remgr.Udp.Relay
import Remgr.Proofs.MessageCodec
import Remgr.Proofs.FrameSize
import Mathlib.Algebra.Order.Group.Multiset
import Mathlib.Tactic.Abel

namespace Remgr.Udp

open Remgr.Lib
open Remgr.Lib.Json
open Remgr.Frps

/-- A datagram and the user it belongs to. -/
abbrev Item := SocketAddr × List UInt8

/-! ## Packets -/

/-- The body around a datagram on its way to the client. -/
def downPacket (w : World) (item : Item) : Json :=
  (UdpPacket.fromContent item.2 w.here item.1).toJson

/-- The body around a datagram on its way to the server. -/
def upPacket (item : Item) : Json := (Frpc.UdpPacketOut.ofContent item.2 item.1).toJson

theorem socketAddr_ipText (user : SocketAddr) :
    socketAddr (some (ipText user)) user.port = some user := by
  simp [socketAddr, ipText, IpAddr.parse_text]

/-- The client takes the datagram and its user out of the server's packet. -/
theorem downPacket_read (w : World) (item : Item) :
    ∃ pkt, Frpc.UdpPacketIn.ofJson (downPacket w item) = some pkt ∧ pkt.content = some item.2 ∧
      pkt.remoteSocketAddr = some item.1 := by
  rcases item with ⟨user, content⟩
  refine ⟨⟨String.ofList (Base64.encode content), some ⟨some (ipText user), user.port⟩⟩, ?_, ?_, ?_⟩
  · have address : Frpc.UdpAddrIn.ofJson (UdpAddrJson.ofAddr user).toJson =
        some ⟨some (ipText user), user.port⟩ := by
      refine readNext rfl ?_
      refine readNext (readField_optMember (some (ipText user)) rfl (fun _ => rfl) (fun _ => nofun)) ?_
      refine readNext (readField_u16Member user.port rfl) ?_
      rfl
    refine readNext rfl ?_
    refine readNext (readField_strMember _ rfl) ?_
    refine readNext (?_ : _ = some (some ⟨some (ipText user), user.port⟩)) rfl
    have only : (UdpPacket.fields (UdpPacket.fromContent content w.here user)).filter
        (fun other => ["r", "R"].contains other.1) =
        [optMember "r" UdpAddrJson.toJson (some (.ofAddr user))] := rfl
    rw [readField_of_filter _ _ only]
    change (Frpc.UdpAddrIn.ofJson (UdpAddrJson.ofAddr user).toJson).map some = _
    rw [address, Option.map_some]
  · simp [Frpc.UdpPacketIn.content, Base64.decode_encode]
  · simp [Frpc.UdpPacketIn.remoteSocketAddr, socketAddr_ipText]

/-- The server takes the datagram and its user out of the client's packet. -/
theorem upPacket_read (item : Item) :
    ∃ pkt, UdpPacket.ofJson (upPacket item) = some pkt ∧ pkt.content = some item.2 ∧
      pkt.remoteSocketAddr = some item.1 := by
  rcases item with ⟨user, content⟩
  have port := asU16_num user.port
  refine ⟨⟨String.ofList (Base64.encode content), none, some ⟨some (ipText user), user.port, ""⟩⟩,
    ?_, ?_, ?_⟩
  · have address : UdpAddrJson.ofJson
        (Frpc.UdpPacketOut.ofContent content user).r.toJson =
        some ⟨some (ipText user), user.port, ""⟩ := by
      refine readNext rfl ?_
      refine readNext (rfl : _ = some (some (ipText user))) ?_
      refine readNext (port : _ = some user.port) ?_
      rfl
    refine readNext rfl ?_
    refine readNext (rfl : _ = some (String.ofList (Base64.encode content))) ?_
    refine readNext (rfl : _ = some none) ?_
    refine readNext (?_ : _ = some (some ⟨some (ipText user), user.port, ""⟩)) rfl
    change (UdpAddrJson.ofJson (Frpc.UdpPacketOut.ofContent content user).r.toJson).map some = _
    rw [address, Option.map_some]
  · simp [UdpPacket.content, Base64.decode_encode]
  · simp [UdpPacket.remoteSocketAddr, socketAddr_ipText]

/-! ## What is on the way -/

/-- A datagram as the server reads it from its socket: cut to the buffer, with the address and the
port of its source. -/
def received (arrival : Endpoint × List UInt8) : Item :=
  (arrival.1.addr, arrival.2.take Server.udpBuffer)

def downFrame (w : World) (item : Item) : RawMsg := (TYPE_UDP_PACKET, toVec (downPacket w item))

/-- A frame of the client: a datagram, or a keepalive. -/
def upFrame : Option Item → RawMsg
  | some item => (TYPE_UDP_PACKET, toVec (upPacket item))
  | none => (TYPE_PING, toVec ({} : Ping).toJson)

/-- What is assumed about the JSON parser: it reads the packets of the run. -/
structure Reads (w : World) (s : State) : Prop where
  down : ∀ arrival ∈ s.fromUsers,
    w.fromSlice (toVec (downPacket w (received arrival))) = some (downPacket w (received arrival))
  up : ∀ item ∈ s.fromService, w.fromSlice (toVec (upPacket item)) = some (upPacket item)

/-- What the reader of the client is about to send. -/
def State.held (s : State) : List Item :=
  match s.reader with
  | .deliver i content => [((s.sockets i).user, content)]
  | _ => []

/-- What the tasks of the user sockets wait to send to the writer. -/
def State.pending (s : State) : List Item :=
  s.waiting.map fun entry => ((s.sockets entry.1).user, entry.2)

/-- The known sockets: those of the users, the one the reader is about to use, and those that wait. -/
structure Known (s : State) : Prop where
  users : ∀ entry ∈ s.users, entry.2 < s.nextSocket ∧ (s.sockets entry.2).user = entry.1
  reader : ∀ i content, s.reader = .deliver i content → i < s.nextSocket
  waiting : ∀ entry ∈ s.waiting, entry.1 < s.nextSocket

/-- Toward the local service: what has arrived, what is held and what is on the way are, in this
order, among what the server has received. -/
def Down (w : World) (s : State) : Prop :=
  ∃ flight, s.down.Carries (flight.map (downFrame w)) ∧
    (s.toService ++ (s.held ++ flight)).Sublist (s.fromUsers.map received)

/-- Toward the users the order is lost where the tasks of the sockets meet. -/
def Up (s : State) : Prop :=
  ∃ flight : List (Option Item), s.up.Carries (flight.map upFrame) ∧
    (s.toUsers + (flight.filterMap id + (s.channel.map Prod.swap + s.pending)) : Multiset Item) ≤
      s.fromService

/-- The first item of a list moves to the end of the list before it. -/
theorem shift_cons (front : List Item) (item : Item) (back : List Item) (rest : Multiset Item) :
    (↑(front ++ [item]) + (↑back + rest) : Multiset Item) = ↑front + (↑(item :: back) + rest) := by
  have front' : (↑(front ++ [item]) : Multiset Item) = ↑front + {item} := (Multiset.coe_add ..).symm
  have back' : (↑(item :: back) : Multiset Item) = {item} + ↑back := rfl
  rw [front', back']
  abel

theorem mem_of_lookup {κ ν : Type} [BEq κ] [LawfulBEq κ] {entries : List (κ × ν)} {k : κ} {v : ν}
    (found : entries.lookup k = some v) : (k, v) ∈ entries := by
  rcases List.lookup_eq_some_iff.mp found with ⟨front, back, rfl, _⟩
  exact List.mem_append_right _ (List.mem_cons_self ..)

section Steps

variable {w : World} {s s' : State}

/-- The sockets there are keep their users. -/
def SameUsers (s s' : State) : Prop :=
  s.nextSocket ≤ s'.nextSocket ∧ ∀ i < s.nextSocket, (s'.sockets i).user = (s.sockets i).user

theorem SameUsers.of_eq (sockets : s'.sockets = s.sockets) (next : s'.nextSocket = s.nextSocket) :
    SameUsers s s' :=
  ⟨next.ge, fun _ _ => by rw [sockets]⟩

theorem SameUsers.setSocket {i : SocketId} {socket : UdpUser} (next : s'.nextSocket = s.nextSocket)
    (sockets : s'.sockets = Function.update s.sockets i socket)
    (user : socket.user = (s.sockets i).user) : SameUsers s s' := by
  refine ⟨next.ge, ?_⟩
  intro d _
  rw [sockets]
  by_cases own : d = i
  · rw [own, Function.update_self, user]
  · rw [Function.update_of_ne own]

theorem held_eq (known : Known s) (same : SameUsers s s') (reader : s'.reader = s.reader) :
    s'.held = s.held := by
  unfold State.held
  rw [reader]
  cases pc : s.reader with
  | deliver i content => simp only [same.2 i (known.reader i content pc)]
  | _ => rfl

theorem pending_eq (known : Known s) (same : SameUsers s s') (waiting : s'.waiting = s.waiting) :
    s'.pending = s.pending := by
  unfold State.pending
  rw [waiting]
  refine List.map_congr_left ?_
  intro entry inside
  rw [same.2 entry.1 (known.waiting entry inside)]

/-- The sockets stay known when no new ones are named. -/
theorem Known.step (known : Known s) (same : SameUsers s s')
    (users : ∀ entry ∈ s'.users, entry ∈ s.users)
    (reader : ∀ i content, s'.reader = .deliver i content → s.reader = .deliver i content)
    (waiting : ∀ entry ∈ s'.waiting, entry ∈ s.waiting) : Known s' := by
  constructor
  · intro entry inside
    rcases known.users entry (users entry inside) with ⟨small, user⟩
    exact ⟨small.trans_le same.1, (same.2 entry.2 small).trans user⟩
  · intro i content stage
    exact (known.reader i content (reader i content stage)).trans_le same.1
  · intro entry inside
    exact (known.waiting entry (waiting entry inside)).trans_le same.1

theorem Down.same (down : Down w s) (wire : s'.down = s.down) (toService : s'.toService = s.toService)
    (held : s'.held = s.held) (fromUsers : s'.fromUsers = s.fromUsers) : Down w s' := by
  unfold Down
  rw [wire, toService, held, fromUsers]
  exact down

theorem Up.same (up : Up s) (wire : s'.up = s.up) (toUsers : s'.toUsers = s.toUsers)
    (channel : s'.channel = s.channel) (pending : s'.pending = s.pending)
    (fromService : s'.fromService = s.fromService) : Up s' := by
  unfold Up
  rw [wire, toUsers, channel, pending, fromService]
  exact up

/-- Everything that is kept along a run. -/
structure Sound (w : World) (s : State) : Prop where
  known : Known s
  down : Down w s
  up : Up s

namespace Sound

/-- Which loops have ended does not matter. -/
theorem marked (sound : Sound w s)
    (serverReads serverSends serverCancelled writes tunnelCancelled : Bool) :
    Sound w { s with
      serverReads := serverReads, serverSends := serverSends, serverCancelled := serverCancelled
      writes := writes, tunnelCancelled := tunnelCancelled } :=
  ⟨⟨sound.known.users, sound.known.reader, sound.known.waiting⟩, sound.down, sound.up⟩

/-- Another wire to the client. -/
theorem setDown (sound : Sound w s) {wire : Wire}
    (carries : ∀ {frames}, s.down.Carries frames → wire.Carries frames) :
    Sound w { s with down := wire } := by
  rcases sound.down with ⟨flight, carried, sub⟩
  exact ⟨⟨sound.known.users, sound.known.reader, sound.known.waiting⟩,
    ⟨flight, carries carried, sub⟩, sound.up⟩

theorem setUp (sound : Sound w s) {wire : Wire}
    (carries : ∀ {frames}, s.up.Carries frames → wire.Carries frames) :
    Sound w { s with up := wire } := by
  rcases sound.up with ⟨flight, carried, sub⟩
  exact ⟨⟨sound.known.users, sound.known.reader, sound.known.waiting⟩, sound.down,
    ⟨flight, carries carried, sub⟩⟩

theorem recvFrom (sound : Sound w s) (src : Endpoint) (datagram : List UInt8) (failure : Option Nat) :
    Sound w { s with
      down := (s.down.writeFrame TYPE_UDP_PACKET
        (toVec (downPacket w (received (src, datagram)))) failure).2
      fromUsers := s.fromUsers ++ [(src, datagram)] } := by
  rcases sound.down with ⟨flight, carries, sub⟩
  have outcome := carries.writeFrame TYPE_UDP_PACKET
    (toVec (downPacket w (received (src, datagram)))) failure
  generalize (s.down.writeFrame TYPE_UDP_PACKET _ failure).2 = wire at outcome ⊢
  refine ⟨⟨sound.known.users, sound.known.reader, sound.known.waiting⟩, ?_, sound.up⟩
  rcases outcome with lost | written
  · refine ⟨flight, lost, ?_⟩
    rw [List.map_append]
    exact sub.trans (List.sublist_append_left ..)
  · refine ⟨flight ++ [received (src, datagram)], ?_, ?_⟩
    · rw [List.map_append]
      exact written
    · change (s.toService ++ (s.held ++ (flight ++ [received (src, datagram)]))).Sublist _
      rw [List.map_append, ← List.append_assoc s.held, ← List.append_assoc s.toService]
      exact sub.append (List.Sublist.refl _)

/-- The server takes the first frame on the way, and what it sends to a user is what was sent. -/
theorem serverFrame (sound : Sound w s) (reads : Reads w s) {frame : RawMsg} {rest : Wire}
    (read : s.up.readFrame = some (.ok (frame, rest))) (arrives : Bool) :
    Sound w ({ s with up := rest }.serverFrame w frame arrives) := by
  rcases sound.up with ⟨flight, carries, sub⟩
  rcases carries.readFrame read with ⟨left, first, carries'⟩
  rcases List.map_eq_cons_iff.mp first with ⟨head, flight, rfl, rfl, rfl⟩
  have skipped : Sound w { s with up := rest } := by
    refine ⟨⟨sound.known.users, sound.known.reader, sound.known.waiting⟩, sound.down,
      ⟨flight, carries', le_trans ?_ sub⟩⟩
    have fewer : (flight.filterMap id).Subperm ((head :: flight).filterMap id) :=
      ((List.sublist_cons_self head flight).filterMap id).subperm
    exact add_le_add_right (add_le_add_left (Multiset.coe_le.mpr fewer) _) _
  cases head with
  | none => exact skipped
  | some item =>
      have sent : item ∈ s.fromService := by
        refine Multiset.mem_coe.mp (Multiset.mem_of_le sub ?_)
        simp
      rcases upPacket_read item with ⟨pkt, parsed, content, remote⟩
      have parse : (w.fromSlice (upFrame (some item)).2).bind UdpPacket.ofJson = some pkt := by
        change (w.fromSlice (toVec (upPacket item))).bind UdpPacket.ofJson = some pkt
        rw [reads.up item sent, Option.bind_some, parsed]
      have result : ({ s with up := rest } : State).serverFrame w (upFrame (some item)) arrives =
          if arrives then { s with up := rest, toUsers := s.toUsers ++ [item] }
          else { s with up := rest } := by
        simp only [State.serverFrame, parse, content, remote]
        rfl
      rw [result]
      split
      · refine ⟨⟨sound.known.users, sound.known.reader, sound.known.waiting⟩, sound.down,
          ⟨flight, carries', le_of_eq_of_le ?_ sub⟩⟩
        exact shift_cons s.toUsers item _ _
      · exact skipped

end Sound

/-! ## The reader of the client -/

/-- Making room for a new user forgets sockets, and cancels some. -/
theorem makeRoom_eq (s : State) (user : SocketAddr) :
    ∃ users sockets, s.makeRoom user = { s with users := users, sockets := sockets } ∧
      (∀ entry ∈ users, entry ∈ s.users) ∧ ∀ i, (sockets i).user = (s.sockets i).user := by
  unfold State.makeRoom
  split
  · dsimp only
    split
    · refine ⟨[], _, rfl, nofun, ?_⟩
      intro i
      split <;> rfl
    · exact ⟨_, s.sockets, rfl, fun _ inside => (List.mem_filter.mp inside).1, fun _ => rfl⟩
  · exact ⟨s.users, s.sockets, rfl, fun _ inside => inside, fun _ => rfl⟩

/-- The reader has taken an item from the wire, and has not decided about it. -/
structure Taking (w : World) (s : State) (item : Item) : Prop where
  known : Known s
  idle : s.reader = .frame
  down : ∃ flight, s.down.Carries (flight.map (downFrame w)) ∧
    (s.toService ++ (item :: flight)).Sublist (s.fromUsers.map received)
  up : Up s

theorem Taking.makeRoom {item : Item} (taking : Taking w s item) (user : SocketAddr) :
    Taking w (s.makeRoom user) item := by
  rcases makeRoom_eq s user with ⟨users, sockets, result, fewer, same⟩
  have sameUsers : SameUsers s { s with users := users, sockets := sockets } :=
    ⟨le_rfl, fun i _ => same i⟩
  rw [result]
  refine ⟨?_, taking.idle, taking.down, ?_⟩
  · exact taking.known.step sameUsers fewer (fun _ _ stage => stage) (fun _ inside => inside)
  · exact taking.up.same rfl rfl rfl (pending_eq taking.known sameUsers rfl) rfl

/-- It drops the item, or holds it for the socket of its user. -/
theorem Taking.decide {item : Item} (taking : Taking w s item) (known : Known s')
    (wire : s'.down = s.down) (toService : s'.toService = s.toService)
    (fromUsers : s'.fromUsers = s.fromUsers) (up : Up s') (held : s'.held = [] ∨ s'.held = [item]) :
    Sound w s' := by
  rcases taking.down with ⟨flight, carries, sub⟩
  refine ⟨known, ⟨flight, wire ▸ carries, ?_⟩, up⟩
  rw [toService, fromUsers]
  rcases held with none | one
  · rw [none, List.nil_append]
    exact ((List.sublist_cons_self item flight).append_left s.toService).trans sub
  · rw [one]
    exact sub

theorem Taking.drop {item : Item} (taking : Taking w s item) : Sound w s := by
  refine taking.decide taking.known rfl rfl rfl taking.up (.inl ?_)
  rw [State.held, taking.idle]

theorem Taking.endReader {item : Item} (taking : Taking w s item) : Sound w s.endReader := by
  refine taking.decide ?_ rfl rfl rfl taking.up (.inl rfl)
  exact ⟨taking.known.users, nofun, taking.known.waiting⟩

/-- The item is held for a new socket of its user. -/
theorem Taking.openSocket {user : SocketAddr} {content : List UInt8}
    (taking : Taking w s (user, content)) :
    Sound w { s.setSocket s.nextSocket { user } with
      users := (user, s.nextSocket) :: s.users.filter fun entry => entry.1 ≠ user
      nextSocket := s.nextSocket + 1
      reader := .deliver s.nextSocket content } := by
  have created : (Function.update s.sockets s.nextSocket { user } s.nextSocket).user = user := by
    rw [Function.update_self]
  have same : ∀ i < s.nextSocket,
      (Function.update s.sockets s.nextSocket { user } i).user = (s.sockets i).user := by
    intro i small
    rw [Function.update_of_ne small.ne]
  refine taking.decide ⟨?_, ?_, ?_⟩ rfl rfl rfl ?_ (.inr ?_)
  · intro entry inside
    rcases List.mem_cons.mp inside with rfl | later
    · exact ⟨Nat.lt_succ_self _, created⟩
    · rcases taking.known.users entry (List.mem_filter.mp later).1 with ⟨small, own⟩
      exact ⟨Nat.lt_succ_of_lt small, (same _ small).trans own⟩
  · intro i _ stage
    cases stage
    exact Nat.lt_succ_self _
  · exact fun entry inside => Nat.lt_succ_of_lt (taking.known.waiting entry inside)
  · exact taking.up.same rfl rfl rfl (pending_eq taking.known ⟨Nat.le_succ _, same⟩ rfl) rfl
  · exact congrArg (fun u => [(u, content)]) created

theorem Taking.chooseSocket {user : SocketAddr} {content : List UInt8}
    (taking : Taking w s (user, content)) (live : Nat) (opens : Bool) :
    Sound w (s.chooseSocket user content live opens) := by
  unfold State.chooseSocket
  split
  · next i chosen =>
      have listed : (user, i) ∈ s.users := mem_of_lookup (Option.filter_eq_some_iff.mp chosen).1
      rcases taking.known.users (user, i) listed with ⟨small, own⟩
      refine taking.decide ?_ rfl rfl rfl taking.up (.inr ?_)
      · refine ⟨taking.known.users, ?_, taking.known.waiting⟩
        rintro d _ stage
        cases stage
        exact small
      · exact congrArg (fun u => [(u, content)]) own
  · split
    · exact taking.drop
    · split
      · exact taking.openSocket
      · exact taking.endReader

namespace Sound

/-- The client takes the first frame on the way. -/
theorem clientFrame (sound : Sound w s) (reads : Reads w s) (idle : s.reader = .frame)
    {frame : RawMsg} {rest : Wire} (read : s.down.readFrame = some (.ok (frame, rest))) (live : Nat)
    (opens : Bool) : Sound w ({ s with down := rest }.clientFrame w frame live opens) := by
  rcases sound.down with ⟨flight, carries, sub⟩
  rcases carries.readFrame read with ⟨left, first, carries'⟩
  rcases List.map_eq_cons_iff.mp first with ⟨item, flight, rfl, rfl, rfl⟩
  have none : s.held = [] := by rw [State.held, idle]
  rw [none, List.nil_append] at sub
  have taking : Taking w { s with down := rest } item :=
    ⟨⟨sound.known.users, sound.known.reader, sound.known.waiting⟩, idle, ⟨flight, carries', sub⟩,
      sound.up⟩
  have logged : item ∈ s.fromUsers.map received :=
    sub.subset (List.mem_append_right _ (List.mem_cons_self ..))
  rcases List.mem_map.mp logged with ⟨arrival, inside, rfl⟩
  rcases downPacket_read w (received arrival) with ⟨pkt, parsed, content, remote⟩
  have parse : (w.fromSlice (downFrame w (received arrival)).2).bind Frpc.UdpPacketIn.ofJson =
      some pkt := by
    change (w.fromSlice (toVec (downPacket w (received arrival)))).bind _ = some pkt
    rw [reads.down arrival inside, Option.bind_some, parsed]
  have result : ({ s with down := rest } : State).clientFrame w (downFrame w (received arrival)) live
      opens = (({ s with down := rest } : State).makeRoom (received arrival).1).chooseSocket
        (received arrival).1 (received arrival).2 live opens := by
    simp only [State.clientFrame, parse, content, remote]
    rfl
  rw [result]
  exact (taking.makeRoom _).chooseSocket live opens

/-- The reader sends what it holds, and the datagram arrives or is lost. -/
theorem deliver (sound : Sound w s) {i : SocketId} {content : List UInt8}
    (stage : s.reader = .deliver i content) (arrives : Bool) :
    Sound w { s with
      reader := .frame
      toService := s.toService ++ if arrives then [((s.sockets i).user, content)] else [] } := by
  refine ⟨⟨sound.known.users, nofun, sound.known.waiting⟩, ?_, sound.up⟩
  rcases sound.down with ⟨flight, carries, sub⟩
  have held : s.held = [((s.sockets i).user, content)] := by rw [State.held, stage]
  rw [held] at sub
  refine ⟨flight, carries, List.Sublist.trans ?_ sub⟩
  cases arrives with
  | true =>
      change (s.toService ++ [((s.sockets i).user, content)] ++ flight).Sublist _
      rw [List.append_assoc]
  | false =>
      change (s.toService ++ [] ++ flight).Sublist _
      rw [List.append_nil]
      exact (List.sublist_cons_self _ flight).append_left s.toService

/-- A socket changes, and keeps its user. -/
theorem setSocket (sound : Sound w s) (i : SocketId) (socket : UdpUser)
    (user : socket.user = (s.sockets i).user) {users : List (SocketAddr × SocketId)}
    (fewer : ∀ entry ∈ users, entry ∈ s.users) :
    Sound w { s.setSocket i socket with users := users } := by
  have same : SameUsers s { s.setSocket i socket with users := users } := .setSocket rfl rfl user
  refine ⟨?_, ?_, ?_⟩
  · exact sound.known.step same fewer (fun _ _ stage => stage) (fun _ inside => inside)
  · exact sound.down.same rfl rfl (held_eq sound.known same rfl) rfl
  · exact sound.up.same rfl rfl rfl (pending_eq sound.known same rfl) rfl

/-- A socket receives a datagram, and its task waits to send it to the writer. -/
theorem recv (sound : Sound w s) {i : SocketId} (small : i < s.nextSocket) {datagram : List UInt8}
    (short : datagram.length ≤ maxDatagram) :
    Sound w { s with
      waiting := s.waiting ++ [(i, datagram.take userBuffer)]
      fromService := s.fromService ++ [((s.sockets i).user, datagram)] } := by
  have whole : datagram.take userBuffer = datagram := by
    refine List.take_of_length_le (short.trans ?_)
    decide
  refine ⟨⟨sound.known.users, sound.known.reader, ?_⟩, sound.down, ?_⟩
  · intro entry inside
    rcases List.mem_append.mp inside with before | last
    · exact sound.known.waiting entry before
    · cases List.mem_singleton.mp last
      exact small
  · rcases sound.up with ⟨flight, carries, sub⟩
    refine ⟨flight, carries, ?_⟩
    have pending : (State.pending { s with
        waiting := s.waiting ++ [(i, datagram.take userBuffer)] } : Multiset Item) =
        s.pending + {((s.sockets i).user, datagram)} := by
      simp only [State.pending, List.map_append, List.map_singleton, whole]
      exact (Multiset.coe_add ..).symm
    have sent : (↑(s.fromService ++ [((s.sockets i).user, datagram)]) : Multiset Item) =
        s.fromService + {((s.sockets i).user, datagram)} := (Multiset.coe_add ..).symm
    change (↑s.toUsers + (↑(flight.filterMap id) + (↑(s.channel.map Prod.swap) +
      ↑(State.pending { s with waiting := s.waiting ++ [(i, datagram.take userBuffer)] }))) :
        Multiset Item) ≤ ↑(s.fromService ++ [((s.sockets i).user, datagram)])
    rw [pending, sent, ← add_assoc (↑(s.channel.map Prod.swap) : Multiset Item), ← add_assoc
      (↑(flight.filterMap id) : Multiset Item), ← add_assoc (↑s.toUsers : Multiset Item)]
    exact add_le_add_left sub _

/-- What one task waits to send, and what the others do. -/
theorem pending_erase {i : SocketId} {content : List UInt8} (found : (i, content) ∈ s.waiting) :
    (s.pending : Multiset Item) =
      {((s.sockets i).user, content)} +
        ↑(State.pending { s with waiting := s.waiting.erase (i, content) }) :=
  Multiset.coe_eq_coe.mpr ((List.perm_cons_erase found).map _)

/-- What waits for the writer goes into the channel. -/
theorem enqueue (sound : Sound w s) {i : SocketId} {content : List UInt8}
    (found : s.waiting.lookup i = some content) :
    Sound w { s with
      waiting := s.waiting.erase (i, content)
      channel := s.channel ++ [(content, (s.sockets i).user)] } := by
  refine ⟨⟨sound.known.users, sound.known.reader, ?_⟩, sound.down, ?_⟩
  · exact fun entry inside => sound.known.waiting entry (List.mem_of_mem_erase inside)
  · rcases sound.up with ⟨flight, carries, sub⟩
    refine ⟨flight, carries, le_of_eq_of_le ?_ sub⟩
    have channel : (↑((s.channel ++ [(content, (s.sockets i).user)]).map Prod.swap) : Multiset Item) =
        ↑(s.channel.map Prod.swap) + {((s.sockets i).user, content)} := by
      rw [List.map_append, List.map_singleton]
      exact (Multiset.coe_add ..).symm
    rw [pending_erase (mem_of_lookup found), ← add_assoc (↑(s.channel.map Prod.swap) : Multiset Item),
      ← channel]
    rfl

/-- A task ends without sending what it has. -/
theorem forget (sound : Sound w s) (entry : SocketId × List UInt8) :
    Sound w { s with waiting := s.waiting.erase entry } := by
  refine ⟨⟨sound.known.users, sound.known.reader, ?_⟩, sound.down, ?_⟩
  · exact fun other inside => sound.known.waiting other (List.mem_of_mem_erase inside)
  · rcases sound.up with ⟨flight, carries, sub⟩
    refine ⟨flight, carries, le_trans ?_ sub⟩
    have fewer : (State.pending { s with waiting := s.waiting.erase entry }).Subperm s.pending :=
      (List.erase_sublist.map _).subperm
    exact add_le_add_right (add_le_add_right (add_le_add_right (Multiset.coe_le.mpr fewer) _) _) _

/-- A keepalive goes onto the wire. -/
theorem tick (sound : Sound w s) (failure : Option Nat) :
    Sound w { s with
      up := (s.up.writeFrame TYPE_PING (toVec ({} : Ping).toJson) failure).2 } := by
  rcases sound.up with ⟨flight, carries, sub⟩
  have outcome := carries.writeFrame TYPE_PING (toVec ({} : Ping).toJson) failure
  generalize (s.up.writeFrame TYPE_PING _ failure).2 = wire at outcome ⊢
  refine ⟨⟨sound.known.users, sound.known.reader, sound.known.waiting⟩, sound.down, ?_⟩
  rcases outcome with lost | written
  · exact ⟨flight, lost, sub⟩
  · refine ⟨flight ++ [none], ?_, ?_⟩
    · rw [List.map_append]
      exact written
    · have same : (flight ++ [none]).filterMap id = flight.filterMap id := by simp
      rw [same]
      exact sub

theorem channel_le {item : List UInt8 × SocketAddr} {rest : List (List UInt8 × SocketAddr)}
    (first : s.channel = item :: rest) (front back : Multiset Item) (pending : Multiset Item) :
    front + (back + (↑(rest.map Prod.swap) + pending)) ≤
      front + (back + (↑(s.channel.map Prod.swap) + pending)) := by
  have fewer : (rest.map Prod.swap).Subperm (s.channel.map Prod.swap) := by
    rw [first]
    exact ((List.sublist_cons_self item rest).map _).subperm
  exact add_le_add_right (add_le_add_right (add_le_add_left (Multiset.coe_le.mpr fewer) _) _) _

/-- A datagram is taken from the channel and dropped. -/
theorem dropFirst (sound : Sound w s) {item : List UInt8 × SocketAddr}
    {rest : List (List UInt8 × SocketAddr)} (first : s.channel = item :: rest) :
    Sound w { s with channel := rest } := by
  refine ⟨⟨sound.known.users, sound.known.reader, sound.known.waiting⟩, sound.down, ?_⟩
  rcases sound.up with ⟨flight, carries, sub⟩
  exact ⟨flight, carries, (channel_le first ..).trans sub⟩

/-- It goes onto the wire. -/
theorem write (sound : Sound w s) {content : List UInt8} {user : SocketAddr}
    {rest : List (List UInt8 × SocketAddr)} (first : s.channel = (content, user) :: rest)
    (failure : Option Nat) :
    Sound w { s with
      channel := rest
      up := (s.up.writeFrame TYPE_UDP_PACKET (toVec (upPacket (user, content))) failure).2 } := by
  rcases sound.up with ⟨flight, carries, sub⟩
  have outcome := carries.writeFrame TYPE_UDP_PACKET (toVec (upPacket (user, content))) failure
  generalize (s.up.writeFrame TYPE_UDP_PACKET _ failure).2 = wire at outcome ⊢
  refine ⟨⟨sound.known.users, sound.known.reader, sound.known.waiting⟩, sound.down, ?_⟩
  rcases outcome with lost | written
  · exact ⟨flight, lost, (channel_le first ..).trans sub⟩
  · refine ⟨flight ++ [some (user, content)], ?_, le_of_eq_of_le ?_ sub⟩
    · rw [List.map_append]
      exact written
    · have shifted := shift_cons (flight.filterMap id) (user, content) (rest.map Prod.swap) s.pending
      rw [first, List.filterMap_append, List.map_cons]
      change (↑s.toUsers + (↑(flight.filterMap id ++ [(user, content)]) +
        (↑(rest.map Prod.swap) + ↑s.pending)) : Multiset Item) = _
      rw [shifted]
      rfl

theorem serverStep (sound : Sound w s) (reads : Reads w s) {input : ServerInput}
    (move : serverStep w s input = some s') : Sound w s' := by
  cases input with
  | recvFrom src datagram failure =>
      rcases Option.ite_none_right_eq_some.mp move with ⟨_, moved⟩
      have after := sound.recvFrom src datagram failure
      rw [← Option.some.inj moved]
      split
      · exact after
      · exact after.marked _ _ _ _ _
  | recvFails =>
      rcases Option.ite_none_right_eq_some.mp move with ⟨_, moved⟩
      cases moved
      exact sound.marked _ _ _ _ _
  | frame arrives =>
      rcases Option.ite_none_right_eq_some.mp move with ⟨_, moved⟩
      split at moved
      · cases moved
      · cases moved
        exact sound.marked _ _ _ _ _
      · next frame rest read =>
          cases moved
          exact sound.serverFrame reads read arrives
  | sendCancelled =>
      rcases Option.ite_none_right_eq_some.mp move with ⟨_, moved⟩
      cases moved
      exact sound.marked _ _ _ _ _
  | readCancelled =>
      rcases Option.ite_none_right_eq_some.mp move with ⟨_, moved⟩
      cases moved
      exact sound.marked _ _ _ _ _
  | cancel =>
      cases move
      exact sound.marked _ _ _ _ _

theorem endReader (sound : Sound w s) (idle : s.reader = .frame) : Sound w s.endReader := by
  have none : s.held = [] := by rw [State.held, idle]
  refine ⟨⟨sound.known.users, nofun, sound.known.waiting⟩, sound.down.same rfl rfl none.symm rfl, ?_⟩
  exact sound.up.same rfl rfl rfl rfl rfl

theorem endWriter (sound : Sound w s) : Sound w s.endWriter :=
  (sound.setUp Wire.Carries.close).marked _ _ _ _ _

theorem clientStep (sound : Sound w s) (reads : Reads w s) {input : ClientInput}
    (move : clientStep w s input = some s') : Sound w s' := by
  cases input with
  | frame live opens =>
      rcases Option.ite_none_right_eq_some.mp move with ⟨idle, moved⟩
      split at moved
      · cases moved
      · cases moved
        exact sound.endReader idle
      · next frame rest read =>
          cases moved
          exact sound.clientFrame reads idle read live opens
  | deliver sent arrives =>
      simp only [Udp.clientStep] at move
      split at move
      · next i content stage =>
          have delivered := sound.deliver stage
          split at move
          · cases move
            cases arrives with
            | true => exact delivered true
            | false =>
                have lost := delivered false
                simp only [Bool.false_eq_true, if_false, List.append_nil] at lost
                exact lost
          · cases move
            have lost := delivered false
            simp only [Bool.false_eq_true, if_false, List.append_nil] at lost
            exact lost.setSocket i { s.sockets i with alive := false, cancelled := true } rfl
              fun _ inside => (List.mem_filter.mp inside).1
      · cases move
  | recv i datagram =>
      rcases Option.ite_none_right_eq_some.mp move with ⟨⟨small, _, _, short⟩, moved⟩
      cases moved
      exact sound.recv small short
  | enqueue i =>
      simp only [Udp.clientStep] at move
      split at move
      · cases move
      · next content found =>
          split at move
          · rcases Option.ite_none_right_eq_some.mp move with ⟨_, moved⟩
            cases moved
            exact sound.enqueue found
          · cases move
            exact (sound.forget (i, content)).setSocket i
              { s.sockets i with alive := false, running := false } rfl fun _ inside => inside
  | socketEnds i =>
      rcases Option.ite_none_right_eq_some.mp move with ⟨_, moved⟩
      cases moved
      exact sound.setSocket i { s.sockets i with alive := false, running := false } rfl
        fun _ inside => inside
  | tick failure =>
      rcases Option.ite_none_right_eq_some.mp move with ⟨_, moved⟩
      have after := sound.tick failure
      rw [← Option.some.inj moved]
      split
      · exact after
      · exact after.endWriter
  | write failure =>
      simp only [Udp.clientStep] at move
      split at move
      · cases move
      · next content user rest first =>
          rcases Option.ite_none_right_eq_some.mp move with ⟨_, moved⟩
          have after := sound.write first failure
          split at moved
          · cases moved
            exact sound.dropFirst first
          · rw [← Option.some.inj moved]
            split
            · exact after
            · exact after.endWriter
  | writerStops =>
      rcases Option.ite_none_right_eq_some.mp move with ⟨_, moved⟩
      cases moved
      exact sound.endWriter
  | readerCancelled =>
      rcases Option.ite_none_right_eq_some.mp move with ⟨⟨idle, _⟩, moved⟩
      cases moved
      exact sound.endReader idle
  | cancel =>
      cases move
      exact sound.marked _ _ _ _ _

end Sound

/-! ## Runs -/

/-- Nothing is received from a user, and what was received from the service stays so. -/
def Logged (s s' : State) : Prop := s'.fromUsers = s.fromUsers ∧ s.fromService ⊆ s'.fromService

theorem Logged.of_eq (fromUsers : s'.fromUsers = s.fromUsers)
    (fromService : s'.fromService = s.fromService) : Logged s s' :=
  ⟨fromUsers, fun _ inside => fromService ▸ inside⟩

theorem serverFrame_logs (s : State) (frame : RawMsg) (arrives : Bool) :
    Logged s (s.serverFrame w frame arrives) := by
  refine .of_eq ?_ ?_
  all_goals
    unfold State.serverFrame
    split
    · rfl
    · split
      · rfl
      · split
        · rfl
        · split
          · rfl
          · split
            · rfl
            · split <;> rfl

theorem makeRoom_logs (s : State) (user : SocketAddr) :
    (s.makeRoom user).fromUsers = s.fromUsers ∧ (s.makeRoom user).fromService = s.fromService := by
  rcases makeRoom_eq s user with ⟨_, _, result, _⟩
  rw [result]
  exact ⟨rfl, rfl⟩

theorem chooseSocket_logs (s : State) (user : SocketAddr) (content : List UInt8) (live : Nat)
    (opens : Bool) : Logged s (s.chooseSocket user content live opens) := by
  unfold State.chooseSocket
  split
  · exact .of_eq rfl rfl
  · split
    · exact .of_eq rfl rfl
    · split
      · exact .of_eq rfl rfl
      · exact .of_eq rfl rfl

theorem clientFrame_logs (s : State) (frame : RawMsg) (live : Nat) (opens : Bool) :
    Logged s (s.clientFrame w frame live opens) := by
  have same : Logged s s := .of_eq rfl rfl
  unfold State.clientFrame
  split
  · exact same
  · split
    · exact .of_eq rfl rfl
    · split
      · exact same
      · split
        · exact same
        · split
          · exact same
          · next user _ =>
              have room := makeRoom_logs s user
              have chosen := chooseSocket_logs (s.makeRoom user) user
              unfold Logged at chosen ⊢
              rw [room.1, room.2] at chosen
              exact chosen ..

/-- The server receives a datagram, or the step is not about one. -/
theorem serverStep_logs {input : ServerInput} (move : serverStep w s input = some s') :
    Logged s s' ∨ ∃ src datagram failure, input = .recvFrom src datagram failure ∧
      s'.fromUsers = s.fromUsers ++ [(src, datagram)] ∧ s'.fromService = s.fromService := by
  cases input with
  | recvFrom src datagram failure =>
      rcases Option.ite_none_right_eq_some.mp move with ⟨_, moved⟩
      generalize Wire.writeFrame _ _ _ failure = written at moved
      cases moved
      refine .inr ⟨src, datagram, failure, rfl, ?_⟩
      split <;> exact ⟨rfl, rfl⟩
  | frame arrives =>
      rcases Option.ite_none_right_eq_some.mp move with ⟨_, moved⟩
      split at moved
      · cases moved
      · cases moved
        exact .inl (.of_eq rfl rfl)
      · next frame rest _ =>
          cases moved
          exact .inl (serverFrame_logs { s with up := rest } frame arrives)
  | cancel =>
      cases move
      exact .inl (.of_eq rfl rfl)
  | _ =>
      rcases Option.ite_none_right_eq_some.mp move with ⟨_, moved⟩
      cases moved
      exact .inl (.of_eq rfl rfl)

theorem clientStep_logs {input : ClientInput} (move : clientStep w s input = some s') :
    Logged s s' := by
  cases input with
  | frame live opens =>
      rcases Option.ite_none_right_eq_some.mp move with ⟨_, moved⟩
      split at moved
      · cases moved
      · cases moved
        exact .of_eq rfl rfl
      · next frame rest _ =>
          cases moved
          exact clientFrame_logs { s with down := rest } frame live opens
  | deliver sent arrives =>
      simp only [clientStep] at move
      split at move
      · split at move
        · cases move
          split <;> exact .of_eq rfl rfl
        · cases move
          exact .of_eq rfl rfl
      · cases move
  | recv i datagram =>
      rcases Option.ite_none_right_eq_some.mp move with ⟨_, moved⟩
      cases moved
      exact ⟨rfl, List.subset_append_left ..⟩
  | enqueue i =>
      simp only [clientStep] at move
      split at move
      · cases move
      · split at move
        · rcases Option.ite_none_right_eq_some.mp move with ⟨_, moved⟩
          cases moved
          exact .of_eq rfl rfl
        · cases move
          exact .of_eq rfl rfl
  | tick failure =>
      rcases Option.ite_none_right_eq_some.mp move with ⟨_, moved⟩
      generalize Wire.writeFrame _ _ _ failure = written at moved
      cases moved
      split <;> exact .of_eq rfl rfl
  | write failure =>
      simp only [clientStep] at move
      split at move
      · cases move
      · rcases Option.ite_none_right_eq_some.mp move with ⟨_, moved⟩
        split at moved
        · cases moved
          exact .of_eq rfl rfl
        · generalize Wire.writeFrame _ _ _ failure = written at moved
          cases moved
          split <;> exact .of_eq rfl rfl
  | cancel =>
      cases move
      exact .of_eq rfl rfl
  | _ =>
      rcases Option.ite_none_right_eq_some.mp move with ⟨_, moved⟩
      cases moved
      exact .of_eq rfl rfl

theorem step_logs {a : Action} (move : step w a s = some s') :
    Logged s s' ∨ ∃ src datagram failure, a = .server (.recvFrom src datagram failure) ∧
      s'.fromUsers = s.fromUsers ++ [(src, datagram)] ∧ s'.fromService = s.fromService := by
  cases a with
  | server input =>
      rcases serverStep_logs move with same | ⟨src, datagram, failure, rfl, logged⟩
      · exact .inl same
      · exact .inr ⟨src, datagram, failure, rfl, logged⟩
  | client input => exact .inl (clientStep_logs move)
  | downBreaks count =>
      cases move
      exact .inl (.of_eq rfl rfl)
  | upBreaks count =>
      cases move
      exact .inl (.of_eq rfl rfl)

theorem Reads.before {a : Action} (reads : Reads w s') (move : step w a s = some s') : Reads w s := by
  rcases step_logs move with ⟨fromUsers, fromService⟩ | ⟨src, datagram, _, _, fromUsers, fromService⟩
  · exact ⟨fun arrival inside => reads.down arrival (fromUsers ▸ inside),
      fun item inside => reads.up item (fromService inside)⟩
  · refine ⟨fun arrival inside => reads.down arrival ?_, fun item inside => reads.up item ?_⟩
    · rw [fromUsers]
      exact List.mem_append_left _ inside
    · rw [fromService]
      exact inside

theorem Sound.step (sound : Sound w s) (reads : Reads w s) {a : Action}
    (move : Udp.step w a s = some s') : Sound w s' := by
  cases a with
  | server input => exact sound.serverStep reads move
  | client input => exact sound.clientStep reads move
  | downBreaks count =>
      cases move
      exact sound.setDown fun carries => carries.breaks count
  | upBreaks count =>
      cases move
      exact sound.setUp fun carries => carries.breaks count

theorem relay_sound {allowed : State → Action → Prop} (run : (relay w).Reaches allowed s)
    (reads : Reads w s) : Sound w s := by
  revert reads
  refine run.invariant (P := fun s => Reads w s → Sound w s) ?_ ?_
  · rintro s rfl _
    refine ⟨⟨nofun, nofun, nofun⟩, ⟨[], .empty, List.Sublist.refl _⟩, ⟨[], .empty, le_rfl⟩⟩
  · intro s a s' _ sound _ move reads
    have before := reads.before move
    exact (sound before).step before move

/-- In every run: what arrives at the local service are the datagrams of the users as the server has
read them, in order, each at most once. -/
theorem relay_down (run : (relay w).Reachable s) (reads : Reads w s) :
    s.toService.Sublist (s.fromUsers.map received) := by
  rcases (relay_sound run reads).down with ⟨_, _, sub⟩
  exact (List.sublist_append_left ..).trans sub

/-- In every run: what arrives at the users are datagrams of the local service, each at most once. -/
theorem relay_up (run : (relay w).Reachable s) (reads : Reads w s) :
    (s.toUsers : Multiset Item) ≤ s.fromService := by
  rcases (relay_sound run reads).up with ⟨_, _, sub⟩
  exact (Multiset.le_add_right ..).trans sub

end Steps

/-! ## Whole datagrams -/

/-- The condition on a step: a datagram the server receives fits into its buffer, and its source is
an address and a port, without flow label and scope. -/
def Whole (_ : State) (a : Action) : Prop :=
  ∀ src datagram failure, a = .server (.recvFrom src datagram failure) →
    datagram.length ≤ Server.udpBuffer ∧ src.addr.endpoint = src

/-- Attributed to the user's address. -/
def attributed (item : Item) : Endpoint × List UInt8 := (item.1.endpoint, item.2)

theorem attributed_received {arrival : Endpoint × List UInt8}
    (whole : arrival.2.length ≤ Server.udpBuffer ∧ arrival.1.addr.endpoint = arrival.1) :
    attributed (received arrival) = arrival := by
  rcases arrival with ⟨src, datagram⟩
  rw [attributed, received, List.take_of_length_le whole.1, whole.2]

/-- In runs that meet the condition the relay alters nothing: what arrives at the local service are
datagrams of the users, and what arrives at the users are datagrams of the local service, each with
the address of its user and at most once. -/
theorem relay_exact {w : World} {s : State} (run : (relay w).Reaches Whole s) (reads : Reads w s) :
    (s.toService.map attributed).Sublist s.fromUsers ∧
      (s.toUsers : Multiset Item) ≤ s.fromService := by
  have whole : ∀ arrival ∈ s.fromUsers,
      arrival.2.length ≤ Server.udpBuffer ∧ arrival.1.addr.endpoint = arrival.1 := by
    refine run.invariant (P := fun s => ∀ arrival ∈ s.fromUsers,
      arrival.2.length ≤ Server.udpBuffer ∧ arrival.1.addr.endpoint = arrival.1) ?_ ?_
    · rintro s rfl arrival inside
      cases inside
    · intro s a s' _ before permitted move arrival inside
      rcases step_logs move with ⟨same, _⟩ | ⟨src, datagram, failure, rfl, logged, _⟩
      · exact before arrival (same ▸ inside)
      · rw [logged] at inside
        rcases List.mem_append.mp inside with earlier | last
        · exact before arrival earlier
        · cases List.mem_singleton.mp last
          exact permitted src datagram failure rfl
  refine ⟨?_, relay_up run.reachable reads⟩
  have back : (s.fromUsers.map received).map attributed = s.fromUsers := by
    rw [List.map_map]
    exact (List.map_congr_left fun arrival inside =>
      attributed_received (whole arrival inside)).trans (List.map_id _)
  have sub := (relay_down run.reachable reads).map attributed
  rwa [back] at sub

/-- Every datagram a user can send arrives, in some run, as the server has read it. -/
theorem received_arrives (w : World) (src : Endpoint) {datagram : List UInt8}
    (short : datagram.length ≤ maxDatagram)
    (parses : w.fromSlice (toVec (downPacket w (received (src, datagram)))) =
      some (downPacket w (received (src, datagram)))) :
    ∃ s, (relay w).Reachable s ∧ Reads w s ∧ s.fromUsers = [(src, datagram)] ∧
      s.toService = [received (src, datagram)] := by
  have fits : ((downFrame w (received (src, datagram))).2.length : Int) ≤ MAX_MSG_LEN :=
    of_decide_eq_true (Server.fits_packet datagram w.here src.addr)
  rcases downPacket_read w (received (src, datagram)) with ⟨pkt, parsed, content, remote⟩
  have parse : (w.fromSlice (downFrame w (received (src, datagram))).2).bind
      Frpc.UdpPacketIn.ofJson = some pkt := by
    change (w.fromSlice (toVec (downPacket w (received (src, datagram))))).bind _ = some pkt
    rw [parses, Option.bind_some, parsed]
  let frame := downFrame w (received (src, datagram))
  let s₁ : State := { down := { bytes := Wire.frameBytes frame }, fromUsers := [(src, datagram)] }
  let user := (received (src, datagram)).1
  let s₂ : State :=
    { State.setSocket { fromUsers := [(src, datagram)] } 0 { user } with
      users := [(user, 0)]
      nextSocket := 1
      reader := .deliver 0 (received (src, datagram)).2 }
  let s₃ : State := { s₂ with reader := .frame, toService := [received (src, datagram)] }
  have first : step w (.server (.recvFrom src datagram none)) {} = some s₁ := by
    have written : ({} : Wire).writeFrame TYPE_UDP_PACKET
        (toVec (UdpPacket.fromContent (datagram.take Server.udpBuffer) w.here src.addr).toJson) none =
        (true, { bytes := Wire.frameBytes frame }) := by
      have sent := Wire.writeFrame_empty fits
      exact sent
    have sends : ({} : State).serverSends = true ∧ datagram.length ≤ maxDatagram := ⟨rfl, short⟩
    simp only [step, serverStep, sends, true_and, if_true, written]
    rfl
  have second : step w (.client (.frame 0 true)) s₁ = some s₂ := by
    have read : ({ bytes := Wire.frameBytes frame } : Wire).readFrame = some (.ok (frame, {})) :=
      Wire.readFrame_single fits
    have taken : ({ s₁ with down := {} } : State).clientFrame w frame 0 true = s₂ := by
      simp only [State.clientFrame, frame, parse, content, remote]
      rfl
    simp only [step, clientStep, s₁, if_true, read]
    exact congrArg some taken
  have third : step w (.client (.deliver true true)) s₂ = some s₃ := rfl
  have run : (relay w).Reachable s₃ :=
    .next (.next (.next (.start rfl) trivial first) trivial second) trivial third
  have reads : Reads w s₃ := by
    constructor
    · intro arrival inside
      cases List.mem_singleton.mp inside
      exact parses
    · intro item inside
      cases inside
  exact ⟨s₃, run, reads, rfl, rfl⟩

/-! ### A datagram that arrives, and one that is cut -/

/-- A user, and the socket of the proxy. -/
def sampleUser : Endpoint := .v4 192 0 2 7 40000

def sampleHere : SocketAddr := ⟨.v4 0 0 0 0, 6000⟩

/-- The parser on the packets that are named. -/
def sampleWorld (packets : List Json) : World where
  fromSlice body := packets.find? fun packet => toVec packet == body
  here := some sampleHere

/-- The packet around what the server reads of a datagram of the user. -/
def samplePacket (datagram : List UInt8) : Json :=
  (UdpPacket.fromContent (datagram.take Server.udpBuffer) (some sampleHere) sampleUser.addr).toJson

theorem sampleWorld_reads (datagram : List UInt8) (packets : List Json) :
    (sampleWorld (samplePacket datagram :: packets)).fromSlice (toVec (samplePacket datagram)) =
      some (samplePacket datagram) := by
  change List.find? (fun packet => toVec packet == toVec (samplePacket datagram)) _ = _
  rw [List.find?_cons_of_pos]
  exact beq_self_eq_true _

/-- The server cuts a datagram of 1501 bytes: what arrives is not what was sent. -/
theorem long_datagram_cut :
    ∃ s, (relay (sampleWorld [samplePacket (List.replicate 1501 0)])).Reachable s ∧
      Reads (sampleWorld [samplePacket (List.replicate 1501 0)]) s ∧
      s.fromUsers = [(sampleUser, List.replicate 1501 0)] ∧
      s.toService = [(sampleUser.addr, List.replicate 1500 0)] ∧
      ¬ (s.toService.map attributed).Sublist s.fromUsers := by
  have short : (List.replicate 1501 (0 : UInt8)).length ≤ maxDatagram := by
    rw [List.length_replicate]
    decide
  rcases received_arrives (sampleWorld [samplePacket (List.replicate 1501 0)]) sampleUser short
    (sampleWorld_reads _ _) with ⟨s, run, reads, sent, arrived⟩
  have cut : received (sampleUser, List.replicate 1501 0) =
      (sampleUser.addr, List.replicate 1500 0) := by
    rw [received, List.take_replicate]
    rfl
  rw [cut] at arrived
  refine ⟨s, run, reads, sent, arrived, ?_⟩
  rw [sent, arrived, List.map_singleton]
  intro sub
  have same := List.mem_singleton.mp (List.singleton_sublist.mp sub)
  have lengths : (List.replicate 1500 (0 : UInt8)).length = (List.replicate 1501 (0 : UInt8)).length :=
    congrArg (fun arrival => arrival.2.length) same
  rw [List.length_replicate, List.length_replicate] at lengths
  cases lengths

/-- What the user sends and what the service answers. -/
def sampleRequest : List UInt8 := [1, 2, 3]

def sampleReply : List UInt8 := [4, 5]

def pingPong : World :=
  sampleWorld [samplePacket sampleRequest, upPacket (sampleUser.addr, sampleReply)]

/-- The request goes to the service, and the reply to the user. -/
def pingPongRun : List Action :=
  [.server (.recvFrom sampleUser sampleRequest none), .client (.frame 0 true),
    .client (.deliver true true), .client (.recv 0 sampleReply), .client (.enqueue 0),
    .client (.tick none), .client (.write none), .server (.frame true), .server (.frame true)]

/-- The condition, as it is checked of a step. -/
def wholeCheck : Action → Bool
  | .server (.recvFrom src datagram _) =>
      decide (datagram.length ≤ Server.udpBuffer ∧ src.addr.endpoint = src)
  | _ => true

theorem whole_of_check {s : State} {a : Action} (checked : wholeCheck a = true) : Whole s a := by
  rintro src datagram failure rfl
  exact of_decide_eq_true checked

/-- A request and its reply arrive as they were sent. -/
theorem relay_exact_pingPong :
    ∃ s, (relay pingPong).Reaches Whole s ∧ Reads pingPong s ∧
      s.toService = [(sampleUser.addr, sampleRequest)] ∧
      s.toUsers = [(sampleUser.addr, sampleReply)] ∧
      (s.toService.map attributed).Sublist s.fromUsers ∧
      (s.toUsers : Multiset Item) ≤ s.fromService := by
  rcases System.exists_of_any (by decide +kernel : (System.execute
      (fun a s => if wholeCheck a then step pingPong a s else none) pingPongRun {}).any
        (fun s => decide (s.fromUsers = [(sampleUser, sampleRequest)] ∧
          s.fromService = [(sampleUser.addr, sampleReply)] ∧
          s.toService = [(sampleUser.addr, sampleRequest)] ∧
          s.toUsers = [(sampleUser.addr, sampleReply)])) = true) with ⟨s, done, shown⟩
  rcases of_decide_eq_true shown with ⟨fromUsers, fromService, toService, toUsers⟩
  have run : (relay pingPong).Reaches Whole s :=
    System.reaches_of_execute
      (fun _ moved =>
        have ⟨checked, move⟩ := Option.ite_none_right_eq_some.mp moved
        ⟨whole_of_check checked, move⟩) (.start rfl) done
  have reads : Reads pingPong s := by
    constructor
    · intro arrival inside
      rw [fromUsers] at inside
      cases List.mem_singleton.mp inside
      exact sampleWorld_reads sampleRequest _
    · intro item inside
      rw [fromService] at inside
      cases List.mem_singleton.mp inside
      have other : ¬ (toVec (samplePacket sampleRequest) ==
          toVec (upPacket (sampleUser.addr, sampleReply))) = true := by decide +kernel
      change List.find? (fun packet => toVec packet == toVec (upPacket (sampleUser.addr, sampleReply)))
        [samplePacket sampleRequest, upPacket (sampleUser.addr, sampleReply)] = _
      rw [List.find?_cons_of_neg, List.find?_cons_of_pos]
      · exact beq_self_eq_true _
      · exact other
  exact ⟨s, run, reads, toService, toUsers, relay_exact run reads⟩

end Remgr.Udp
