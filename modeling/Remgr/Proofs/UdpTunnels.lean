/-
Module: Remgr.Proofs.UdpTunnels
Purpose: What one step of the tunnels of a client can do, and from it that the users of a tunnel are
  kept apart: what is received on a socket goes out under the address the socket was created for,
  and a datagram for a user goes out on a socket of that user.
Trusted boundary: as in `Remgr.Udp.Tunnels`
Main exports: Turn, step_turn, Sound, users_isolated, users_isolated_echo
-/
import Remgr.Proofs.UdpRelay
import Remgr.Udp.Tunnels

namespace Remgr.Udp.Tunnels

open Remgr.Lib
open Remgr.Lib.Json
open Remgr.Frps

/-! ## Updates -/

section Updates

variable (s : State)

@[simp] theorem setTunnel_self (t : TunnelId) (tunnel : Tunnel) :
    (s.setTunnel t tunnel).tunnels t = tunnel := Function.update_self ..

theorem setTunnel_of_ne {t u : TunnelId} (other : u ≠ t) (tunnel : Tunnel) :
    (s.setTunnel t tunnel).tunnels u = s.tunnels u := Function.update_of_ne other ..

@[simp] theorem setSocket_self (i : SocketId) (socket : UdpUser) :
    (s.setSocket i socket).sockets i = socket := Function.update_self ..

theorem setSocket_of_ne {i j : SocketId} (other : j ≠ i) (socket : UdpUser) :
    (s.setSocket i socket).sockets j = s.sockets j := Function.update_of_ne other ..

theorem setTunnel_eq_self (t : TunnelId) : s.setTunnel t (s.tunnels t) = s := by
  rw [State.setTunnel, Function.update_eq_self]

theorem goto_setTunnel (t : TunnelId) (tunnel : Tunnel) (sockets : SocketId → UdpUser)
    (pc : ReaderPc) :
    ({ s.setTunnel t tunnel with sockets } : State).goto t pc =
      { s.setTunnel t { tunnel with reader := pc } with sockets } := by
  simp only [State.goto, State.setTunnel, Function.update_self, Function.update_idem]

end Updates

/-! ## What a step can do -/

/-- The datagram the reader has in hand. -/
def ReaderPc.datagram : ReaderPc → Option Datagram
  | .check d | .bind d | .connect d | .raise d | .deliver d _ => some d
  | _ => none

/-- The datagram for which the reader is about to open a socket. -/
def ReaderPc.opening : ReaderPc → Option Datagram
  | .check d | .bind d | .connect d | .raise d => some d
  | _ => none

/-- The task is counted. -/
def TaskPc.runs : TaskPc → Bool
  | .unborn | .ended => false
  | _ => true

/-- The table has an entry for the user, or room for one. -/
def HasRoom (users : List (SocketAddr × SocketId)) (user : SocketAddr) : Prop :=
  users.lookup user ≠ none ∨ users.length < maxUserSessions

/-- A tunnel moves on without a new socket: it may forget entries and replies, take a datagram out
of a frame, and choose a socket from its table. -/
structure TunnelMove (w : World) (old new : Tunnel) : Prop where
  users : new.users.Sublist old.users
  channel : ∀ reply ∈ new.channel, reply ∈ old.channel
  datagram : ∀ d ∈ new.reader.datagram, d ∈ old.reader.datagram ∨ readPacket w d.body = some d
  delivers : ∀ d i, new.reader = .deliver d i → old.reader = .deliver d i ∨ (d.user, i) ∈ old.users
  opening : ∀ d ∈ new.reader.opening,
    d ∈ old.reader.opening ∧ new.users = old.users ∨ HasRoom new.users d.user

/-- The task of a socket moves on, counted as before and with nothing new to send. -/
structure TaskMove (old new : UdpUser) : Prop where
  createdFor : new.createdFor = old.createdFor
  userKey : new.userKey = old.userKey
  runs : new.pc.runs = old.pc.runs
  send : ∀ content, new.pc = .send content → old.pc = .send content

/-- What a step `a` can be: the tunnels and the tasks move on by themselves, or one of the steps
that matter is taken. -/
inductive Turn (w : World) (s : State) (a : Action) : State → Prop
  | quiet {tunnels : TunnelId → Tunnel} {sockets : SocketId → UdpUser}
      (moves : ∀ t, TunnelMove w (s.tunnels t) (tunnels t))
      (tasks : ∀ i, TaskMove (s.sockets i) (sockets i)) :
      Turn w s a { s with tunnels, sockets }
  | opens {t : TunnelId} {d : Datagram} (raises : a = .reader t .go)
      (stage : (s.tunnels t).reader = .raise d) :
      Turn w s a (s.openSocket t d)
  | delivers {t : TunnelId} {d : Datagram} {i : SocketId}
      (stage : (s.tunnels t).reader = .deliver d i) :
      Turn w s a ({ s with forwarded := s.forwarded ++ [(d, i)] }.goto t .frame)
  | receives {i : SocketId} (content : List UInt8) (stage : (s.sockets i).pc = .loop) :
      Turn w s a { s.setSocket i { s.sockets i with pc := .send content } with
        received := s.received ++ [(i, content)] }
  | enqueues {i : SocketId} {t : TunnelId} {content : List UInt8}
      (stage : (s.sockets i).pc = .send content) :
      Turn w s a ((s.setSocket i { s.sockets i with pc := .loop }).setTunnel t
        { s.tunnels t with
          channel := (s.tunnels t).channel ++ [⟨i, content, (s.sockets i).userKey⟩] })
  | lowers {i : SocketId} (ends : a = .task i .go) (stage : (s.sockets i).pc = .lower) :
      Turn w s a { s.setSocket i { s.sockets i with pc := .ended } with
        udpUserSockets := s.udpUserSockets - 1 }
  | writes {t : TunnelId} {reply : Reply} {rest : List Reply}
      (first : (s.tunnels t).channel = reply :: rest) :
      Turn w s a { s.setTunnel t { s.tunnels t with channel := rest } with
        written := s.written ++
          [(reply.socket, Frpc.UdpPacketOut.ofContent reply.content reply.user)] }

theorem TaskMove.refl (socket : UdpUser) : TaskMove socket socket := ⟨rfl, rfl, rfl, fun _ => id⟩

namespace TunnelMove

variable {w : World} {old new : Tunnel}

/-- The table stays, and the reader stays or goes on with what it has. -/
theorem of_users (users : new.users = old.users) (channel : ∀ reply ∈ new.channel, reply ∈ old.channel)
    (datagram : ∀ d ∈ new.reader.datagram, d ∈ old.reader.datagram)
    (delivers : ∀ d i, new.reader = .deliver d i → old.reader = .deliver d i)
    (opening : ∀ d ∈ new.reader.opening, d ∈ old.reader.opening) : TunnelMove w old new where
  users := users ▸ List.Sublist.refl _
  channel := channel
  datagram d inside := .inl (datagram d inside)
  delivers d i stage := .inl (delivers d i stage)
  opening d inside := .inl ⟨opening d inside, users⟩

theorem refl (tunnel : Tunnel) : TunnelMove w tunnel tunnel :=
  of_users rfl (fun _ => id) (fun _ => id) (fun _ _ => id) fun _ => id

/-- The reader goes on with nothing in hand. -/
theorem of_idle (users : new.users.Sublist old.users) (channel : new.channel = old.channel)
    (idle : new.reader.datagram = none) : TunnelMove w old new := by
  have stage : ∀ {d}, d ∈ new.reader.datagram → False := by
    intro d inside
    rw [idle] at inside
    cases inside
  refine ⟨users, fun _ => (channel ▸ id), fun d inside => (stage inside).elim, ?_, ?_⟩
  · intro d i deliver
    rw [deliver] at idle
    cases idle
  · intro d inside
    have held : d ∈ new.reader.datagram := by
      cases reader : new.reader with
      | deliver d' i =>
          rw [reader] at inside
          cases inside
      | _ =>
          rw [reader] at inside
          exact inside
    exact (stage held).elim

end TunnelMove

namespace Turn

variable {w : World} {s : State} {a : Action}

/-- One tunnel and some tasks move on. -/
theorem both {t : TunnelId} {tunnel : Tunnel} {sockets : SocketId → UdpUser}
    (move : TunnelMove w (s.tunnels t) tunnel) (tasks : ∀ i, TaskMove (s.sockets i) (sockets i)) :
    Turn w s a { s.setTunnel t tunnel with sockets } := by
  refine .quiet (fun u => ?_) tasks
  by_cases same : u = t
  · subst same
    rwa [setTunnel_self]
  · rw [setTunnel_of_ne s same]
    exact .refl _

theorem tunnel {t : TunnelId} {tunnel : Tunnel} (move : TunnelMove w (s.tunnels t) tunnel) :
    Turn w s a (s.setTunnel t tunnel) :=
  both move fun _ => .refl _

/-- The task of one socket moves on. -/
theorem tasks_setSocket {i : SocketId} {socket : UdpUser} (move : TaskMove (s.sockets i) socket)
    (j : SocketId) : TaskMove (s.sockets j) ((s.setSocket i socket).sockets j) := by
  by_cases same : j = i
  · subst same
    rwa [setSocket_self]
  · rw [setSocket_of_ne s same]
    exact .refl _

theorem task {i : SocketId} {socket : UdpUser} (move : TaskMove (s.sockets i) socket) :
    Turn w s a (s.setSocket i socket) :=
  .quiet (fun _ => .refl _) (tasks_setSocket move)

/-- The reader goes on with the datagram it has, or with none. -/
theorem goes {t : TunnelId} {pc : ReaderPc} (datagram : ∀ d ∈ pc.datagram,
      d ∈ (s.tunnels t).reader.datagram)
    (undecided : ∀ d i, pc ≠ .deliver d i)
    (opening : ∀ d ∈ pc.opening, d ∈ (s.tunnels t).reader.opening) : Turn w s a (s.goto t pc) :=
  tunnel (.of_users rfl (fun _ => id) datagram (fun d i same => absurd same (undecided d i)) opening)

theorem ends (t : TunnelId) : Turn w s a (s.endReader t) :=
  tunnel (.of_idle (.refl _) rfl rfl)

/-- Making room forgets entries and may cancel their sockets; then there is room. -/
theorem makeRoom_eq (s : State) (t : TunnelId) (user : SocketAddr) :
    ∃ users sockets, s.makeRoom t user =
        { s.setTunnel t { s.tunnels t with users } with sockets } ∧
      users.Sublist (s.tunnels t).users ∧ HasRoom users user ∧
      ∀ i, TaskMove (s.sockets i) (sockets i) := by
  unfold State.makeRoom
  dsimp only
  split
  · next crowded =>
      split
      · refine ⟨[], _, rfl, List.nil_sublist _, .inr (by decide), fun i => ?_⟩
        split
        · exact ⟨rfl, rfl, rfl, fun _ => id⟩
        · exact .refl _
      · next fewer =>
          exact ⟨_, s.sockets, rfl, List.filter_sublist, .inr (Nat.lt_of_not_le fewer),
            fun _ => .refl _⟩
  · next roomy =>
      refine ⟨(s.tunnels t).users, s.sockets, ?_, .refl _, ?_, fun _ => .refl _⟩
      · exact (setTunnel_eq_self s t).symm
      · by_cases known : (s.tunnels t).users.lookup user = none
        · exact .inr (Nat.lt_of_not_le fun full => roomy ⟨full, known⟩)
        · exact .inl known

/-- The reader has taken a datagram out of a frame, and chooses. -/
theorem takes {t : TunnelId} {d : Datagram} (parsed : readPacket w d.body = some d) :
    Turn w s a ((s.makeRoom t d.user).chooseSocket t d) := by
  obtain ⟨users, sockets, made, forgets, room, tasks⟩ := makeRoom_eq s t d.user
  have parses : ∀ d' ∈ some d, readPacket w d'.body = some d' := by
    intro d' same
    cases same
    exact parsed
  rw [made]
  unfold State.chooseSocket
  simp only [setTunnel_self, goto_setTunnel]
  split
  · next i chosen =>
      have found := mem_of_lookup (Option.filter_eq_some_iff.mp chosen).1
      refine both ⟨forgets, fun _ => id, fun d' same => .inr (parses d' same), ?_, nofun⟩ tasks
      intro d' j same
      cases same
      exact .inr (forgets.subset found)
  · refine both ⟨forgets, fun _ => id, fun d' same => .inr (parses d' same), nofun, ?_⟩ tasks
    intro d' same
    cases same
    exact .inr room

theorem takeFrame (t : TunnelId) (frame : RawMsg) : Turn w s a (Tunnels.takeFrame w s t frame) := by
  unfold Tunnels.takeFrame
  split
  · exact .quiet (fun _ => .refl _) fun _ => .refl _
  · split
    · exact ends t
    · split
      · exact .quiet (fun _ => .refl _) fun _ => .refl _
      · next d parsed =>
          have body : d.body = frame.2 := by
            obtain ⟨pkt, -, rest⟩ := Option.bind_eq_some_iff.mp parsed
            obtain ⟨content, -, rest⟩ := Option.bind_eq_some_iff.mp rest
            obtain ⟨user, -, same⟩ := Option.bind_eq_some_iff.mp rest
            rw [← Option.some.inj same]
          exact takes (body.symm ▸ parsed)

end Turn

section Steps

variable {w : World} {s s' : State}

theorem readerStep_turn {t : TunnelId} {input : ReaderInput}
    (move : readerStep w t s (s.tunnels t).reader input = some s') :
    Turn w s (.reader t input) s' := by
  cases stage : (s.tunnels t).reader with
  | unborn =>
      rw [stage] at move
      cases input <;> cases move
      exact .tunnel (.of_idle (.refl _) rfl rfl)
  | frame =>
      rw [stage] at move
      cases input with
      | frame result =>
          cases result <;> cases move
          · exact .ends t
          · exact .takeFrame t _
      | cancelled =>
          obtain ⟨-, moved⟩ := Option.ite_none_right_eq_some.mp move
          cases moved
          exact .ends t
      | _ => cases move
  | check d =>
      rw [stage] at move
      cases input <;> try cases move
      simp only [readerStep] at move
      split at move
      · cases move
        exact .goes nofun nofun nofun
      · cases move
        exact .goes (by rw [stage]; exact fun _ => id) nofun (by rw [stage]; exact fun _ => id)
  | bind d =>
      rw [stage] at move
      cases input <;> try cases move
      next ok =>
        cases ok
        · exact .ends t
        · exact .goes (by rw [stage]; exact fun _ => id) nofun (by rw [stage]; exact fun _ => id)
  | connect d =>
      rw [stage] at move
      cases input <;> try cases move
      next ok =>
        cases ok
        · exact .ends t
        · exact .goes (by rw [stage]; exact fun _ => id) nofun (by rw [stage]; exact fun _ => id)
  | raise d =>
      rw [stage] at move
      cases input <;> cases move
      exact .opens rfl stage
  | deliver d i =>
      rw [stage] at move
      cases input with
      | called ok =>
          cases ok <;> cases move
          · refine .both (.of_idle List.filter_sublist rfl rfl) (Turn.tasks_setSocket ?_)
            exact ⟨rfl, rfl, rfl, fun _ => id⟩
          · exact .delivers stage
      | _ => cases move
  | done =>
      rw [stage] at move
      cases input <;> cases move

theorem taskStep_turn {i : SocketId} {input : TaskInput}
    (move : taskStep i s (s.sockets i).pc input = some s') : Turn w s (.task i input) s' := by
  cases stage : (s.sockets i).pc with
  | loop =>
      rw [stage] at move
      have leaves : Turn w s (.task i input) (s.setSocket i { s.sockets i with pc := .left }) :=
        .task ⟨rfl, rfl, by rw [stage]; rfl, nofun⟩
      cases input with
      | cancelled =>
          obtain ⟨-, moved⟩ := Option.ite_none_right_eq_some.mp move
          cases moved
          exact leaves
      | recv datagram =>
          obtain ⟨-, moved⟩ := Option.ite_none_right_eq_some.mp move
          cases moved
          exact .receives _ stage
      | fails =>
          cases move
          exact leaves
      | go => cases move
  | send content =>
      rw [stage] at move
      cases input <;> try cases move
      simp only [taskStep] at move
      split at move
      · cases move
        exact .task ⟨rfl, rfl, by rw [stage]; rfl, nofun⟩
      · obtain ⟨-, moved⟩ := Option.ite_none_right_eq_some.mp move
        cases moved
        exact .enqueues stage
  | left =>
      rw [stage] at move
      cases input <;> cases move
      exact .task ⟨rfl, rfl, by rw [stage]; rfl, nofun⟩
  | lower =>
      rw [stage] at move
      cases input <;> cases move
      exact .lowers rfl stage
  | _ =>
      rw [stage] at move
      cases input <;> cases move

theorem writerStep_turn {t : TunnelId} {input : WriterInput}
    (move : writerStep t s input = some s') : Turn w s (.writer t input) s' := by
  have stops : Turn w s (.writer t input) (s.endWriter t) :=
    .tunnel (.of_users rfl nofun (fun _ => id) (fun _ _ => id) fun _ => id)
  cases input with
  | tick ok =>
      obtain ⟨-, moved⟩ := Option.ite_none_right_eq_some.mp move
      cases ok <;> cases moved
      · exact stops
      · exact .quiet (fun _ => .refl _) fun _ => .refl _
  | write ok =>
      simp only [writerStep] at move
      split at move
      · cases move
      · next reply rest first =>
          have shorter : ∀ other ∈ rest, other ∈ (s.tunnels t).channel := fun _ inside =>
            first ▸ List.mem_cons_of_mem reply inside
          obtain ⟨-, moved⟩ := Option.ite_none_right_eq_some.mp move
          split at moved
          · cases moved
            exact .tunnel (.of_users rfl shorter (fun _ => id) (fun _ _ => id) fun _ => id)
          · cases ok <;> cases moved
            · exact stops
            · exact .writes first
  | stops =>
      obtain ⟨-, moved⟩ := Option.ite_none_right_eq_some.mp move
      cases moved
      exact stops

theorem step_turn {a : Action} (move : step w a s = some s') : Turn w s a s' := by
  cases a with
  | reader t input => exact readerStep_turn move
  | writer t input => exact writerStep_turn move
  | task i input => exact taskStep_turn move
  | cancel t =>
      cases move
      exact .tunnel (.of_users rfl (fun _ => id) (fun _ => id) (fun _ _ => id) fun _ => id)

end Steps

/-! ## Users are kept apart -/

/-- The socket was created for this user. -/
def State.Owns (s : State) (i : SocketId) (user : SocketAddr) : Prop :=
  i < s.nextSocket ∧ (s.sockets i).createdFor = user

/-- What no step takes back: for whom a socket was created, and what was received on it. -/
structure Onward (s s' : State) : Prop where
  owns : ∀ ⦃i user⦄, s.Owns i user → s'.Owns i user
  received : ∀ m ∈ s.received, m ∈ s'.received

/-- A tunnel has the sockets of its users under their addresses, in its table, with its reader and
in its channel. -/
structure TunnelSound (w : World) (s : State) (tunnel : Tunnel) : Prop where
  users : ∀ entry ∈ tunnel.users, s.Owns entry.2 entry.1
  datagram : ∀ d ∈ tunnel.reader.datagram, readPacket w d.body = some d
  delivers : ∀ d i, tunnel.reader = .deliver d i → s.Owns i d.user
  channel : ∀ reply ∈ tunnel.channel,
    s.Owns reply.socket reply.user ∧ (reply.socket, reply.content) ∈ s.received

/-- Everything on its way, and everything that has gone out, is with its user. -/
structure Sound (w : World) (s : State) : Prop where
  tunnels : ∀ t, TunnelSound w s (s.tunnels t)
  known : ∀ i, (s.sockets i).pc.runs = true → s.Owns i (s.sockets i).userKey
  sending : ∀ i content, (s.sockets i).pc = .send content → (i, content) ∈ s.received
  forwarded : ∀ m ∈ s.forwarded, s.Owns m.2 m.1.user ∧ readPacket w m.1.body = some m.1
  written : ∀ m ∈ s.written, ∃ content user, s.Owns m.1 user ∧ (m.1, content) ∈ s.received ∧
    m.2 = Frpc.UdpPacketOut.ofContent content user

theorem Onward.of_same {s s' : State} (next : s.nextSocket ≤ s'.nextSocket)
    (sockets : ∀ i < s.nextSocket, (s'.sockets i).createdFor = (s.sockets i).createdFor)
    (received : s'.received = s.received) : Onward s s' where
  owns i _ owns := ⟨owns.1.trans_le next, (sockets i owns.1).trans owns.2⟩
  received _ inside := received ▸ inside

theorem Turn.onward {w : World} {s s' : State} {a : Action} (turn : Turn w s a s') : Onward s s' := by
  have setSocket : ∀ {i : SocketId} {pc : TaskPc} (j : SocketId),
      ((s.setSocket i { s.sockets i with pc }).sockets j).createdFor = (s.sockets j).createdFor := by
    intro i pc j
    by_cases same : j = i
    · rw [same, setSocket_self]
    · rw [setSocket_of_ne s same]
  cases turn with
  | quiet moves tasks => exact .of_same (Nat.le_refl _) (fun i _ => (tasks i).createdFor) rfl
  | opens raises stage =>
      refine .of_same (Nat.le_succ _) (fun i known => ?_) rfl
      exact congrArg _ (setSocket_of_ne _ known.ne _)
  | delivers stage => exact .of_same (Nat.le_refl _) (fun _ _ => rfl) rfl
  | receives content stage =>
      exact ⟨fun i _ owns => ⟨owns.1, (setSocket i).trans owns.2⟩,
        fun _ inside => List.mem_append_left _ inside⟩
  | enqueues stage => exact .of_same (Nat.le_refl _) (fun i _ => setSocket i) rfl
  | lowers ends stage => exact .of_same (Nat.le_refl _) (fun i _ => setSocket i) rfl
  | writes first => exact .of_same (Nat.le_refl _) (fun _ _ => rfl) rfl

theorem TunnelSound.onward {w : World} {s s' : State} {tunnel : Tunnel}
    (sound : TunnelSound w s tunnel) (onward : Onward s s') : TunnelSound w s' tunnel where
  users entry inside := onward.owns (sound.users entry inside)
  datagram := sound.datagram
  delivers d i stage := onward.owns (sound.delivers d i stage)
  channel reply inside :=
    ⟨onward.owns (sound.channel reply inside).1, onward.received _ (sound.channel reply inside).2⟩

theorem TunnelSound.move {w : World} {s : State} {old new : Tunnel} (sound : TunnelSound w s old)
    (move : TunnelMove w old new) : TunnelSound w s new where
  users entry inside := sound.users entry (move.users.subset inside)
  datagram d inside := (move.datagram d inside).elim (sound.datagram d) id
  delivers d i stage := by
    rcases move.delivers d i stage with same | chosen
    · exact sound.delivers d i same
    · exact sound.users (d.user, i) chosen
  channel reply inside := sound.channel reply (move.channel reply inside)

namespace Sound

variable {w : World} {s s' : State}

/-- What went out stays where it went. -/
theorem logs (sound : Sound w s) (onward : Onward s s') :
    (∀ m ∈ s.forwarded, s'.Owns m.2 m.1.user ∧ readPacket w m.1.body = some m.1) ∧
      ∀ m ∈ s.written, ∃ content user, s'.Owns m.1 user ∧ (m.1, content) ∈ s'.received ∧
        m.2 = Frpc.UdpPacketOut.ofContent content user := by
  constructor
  · intro m inside
    exact ⟨onward.owns (sound.forwarded m inside).1, (sound.forwarded m inside).2⟩
  · intro m inside
    obtain ⟨content, user, owns, came, same⟩ := sound.written m inside
    exact ⟨content, user, onward.owns owns, onward.received _ came, same⟩

theorem step {a : Action} (sound : Sound w s) (turn : Turn w s a s') : Sound w s' := by
  have onward := turn.onward
  obtain ⟨forwarded, written⟩ := sound.logs onward
  have tunnels : ∀ t, TunnelSound w s' (s.tunnels t) := fun t => (sound.tunnels t).onward onward
  have setTunnel : ∀ {t : TunnelId} {tunnel : Tunnel}, TunnelSound w s' tunnel →
      ∀ u, TunnelSound w s' ((s.setTunnel t tunnel).tunnels u) := by
    intro t tunnel own u
    by_cases same : u = t
    · rwa [same, setTunnel_self]
    · rw [setTunnel_of_ne s same]
      exact tunnels u
  have known : ∀ {i : SocketId} {pc : TaskPc}, (s.sockets i).pc.runs = true → ∀ j,
      ((s.setSocket i { s.sockets i with pc }).sockets j).pc.runs = true →
      s'.Owns j ((s.setSocket i { s.sockets i with pc }).sockets j).userKey := by
    intro i pc ran j runs
    by_cases same : j = i
    · subst same
      rw [setSocket_self]
      exact onward.owns (sound.known j ran)
    · rw [setSocket_of_ne s same] at runs ⊢
      exact onward.owns (sound.known j runs)
  have sending : ∀ {i : SocketId} {pc : TaskPc}, (∀ content, pc ≠ .send content) → ∀ j content,
      ((s.setSocket i { s.sockets i with pc }).sockets j).pc = .send content →
      (j, content) ∈ s.received := by
    intro i pc quiet j content sends
    by_cases same : j = i
    · subst same
      rw [setSocket_self] at sends
      exact absurd sends (quiet content)
    · rw [setSocket_of_ne s same] at sends
      exact sound.sending j content sends
  cases turn with
  | quiet moves tasks =>
      refine ⟨fun t => (tunnels t).move (moves t), fun i runs => ?_, fun i content stage => ?_,
        forwarded, written⟩
      · rw [(tasks i).userKey]
        exact onward.owns (sound.known i ((tasks i).runs ▸ runs))
      · exact sound.sending i content ((tasks i).send content stage)
  | @opens t d raises stage =>
      have opened : (s.openSocket t d).Owns s.nextSocket d.user :=
        ⟨Nat.lt_succ_self _, congrArg UdpUser.createdFor (setSocket_self _ _ _)⟩
      have parsed : ∀ d' ∈ some d, readPacket w d'.body = some d' := by
        intro d' same
        cases same
        exact (sound.tunnels t).datagram d (by rw [stage]; rfl)
      refine ⟨setTunnel ⟨?_, parsed, ?_, (tunnels t).channel⟩, fun i runs => ?_,
        fun i content sends => ?_, forwarded, written⟩
      · intro entry inside
        rcases List.mem_cons.mp inside with rfl | earlier
        · exact opened
        · exact (tunnels t).users entry (List.mem_of_mem_filter earlier)
      · intro d' i same
        cases same
        exact opened
      · by_cases new : i = s.nextSocket
        · subst new
          change (s.openSocket t d).Owns _ ((State.setSocket _ _ _).sockets _).userKey
          rw [setSocket_self]
          exact opened
        · have same : (s.openSocket t d).sockets i = s.sockets i := setSocket_of_ne _ new _
          rw [same] at runs ⊢
          exact onward.owns (sound.known i runs)
      · by_cases new : i = s.nextSocket
        · subst new
          change ((State.setSocket _ _ _).sockets _).pc = _ at sends
          rw [setSocket_self] at sends
          cases sends
        · have same : (s.openSocket t d).sockets i = s.sockets i := setSocket_of_ne _ new _
          rw [same] at sends
          exact sound.sending i content sends
  | @delivers t d i stage =>
      have own : TunnelMove w (s.tunnels t) { s.tunnels t with reader := .frame } :=
        .of_idle (.refl _) rfl rfl
      refine ⟨setTunnel ((tunnels t).move own), fun j runs => onward.owns (sound.known j runs),
        sound.sending, fun m inside => ?_, written⟩
      rcases List.mem_append.mp inside with earlier | last
      · exact forwarded m earlier
      · cases List.mem_singleton.mp last
        exact ⟨(tunnels t).delivers d i stage, (tunnels t).datagram d (by rw [stage]; rfl)⟩
  | @receives i content stage =>
      refine ⟨tunnels, fun j runs => ?_, fun j content' sends => ?_, forwarded, written⟩
      · exact known (by rw [stage]; rfl) j runs
      · by_cases same : j = i
        · subst same
          change ((s.setSocket j _).sockets j).pc = _ at sends
          rw [setSocket_self] at sends
          cases sends
          exact List.mem_append_right _ (List.mem_singleton_self _)
        · change ((s.setSocket i _).sockets j).pc = _ at sends
          rw [setSocket_of_ne s same] at sends
          exact List.mem_append_left _ (sound.sending j content' sends)
  | @enqueues i t content stage =>
      refine ⟨setTunnel ⟨(tunnels t).users, (tunnels t).datagram, (tunnels t).delivers, ?_⟩,
        known (by rw [stage]; rfl), sending nofun, forwarded, written⟩
      intro reply inside
      rcases List.mem_append.mp inside with earlier | last
      · exact (tunnels t).channel reply earlier
      · cases List.mem_singleton.mp last
        exact ⟨onward.owns (sound.known i (by rw [stage]; rfl)), sound.sending i content stage⟩
  | @lowers i _ stage =>
      exact ⟨tunnels, known (by rw [stage]; rfl), sending nofun, forwarded, written⟩
  | @writes t reply rest first =>
      have own := (tunnels t).channel reply (first ▸ List.mem_cons_self)
      refine ⟨setTunnel ⟨(tunnels t).users, (tunnels t).datagram, (tunnels t).delivers, ?_⟩,
        fun j runs => onward.owns (sound.known j runs), sound.sending, forwarded, fun m inside => ?_⟩
      · exact fun other inside => (tunnels t).channel other (first ▸ List.mem_cons_of_mem reply inside)
      · rcases List.mem_append.mp inside with earlier | last
        · exact written m earlier
        · cases List.mem_singleton.mp last
          exact ⟨reply.content, reply.user, own.1, own.2, rfl⟩

end Sound

theorem tunnels_sound {w : World} {allowed : State → Action → Prop} {s : State}
    (run : (tunnels w).Reaches allowed s) : Sound w s := by
  refine run.invariant ?_ fun _ sound _ move => sound.step (step_turn move)
  rintro s rfl
  exact ⟨fun _ => ⟨nofun, nofun, nofun, nofun⟩, fun _ runs => Bool.noConfusion runs, nofun, nofun,
    nofun⟩

/-- What went out on either side went out with its user: a packet written upstream holds a datagram
received on some socket and the address that socket was created for, and a datagram was sent to the
local service on a socket created for the remote address of its packet. -/
structure Isolated (w : World) (s : State) : Prop where
  upstream : ∀ i out, (i, out) ∈ s.written → ∃ content, (i, content) ∈ s.received ∧
    out = Frpc.UdpPacketOut.ofContent content (s.sockets i).createdFor
  downstream : ∀ d i, (d, i) ∈ s.forwarded →
    readPacket w d.body = some d ∧ (s.sockets i).createdFor = d.user

/-- In every run of any number of tunnels, whatever frames come, and whichever sockets are replaced,
forgotten, cancelled or fail, no user gets another one's traffic. -/
theorem users_isolated {w : World} {s : State} (run : (tunnels w).Reachable s) : Isolated w s := by
  have sound := tunnels_sound run
  constructor
  · intro i out inside
    obtain ⟨content, user, owns, came, same⟩ := sound.written (i, out) inside
    exact ⟨content, came, by rw [owns.2]; exact same⟩
  · intro d i inside
    obtain ⟨owns, parsed⟩ := sound.forwarded (d, i) inside
    exact ⟨parsed, owns.2⟩

/-! ## Two users and their answers -/

def sampleAddr : SocketAddr := ⟨.v4 192 0 2 7, 40000⟩

def otherAddr : SocketAddr := ⟨.v4 192 0 2 8, 40001⟩

/-- Every body is a packet of one byte, the empty one for one user and the others for another. -/
def sampleWorld : World where
  fromSlice body :=
    some (UdpPacket.fromContent [1] none (if body = [] then sampleAddr else otherAddr)).toJson
  here := none

/-- The frame arrives, and the reader of the tunnel gets as far as the raising of the count. -/
def openingRun (t : TunnelId) : List Action :=
  [.reader t .start, .reader t (.frame (some (TYPE_UDP_PACKET, []))), .reader t .go,
    .reader t (.called true), .reader t (.called true)]

/-- The local service gets a datagram of each of the two users of a tunnel, and answers the second
one first. -/
def echoRun : List Action :=
  openingRun 0 ++ [.reader 0 .go, .reader 0 (.called true),
    .reader 0 (.frame (some (TYPE_UDP_PACKET, [0]))), .reader 0 .go, .reader 0 (.called true),
    .reader 0 (.called true), .reader 0 .go, .reader 0 (.called true),
    .task 1 (.recv [3]), .task 0 (.recv [2]), .task 1 .go, .task 0 .go,
    .writer 0 (.write true), .writer 0 (.write true)]

theorem users_isolated_echo :
    ∃ s, (tunnels sampleWorld).Reachable s ∧
      s.forwarded.map (fun m => (m.1.user, m.2)) = [(sampleAddr, 0), (otherAddr, 1)] ∧
      s.written.map (fun m => (m.1, m.2.c)) = [(1, "Aw=="), (0, "Ag==")] ∧
      Isolated sampleWorld s := by
  obtain ⟨s, run, shown⟩ : ∃ s, (tunnels sampleWorld).Reachable s ∧
      decide (s.forwarded.map (fun m => (m.1.user, m.2)) = [(sampleAddr, 0), (otherAddr, 1)] ∧
        s.written.map (fun m => (m.1, m.2.c)) = [(1, "Aw=="), (0, "Ag==")]) = true :=
    System.reaches_of_any (fun _ moved => ⟨trivial, moved⟩) (.start rfl)
      (by decide +kernel : (System.execute (step sampleWorld) echoRun {}).any _ = true)
  obtain ⟨forwarded, written⟩ := of_decide_eq_true shown
  exact ⟨s, run, forwarded, written, users_isolated run⟩

end Remgr.Udp.Tunnels
