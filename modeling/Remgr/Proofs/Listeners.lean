/-
Module: Remgr.Proofs.Listeners
Purpose: Every listener that still accepts users can be reached through the `proxies` map of its
  control, and nothing stays in that map or listens on once the control is torn down and its reader
  has returned.
Trusted boundary: none
Main exports: listeners_accounted, entry_outlives_reader
-/
import Remgr.Proofs.Holdings

namespace Remgr.Frps.Server

open Remgr.Lib

/-! ## The statement -/

/-- The listener task of the registration runs and its token is not cancelled. -/
def State.listening (s : State) (r : RegId) : Prop :=
  (s.regs r).listener.isRunning = true ∧ s.ptkCancelled r = false

/-- The reader of the control is inside this call of `handle_new_proxy`. -/
def State.registeringOn (s : State) (c : StreamId) (r : RegId) : Prop :=
  ∃ pc, (s.streams c).pc = .registering r pc

/-- The stages after the reader loop. -/
def StreamPc.returned : StreamPc → Bool
  | .ending | .joining | .done => true
  | _ => false

/-- The reader loop of the control has returned. -/
def State.readerReturned (s : State) (c : StreamId) : Prop :=
  (s.ctl c).created = true ∧ (s.streams c).pc.returned = true

/-- Some call of `teardown` on the control has come to its end: the first one to get there clears
the `online` flag. -/
def State.tornDown (s : State) (c : StreamId) : Prop :=
  (s.ctl c).created = true ∧ (s.ctl c).online = false

instance (s : State) (r : RegId) : Decidable (s.listening r) :=
  inferInstanceAs (Decidable (_ ∧ _))

instance (s : State) (c : StreamId) : Decidable (s.readerReturned c) :=
  inferInstanceAs (Decidable (_ ∧ _))

/-! ## What the view says about it -/

theorem ptkCancelled_eq (s : State) (r : RegId) :
    s.ptkCancelled r = (tenancy s).cancelled r := rfl

theorem registeringOn_of_flight {s : State} {c : StreamId} {r : RegId} {name : String}
    {phase : Phase (ProxyType × UInt16)} (flight : (tenancy s).flight c = some ⟨r, name, phase⟩) :
    s.registeringOn c r := by
  simp only [tenancy] at flight
  cases stage : (s.streams c).pc with
  | registering q pc =>
      rw [stage] at flight
      rcases Option.map_eq_some_iff.mp flight with ⟨_, _, same⟩
      cases same
      exact ⟨pc, stage⟩
  | _ =>
      rw [stage] at flight
      cases flight

theorem flight_eq_none {s : State} {c : StreamId} (returned : s.readerReturned c) :
    (tenancy s).flight c = none := by
  simp only [tenancy]
  cases stage : (s.streams c).pc with
  | registering r pc =>
      rw [State.readerReturned, stage] at returned
      cases returned.2
  | _ => rfl

section

variable {w : World} {s : State} {c : StreamId} {name : String} {r : RegId}

/-- A listener that is not cancelled is stored under its name. -/
theorem listening_stored (sound : (tenancy s).Sound) (listens : s.listening r) :
    (s.proxies (s.regs r).control).lookup (s.nameOf r) = some r := by
  have published := sound.running_published listens.1
  rcases sound.published_entry published with stored | revoked
  · exact stored
  · have cancelled : (tenancy s).cancelled r = true := by
      simp [Tenancy.cancelled, revoked]
    rw [← ptkCancelled_eq, listens.2] at cancelled
    cases cancelled

/-- An entry belongs to a registration in progress or to a started listener, which is not cancelled
unless the control is. -/
theorem entry_belongs (sound : (tenancy s).Sound)
    (stored : (s.proxies c).lookup name = some r) :
    (s.regs r).control = c ∧ s.nameOf r = name ∧
      (s.registeringOn c r ∨ (s.tokenCancelled c = false → s.listening r)) := by
  have entry : (tenancy s).entry (c, name) = some r := stored
  rcases sound.entry_home entry with ⟨home, _, notRevoked, _⟩
  have homeControl : (s.regs r).control = c := congrArg Prod.fst home
  refine ⟨homeControl, congrArg Prod.snd home, ?_⟩
  rcases sound.entry_used entry with published | ⟨phase, flight, _⟩
  · refine .inr ?_
    intro notCut
    rcases sound.entry_running entry published with running | closed
    · refine ⟨running, ?_⟩
      have own : (s.regs r).cancelled = false := notRevoked
      simp only [State.ptkCancelled, own, homeControl, notCut, Bool.or_self]
    · have cut : s.tokenCancelled c = true := closed
      rw [notCut] at cut
      cases cut
  · exact .inl (registeringOn_of_flight flight)

/-- Once the reader has returned and a teardown is through, the map is empty. -/
theorem proxies_empty (sound : (tenancy s).Sound) (returned : s.readerReturned c)
    (torn : s.tornDown c) : s.proxies c = ∅ := by
  apply Finmap.ext_lookup
  intro name
  rw [Finmap.lookup_empty]
  rcases stored : (s.proxies c).lookup name with _ | r
  · rfl
  · have swept : (tenancy s).swept c = true := by
      simp only [tenancy, torn.2, Bool.not_false]
    rcases sound.swept_covers torn.1 swept stored with ⟨_, _, flight, _⟩
    rw [flight_eq_none returned] at flight
    cases flight

end

/-- In every reachable state: a running listener whose token is not cancelled is stored under its
name in the `proxies` map of its control; every entry belongs to a registration in progress on that
control's reader or to a listener that runs uncancelled as long as the control itself is not
cancelled; and once the reader loop has returned and a teardown is through, the map is empty and
none of the control's listeners is left uncancelled. -/
theorem listeners_accounted {w : World} {s : State} (run : (server w).Reachable s) :
    (∀ r, s.listening r → (s.proxies (s.regs r).control).lookup (s.nameOf r) = some r) ∧
    (∀ c name r, (s.proxies c).lookup name = some r →
      (s.regs r).control = c ∧ s.nameOf r = name ∧
        (s.registeringOn c r ∨ (s.tokenCancelled c = false → s.listening r))) ∧
    (∀ c, s.readerReturned c → s.tornDown c →
      s.proxies c = ∅ ∧ ∀ r, (s.regs r).control = c → ¬ s.listening r) := by
  have sound := server_sound run
  refine ⟨fun r => listening_stored sound, fun c name r => entry_belongs sound, ?_⟩
  intro c returned torn
  have empty := proxies_empty sound returned torn
  refine ⟨empty, ?_⟩
  intro r home listens
  have stored := listening_stored sound listens
  rw [home, empty, Finmap.lookup_empty] at stored
  cases stored

/-! ## A run to look at

One client logs in and registers a tcp proxy. The parser knows the texts of the few values used
here, and md5 its value for an empty token and timestamp 0. -/

def sampleLogin (runId : String) : Json :=
  .obj [("privilege_key", .str "cfcd208495d565ef66e7dff9f98764da"), ("run_id", .str runId)]

def sampleProxy (port : Int) : Json :=
  .obj [("proxy_name", .str "web"), ("proxy_type", .str "tcp"), ("remote_port", .num port)]

def sampleClose : Json := .obj [("proxy_name", .str "web")]

def sampleWorld : World where
  md5 input := if input = utf8 "0" then
      [0xcf, 0xcd, 0x20, 0x84, 0x95, 0xd5, 0x65, 0xef, 0x66, 0xe7, 0xdf, 0xf9, 0xf9, 0x87, 0x64,
        0xda]
    else []
  fromSlice body :=
    [sampleLogin "one", sampleLogin "two", sampleProxy 6001, sampleProxy 6002, sampleClose].find?
      fun value => value.toVec = body
  parseAddr text := if text ∈ ["0.0.0.0:6001", "0.0.0.0:6002"] then some text else none

/-- A connection logs in, with no other control under its run id. -/
def loginRun (k : StreamId) (runId : String) : List Action :=
  [.server (.accept k 0), .stream k (.frame (some (TYPE_LOGIN, (sampleLogin runId).toVec))),
    .stream k .go, .stream k .go, .stream k (.uuid ""), .stream k .go, .stream k (.wrote true),
    .stream k .go, .stream k .go, .stream k .go]

/-- Its reader takes up a registration and gets as far as the bind. -/
def proxyRunToBind (k : StreamId) (port : Int) : List Action :=
  [.stream k (.frame (some (TYPE_NEW_PROXY, (sampleProxy port).toVec))), .stream k .go,
    .stream k .go, .stream k .go, .stream k .go]

/-- The bind succeeds, the response goes out and the listener starts. -/
def proxyRunFromBind (k : StreamId) : List Action :=
  [.stream k (.bound .bound), .stream k (.via .queued), .writer k .take, .writer k (.wrote true),
    .stream k .go, .stream k .go, .stream k .go]

/-- One client with one tcp proxy. -/
def oneProxyRun : List Action :=
  .server .start :: (loginRun 1 "one" ++ proxyRunToBind 1 6001 ++ proxyRunFromBind 1)

/-- What a run of the sample world shows of its last state. -/
theorem sample_reaches (actions : List Action) (check : State → Bool)
    (passed : (System.execute (step sampleWorld) actions (State.new {})).any check = true) :
    ∃ s, (server sampleWorld).Reachable s ∧ check s = true :=
  System.reaches_of_any (fun _ moved => ⟨trivial, moved⟩) (.start ⟨_, rfl⟩) passed

/-- With one client and one proxy, the listener is stored where the theorem says. -/
theorem listeners_accounted_one_proxy :
    ∃ s, (server sampleWorld).Reachable s ∧ s.listening 0 ∧
      (s.proxies (s.regs 0).control).lookup (s.nameOf 0) = some 0 := by
  rcases sample_reaches oneProxyRun (fun s => decide (s.listening 0)) (by decide +kernel)
    with ⟨s, run, listens⟩
  exact ⟨s, run, of_decide_eq_true listens,
    (listeners_accounted run).1 0 (of_decide_eq_true listens)⟩

/-- When `stop` has cancelled the run token and the reader has noticed it, but no teardown has come
to the control yet, the entry is still there. -/
theorem entry_outlives_reader :
    ∃ s, (server sampleWorld).Reachable s ∧ s.tokenCancelled 1 = true ∧ s.readerReturned 1 ∧
      s.proxies 1 ≠ ∅ := by
  rcases sample_reaches (oneProxyRun ++ [.server .stopCancel, .stream 1 .cancelled])
    (fun s => s.tokenCancelled 1 && decide (s.readerReturned 1) &&
      decide ((s.proxies 1).lookup "web" = some 0)) (by decide +kernel) with ⟨s, run, shown⟩
  simp only [Bool.and_eq_true, decide_eq_true_eq] at shown
  refine ⟨s, run, shown.1.1, shown.1.2, ?_⟩
  intro empty
  rw [empty, Finmap.lookup_empty] at shown
  cases shown.2

end Remgr.Frps.Server
