/-
Module: Remgr.Proofs.ConsoleServe
Purpose: What a rebind of the console leaves behind. A request that finds settings which cannot be
  served is refused and changes nothing, unless they ask for TLS with an unreadable pair on the port
  that is served; the loop's record of the last good settings is right as long as no others are
  handed over and no second attempt at the same settings succeeds.
Trusted boundary: Remgr.Console.Serve
Main exports: Owned, Told, apply_refuses_iff, lastWorked, Familiar, last_good_recorded
-/
import Remgr.Console.Serve
import Remgr.Lib.Record

namespace Remgr.Console.Serve

open Lib

/-! ### Preparing a listener -/

theorem prepareConsole_ok {env : Env} {own : List UInt16} {route : Route} {cfg : ConsoleConfig}
    {p : Prepared} (ok : prepareConsole env own route cfg = .ok p) :
    p.asked = cfg ∧ p.route = route ∧ p.port ≠ 0 ∧ p.port ∉ env.held := by
  unfold prepareConsole at ok
  split at ok
  · cases ok
  · next unused =>
      split at ok
      · cases ok
      · split at ok
        · cases ok
        · cases ok
          refine ⟨rfl, rfl, ?_⟩
          dsimp only
          split
          · exact env.free
          · next asked => exact ⟨asked, fun held => unused (.inl held)⟩

theorem prepareConsole_taken {env : Env} {own : List UInt16} {route : Route} {cfg : ConsoleConfig}
    (taken : cfg.port ∈ env.held ∨ cfg.port ∈ own) :
    prepareConsole env own route cfg = .error .addrInUse := if_pos taken

/-! ### What one step of the loop does -/

/-- The loop stays without a listener, comes to one, or goes on with the one it has. -/
inductive LoopTurn (s : State) : State → Prop where
  | idle (pc : Pc) (none' : pc.listener = none) : LoopTurn s { s with pc := pc }
  | handed (cfg : ConsoleConfig) (p : Prepared) (here : s.pc = .take cfg) (pending : s.pending = some p) :
      LoopTurn s { s with pending := none, pc := .opening p }
  | prepared (cfg : ConsoleConfig) (p : Prepared) (here : s.pc = .prepare cfg)
      (ok : prepareConsole s.env s.own .prepared cfg = .ok p) :
      LoopTurn s { s with pc := .opening p, lastGood := some cfg }
  | plain (cfg : ConsoleConfig) (p : Prepared) (here : s.pc = .plain cfg)
      (ok : prepareConsole s.env s.own .plain { cfg with tls := false } = .ok p) :
      LoopTurn s { s with pc := .opening p }
  | lastResort (cfg good : ConsoleConfig) (p : Prepared) (here : s.pc = .lastResort cfg)
      (isGood : s.lastGood = some good) (ok : prepareConsole s.env s.own .lastResort good = .ok p) :
      LoopTurn s { s with pc := .opening p }
  | opening (p : Prepared) (here : s.pc = .opening p) :
      LoopTurn s { s with pc := .listening p, stop := true, signalled := false }
  | listening (p : Prepared) (here : s.pc = .listening p) :
      LoopTurn s { s with pc := .announcing p, servingPort := some p.port }
  | announcing (p : Prepared) (here : s.pc = .announcing p) :
      LoopTurn s { s with pc := .serving p, servingTls := p.tls }

theorem loop_turn {s s' : State} (moved : loopStep s = some s') : LoopTurn s s' := by
  unfold loopStep at moved
  split at moved
  · cases moved
  · next cfg here =>
      split at moved
      · next p pending =>
          cases moved
          exact .handed cfg p here pending
      · cases moved
        exact .idle _ rfl
  · next cfg here =>
      split at moved
      · next p ok =>
          cases moved
          exact .prepared cfg p here ok
      · cases moved
        exact .idle _ rfl
  · next cfg here =>
      split at moved
      · next p ok =>
          cases moved
          exact .plain cfg p here ok
      · cases moved
        exact .idle _ rfl
  · next cfg here =>
      split at moved
      · cases moved
        exact .idle _ rfl
      · next good isGood =>
          split at moved
          · next p ok =>
              cases moved
              exact .lastResort cfg good p here isGood ok
          · cases moved
            exact .idle _ rfl
  · cases moved
    exact .idle _ rfl
  · next p here =>
      cases moved
      exact .opening p here
  · next p here =>
      cases moved
      exact .listening p here
  · next p here =>
      cases moved
      exact .announcing p here
  · obtain ⟨-, same⟩ := Option.ite_none_right_eq_some.mp moved
    cases same
    exact .idle _ rfl
  · cases moved

/-- A failure leaves the loop without a listener. -/
theorem fail_idle {s s' : State} (moved : step s .fail = some s') :
    ∃ pc : Pc, pc.listener = none ∧ s' = { s with pc := pc } := by
  simp only [step] at moved
  split at moved
  · cases moved
    exact ⟨.sleeping, rfl, rfl⟩
  · obtain ⟨-, same⟩ := Option.ite_none_left_eq_some.mp moved
    cases same
    exact ⟨.returned, rfl, rfl⟩
  · cases moved

/-- With the settings in hand it has none yet. -/
theorem read_idle {s s' : State} {found : Nat} (moved : step s (.read found) = some s') :
    ∃ cfg, s' = { s with pc := .take cfg } := by
  simp only [step] at moved
  split at moved
  · obtain ⟨cfg, -, same⟩ := Option.map_eq_some_iff.mp moved
    exact ⟨cfg, same.symm⟩
  · cases moved

/-! ### Listeners and what is told about them -/

/-- No other process has a port on which the console listens. -/
def Owned (s : State) : Prop := ∀ p ∈ s.listeners, p.port ≠ 0 ∧ p.port ∉ s.env.held

theorem mem_listeners {s : State} {p : Prepared} :
    p ∈ s.listeners ↔ s.pc.listener = some p ∨ s.pending = some p ∨ p ∈ s.handing := by
  simp [State.listeners]

theorem LoopTurn.listeners {s s' : State} (turn : LoopTurn s s') :
    s'.env = s.env ∧ ∀ p ∈ s'.listeners, p ∈ s.listeners ∨ p.port ≠ 0 ∧ p.port ∉ s.env.held := by
  simp only [mem_listeners]
  cases turn with
  | idle pc none' =>
      refine ⟨rfl, fun p => ?_⟩
      rw [none']
      rintro (listener | rest)
      · cases listener
      · exact .inl (.inr rest)
  | handed cfg p here pending =>
      refine ⟨rfl, ?_⟩
      rintro q (listener | other | handing)
      · exact .inl (.inr (.inl (pending.trans listener)))
      · cases other
      · exact .inl (.inr (.inr handing))
  | prepared cfg p here ok =>
      refine ⟨rfl, ?_⟩
      rintro q (listener | rest)
      · cases listener
        exact .inr (prepareConsole_ok ok).2.2
      · exact .inl (.inr rest)
  | plain cfg p here ok =>
      refine ⟨rfl, ?_⟩
      rintro q (listener | rest)
      · cases listener
        exact .inr (prepareConsole_ok ok).2.2
      · exact .inl (.inr rest)
  | lastResort cfg good p here isGood ok =>
      refine ⟨rfl, ?_⟩
      rintro q (listener | rest)
      · cases listener
        exact .inr (prepareConsole_ok ok).2.2
      · exact .inl (.inr rest)
  | opening p here | listening p here | announcing p here =>
      refine ⟨rfl, ?_⟩
      rintro q (listener | rest)
      · exact .inl (.inl (by rw [here]; exact listener))
      · exact .inl (.inr rest)

theorem LoopTurn.owned {s s' : State} (turn : LoopTurn s s') (owned : Owned s) : Owned s' := by
  obtain ⟨env, listeners⟩ := turn.listeners
  intro p here
  rw [env]
  rcases listeners p here with before | fresh
  · exact owned p before
  · exact fresh

theorem consoleApply_cases (cfg : ConsoleConfig) (s : State) :
    (∃ p, prepareConsole s.env s.own .handedOver cfg = .ok p ∧
      consoleApply cfg s = (.rebinding, { s with handing := s.handing ++ [p] })) ∨
    (s.servingPort = some cfg.port ∧
      prepareConsole s.env s.own .handedOver cfg = .error .addrInUse ∧
      consoleApply cfg s = (.samePort, { s with stopping := s.stopping + 1 })) ∨
    (∃ e, prepareConsole s.env s.own .handedOver cfg = .error e ∧
      (e = .addrInUse → s.servingPort ≠ some cfg.port) ∧ consoleApply cfg s = (.error e, s)) := by
  unfold consoleApply
  cases prepareConsole s.env s.own .handedOver cfg with
  | ok p => exact .inl ⟨p, rfl, rfl⟩
  | error e =>
      by_cases same : e = .addrInUse ∧ s.servingPort = some cfg.port
      · obtain ⟨rfl, port⟩ := same
        exact .inr (.inl ⟨port, rfl, if_pos ⟨rfl, port⟩⟩)
      · exact .inr (.inr ⟨e, rfl, fun inUse port => same ⟨inUse, port⟩, if_neg same⟩)

theorem Owned.step {s s' : State} {input : Input} (owned : Owned s) (moved : step s input = some s') :
    Owned s' := by
  cases input with
  | environment env =>
      obtain ⟨clear, same⟩ := Option.ite_none_right_eq_some.mp moved
      cases same
      have free := List.all_eq_true.mp clear
      exact fun p here =>
        ⟨(owned p here).1, of_decide_eq_true (free p.port (List.mem_map_of_mem here))⟩
  | edit cfg =>
      cases moved
      exact owned
  | call found =>
      obtain ⟨cfg, -, same⟩ := Option.map_eq_some_iff.mp moved
      cases same
      exact owned
  | apply i =>
      obtain ⟨cfg, -, same⟩ := Option.map_eq_some_iff.mp moved
      cases same
      rcases consoleApply_cases cfg { s with calls := s.calls.eraseIdx i } with
        ⟨p, ok, same⟩ | ⟨-, -, same⟩ | ⟨e, -, -, same⟩
      · rw [same]
        intro q here
        rcases mem_listeners.mp here with pc | pending | handing
        · exact owned q (mem_listeners.mpr (.inl pc))
        · exact owned q (mem_listeners.mpr (.inr (.inl pending)))
        · rcases List.mem_append.mp handing with earlier | last
          · exact owned q (mem_listeners.mpr (.inr (.inr earlier)))
          · rw [List.mem_singleton.mp last]
            exact (prepareConsole_ok ok).2.2
      · rw [same]
        exact owned
      · rw [same]
        exact owned
  | publish i =>
      obtain ⟨p, isHanding, same⟩ := Option.map_eq_some_iff.mp moved
      cases same
      intro q here
      rcases mem_listeners.mp here with pc | pending | handing
      · exact owned q (mem_listeners.mpr (.inl pc))
      · cases pending
        exact owned p (mem_listeners.mpr (.inr (.inr (List.mem_of_getElem? isHanding))))
      · exact owned q (mem_listeners.mpr (.inr (.inr (List.mem_of_mem_eraseIdx handing))))
  | stop =>
      obtain ⟨-, same⟩ := Option.ite_none_right_eq_some.mp moved
      cases same
      exact owned
  | read found =>
      obtain ⟨cfg, rfl⟩ := read_idle moved
      exact (LoopTurn.idle (.take cfg) rfl).owned owned
  | loop => exact (loop_turn moved).owned owned
  | fail =>
      obtain ⟨pc, none', rfl⟩ := fail_idle moved
      exact (LoopTurn.idle pc none').owned owned

/-- The port and the scheme the program reports are those of the listener it serves. -/
structure Told (s : State) : Prop where
  port : ∀ p, s.pc = .announcing p ∨ s.pc = .serving p → s.servingPort = some p.port
  scheme : ∀ p, s.pc = .serving p → s.servingTls = p.tls

theorem Told.of_quiet {s : State} (quiet : ∀ p, s.pc ≠ .announcing p ∧ s.pc ≠ .serving p) : Told s where
  port p here := by
    rcases here with announcing | serving
    · exact absurd announcing (quiet p).1
    · exact absurd serving (quiet p).2
  scheme p here := absurd here (quiet p).2

theorem Pc.quiet_of_idle {pc : Pc} (none' : pc.listener = none) (p : Prepared) :
    pc ≠ .announcing p ∧ pc ≠ .serving p := by
  constructor <;> rintro rfl <;> cases none'

theorem LoopTurn.told {s s' : State} (turn : LoopTurn s s') (told : Told s) : Told s' := by
  cases turn with
  | idle pc none' => exact .of_quiet (Pc.quiet_of_idle none')
  | handed | prepared | plain | lastResort | opening => exact .of_quiet fun q => by simp
  | listening p here =>
      refine ⟨?_, ?_⟩
      · rintro q (announcing | serving)
        · cases announcing
          rfl
        · cases serving
      · intro q serving
        cases serving
  | announcing p here =>
      refine ⟨?_, ?_⟩
      · rintro q (announcing | serving)
        · cases announcing
        · cases serving
          exact told.port p (.inl here)
      · intro q serving
        cases serving
        rfl

/-- Outside the loop nothing touches what the loop tells. -/
theorem step_loop {s s' : State} {input : Input} (moved : step s input = some s') :
    (input = .loop ∧ loopStep s = some s') ∨
      (input ≠ .loop ∧ ∃ pc : Pc, pc.listener = none ∧ s' = { s with pc := pc }) ∨
      (input ≠ .loop ∧ s'.pc = s.pc ∧ s'.servingPort = s.servingPort ∧
        s'.servingTls = s.servingTls ∧ s'.lastGood = s.lastGood) := by
  cases input with
  | environment env =>
      obtain ⟨-, same⟩ := Option.ite_none_right_eq_some.mp moved
      cases same
      exact .inr (.inr ⟨nofun, rfl, rfl, rfl, rfl⟩)
  | edit cfg =>
      cases moved
      exact .inr (.inr ⟨nofun, rfl, rfl, rfl, rfl⟩)
  | call found =>
      obtain ⟨cfg, -, same⟩ := Option.map_eq_some_iff.mp moved
      cases same
      exact .inr (.inr ⟨nofun, rfl, rfl, rfl, rfl⟩)
  | apply i =>
      obtain ⟨cfg, -, same⟩ := Option.map_eq_some_iff.mp moved
      cases same
      rcases consoleApply_cases cfg { s with calls := s.calls.eraseIdx i } with
        ⟨p, -, same⟩ | ⟨-, -, same⟩ | ⟨e, -, -, same⟩ <;> rw [same] <;>
        exact .inr (.inr ⟨nofun, rfl, rfl, rfl, rfl⟩)
  | publish i =>
      obtain ⟨p, -, same⟩ := Option.map_eq_some_iff.mp moved
      cases same
      exact .inr (.inr ⟨nofun, rfl, rfl, rfl, rfl⟩)
  | stop =>
      obtain ⟨-, same⟩ := Option.ite_none_right_eq_some.mp moved
      cases same
      exact .inr (.inr ⟨nofun, rfl, rfl, rfl, rfl⟩)
  | read found =>
      obtain ⟨cfg, same⟩ := read_idle moved
      exact .inr (.inl ⟨nofun, .take cfg, rfl, same⟩)
  | loop => exact .inl ⟨rfl, moved⟩
  | fail => exact .inr (.inl ⟨nofun, fail_idle moved⟩)

/-- What holds of the listeners in every run. -/
structure Sound (s : State) : Prop where
  owned : Owned s
  told : Told s

theorem reachable_sound {s : State} (run : serve.Reachable s) : Sound s := by
  refine run.invariant (P := Sound) ?_ ?_
  · intro s starts
    constructor
    · intro p here
      rw [mem_listeners, starts.pc, starts.pending, starts.handing] at here
      simp [Pc.listener] at here
    · exact .of_quiet fun p => by rw [starts.pc]; simp
  · intro s input s' _ sound _ moved
    refine ⟨sound.owned.step moved, ?_⟩
    rcases step_loop moved with ⟨-, moved⟩ | ⟨-, pc, none', rfl⟩ | ⟨-, pc, port, scheme, -⟩
    · exact (loop_turn moved).told sound.told
    · exact (LoopTurn.idle pc none').told sound.told
    · refine ⟨fun p here => ?_, fun p here => ?_⟩
      · rw [port]
        exact sound.told.port p (pc ▸ here)
      · rw [scheme]
        exact sound.told.scheme p (pc ▸ here)

/-! ### Sample runs -/

def sampleSettings : ConsoleConfig := { tlsCert := "cert.pem", tlsKey := "key.pem" }

def secureSettings : ConsoleConfig := { sampleSettings with tls := true }

/-- Another process has port 9444; one pair loads. -/
def sampleEnv : Env where
  held := [9444]
  refused := []
  ephemeral := 49152
  readable := [("cert.pem", "key.pem")]
  free := by decide
  numbered := by decide

def startedWith (cfg : ConsoleConfig) : State where
  env := sampleEnv
  config := cfg
  earlier := []
  pc := .top
  lastGood := none
  pending := none
  stop := false
  signalled := false
  servingPort := none
  servingTls := false
  calls := []
  handing := []
  stopping := 0

theorem startedWith_starts (cfg : ConsoleConfig) : serve.init (startedWith cfg) :=
  ⟨rfl, rfl, rfl, rfl, rfl, rfl, rfl, rfl, rfl, rfl⟩

/-- From the top of the loop to a server, with the settings in memory, when they can be served. -/
def servesRun : List Input := .read 0 :: List.replicate 5 .loop

/-- A request to apply the settings in memory, up to its hand-over. -/
def appliesRun : List Input := [.call 0, .apply 0, .publish 0, .stop]

def stepFn (input : Input) (s : State) : Option State := step s input

theorem reachable_of_any {inputs : List Input} {cfg : ConsoleConfig} {check : State → Bool}
    (shown : (System.execute stepFn inputs (startedWith cfg)).any check = true) :
    ∃ s, serve.Reachable s ∧ check s = true :=
  System.reaches_of_any (fun _ moved => ⟨trivial, moved⟩) (.start (startedWith_starts cfg)) shown

/-! ### A request that cannot be met -/

/-- The settings cannot be served as they are: another process has the port, or TLS is on and the
pair does not load. -/
def Unservable (s : State) : Prop :=
  s.config.port ∈ s.env.held ∨
    (s.config.tls = true ∧ (s.config.tlsCert, s.config.tlsKey) ∉ s.env.readable)

/-- A further listener can be made for the settings. -/
def Preparable (s : State) (cfg : ConsoleConfig) : Prop :=
  ¬ (cfg.port ∈ s.env.held ∨ cfg.port ∈ s.own) ∧ cfg.port ∉ s.env.refused ∧
    ¬ (cfg.tls = true ∧ (cfg.tlsCert, cfg.tlsKey) ∉ s.env.readable)

/-- A request that has found these settings is answered with an error and leaves the console as it
was. -/
def Refused (cfg : ConsoleConfig) (s : State) : Prop := ∃ e, consoleApply cfg s = (.error e, s)

theorem prepareConsole_preparable {s : State} {route : Route} {cfg : ConsoleConfig} :
    (∃ p, prepareConsole s.env s.own route cfg = .ok p) ↔ Preparable s cfg := by
  unfold prepareConsole Preparable
  split
  · next taken => exact ⟨nofun, fun free => absurd taken free.1⟩
  · next untaken =>
      split
      · next refused => exact ⟨nofun, fun free => absurd refused free.2.1⟩
      · next allowed =>
          split
          · next broken => exact ⟨nofun, fun free => absurd broken free.2.2⟩
          · next loads => exact ⟨fun _ => ⟨untaken, allowed, loads⟩, fun _ => ⟨_, rfl⟩⟩

/-- With a console serving, a request is refused unless it has found settings for a further
listener, or for the port that is served. -/
theorem refused_of_serving {s : State} (run : serve.Reachable s) {p : Prepared}
    (serving : s.pc = .serving p) (cfg : ConsoleConfig) :
    Refused cfg s ↔ cfg.port ≠ p.port ∧ ¬ Preparable s cfg := by
  have port : s.servingPort = some p.port := (reachable_sound run).told.port p (.inr serving)
  have listens : p ∈ s.listeners := mem_listeners.mpr (.inl (by rw [serving]; rfl))
  rcases consoleApply_cases cfg s with
    ⟨q, ok, same⟩ | ⟨samePort, -, same⟩ | ⟨e, failed, other, same⟩
  · refine ⟨?_, fun closed => absurd (prepareConsole_preparable.mp ⟨q, ok⟩) closed.2⟩
    rintro ⟨e, answer⟩
    cases answer.symm.trans same
  · refine ⟨?_, fun closed => absurd (Option.some.inj (samePort.symm.trans port)) closed.1⟩
    rintro ⟨e, answer⟩
    cases answer.symm.trans same
  · refine ⟨fun _ => ⟨?_, ?_⟩, fun _ => ⟨e, same⟩⟩
    · intro served
      have taken : prepareConsole s.env s.own .handedOver cfg = .error .addrInUse :=
        prepareConsole_taken (.inr (by rw [served]; exact List.mem_map_of_mem listens))
      cases taken.symm.trans failed
      exact other rfl (port.trans (congrArg some served.symm))
    · intro free
      obtain ⟨q, ok⟩ := prepareConsole_preparable.mpr free
      cases failed.symm.trans ok

/-- With a console serving, a request that cannot be met is refused, except when it asks for TLS
with a pair that does not load on the very port that is served. That is of a request that has found
the current settings; one that has found earlier ones is refused when those cannot be met either and
ask for another port. -/
theorem apply_refuses_iff (s : State) (run : serve.Reachable s) (p : Prepared)
    (serving : s.pc = .serving p) (cfg : ConsoleConfig) :
    (Unservable s → Refused cfg s) ↔
      (cfg = s.config → ¬ (cfg.port = p.port ∧ cfg.tls = true ∧
        (cfg.tlsCert, cfg.tlsKey) ∉ s.env.readable)) ∧
      (cfg ≠ s.config → Unservable s → cfg.port ≠ p.port ∧ ¬ Preparable s cfg) := by
  have refuses := refused_of_serving run serving cfg
  have listens : p ∈ s.listeners := mem_listeners.mpr (.inl (by rw [serving]; rfl))
  by_cases current : cfg = s.config
  · subst current
    constructor
    · intro met
      refine ⟨fun _ ⟨samePort, broken⟩ => ?_, fun other => absurd rfl other⟩
      exact (refuses.mp (met (.inr broken))).1 samePort
    · rintro ⟨servable, -⟩ unservable
      refine refuses.mpr ⟨fun samePort => ?_, fun free => ?_⟩
      · rcases unservable with held | broken
        · exact ((reachable_sound run).owned p listens).2 (samePort ▸ held)
        · exact servable rfl ⟨samePort, broken⟩
      · rcases unservable with held | broken
        · exact free.1 (.inl held)
        · exact free.2.2 broken
  · constructor
    · intro met
      exact ⟨fun same => absurd same current, fun _ unservable => refuses.mp (met unservable)⟩
    · exact fun ⟨_, older⟩ unservable => refuses.mpr (older current unservable)

/-- The port asked for belongs to another process: the request, which has found the settings in
memory, is refused. -/
theorem apply_refuses_taken_port :
    ∃ s, serve.Reachable s ∧ s.config.port = 9444 ∧ s.config ∈ s.calls ∧ Unservable s ∧
      Refused s.config s := by
  obtain ⟨s, run, shown⟩ := reachable_of_any (by decide +kernel :
    (System.execute stepFn (servesRun ++ [.edit { sampleSettings with port := 9444 }, .call 0])
      (startedWith sampleSettings)).any (fun s =>
        s.pc = .serving ⟨9443, false, sampleSettings, .prepared⟩ ∧ s.config.port = 9444 ∧
          s.config ∈ s.calls ∧ s.env.held = [9444]) = true)
  obtain ⟨serving, port, called, held⟩ := of_decide_eq_true shown
  have unservable : Unservable s := .inl (by rw [port, held]; decide)
  refine ⟨s, run, port, called, unservable, ?_⟩
  refine (apply_refuses_iff s run _ serving s.config).mpr ?_ unservable
  refine ⟨?_, fun older => absurd rfl older⟩
  rintro - ⟨same, -, -⟩
  exact absurd (port.symm.trans same) (by decide)

/-- The steps of the requests under way and of the loop. -/
def Input.unprompted : Input → Bool
  | .apply _ | .publish _ | .stop | .read _ | .loop => true
  | _ => false

/-- The console serves TLS and its pair stops loading: the request on the same port, which has found
the settings in memory, is answered with success, and with nobody else doing anything the console
comes back without TLS. -/
theorem same_port_unreadable :
    ∃ s p, serve.Reachable s ∧ s.pc = .serving p ∧ p.tls = true ∧ s.calls = [s.config] ∧
      Unservable s ∧ ¬ Refused s.config s ∧
      ∃ s' q, (serve.startedAt s).Reaches (fun _ input => input.unprompted = true) s' ∧
        s'.pc = .serving q ∧ q.tls = false := by
  obtain ⟨s, run, shown⟩ := reachable_of_any (by decide +kernel :
    (System.execute stepFn (servesRun ++ [.environment { sampleEnv with readable := [] }, .call 0])
      (startedWith secureSettings)).any (fun s =>
        decide (s.pc = .serving ⟨9443, true, secureSettings, .prepared⟩ ∧ s.config = secureSettings ∧
          s.calls = [s.config] ∧ s.env.readable = [] ∧
          (consoleApply s.config s).1 = .samePort) &&
        (System.execute (System.guarded (fun _ input => input.unprompted) stepFn)
          ([.apply 0, .stop, .loop, .read 0] ++ List.replicate 6 .loop) s).any
          (fun s' => s'.pc = .serving ⟨9443, false, sampleSettings, .plain⟩)) = true)
  obtain ⟨before, after⟩ := Bool.and_eq_true_iff.mp shown
  obtain ⟨serving, config, calls, readable, answer⟩ := of_decide_eq_true before
  have unservable : Unservable s := .inr ⟨by rw [config]; rfl, by rw [readable]; simp⟩
  refine ⟨s, _, run, serving, rfl, calls, unservable, ?_, ?_⟩
  · rintro ⟨e, refused⟩
    rw [refused] at answer
    cases answer
  · obtain ⟨s', done, plain⟩ := System.exists_of_any after
    have onward : (serve.startedAt s).Reaches (fun _ input => input.unprompted = true) s' :=
      System.reaches_of_execute (fun _ moved => Option.ite_none_right_eq_some.mp moved) (.start rfl)
        done
    exact ⟨s', _, onward, of_decide_eq_true plain, rfl⟩

/-! ### The settings that worked last -/

/-- The settings the loop asks for at this point. A listener that is handed over was asked for by
the request. -/
def Pc.asks : Pc → Option ConsoleConfig
  | .prepare cfg | .plain cfg | .lastResort cfg => some cfg
  | _ => none

/-- The settings of the listener this step brings to the loop, if it is bound with exactly the
settings that were asked for. -/
def worked (s : State) : Input → Option ConsoleConfig
  | .loop =>
      match (loopStep s).map State.pc with
      | some (.opening p) => if s.pc.asks.all (· = p.asked) then some p.asked else none
      | _ => none
  | _ => none

/-- The settings that worked last. -/
def lastWorked : List (State × Input) → Option ConsoleConfig
  | [] => none
  | (s, input) :: past => (worked s input).or (lastWorked past)

/-- At this point of the loop nothing new comes to be served other than through the first attempt:
the listener that is handed over has the settings that worked last, and the second attempt does not
succeed at settings the first has failed at, unless they are those. -/
def FamiliarAt (h : System.Recorded State Input) : Pc → Prop
  | .take _ => ∀ p ∈ h.1.pending, lastWorked h.2 = some p.asked
  | .plain cfg =>
      cfg.tls = false → Preparable h.1 cfg → lastWorked h.2 = some cfg
  | _ => True

/-- The condition on a step. -/
def Familiar (h : System.Recorded State Input) : Input → Prop
  | .loop => FamiliarAt h h.1.pc
  | _ => True

/-- The fallback of the loop is the last settings that worked, and what it restored is that. -/
structure Faithful (h : System.Recorded State Input) : Prop where
  lastGood : h.1.lastGood = lastWorked h.2
  restored : ∀ p, h.1.pc.listener = some p → p.route = .lastResort →
    lastWorked h.2 = some p.asked

section Fallback

variable {s s' : State} {past : List (State × Input)} {p : Prepared}

theorem asks_all {asked : Option ConsoleConfig} {cfg : ConsoleConfig} :
    asked.all (· = cfg) = true ↔ ∀ c ∈ asked, c = cfg := by
  simp only [Option.all_eq_true, decide_eq_true_eq, Option.mem_def]

/-- The loop comes to a listener with what was asked for. -/
theorem lastWorked_arrived (moved : loopStep s = some s') (arrived : s'.pc = .opening p)
    (asked : ∀ cfg ∈ s.pc.asks, cfg = p.asked) :
    lastWorked ((s, .loop) :: past) = some p.asked := by
  have works : worked s .loop = some p.asked := by
    unfold worked
    rw [moved, Option.map_some, arrived]
    exact if_pos (asks_all.mpr asked)
  rw [lastWorked, works]
  rfl

/-- It comes to one with something else, or to none. -/
theorem lastWorked_unchanged (moved : loopStep s = some s')
    (other : ∀ p, s'.pc = .opening p → ∃ cfg ∈ s.pc.asks, cfg ≠ p.asked) :
    lastWorked ((s, .loop) :: past) = lastWorked past := by
  have nothing : worked s .loop = none := by
    unfold worked
    rw [moved, Option.map_some]
    dsimp only
    split
    · next p arrived =>
        obtain ⟨cfg, asks, differs⟩ := other p (Option.some.inj arrived)
        exact if_neg fun all => differs (asks_all.mp all cfg asks)
    · rfl
  rw [lastWorked, nothing]
  rfl

theorem Faithful.loop (faithful : Faithful ⟨s, past⟩) (familiar : FamiliarAt ⟨s, past⟩ s.pc)
    (moved : loopStep s = some s') : Faithful ⟨s', (s, .loop) :: past⟩ := by
  -- with no listener, or with the one there is, nothing changes
  have goesOn : (∀ p, s'.pc ≠ .opening p) → s'.lastGood = s.lastGood →
      (∀ p, s'.pc.listener = some p → s.pc.listener = some p) →
      Faithful ⟨s', (s, .loop) :: past⟩ := by
    intro quiet lastGood listener
    have unchanged : lastWorked ((s, .loop) :: past) = lastWorked past :=
      lastWorked_unchanged moved fun p arrived => absurd arrived (quiet p)
    refine ⟨?_, fun p here last => ?_⟩
    · exact lastGood.trans (faithful.lastGood.trans unchanged.symm)
    · exact unchanged.trans (faithful.restored p (listener p here) last)
  cases loop_turn moved with
  | idle pc none' =>
      refine goesOn (fun p => ?_) rfl fun p here => ?_
      · rintro rfl
        cases none'
      · cases none'.symm.trans here
  | handed cfg p here pending =>
      rw [here] at familiar
      have worked : lastWorked ((s, .loop) :: past) = some p.asked :=
        lastWorked_arrived moved rfl (by rw [here]; exact nofun)
      refine ⟨?_, fun q listener _ => ?_⟩
      · exact faithful.lastGood.trans ((familiar p pending).trans worked.symm)
      · cases listener
        exact worked
  | prepared cfg p here ok =>
      have asked := (prepareConsole_ok ok).1
      have worked : lastWorked ((s, .loop) :: past) = some p.asked := by
        refine lastWorked_arrived moved rfl ?_
        rw [here]
        rintro _ ⟨⟩
        exact asked.symm
      refine ⟨?_, fun q listener _ => ?_⟩
      · rw [worked, asked]
      · cases listener
        exact worked
  | plain cfg p here ok =>
      rw [here] at familiar
      obtain ⟨asked, route, -⟩ := prepareConsole_ok ok
      refine ⟨?_, fun q listener last => ?_⟩
      · by_cases off : cfg.tls = false
        · -- the settings that the first attempt has failed at
          have same : { cfg with tls := false } = cfg := by
            cases cfg
            cases off
            rfl
          rw [same] at ok asked
          have free : Preparable s cfg := prepareConsole_preparable.mp ⟨p, ok⟩
          have worked : lastWorked ((s, .loop) :: past) = some p.asked := by
            refine lastWorked_arrived moved rfl ?_
            rw [here]
            rintro _ ⟨⟩
            exact asked.symm
          rw [worked, asked]
          exact faithful.lastGood.trans (familiar off free)
        · have unchanged : lastWorked ((s, .loop) :: past) = lastWorked past := by
            refine lastWorked_unchanged moved ?_
            rintro _ ⟨⟩
            refine ⟨cfg, by rw [here]; rfl, fun same => off ?_⟩
            rw [same, asked]
          exact faithful.lastGood.trans unchanged.symm
      · cases listener
        cases route.symm.trans last
  | lastResort cfg good p here isGood ok =>
      have asked := (prepareConsole_ok ok).1
      have known : lastWorked past = some good := faithful.lastGood.symm.trans isGood
      have worked : lastWorked ((s, .loop) :: past) = some good := by
        by_cases same : cfg = p.asked
        · rw [← asked]
          refine lastWorked_arrived moved rfl ?_
          rw [here]
          rintro _ ⟨⟩
          exact same
        · rw [← known]
          refine lastWorked_unchanged moved ?_
          rintro _ ⟨⟩
          exact ⟨cfg, by rw [here]; rfl, same⟩
      refine ⟨isGood.trans worked.symm, fun q listener _ => ?_⟩
      cases listener
      rw [worked, asked]
  | opening p here =>
      refine goesOn nofun rfl fun q listener => ?_
      rw [here]
      exact listener
  | listening p here =>
      refine goesOn nofun rfl fun q listener => ?_
      rw [here]
      exact listener
  | announcing p here =>
      refine goesOn nofun rfl fun q listener => ?_
      rw [here]
      exact listener

theorem Faithful.step {input : Input} (faithful : Faithful ⟨s, past⟩)
    (familiar : Familiar ⟨s, past⟩ input) (moved : step s input = some s') :
    Faithful ⟨s', (s, input) :: past⟩ := by
  have elsewhere : input ≠ .loop → lastWorked ((s, input) :: past) = lastWorked past := by
    intro other
    cases input with
    | loop => exact absurd rfl other
    | _ => rfl
  rcases step_loop moved with ⟨rfl, moved⟩ | ⟨other, pc, none', rfl⟩ | ⟨other, pc, -, -, lastGood⟩
  · exact faithful.loop familiar moved
  · refine ⟨?_, fun p here => ?_⟩
    · exact faithful.lastGood.trans (elsewhere other).symm
    · cases none'.symm.trans here
  · refine ⟨?_, fun p here last => ?_⟩
    · exact lastGood.trans (faithful.lastGood.trans (elsewhere other).symm)
    · change s'.pc.listener = some p at here
      rw [pc] at here
      exact (elsewhere other).trans (faithful.restored p here last)

end Fallback

/-- While the loop serves, its fallback is the settings that worked last, the reported port and
scheme are those of the listener, and what the last resort restored are the settings that worked
last. -/
theorem last_good_recorded (h : System.Recorded State Input)
    (run : serve.recorded.Reaches Familiar h) (p : Prepared) (serving : h.1.pc = .serving p) :
    h.1.lastGood = lastWorked h.2 ∧ h.1.servingPort = some p.port ∧
      h.1.servingTls = p.tls ∧
      (p.route = .lastResort → lastWorked h.2 = some p.asked) := by
  have told : Told h.1 := by
    refine (reachable_sound ?_).told
    exact run.unrecorded fun _ => trivial
  have faithful : Faithful h := by
    refine run.invariant (P := Faithful) ?_ ?_
    · rintro ⟨s, past⟩ ⟨starts, none⟩
      cases none
      refine ⟨starts.lastGood, fun p here => ?_⟩
      rw [show s.pc = .top from starts.pc] at here
      cases here
    · rintro ⟨s, past⟩ input ⟨s', past'⟩ _ faithful familiar ⟨moved, rfl⟩
      exact faithful.step familiar moved
  exact ⟨faithful.lastGood, told.port p (.inr serving), told.scheme p serving,
    faithful.restored p (by rw [serving]; rfl)⟩

instance (s : State) (cfg : ConsoleConfig) : Decidable (Preparable s cfg) :=
  inferInstanceAs (Decidable (_ ∧ _))

instance (h : System.Recorded State Input) : (pc : Pc) → Decidable (FamiliarAt h pc)
  | .take _ =>
      inferInstanceAs (Decidable (∀ p ∈ h.1.pending, lastWorked h.2 = some p.asked))
  | .plain cfg =>
      inferInstanceAs (Decidable (cfg.tls = false → Preparable h.1 cfg →
        lastWorked h.2 = some cfg))
  | .top | .prepare _ | .lastResort _ | .sleeping | .opening _ | .listening _ | .announcing _
  | .serving _ | .returned => inferInstanceAs (Decidable True)

instance (h : System.Recorded State Input) : (input : Input) → Decidable (Familiar h input)
  | .loop => inferInstanceAs (Decidable (FamiliarAt h h.1.pc))
  | .environment _ | .edit _ | .call _ | .apply _ | .publish _ | .stop | .read _ | .fail =>
      inferInstanceAs (Decidable True)

/-- The loop starts over, with settings it cannot serve: from the end of a server to the next one.
-/
def fallsBackRun (attempts : Nat) : List Input :=
  [.fail, .loop, .read 0] ++ List.replicate (attempts + 4) .loop

/-- TLS is asked for on port 9445 with a pair that does not load, and the loop serves that port
without it. The settings that worked before are applied again and handed over. Then the configured
port is taken when the server fails: the settings that worked last come back. -/
theorem last_good_recorded_restored :
    ∃ h, serve.recorded.Reaches Familiar h ∧ h.1.config.port = 9444 ∧
      (∃ entry ∈ h.2, entry.1.servingPort = some 9445 ∧ entry.1.pending.isSome = true) ∧
      h.1.lastGood = some sampleSettings ∧ lastWorked h.2 = some sampleSettings ∧
      h.1.servingPort = some 9443 ∧ h.1.servingTls = false := by
  have passed : (System.execute
      (System.guarded (fun h input => decide (Familiar h input)) (System.recordedStep stepFn))
      (servesRun ++ [.environment { sampleEnv with readable := [] },
          .edit { secureSettings with port := 9445 }] ++ fallsBackRun 2 ++
        [.edit sampleSettings] ++ appliesRun ++ [.loop, .read 0] ++ List.replicate 4 .loop ++
        [.edit { sampleSettings with port := 9444 }] ++ fallsBackRun 3)
      ⟨startedWith sampleSettings, []⟩).any (fun h =>
        decide (h.1.pc = .serving ⟨9443, false, sampleSettings, .lastResort⟩ ∧
          h.1.config.port = 9444) &&
        h.2.any fun entry =>
          decide (entry.1.servingPort = some 9445 ∧ entry.1.pending.isSome = true)) = true := by
    decide +kernel
  obtain ⟨h, done, shown⟩ := System.exists_of_any passed
  simp only [Bool.and_eq_true, decide_eq_true_eq, List.any_eq_true] at shown
  obtain ⟨⟨serving, port⟩, handedOver⟩ := shown
  have run : serve.recorded.Reaches Familiar h :=
    System.recording_reaches id of_decide_eq_true (startedWith_starts _) done
  obtain ⟨lastGood, servingPort, scheme, restored⟩ := last_good_recorded h run _ serving
  exact ⟨h, run, port, handedOver, lastGood.trans (restored rfl), restored rfl, servingPort, scheme⟩

/-- The listener for port 9445 is handed over and served; then the configured port is taken and the
server fails. What comes back is port 9443, which worked before that. -/
theorem stale_last_good :
    ∃ h p, serve.recorded.Reachable h ∧ h.1.pc = .serving p ∧ p.route = .lastResort ∧
      p.port = 9443 ∧ lastWorked h.2 = some { sampleSettings with port := 9445 } ∧
      h.1.lastGood ≠ lastWorked h.2 := by
  obtain ⟨h, done, shown⟩ := System.exists_of_any (by decide +kernel :
    (System.execute (System.recordedStep stepFn) (servesRun ++
      [.edit { sampleSettings with port := 9445 }] ++ appliesRun ++ [.loop, .read 0] ++
      List.replicate 4 .loop ++ [.edit { sampleSettings with port := 9444 }] ++ fallsBackRun 3)
      ⟨startedWith sampleSettings, []⟩).any (fun h =>
        h.1.pc = .serving ⟨9443, false, sampleSettings, .lastResort⟩ ∧
        lastWorked h.2 = some { sampleSettings with port := 9445 } ∧
        h.1.lastGood ≠ lastWorked h.2) = true)
  obtain ⟨serving, worked, stale⟩ := of_decide_eq_true shown
  have run : serve.recorded.Reachable h := System.reaches_of_execute
    (fun _ moved => ⟨trivial, System.recording_step_of_some id moved⟩)
    (.start ⟨startedWith_starts _, rfl⟩) done
  exact ⟨h, _, run, serving, rfl, rfl, worked, stale⟩

end Remgr.Console.Serve
