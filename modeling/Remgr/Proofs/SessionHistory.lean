/-
Module: Remgr.Proofs.SessionHistory
Purpose: The session table of the console is what its history says. Whatever logins, logouts, password
  changes and other requests run at once, and whatever the clock does, a token is let in if and only if
  a login was given it, it is not expired, and nothing since has ended it.
Trusted boundary: as in `Remgr.Console.Step`
Main exports: SessionEvent, sessionLedger, noteSessions, table_of_history, let_in_iff
-/
import Remgr.Lib.Ledger
import Remgr.Lib.Record
import Remgr.Proofs.ConsoleShape

namespace Remgr.Console

open Remgr.Lib

/-! ## The history -/

/-- What happens to sessions: a login is given one; `new_session` drops what is expired; a token comes
with a request, and is dropped when it is expired; a logout ends it; a password change ends all but
one. -/
inductive SessionEvent where
  | issued (session : Session)
  | swept (time : Nat)
  | presented (token : String) (time : Nat)
  | loggedOut (token : String)
  | changed (keep : Option String)

namespace SessionEvent

def adds : SessionEvent → Option Session
  | issued session => some session
  | _ => none

/-- The event leaves the session alone. -/
def spares : SessionEvent → Session → Bool
  | issued new, session => session.token ≠ new.token
  | swept time, session => time < session.expiry
  | presented token time, session => session.token ≠ token || time < session.expiry
  | loggedOut token, session => session.token ≠ token
  | changed keep, session => some session.token = keep

end SessionEvent

def sessionLedger : Ledger SessionEvent Session := ⟨SessionEvent.adds, SessionEvent.spares⟩

/-- What a step of a task does, by where the task stands. -/
def Pc.sessionEvents : Pc → Input → List SessionEvent
  | insert req seen ttl, .token token now later =>
      [.swept later, .issued ⟨token, min (now + ttl.toNat) (2 ^ 64 - 1), req.password, seen⟩]
  | endSessions _ keep, .go => [.changed keep]
  | _, _ => []

/-- A logout ends the session, if it has the header against forged requests. -/
def Request.endings (csrf : Bool) (token : String) : Request → List SessionEvent
  | .logout => if csrf then [.loggedOut token] else []
  | _ => []

/-- What a request does at its beginning. Those that are not public come with their token. -/
def Request.sessionEvents (headers : Headers) (request : Request) : List SessionEvent :=
  match request.isPublic, headers.token with
  | false, some token => .presented token headers.now :: request.endings headers.csrf token
  | _, _ => []

/-- The history, as the requests and the answers of the clock make it. It does not look at the table. -/
def noteSessions (s : State) (a : Action) (log : List SessionEvent) : List SessionEvent :=
  log ++
    match a with
    | .request _ headers request => request.sessionEvents headers
    | .step t input => (s.pcs t).sessionEvents input

/-! ## What a step does to the table -/

section Steps

variable {w : World} {s s' : State} {t : TaskId} {input : Input}

theorem saveFails_table (saver : Saver) (error : String) :
    (s.saveFails t saver error).sessions = s.sessions := by
  unfold State.saveFails
  split <;> rfl

theorem saveDone_table (saver : Saver) (files : Files FileName) :
    (s.saveDone t saver files).sessions = s.sessions := by
  unfold State.saveDone
  split
  · split <;> rfl
  · rfl
  · rfl

theorem saveStep_table {saver : Saver} {pc : SavePc}
    (move : saveStep w s t saver pc input = some s') : s'.sessions = s.sessions := by
  unfold saveStep at move
  split at move
  · split at move <;> cases move
    · rfl
    · exact saveFails_table ..
  · cases move
    rfl
  · obtain ⟨_, same⟩ := Option.ite_none_right_eq_some.mp move
    cases same
    rfl
  · obtain ⟨_, same⟩ := Option.ite_none_right_eq_some.mp move
    cases same
    rfl
  · cases move
    rfl
  · split at move <;> cases move
    · exact saveDone_table ..
    · exact saveFails_table ..
  · cases move
    exact saveFails_table ..
  · cases move

theorem editStep_table {editor : Editor} {edit : Edit}
    (move : editStep w s t editor edit input = some s') : s'.sessions = s.sessions := by
  unfold editStep at move
  split at move
  · split at move
    · cases move
    · split at move <;> cases move
      · rfl
      · exact saveFails_table ..
  · cases move

theorem enableStep_table {service : String} {enabled : Bool}
    (move : enableStep s t service enabled input = some s') : s'.sessions = s.sessions := by
  unfold enableStep at move
  split at move
  · split at move
    · cases move
    · split at move <;> cases move <;> rfl
  · cases move

theorem readStep_table {tries : Nat} {caller : Caller}
    (move : readStep s t tries caller input = some s') : s'.sessions = s.sessions := by
  unfold readStep at move
  split at move
  · obtain ⟨_, same⟩ := Option.ite_none_right_eq_some.mp move
    cases same
    rfl
  · obtain ⟨_, same⟩ := Option.ite_none_right_eq_some.mp move
    cases same
    rfl
  · cases move

theorem permitStep_table {check : Check} {seen : Seen}
    (move : permitStep s t check seen input = some s') : s'.sessions = s.sessions := by
  unfold permitStep at move
  split at move
  · obtain ⟨_, same⟩ := Option.ite_none_right_eq_some.mp move
    cases same
    rfl
  · split at move <;> cases move <;> rfl
  · cases move

theorem verifyStep_table {check : Check} {seen : Seen}
    (move : verifyStep w s t seen check = some s') : s'.sessions = s.sessions := by
  cases check with
  | login req | change req keep =>
      simp only [verifyStep] at move
      split at move <;> cases move <;> rfl

theorem throttleStep_table (now : Nat) : (throttleStep s t now).sessions = s.sessions := by
  simp only [throttleStep]
  split <;> rfl

theorem hashStep_table (req : PasswordChange) (keep : Option String)
    (result : Except String String) : (hashStep s t req keep result).sessions = s.sessions := by
  unfold hashStep
  split
  · rfl
  · split <;> rfl

/-- A task changes the table as the history tells. -/
theorem taskStep_table (move : taskStep w s t input (s.pcs t) = some s') :
    s'.sessions = ((s.pcs t).sessionEvents input).foldl sessionLedger.after s.sessions := by
  cases stands : s.pcs t with
  | idle =>
      rw [stands] at move
      cases move
  | edit editor edit =>
      rw [stands] at move
      exact editStep_table move
  | enable service enabled =>
      rw [stands] at move
      exact enableStep_table move
  | enableSave found left =>
      rw [stands] at move
      cases input <;> try cases move
      obtain ⟨lock, _, same⟩ := Option.map_eq_some_iff.mp move
      cases same
      rfl
  | pin token =>
      rw [stands] at move
      cases input <;> try cases move
      obtain ⟨lock, _, same⟩ := Option.map_eq_some_iff.mp move
      cases same
      rfl
  | saving saver pc =>
      rw [stands] at move
      exact saveStep_table move
  | endSessions version keep =>
      rw [stands] at move
      cases input <;> cases move
      change s.sessions.filter _ = s.sessions.filter _ ++ []
      rw [List.append_nil]
      rfl
  | reading tries caller =>
      rw [stands] at move
      exact readStep_table move
  | storing seen caller | fallback caller =>
      rw [stands] at move
      cases input <;> cases move
      rfl
  | permit check seen =>
      rw [stands] at move
      exact permitStep_table move
  | verify check seen =>
      rw [stands] at move
      cases input <;> try cases move
      exact verifyStep_table move
  | failed =>
      rw [stands] at move
      cases input <;> cases move
      rfl
  | throttle =>
      rw [stands] at move
      cases input <;> cases move
      exact throttleStep_table _
  | clear req seen =>
      rw [stands] at move
      cases input <;> cases move
      rfl
  | insert req seen ttl =>
      rw [stands] at move
      cases input <;> cases move
      next token now later =>
        change List.filter _ (s.sessions.filter _) ++ [_] =
          List.filter _ (s.sessions.filter _ ++ []) ++ [_]
        rw [List.append_nil]
        rfl
  | hash req keep =>
      rw [stands] at move
      cases input with
      | hashed result =>
          cases move
          exact hashStep_table ..
      | _ => cases move

end Steps

/-! ## What a request does to the table -/

section Requests

variable {w : World} {s : State} {t : TaskId} {headers : Headers} {request : Request}

/-- Sessions of one token are one session. -/
theorem session_unique {table : List Session} (unique : (table.map Session.token).Nodup)
    {session other : Session} (inside : session ∈ table) (alsoInside : other ∈ table)
    (same : other.token = session.token) : other = session :=
  List.inj_on_of_nodup_map unique alsoInside inside same

theorem begin_table (w : World) (s : State) (t : TaskId) (headers : Headers) (request : Request) :
    (begin w s t headers request).sessions =
      match request with
      | .logout => s.sessions.filter fun session => some session.token ≠ headers.token
      | _ => s.sessions := by
  cases request with
  | put service value =>
      simp only [begin]
      split <;> rfl
  | cert service certPath keyPath =>
      simp only [begin]
      split <;> rfl
  | enable service enabled =>
      simp only [begin]
      split <;> rfl
  | pin | login | logout | change | look => rfl

/-- A token that is not in the table, or whose session goes on, drops nothing. -/
theorem after_presented {table : List Session} {token : String} {now : Nat}
    (goesOn : ∀ session ∈ table, session.token = token → now < session.expiry) :
    sessionLedger.after table (.presented token now) = table := by
  change table.filter _ ++ [] = table
  rw [List.append_nil, List.filter_eq_self]
  intro session inside
  change (decide (session.token ≠ token) || decide (now < session.expiry)) = true
  by_cases same : session.token = token
  · rw [decide_eq_true (goesOn session inside same), Bool.or_true]
  · rw [decide_eq_true same, Bool.true_or]

/-- One that comes with an expired token drops its session. -/
theorem after_expired {table : List Session} {token : String} {now : Nat}
    (expired : ∀ session ∈ table, session.token = token → ¬ now < session.expiry) :
    sessionLedger.after table (.presented token now) =
      table.filter fun session => session.token ≠ token := by
  change table.filter _ ++ [] = _
  rw [List.append_nil]
  refine List.filter_congr fun session inside => ?_
  change (decide (session.token ≠ token) || decide (now < session.expiry)) = _
  by_cases same : session.token = token
  · rw [decide_eq_false (expired session inside same), Bool.or_false]
  · rw [decide_eq_true same, Bool.true_or]

theorem after_loggedOut (table : List Session) (token : String) :
    sessionLedger.after table (.loggedOut token) =
      table.filter fun session => session.token ≠ token := by
  change table.filter _ ++ [] = _
  rw [List.append_nil]
  rfl

/-- A logout of a token that is not there does nothing. -/
theorem filter_absent {table : List Session} {token : String}
    (absent : ∀ session ∈ table, session.token ≠ token) :
    (table.filter fun session => session.token ≠ token) = table :=
  List.filter_eq_self.mpr fun session inside => decide_eq_true (absent session inside)

theorem foldl_endings (table : List Session) (csrf : Bool) (token : String) :
    (request.endings csrf token).foldl sessionLedger.after table =
      if request.endings csrf token = [] then table
      else table.filter fun session => session.token ≠ token := by
  unfold Request.endings
  split
  · split
    · exact after_loggedOut table token
    · rfl
  · rfl

/-- A request changes the table as the history tells. -/
theorem requestStep_table (unique : (s.sessions.map Session.token).Nodup) :
    (requestStep w s t headers request).sessions =
      (request.sessionEvents headers).foldl sessionLedger.after s.sessions := by
  unfold requestStep Request.sessionEvents
  cases isPublic : request.isPublic with
  | true =>
      rw [if_pos rfl, begin_table]
      cases request with
      | logout => cases isPublic
      | put | cert | enable | pin | login | change | look => rfl
  | false =>
      rw [if_neg Bool.false_ne_true]
      cases carried : headers.token with
      | none =>
          have refused : authorize s headers =
              (some { status := 401, error := "unauthorized" }, s.sessions) := by
            rw [authorize, carried]
            rfl
          rw [refused]
          rfl
      | some token =>
          dsimp only
          rw [List.foldl_cons, foldl_endings]
          cases found : s.sessions.find? (·.token = token) with
          | none =>
              have refused : authorize s headers =
                  (some { status := 401, error := "unauthorized" }, s.sessions) := by
                rw [authorize, carried, Option.bind_some, found]
              have absent : ∀ session ∈ s.sessions, session.token ≠ token := by
                intro session inside same
                exact List.find?_eq_none.mp found session inside (decide_eq_true same)
              rw [refused, after_presented fun session inside same => absurd same (absent session inside),
                filter_absent absent, ite_self]
              rfl
          | some session =>
              have inside := List.mem_of_find?_eq_some found
              have isIt := List.find?_some found
              have same : session.token = token := of_decide_eq_true isIt
              have alone : ∀ other ∈ s.sessions, other.token = token → other = session :=
                fun other alsoInside its =>
                  session_unique unique inside alsoInside (its.trans same.symm)
              by_cases goesOn : headers.now < session.expiry
              · rw [after_presented fun other alsoInside its => alone other alsoInside its ▸ goesOn]
                cases csrf : headers.csrf with
                | true =>
                    have passed : authorize s headers = (none, s.sessions) := by
                      rw [authorize, carried, Option.bind_some, found]
                      dsimp only
                      rw [if_pos goesOn, if_pos csrf]
                    rw [passed]
                    dsimp only
                    rw [begin_table]
                    cases request with
                    | logout =>
                        change List.filter (fun x : Session => decide (some x.token ≠ headers.token)) _ = _
                        have ends : Request.logout.endings true token ≠ [] := List.cons_ne_nil _ _
                        rw [carried, if_neg ends]
                        simp only [ne_eq, Option.some.injEq]
                    | put | cert | enable | pin | login | change | look => rfl
                | false =>
                    have refused : authorize s headers =
                        (some { status := 403, error := "missing csrf header" }, s.sessions) := by
                      rw [authorize, carried, Option.bind_some, found]
                      dsimp only
                      rw [if_pos goesOn, if_neg (by rw [csrf]; exact Bool.false_ne_true)]
                    have none : request.endings false token = [] := by cases request <;> rfl
                    rw [refused, if_pos none]
                    rfl
              · have refused : authorize s headers =
                    (some { status := 401, error := "unauthorized" },
                      s.sessions.filter fun other => other.token ≠ session.token) := by
                  rw [authorize, carried, Option.bind_some, found]
                  dsimp only
                  rw [if_neg goesOn]
                have gone : ∀ other ∈ s.sessions.filter (fun other => other.token ≠ token),
                    other.token ≠ token :=
                  fun other kept => of_decide_eq_true (List.mem_filter.mp kept).2
                rw [refused, after_expired fun other alsoInside its =>
                  alone other alsoInside its ▸ goesOn, filter_absent gone, ite_self, same]
                rfl

end Requests

/-! ## The table and its history -/

section History

variable {w : World} {s : State} {log : List SessionEvent}

theorem sessionLedger_displaces {event : SessionEvent} {session other : Session}
    (adds : sessionLedger.adds event = some session) (same : other.token = session.token) :
    sessionLedger.spares event other = false := by
  cases event with
  | issued new =>
      cases adds
      exact decide_eq_false fun other => other same
  | swept | presented | loggedOut | changed => cases adds

/-- The table is the one that the history makes. -/
theorem table_of_history {allowed : State × List SessionEvent → Action → Prop}
    (run : ((console w).recording [] noteSessions).Reaches allowed (s, log)) :
    s.sessions = sessionLedger.table log := by
  refine run.invariant (P := fun p => p.1.sessions = sessionLedger.table p.2) ?_ ?_
  · rintro ⟨s, log⟩ ⟨starts, rfl⟩
    exact starts.sessions
  · rintro ⟨s, log⟩ a ⟨s', log'⟩ _ same _ ⟨move, rfl⟩
    change s.sessions = sessionLedger.table log at same
    change s'.sessions = sessionLedger.table (noteSessions s a log)
    obtain ⟨r, acted, rfl⟩ := Option.map_eq_some_iff.mp move
    change r.sessions = _
    have unique : (s.sessions.map Session.token).Nodup := by
      rw [same]
      exact Ledger.table_nodup sessionLedger_displaces log
    unfold noteSessions
    rw [Ledger.table_append, ← same]
    cases a with
    | request t headers request =>
        simp only [act] at acted
        split at acted
        · cases acted
          exact requestStep_table unique
        · cases acted
    | step t input => exact taskStep_table acted

/-- Which requests `auth_mw` lets pass, by the table. -/
theorem authorize_none_iff {headers : Headers} (unique : (s.sessions.map Session.token).Nodup) :
    (authorize s headers).1 = none ↔ headers.csrf = true ∧ ∃ session ∈ s.sessions,
      headers.token = some session.token ∧ headers.now < session.expiry := by
  unfold authorize
  cases carried : headers.token with
  | none =>
      refine ⟨nofun, ?_⟩
      rintro ⟨-, session, -, its, -⟩
      cases its
  | some token =>
      rw [Option.bind_some]
      cases found : s.sessions.find? (·.token = token) with
      | none =>
          refine ⟨nofun, ?_⟩
          rintro ⟨-, session, inside, its, -⟩
          exact absurd (decide_eq_true (Option.some.inj its).symm)
            (List.find?_eq_none.mp found session inside)
      | some session =>
          have isIt := List.find?_some found
          have same : session.token = token := of_decide_eq_true isIt
          have inside := List.mem_of_find?_eq_some found
          dsimp only
          by_cases goesOn : headers.now < session.expiry
          · rw [if_pos goesOn]
            cases csrf : headers.csrf with
            | true =>
                rw [if_pos rfl]
                exact ⟨fun _ => ⟨rfl, session, inside, congrArg some same.symm, goesOn⟩, fun _ => rfl⟩
            | false =>
                rw [if_neg Bool.false_ne_true]
                exact ⟨nofun, fun both => Bool.noConfusion both.1⟩
          · rw [if_neg goesOn]
            refine ⟨nofun, ?_⟩
            rintro ⟨-, other, alsoInside, its, live⟩
            have isSame := session_unique unique inside alsoInside
              ((Option.some.inj its).symm.trans same.symm)
            exact absurd (isSame ▸ live) goesOn

end History

/-- When an event looks at the clock. -/
def SessionEvent.time : SessionEvent → Nat
  | swept time | presented _ time => time
  | _ => 0

/-- The event ends the session on purpose: a logout of it, a password change that keeps another one, or
that its token is given to another login. -/
def SessionEvent.revokes (session : Session) : SessionEvent → Bool
  | issued new => session.token = new.token
  | loggedOut token => session.token = token
  | changed keep => some session.token ≠ keep
  | _ => false

/-- When the clock has not passed the end of a session, nothing but a revocation ends it. -/
theorem spares_iff_not_revokes {session : Session} {event : SessionEvent}
    (early : event.time < session.expiry) :
    event.spares session = true ↔ event.revokes session = false := by
  cases event with
  | issued new | loggedOut token | changed keep =>
      simp [SessionEvent.spares, SessionEvent.revokes]
  | swept time => exact ⟨fun _ => rfl, fun _ => decide_eq_true early⟩
  | presented token time =>
      refine ⟨fun _ => rfl, fun _ => ?_⟩
      have live : time < session.expiry := early
      change (_ || decide (time < session.expiry)) = true
      rw [decide_eq_true live, Bool.or_true]

/-- In every run, with whatever clock, a request with a session token is let in if and only if a login
was given that token, what is presented is not expired, and no event since has ended the session. When
the clock has not gone back behind what the history saw of it, the events that count are revocations. -/
theorem let_in_iff {w : World} {s : State} {log : List SessionEvent}
    (run : ((console w).recording [] noteSessions).Reachable (s, log)) (headers : Headers) :
    ((authorize s headers).1 = none ↔ headers.csrf = true ∧ ∃ session front back,
      log = front ++ .issued session :: back ∧ (∀ event ∈ back, event.spares session = true) ∧
        headers.token = some session.token ∧ headers.now < session.expiry) ∧
      ((∀ event ∈ log, event.time ≤ headers.now) →
        ((authorize s headers).1 = none ↔ headers.csrf = true ∧ ∃ session front back,
          log = front ++ .issued session :: back ∧ (∀ event ∈ back, event.revokes session = false) ∧
            headers.token = some session.token ∧ headers.now < session.expiry)) := by
  have same := table_of_history run
  have unique : (s.sessions.map Session.token).Nodup := by
    rw [same]
    exact Ledger.table_nodup sessionLedger_displaces log
  have general : (authorize s headers).1 = none ↔ headers.csrf = true ∧ ∃ session front back,
      log = front ++ .issued session :: back ∧ (∀ event ∈ back, event.spares session = true) ∧
        headers.token = some session.token ∧ headers.now < session.expiry := by
    rw [authorize_none_iff unique]
    refine and_congr_right fun _ => exists_congr fun session => ?_
    rw [same, Ledger.mem_table_iff]
    constructor
    · rintro ⟨⟨front, event, back, whole, adds, spared⟩, its, live⟩
      cases event with
      | issued new =>
          cases adds
          exact ⟨front, back, whole, spared, its, live⟩
      | swept | presented | loggedOut | changed => cases adds
    · rintro ⟨front, back, whole, spared, its, live⟩
      exact ⟨⟨front, .issued session, back, whole, rfl, spared⟩, its, live⟩
  refine ⟨general, fun past => general.trans (and_congr_right fun _ => ?_)⟩
  refine exists_congr fun session => exists_congr fun front => exists_congr fun back => ?_
  refine and_congr_right fun whole => ?_
  have agree : headers.now < session.expiry → ((∀ event ∈ back, event.spares session = true) ↔
      ∀ event ∈ back, event.revokes session = false) := by
    intro live
    refine forall₂_congr fun event inside => spares_iff_not_revokes ?_
    have seen : event ∈ log := by
      rw [whole]
      exact List.mem_append_right _ (List.mem_cons_of_mem _ inside)
    exact Nat.lt_of_le_of_lt (past event seen) live
  exact ⟨fun ⟨kept, its, live⟩ => ⟨(agree live).mp kept, its, live⟩,
    fun ⟨kept, its, live⟩ => ⟨(agree live).mpr kept, its, live⟩⟩

/-- The operator logs in, and is let in. -/
theorem let_in_iff_operator : ∃ s log session front back,
    ((console sampleWorld).recording [] noteSessions).Reachable (s, log) ∧
      log = front ++ .issued session :: back ∧ session.token = "operator" := by
  obtain ⟨⟨s, log⟩, run, passed⟩ := System.reaches_of_any
    (fun _ moved => ⟨trivial, System.recording_step_of_some id moved⟩)
    (.start ⟨sampleState_starts, rfl⟩ :
      ((console sampleWorld).recording [] noteSessions).Reachable (sampleState, []))
    (by decide +kernel : (System.execute (System.recordingStep (step sampleWorld) noteSessions) loginRun
      (sampleState, [])).any
        (fun p => (authorize p.1 { token := some "operator", now := 100 }).1.isNone) = true)
  obtain ⟨-, session, front, back, whole, -, its, -⟩ :=
    (let_in_iff run { token := some "operator", now := 100 }).1.mp (Option.isNone_iff_eq_none.mp passed)
  exact ⟨s, log, session, front, back, run, whole, (Option.some.inj its).symm⟩

end Remgr.Console
