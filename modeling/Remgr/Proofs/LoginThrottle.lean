/-
Module: Remgr.Proofs.LoginThrottle
Purpose: How wrong logins are counted and answered, over any row of attempts. The window that the
  attempts themselves determine says what each answer should be; the answers are right exactly as
  long as no window gets as many wrong attempts as it allows, because the last one that is allowed
  is refused already.
Trusted boundary: Remgr.Console.Login
Main exports: login_served, Window, windowOf, Lawful, failures_eq, attempt_lawful_iff,
  throttle_lawful_iff, tenth_refused
-/
import Remgr.Console.Login

namespace Remgr.Console

open Lib

/-! ## An attempt is a run of the console -/

section Served

variable {w : World} {store : Store} {window : Nat × Nat} {permits : Nat} {t : TaskId} {pc pc' : Pc}
  {s r : State} {input : Input}

/-- A task stands somewhere and all others have nothing to do. -/
structure Serving (store : Store) (window : Nat × Nat) (permits : Nat) (t : TaskId) (pc : Pc)
    (s : State) : Prop where
  store : s.store = store
  window : s.loginFailures = window
  permits : s.permits = permits
  here : s.pcs t = pc
  others : ∀ u, u ≠ t → s.pcs u = .idle

theorem Serving.note (serving : Serving store window permits t pc s) {m : State} {pc' : Pc}
    (place : m.pcs = Function.update s.pcs t pc') (begins : Bool) :
    Serving m.store m.loginFailures m.permits t pc' (State.note t begins s m) := by
  refine ⟨rfl, rfl, rfl, ?_, ?_⟩
  · exact (congrFun place t).trans (Function.update_self ..)
  · intro u other
    have kept : m.pcs u = s.pcs u := (congrFun place u).trans (Function.update_of_ne other ..)
    exact kept.trans (serving.others u other)

theorem Serving.goes (serving : Serving store window permits t pc s)
    (moved : taskStep w s t input pc = some (r.goto t pc')) (same : r.pcs = s.pcs) :
    ∃ s', step w (.step t input) s = some s' ∧
      Serving r.store r.loginFailures r.permits t pc' s' := by
  refine ⟨State.note t false s (r.goto t pc'), ?_, ?_⟩
  · simp only [step, act, serving.here, moved, Option.map_some]
    rfl
  · refine serving.note (m := r.goto t pc') ?_ false
    rw [State.goto, same]

theorem Serving.answers {reply : Reply} (serving : Serving store window permits t pc s)
    (moved : taskStep w s t input pc = some (r.answer t reply)) (same : r.pcs = s.pcs) :
    ∃ s', step w (.step t input) s = some s' ∧ s'.replies t = some reply ∧
      Serving r.store r.loginFailures r.permits t .idle s' := by
  refine ⟨State.note t false s (r.answer t reply), ?_, Function.update_self .., ?_⟩
  · simp only [step, act, serving.here, moved, Option.map_some]
    rfl
  · refine serving.note (m := r.answer t reply) ?_ false
    rw [State.answer, State.goto, same]

theorem execute_cons {a : Action} {rest : List Action} {s m s' : State} (first : step w a s = some m)
    (later : System.execute (step w) rest m = some s') :
    System.execute (step w) (a :: rest) s = some s' := by
  rw [System.execute, first]
  exact later

/-- A step of `config_blocking` that gets the lock, and the one after it. -/
theorem Serving.reads {tries : Nat} {caller : Caller}
    (serving : Serving store window permits t (.reading tries caller) s)
    (free : store.lock.writer = none) :
    ∃ s₁ s₂, step w (.step t .go) s = some s₁ ∧ step w (.step t .go) s₁ = some s₂ ∧
      Serving store window permits t (caller.resume ⟨store.mem, store.version⟩) s₂ := by
  rcases serving with ⟨rfl, rfl, rfl, here, others⟩
  have serving : Serving s.store s.loginFailures s.permits t (.reading tries caller) s :=
    ⟨rfl, rfl, rfl, here, others⟩
  have read : taskStep w s t .go (.reading tries caller) =
      some (s.goto t (.storing ⟨s.store.mem, s.store.version⟩ caller)) := if_pos free
  obtain ⟨s₁, first, storing⟩ := serving.goes read rfl
  have stored : taskStep w s₁ t .go (.storing ⟨s.store.mem, s.store.version⟩ caller) =
      some ({ s₁ with snapshot := ⟨s.store.mem, s.store.version⟩ }.goto t
        (caller.resume ⟨s.store.mem, s.store.version⟩)) := rfl
  obtain ⟨s₂, second, resumed⟩ := storing.goes stored rfl
  refine ⟨s₁, s₂, first, second, ?_⟩
  exact ⟨resumed.store.trans storing.store, resumed.window.trans storing.window,
    resumed.permits.trans storing.permits, resumed.here, resumed.others⟩

/-- The steps of a login up to the check of the password. -/
theorem verified (quiet : Quiet s) (login : Login) :
    ∃ s', Serving s.store s.loginFailures (s.permits - 1) login.task
        (if (login.attempt w s).correct then .clear login.req ⟨s.store.mem, s.store.version⟩
          else .failed) s' ∧
      ∀ {rest s''}, System.execute (step w) rest s' = some s'' →
        System.execute (step w)
          ([.request login.task {} (.login login.req), .step login.task .go, .step login.task .go,
            .step login.task .go, .step login.task .go] ++ rest) s = some s'' := by
  have idle : Serving s.store s.loginFailures s.permits login.task .idle s :=
    ⟨rfl, rfl, rfl, quiet.idle _, fun u _ => quiet.idle u⟩
  let seen : Seen := ⟨s.store.mem, s.store.version⟩
  let s₁ := State.note login.task true s (s.goto login.task (.reading 0 (.login login.req)))
  have asked : step w (.request login.task {} (.login login.req)) s = some s₁ := by
    simp only [step, act, idle.here]
    rfl
  have reading : Serving s.store s.loginFailures s.permits login.task
      (.reading 0 (.login login.req)) s₁ :=
    idle.note (m := s.goto login.task (.reading 0 (.login login.req))) rfl true
  obtain ⟨s₂, s₃, read, stored, permit⟩ := reading.reads (w := w) quiet.unlocked
  have room : 0 < s₃.permits := permit.permits ▸ quiet.permits
  have permits : taskStep w s₃ login.task .go (.permit (.login login.req) seen) =
      some ({ s₃ with permits := s₃.permits - 1 }.goto login.task
        (.verify (.login login.req) seen)) := if_pos room
  obtain ⟨s₄, permitted, verify⟩ := permit.goes permits rfl
  have verifies : taskStep w s₄ login.task .go (.verify (.login login.req) seen) =
      some (s₄.goto login.task (if (login.attempt w s).correct then .clear login.req seen
        else .failed)) := by
    change (if accepts w login.req seen.config.console then _ else _) = _
    rw [Login.attempt]
    by_cases right : accepts w login.req s.store.mem.console = true
    · rw [if_pos right, if_pos right]
    · rw [if_neg right, if_neg right]
  obtain ⟨s₅, checked, after⟩ := verify.goes verifies rfl
  refine ⟨s₅, ?_, ?_⟩
  · refine ⟨?_, ?_, ?_, after.here, after.others⟩
    · exact after.store.trans (verify.store.trans permit.store)
    · exact after.window.trans (verify.window.trans permit.window)
    · rw [after.permits, verify.permits]
      exact congrArg (· - 1) permit.permits
  · intro rest s'' later
    exact execute_cons asked (execute_cons read (execute_cons stored
      (execute_cons permitted (execute_cons checked later))))

theorem throttleStep_answers (s : State) (t : TaskId) (now : Nat) :
    throttleStep s t now =
      { s with
        loginFailures := (loginThrottled now s.loginFailures).1
        permits := s.permits + 1 }.answer t (refusal (loginThrottled now s.loginFailures).2) := by
  unfold throttleStep
  dsimp only
  cases (loginThrottled now s.loginFailures).2 <;> rfl

theorem insertStep_answers (s : State) (t : TaskId) (req : LoginReq) (seen : Seen) (ttl : UInt64)
    (token : String) (now later : Nat) :
    ∃ sessions, insertStep s t req seen ttl token now later =
      { s with sessions, permits := s.permits + 1 }.answer t { status := 200 } := ⟨_, rfl⟩

/-- A login that nobody interrupts is served, answered as `attempt` says, and leaves the console
quiet with the window that `attempt` leaves. -/
theorem login_served (quiet : Quiet s) (login : Login) :
    ∃ s', System.execute (step w) (login.actions (login.attempt w s).correct) s = some s' ∧
      s'.loginFailures = (attempt s.loginFailures (login.attempt w s)).1 ∧
      s'.replies login.task = some (attempt s.loginFailures (login.attempt w s)).2 ∧
      s'.store = s.store ∧ Quiet s' := by
  have ends : ∀ {window : Nat × Nat} {s' : State},
      Serving s.store window s.permits login.task .idle s' → Quiet s' := by
    intro window s' serving
    refine ⟨?_, serving.store ▸ quiet.unlocked, serving.permits ▸ quiet.permits⟩
    intro t
    by_cases here : t = login.task
    · exact here ▸ serving.here
    · exact serving.others t here
  obtain ⟨m, checked, onward⟩ := verified (w := w) quiet login
  have returned : s.permits - 1 + 1 = s.permits := Nat.sub_add_cancel quiet.permits
  cases correct : (login.attempt w s).correct with
  | false =>
      rw [correct] at checked
      have notes : taskStep w m login.task (.now login.time) .failed =
          some ({ m with loginFailures := noteLoginFailure login.time m.loginFailures }.goto
            login.task .throttle) := rfl
      obtain ⟨s₁, noted, throttle⟩ := checked.goes notes rfl
      have window : s₁.loginFailures = noteLoginFailure login.time s.loginFailures :=
        throttle.window.trans (congrArg (noteLoginFailure login.time) checked.window)
      have refuses : taskStep w s₁ login.task (.now login.time) .throttle =
          some ({ s₁ with
              loginFailures := (loginThrottled login.time s₁.loginFailures).1
              permits := s₁.permits + 1 }.answer login.task
            (refusal (loginThrottled login.time s₁.loginFailures).2)) :=
        congrArg some (throttleStep_answers s₁ login.task login.time)
      obtain ⟨s', refused, answer, done⟩ := throttle.answers refuses rfl
      rw [attempt_wrong correct]
      refine ⟨s', ?_, ?_, ?_, ?_, ?_⟩
      · exact onward (execute_cons noted (execute_cons refused rfl))
      · rw [done.window, window]
        rfl
      · rw [answer, window]
        rfl
      · exact done.store.trans (throttle.store.trans checked.store)
      · refine ends ⟨?_, done.window, ?_, done.here, done.others⟩
        · exact done.store.trans (throttle.store.trans checked.store)
        · rw [done.permits]
          exact (congrArg (· + 1) (throttle.permits.trans checked.permits)).trans returned
  | true =>
      rw [correct] at checked
      let seen : Seen := ⟨s.store.mem, s.store.version⟩
      have clears : taskStep w m login.task (.now login.time) (.clear login.req seen) =
          some ({ m with loginFailures := (0, login.time) }.goto login.task
            (.reading 0 (.session login.req seen))) := rfl
      obtain ⟨s₁, cleared, reading⟩ := checked.goes clears rfl
      obtain ⟨s₂, s₃, read, stored, insert⟩ := reading.reads (w := w)
        ((congrArg (·.lock.writer) checked.store).trans quiet.unlocked)
      let now : Seen := ⟨m.store.mem, m.store.version⟩
      obtain ⟨sessions, inserted⟩ := insertStep_answers s₃ login.task login.req seen
        now.config.console.sessionTtl login.token login.time login.time
      have inserts : taskStep w s₃ login.task (.token login.token login.time login.time)
          (.insert login.req seen now.config.console.sessionTtl) =
          some ({ s₃ with sessions, permits := s₃.permits + 1 }.answer login.task
            { status := 200 }) := congrArg some inserted
      obtain ⟨s', last, answer, done⟩ := insert.answers inserts rfl
      refine ⟨s', ?_, ?_, ?_, ?_, ?_⟩
      · exact onward (execute_cons cleared (execute_cons read (execute_cons stored
          (execute_cons last rfl))))
      · rw [done.window, attempt, if_pos correct]
        exact insert.window
      · rw [attempt, if_pos correct]
        exact answer
      · exact done.store.trans (insert.store.trans checked.store)
      · refine ends ⟨?_, done.window, ?_, done.here, done.others⟩
        · exact done.store.trans (insert.store.trans checked.store)
        · rw [done.permits]
          exact (congrArg (· + 1) (insert.permits.trans checked.permits)).trans returned

end Served

/-! ## The windows of the attempts -/

/-- A failure window, as the attempts determine it: since when it counts, and how many wrong
attempts it has. -/
structure Window where
  start : Nat := 0
  wrong : Nat := 0
deriving DecidableEq, Repr

/-- A right attempt opens a window, and so does a wrong one when the last window is over. -/
def Window.after (v : Window) (a : Attempt) : Window :=
  if a.correct then { start := a.time }
  else if v.start + loginFailureWindow ≤ a.time then { start := a.time, wrong := 1 }
  else { v with wrong := v.wrong + 1 }

/-- The window after a row of attempts. -/
def windowOf (attempts : List Attempt) : Window := attempts.foldl Window.after {}

theorem windowOf_concat (attempts : List Attempt) (a : Attempt) :
    windowOf (attempts ++ [a]) = (windowOf attempts).after a := by
  rw [windowOf, List.foldl_append]
  rfl

/-- What is promised of an attempt, in the window `v` before it. -/
structure Lawful (v : Window) (a : Attempt) (result : (Nat × Nat) × Reply) : Prop where
  accepted : a.correct = true → result.2.status = 200 ∧ result.1 = (0, a.time)
  refused : a.correct = false → (v.after a).wrong ≤ loginMaxFailures → result.2.status = 401
  throttled : a.correct = false → loginMaxFailures < (v.after a).wrong →
    result.2.status = 429 ∧
      ∃ seconds, result.2.retryAfter = some seconds ∧ 1 ≤ seconds ∧ seconds ≤ loginFailureWindow
  renewed : a.correct = false → v.start + loginFailureWindow ≤ a.time → result.1 = (1, a.time)

/-- What the code keeps of a window: a 32-bit count that stays at its largest value. -/
def Window.kept (v : Window) : Nat × Nat := (min v.wrong (2 ^ 32 - 1), v.start)

theorem over_iff {start now : Nat} :
    loginFailureWindow ≤ now - start ↔ start + loginFailureWindow ≤ now := by
  have long : 0 < loginFailureWindow := by decide
  omega

/-- A wrong attempt is counted where the attempts say. -/
theorem noteLoginFailure_kept {v : Window} {a : Attempt} (wrong : a.correct = false) :
    noteLoginFailure a.time v.kept = (v.after a).kept := by
  unfold noteLoginFailure Window.after
  rw [wrong]
  simp only [Window.kept, over_iff, Bool.false_eq_true, if_false]
  split
  · rfl
  · have cap : min (min v.wrong (2 ^ 32 - 1) + 1) (2 ^ 32 - 1) = min (v.wrong + 1) (2 ^ 32 - 1) := by
      omega
    rw [cap]

/-- The window that was just counted in is not over, so it is only looked at. -/
theorem loginThrottled_kept {v : Window} {now : Nat} (fresh : now < v.start + loginFailureWindow) :
    loginThrottled now v.kept = (v.kept,
      if v.wrong < loginMaxFailures then none
      else some (max (loginFailureWindow - (now - v.start)) 1)) := by
  have few : min v.wrong (2 ^ 32 - 1) < loginMaxFailures ↔ v.wrong < loginMaxFailures := by
    have small : loginMaxFailures = 10 := rfl
    omega
  unfold loginThrottled
  simp only [Window.kept, over_iff, Nat.not_le.mpr fresh, if_false, few]
  split <;> rfl

theorem after_fresh (v : Window) {a : Attempt} (wrong : a.correct = false) :
    a.time < (v.after a).start + loginFailureWindow := by
  have long : 0 < loginFailureWindow := by decide
  unfold Window.after
  rw [wrong]
  simp only [Bool.false_eq_true, if_false]
  split
  · exact Nat.lt_add_of_pos_right long
  · next open' => exact Nat.not_le.mp open'

/-- An attempt in the window that the attempts before it determine. -/
theorem attempt_kept (v : Window) (a : Attempt) :
    attempt v.kept a = ((v.after a).kept,
      if a.correct then { status := 200 }
      else refusal (if (v.after a).wrong < loginMaxFailures then none
        else some (max (loginFailureWindow - (a.time - (v.after a).start)) 1))) := by
  cases correct : a.correct with
  | true =>
      rw [attempt, if_pos correct, Window.after, if_pos correct]
      rfl
  | false =>
      rw [attempt_wrong correct, noteLoginFailure_kept correct,
        loginThrottled_kept (after_fresh v correct)]
      rfl

theorem failures_eq (attempts : List Attempt) : failures attempts = (windowOf attempts).kept := by
  induction attempts using List.reverseRecOn with
  | nil => rfl
  | append_singleton attempts a inductionHypothesis =>
      rw [failures_concat, windowOf_concat, inductionHypothesis, attempt_kept]

/-- One attempt is treated as promised, unless it fills its window. -/
theorem attempt_lawful_iff (v : Window) (a : Attempt) :
    Lawful v a (attempt v.kept a) ↔
      (a.correct = false → (v.after a).wrong ≠ loginMaxFailures) := by
  rw [attempt_kept]
  constructor
  · rintro lawful wrong full
    have status := lawful.refused wrong (Nat.le_of_eq full)
    rw [wrong, full] at status
    cases status
  · intro notFull
    refine ⟨?_, ?_, ?_, ?_⟩
    · intro correct
      rw [Window.after, if_pos correct, if_pos correct]
      exact ⟨rfl, rfl⟩
    · intro wrong few
      have below : (v.after a).wrong < loginMaxFailures := Nat.lt_of_le_of_ne few (notFull wrong)
      simp only [wrong, below, Bool.false_eq_true, if_false, if_true]
      rfl
    · intro wrong many
      have fresh := after_fresh v wrong
      simp only [wrong, Nat.not_lt.mpr (Nat.le_of_lt many), Bool.false_eq_true, if_false]
      refine ⟨rfl, _, rfl, Nat.le_max_right .., ?_⟩
      exact Nat.max_le.mpr ⟨Nat.sub_le .., by decide⟩
    · intro wrong late
      rw [Window.after, if_neg (by rw [wrong]; exact Bool.false_ne_true), if_pos late]
      rfl

/-- Over any row of attempts every answer is as promised, and every window counted as promised,
exactly when no wrong attempt is the last one its window allows. -/
theorem throttle_lawful_iff (attempts : List Attempt) :
    (∀ front a back, attempts = front ++ a :: back →
      Lawful (windowOf front) a (attempt (failures front) a)) ↔
    ∀ front a back, attempts = front ++ a :: back → a.correct = false →
      (windowOf (front ++ [a])).wrong ≠ loginMaxFailures := by
  refine forall_congr' fun front => forall_congr' fun a => forall_congr' fun back => ?_
  refine imp_congr_right fun _ => ?_
  rw [failures_eq, windowOf_concat]
  exact attempt_lawful_iff (windowOf front) a

/-- Ten wrong passwords within one window: the tenth is answered 429. -/
theorem tenth_refused :
    ¬ ∀ attempts front a back, attempts = front ++ a :: back →
      Lawful (windowOf front) a (attempt (failures front) a) := by
  intro lawful
  have refused := (lawful (List.replicate 10 ⟨1000, false⟩) (List.replicate 9 ⟨1000, false⟩)
    ⟨1000, false⟩ [] rfl).refused rfl (by decide)
  have tooMany : (attempt (failures (List.replicate 9 ⟨1000, false⟩)) ⟨1000, false⟩).2.status =
      429 := by decide +kernel
  cases tooMany.symm.trans refused

end Remgr.Console
