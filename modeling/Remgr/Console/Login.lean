/-
Module: Remgr.Console.Login
Purpose: Logins one after another: how `login` answers an attempt and which failure window it leaves,
  and that a task of the console that is alone does exactly this.
Trusted boundary: none
Main exports: Attempt, attempt, failures, Login, Quiet
-/
import Remgr.Console.Step

namespace Remgr.Console

open Lib

/-- A login that nobody else interrupts: when it is made, and whether the user name and the password
are those of the configuration. -/
structure Attempt where
  time : Nat
  correct : Bool
deriving DecidableEq, Repr

/-- The answer to a wrong attempt, by what `login_throttled` says. -/
def refusal : Option Nat → Reply
  | some retryAfter =>
      { status := 429
        error := "too many failed login attempts — wait " ++ toString retryAfter ++
          "s (the correct password is always accepted)"
        retryAfter := some retryAfter }
  | none => { status := 401, error := "invalid username or password" }

/-- What `login` does with an attempt: the failure window afterwards and the answer. -/
def attempt (window : Nat × Nat) (a : Attempt) : (Nat × Nat) × Reply :=
  if a.correct then ((0, a.time), { status := 200 })
  else
    let throttled := loginThrottled a.time (noteLoginFailure a.time window)
    (throttled.1, refusal throttled.2)

theorem attempt_wrong {a : Attempt} (wrong : a.correct = false) (window : Nat × Nat) :
    attempt window a =
      ((loginThrottled a.time (noteLoginFailure a.time window)).1,
        refusal (loginThrottled a.time (noteLoginFailure a.time window)).2) := by
  rw [attempt, wrong]
  rfl

/-- The window that a row of attempts leaves; `AppState::new` starts with `(0, 0)`. -/
def failures (attempts : List Attempt) : Nat × Nat :=
  attempts.foldl (fun window a => (attempt window a).1) (0, 0)

theorem failures_concat (attempts : List Attempt) (a : Attempt) :
    failures (attempts ++ [a]) = (attempt (failures attempts) a).1 := by
  rw [failures, List.foldl_append]
  rfl

/-! ## The task of a login -/

/-- A login request to the console: the task that serves it, and the session token it would get. -/
structure Login where
  task : TaskId
  req : LoginReq
  time : Nat
  token : String

/-- The attempt that a login is, under the configuration in memory. -/
def Login.attempt (w : World) (s : State) (login : Login) : Attempt :=
  ⟨login.time, accepts w login.req s.store.mem.console⟩

/-- The steps of the task while nobody else moves. Every clock it reads shows the time of the login. -/
def Login.actions (login : Login) (correct : Bool) : List Action :=
  .request login.task {} (.login login.req) :: .step login.task .go :: .step login.task .go ::
    .step login.task .go :: .step login.task .go ::
      if correct then
        [.step login.task (.now login.time), .step login.task .go, .step login.task .go,
          .step login.task (.token login.token login.time login.time)]
      else [.step login.task (.now login.time), .step login.task (.now login.time)]

/-- No task is under way, and a login finds a permit. -/
structure Quiet (s : State) : Prop where
  idle : ∀ t, s.pcs t = .idle
  unlocked : s.store.lock.writer = none
  permits : 0 < s.permits

end Remgr.Console
