/-
Module: Remgr.Console.Step
Purpose: The steps of the console: `Config::save` with each of its system calls, `edit_config`,
  `set_enabled`, `pin_token`, `config_blocking`, `login`, `logout` and `change_password`, each taken by
  one task while any number of others stand anywhere.
Trusted boundary: a section under a mutex is one step; `*guard = staged` follows the rename under the
  write lock, where no other task can look at memory, and is one step with it; a request is not dropped
  half way; `try_read` fails only while a writer holds the lock or waits for it; the modules' own start
  and stop are left out
Main exports: act, step, console
-/
import Remgr.Console.State
import Remgr.Lib.Transition

namespace Remgr.Console

open Remgr.Lib

/-- What a step finds. -/
inductive Input where
  | go
  /-- The call fails with this text. -/
  | fails (error : String)
  /-- `write` has taken this many bytes. -/
  | wrote (count : Nat)
  /-- `try_read` fails because of this task. -/
  | blockedBy (u : TaskId)
  | timeout
  /-- What `hash_password` returns. -/
  | hashed (result : Except String String)
  /-- `now_unix`. -/
  | now (time : Nat)
  /-- The random token, and `now_unix` for the expiry and for the expired entries. -/
  | token (token : String) (now later : Nat)

/-! ## Saving -/

namespace State

/-- The end of a save that has failed: the lock is given back, and the editor answers. `set_enabled`
and `pin_token` only log it. -/
def saveFails (s : State) (t : TaskId) (saver : Saver) (error : String) : State :=
  let s := { s with store := { s.store with lock := s.store.lock.unlock t } }
  match saver with
  | .edit .putConsole _ => s.answer t { status := 500, error }
  | .edit .putService _ => s.answer t { status := 400, error }
  | .edit (.cert _) _ => s.answer t { status := 200, configured := [] }
  | .edit (.password _) _ => s.answer t { status := 500, error }
  | .pin _ _ => s.goto t .idle
  | .enable _ _ => s.goto t .idle

/-- The end of a save after its rename. `edit_config` commits what it has staged. -/
def saveDone (s : State) (t : TaskId) (saver : Saver) (files : Files FileName) : State :=
  let store := { s.store with files, lock := s.store.lock.unlock t }
  match saver with
  | .edit editor staged =>
      let s := { s with store := store.put staged }
      match editor with
      | .putConsole => s.answer t { status := 200 }
      | .putService => s.answer t { status := 200 }
      | .cert service => s.answer t { status := 200, configured := certFields service }
      | .password keep =>
          { s.goto t (.endSessions s.store.version keep) with
            installs := s.installs ++ [⟨s.store.version, staged.console.passwordHash⟩] }
  | .pin _ _ => { s with store }.goto t .idle
  | .enable _ _ => { s with store }.goto t .idle

end State

/-- One step of `Config::save`. -/
def saveStep (w : World) (s : State) (t : TaskId) (saver : Saver) : SavePc → Input → Option State
  | .serialize, .go =>
      match (saver.config s.store.mem).serialize w with
      | .ok out => some (s.goto t (.saving saver (.openTemp out)))
      | .error error => some (s.saveFails t saver error)
  | .openTemp out, .go =>
      let opened := s.store.files.openTruncate .temp
      some ({ s with store := { s.store with files := opened.2 } }.goto t
        (.saving saver (.write opened.1 0 out)))
  | .write i offset out, .wrote count =>
      if 0 < count ∧ offset + count ≤ out.length then
        let files := s.store.files.writeAt i offset ((out.drop offset).take count)
        some ({ s with store := { s.store with files } }.goto t
          (.saving saver (.write i (offset + count) out)))
      else none
  | .write i offset out, .go =>
      if offset = out.length then some (s.goto t (.saving saver (.sync i out))) else none
  | .sync i out, .go => some (s.goto t (.saving saver (.rename i out)))
  | .rename _ _, .go =>
      match s.store.files.rename .temp .config with
      | some files => some (s.saveDone t saver files)
      | none => some (s.saveFails t saver "No such file or directory (os error 2)")
  | _, .fails error => some (s.saveFails t saver error)
  | _, _ => none

/-! ## Changing the configuration -/

/-- `edit_config` gets the write lock. A change that is refused gives it back. -/
def editStep (w : World) (s : State) (t : TaskId) (editor : Editor) (edit : Edit) :
    Input → Option State
  | .go =>
      match s.store.lock.write t with
      | none => none
      | some lock =>
          match edit.apply w s.store.mem with
          | .ok staged =>
              some ({ s with store := { s.store with lock } }.goto t
                (.saving (.edit editor staged) .serialize))
          | .error error => some (s.saveFails t (.edit editor s.store.mem) error)
  | _ => none

/-- `set_enabled` gets the write lock, for the flag only. -/
def enableStep (s : State) (t : TaskId) (service : String) (enabled : Bool) : Input → Option State
  | .go =>
      match s.store.lock.write t with
      | none => none
      | some _ =>
          match s.store.mem.setEnabledFlag enabled service with
          | none => some (s.goto t .idle)
          | some left =>
              some ({ s with store := s.store.put left }.goto t (.enableSave s.store.mem left))
  | _ => none

/-- `save_config` gets its read lock. -/
def enableSaveStep (s : State) (t : TaskId) (found left : Config) : Input → Option State
  | .go =>
      (s.store.lock.read t).map fun lock =>
        { s with store := { s.store with lock } }.goto t (.saving (.enable found left) .serialize)
  | _ => none

/-- `pin_token` gets the write lock and changes memory at once. -/
def pinStep (s : State) (t : TaskId) (token : String) : Input → Option State
  | .go =>
      (s.store.lock.write t).map fun lock =>
        let left := s.store.mem.pinToken token
        { s with store := { s.store.put left with lock } }.goto t
          (.saving (.pin s.store.mem left) .serialize)
  | _ => none

/-! ## Reading it -/

/-- The attempts of `config_blocking`. -/
def readAttempts : Nat := 20

/-- What a caller of `config_blocking` does next. -/
def Caller.resume (seen : Seen) : Caller → Pc
  | login req => .permit (.login req) seen
  | session req before => .insert req before seen.config.console.sessionTtl
  | change req keep => .permit (.change req keep) seen
  | other => .idle

/-- One step of `config_blocking`. -/
def readStep (s : State) (t : TaskId) (tries : Nat) (caller : Caller) : Input → Option State
  | .go =>
      if s.store.lock.writer = none then
        some (s.goto t (.storing ⟨s.store.mem, s.store.version⟩ caller))
      else none
  | .blockedBy u =>
      if s.store.lock.writer = some u ∨ (s.pcs u).awaitsWrite then
        some (s.goto t (if tries + 1 < readAttempts then .reading (tries + 1) caller
          else .fallback caller))
      else none
  | _ => none

/-! ## Passwords and sessions -/

/-- `MIN_PASSWORD_LEN`, in bytes. -/
def minPasswordLen : Nat := 4

/-- Whether the password and the user name are those of the configuration. -/
def accepts (w : World) (req : LoginReq) (console : ConsoleConfig) : Bool :=
  let name := Text.trim req.username.toList
  w.verifyPassword req.password console.passwordHash &&
    (name.isEmpty || name == console.username.toList)

/-- The wait for a permit, and its time limit of five seconds. -/
def permitStep (s : State) (t : TaskId) (check : Check) (seen : Seen) : Input → Option State
  | .go =>
      if 0 < s.permits then some ({ s with permits := s.permits - 1 }.goto t (.verify check seen))
      else none
  | .timeout =>
      match check with
      | .login _ => some (s.answer t { status := 503, error := "login is busy, try again shortly" })
      | .change _ _ => some (s.answer t { status := 503, error := "busy, try again shortly" })
  | _ => none

/-- `login` keeps its permit to the end, `change_password` gives it back after `verify_password`. -/
def verifyStep (w : World) (s : State) (t : TaskId) (seen : Seen) : Check → Option State
  | .login req =>
      if accepts w req seen.config.console then some (s.goto t (.clear req seen))
      else some (s.goto t .failed)
  | .change req keep =>
      let s := { s with permits := s.permits + 1 }
      if w.verifyPassword req.old seen.config.console.passwordHash then
        some (s.goto t (.hash req keep))
      else some (s.answer t { status := 401, error := "invalid old password" })

/-- The answer of `login` to wrong credentials. -/
def throttleStep (s : State) (t : TaskId) (now : Nat) : State :=
  let throttled := loginThrottled now s.loginFailures
  let s := { s with loginFailures := throttled.1, permits := s.permits + 1 }
  match throttled.2 with
  | some retryAfter =>
      s.answer t
        { status := 429
          error := "too many failed login attempts — wait " ++ toString retryAfter ++
            "s (the correct password is always accepted)"
          retryAfter := some retryAfter }
  | none => s.answer t { status := 401, error := "invalid username or password" }

/-- `new_session` with the table locked. -/
def insertStep (s : State) (t : TaskId) (req : LoginReq) (seen : Seen) (ttl : UInt64)
    (token : String) (now later : Nat) : State :=
  let expiry := min (now + ttl.toNat) (2 ^ 64 - 1)
  let live := s.sessions.filter fun session => later < session.expiry
  let session : Session := { token, expiry, password := req.password, seen }
  let s : State :=
    { s with
      sessions := live.filter (fun session => session.token ≠ token) ++ [session]
      permits := s.permits + 1 }
  s.answer t { status := 200 }

/-- `change_password` from the check of the new password to `edit_config`. -/
def hashStep (s : State) (t : TaskId) (req : PasswordChange) (keep : Option String)
    (result : Except String String) : State :=
  if (String.ofList (Text.trim req.new.toList)).utf8ByteSize < minPasswordLen then
    s.answer t
      { status := 400, error := "new password too short (min " ++ toString minPasswordLen ++ ")" }
  else
    match result with
    | .error error => s.answer t { status := 500, error }
    | .ok newHash => s.goto t (.edit (.password keep) (.password newHash))

/-- The end of `change_password`: only the caller's session stays. -/
def endSessionsStep (s : State) (t : TaskId) (version : Nat) (keep : Option String) : State :=
  let s : State :=
    { s with
      sessions := s.sessions.filter fun session => some session.token = keep
      returned := s.returned ++ [⟨version, keep⟩] }
  s.answer t { status := 200 }

/-! ## Requests -/

/-- What `auth_mw` looks at: the session token, the header against forged requests, and the time. -/
structure Headers where
  token : Option String := none
  csrf : Bool := true
  now : Nat := 0

inductive Request where
  | put (service : String) (value : Json)
  | cert (service certPath keyPath : String)
  | enable (service : String) (enabled : Bool)
  | pin (token : String)
  | login (req : LoginReq)
  | logout
  | change (req : PasswordChange)
  | look

/-- Requests that are not checked by `auth_mw`: the login, and calls that come from a module. -/
def Request.isPublic : Request → Bool
  | pin _ => true
  | login _ => true
  | look => true
  | _ => false

/-- `auth_mw`: the answer to a request that is refused, and the table without the expired session it
came with. -/
def authorize (s : State) (headers : Headers) : Option Reply × List Session :=
  match headers.token.bind fun token => s.sessions.find? (·.token = token) with
  | none => (some { status := 401, error := "unauthorized" }, s.sessions)
  | some session =>
      if headers.now < session.expiry then
        if headers.csrf then (none, s.sessions)
        else (some { status := 403, error := "missing csrf header" }, s.sessions)
      else
        (some { status := 401, error := "unauthorized" },
          s.sessions.filter fun other => other.token ≠ session.token)

/-- The beginning of each handler. -/
def begin (w : World) (s : State) (t : TaskId) (headers : Headers) : Request → State
  | .put service value =>
      match putConfig w service value with
      | .error e => s.answer t { status := e.status, error := e.error }
      | .ok edit =>
          s.goto t (.edit (if service = "console" then .putConsole else .putService) edit)
  | .cert service certPath keyPath =>
      if certFields service = [] then s.answer t { status := 200, configured := [] }
      else s.goto t (.edit (.cert service) (.cert service certPath keyPath))
  | .enable service enabled =>
      if service ∈ moduleNames then s.goto t (.enable service enabled)
      else s.answer t { status := 404, error := "unknown service" }
  | .pin token => s.goto t (.pin token)
  | .login req => s.goto t (.reading 0 (.login req))
  | .logout =>
      let s : State :=
        { s with sessions := s.sessions.filter fun session => some session.token ≠ headers.token }
      s.answer t { status := 200 }
  | .change req => s.goto t (.reading 0 (.change req headers.token))
  | .look => s.goto t (.reading 0 .other)

/-- A request arrives. -/
def requestStep (w : World) (s : State) (t : TaskId) (headers : Headers) (request : Request) :
    State :=
  if request.isPublic then begin w s t headers request
  else
    match authorize s headers with
    | (some refused, sessions) => { s with sessions }.answer t refused
    | (none, sessions) => begin w { s with sessions } t headers request

/-! ## The system -/

inductive Action where
  | request (t : TaskId) (headers : Headers) (request : Request)
  | step (t : TaskId) (input : Input)

namespace Action

def task : Action → TaskId
  | request t _ _ => t
  | step t _ => t

def begins : Action → Bool
  | request _ _ _ => true
  | step _ _ => false

end Action

/-- One step of a task, by where it stands. -/
def taskStep (w : World) (s : State) (t : TaskId) (input : Input) : Pc → Option State
  | .idle => none
  | .edit editor edit => editStep w s t editor edit input
  | .enable service enabled => enableStep s t service enabled input
  | .enableSave found left => enableSaveStep s t found left input
  | .pin token => pinStep s t token input
  | .saving saver pc => saveStep w s t saver pc input
  | .endSessions version keep =>
      match input with
      | .go => some (endSessionsStep s t version keep)
      | _ => none
  | .reading tries caller => readStep s t tries caller input
  | .storing seen caller =>
      match input with
      | .go => some ({ s with snapshot := seen }.goto t (caller.resume seen))
      | _ => none
  | .fallback caller =>
      match input with
      | .go => some (s.goto t (caller.resume s.snapshot))
      | _ => none
  | .permit check seen => permitStep s t check seen input
  | .verify check seen =>
      match input with
      | .go => verifyStep w s t seen check
      | _ => none
  | .failed =>
      match input with
      | .now time =>
          some ({ s with loginFailures := noteLoginFailure time s.loginFailures }.goto t .throttle)
      | _ => none
  | .throttle =>
      match input with
      | .now time => some (throttleStep s t time)
      | _ => none
  | .clear req seen =>
      match input with
      | .now time =>
          some ({ s with loginFailures := (0, time) }.goto t (.reading 0 (.session req seen)))
      | _ => none
  | .insert req seen ttl =>
      match input with
      | .token token now later => some (insertStep s t req seen ttl token now later)
      | _ => none
  | .hash req keep =>
      match input with
      | .hashed result => some (hashStep s t req keep result)
      | _ => none

def act (w : World) (s : State) : Action → Option State
  | .request t headers request =>
      match s.pcs t with
      | .idle => some (requestStep w s t headers request)
      | _ => none
  | .step t input => taskStep w s t input (s.pcs t)

def step (w : World) (a : Action) (s : State) : Option State :=
  (act w s a).map (State.note a.task a.begins s)

/-- Where the console starts: the file is there, and holds the configuration that was loaded from it,
or saved to it because the password was missing or a certificate was made. -/
structure Starts (w : World) (s : State) : Prop where
  file : s.store.file = some s.loaded
  loaded : w.load s.loaded = some s.store.mem ∨ s.store.mem.serialize w = .ok s.loaded
  history : s.store.history = [s.store.mem]
  unlocked : s.store.lock.holders = []
  snapshot : s.snapshot = ⟨s.store.mem, s.store.version⟩
  sessions : s.sessions = []
  idle : ∀ t, s.pcs t = .idle
  installs : s.installs = [⟨s.store.version, s.store.mem.console.passwordHash⟩]
  returned : s.returned = []
  began : ∀ t, s.began t = 0
  reads : s.reads = []
  accepted : s.accepted = []

/-- The console while it runs. -/
def console (w : World) : System State Action where
  init := Starts w
  step s a s' := step w a s = some s'

end Remgr.Console
