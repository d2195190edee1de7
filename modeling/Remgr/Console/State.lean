/-
Module: Remgr.Console.State
Purpose: The state of the console of `remgr/src/console/mod.rs` and `remgr/src/state.rs`: the shared
  configuration with its lock and its file, the snapshot, the sessions, the window of failed logins,
  and where each request stands. Beside it the state remembers every configuration memory has had, the
  password hashes that were installed, and the password changes that have returned.
Trusted boundary: a section under a mutex is one step
Main exports: Store, Pc, State, noteLoginFailure, loginThrottled
-/
import Remgr.Console.Config
import Remgr.Lib.Files
import Remgr.Lib.RwLock

namespace Remgr.Console

open Remgr.Lib

/-- One request, or one call from a module. -/
abbrev TaskId := Nat

/-! ## The configuration and its file -/

/-- The file at `config_path`, and `path.with_extension("toml.tmp")` beside it. -/
inductive FileName where
  | config
  | temp
deriving Repr, DecidableEq

/-- The configuration in memory, its lock, and the files. `history` are the configurations memory
has had, in order. -/
structure Store where
  mem : Config
  lock : RwLock TaskId := {}
  files : Files FileName
  history : List Config

namespace Store

/-- How many configurations memory has had so far. -/
def version (store : Store) : Nat := store.history.length

/-- A new configuration in memory. -/
def put (store : Store) (cfg : Config) : Store :=
  { store with mem := cfg, history := store.history ++ [cfg] }

/-- The bytes at `config_path`. -/
def file (store : Store) : Option (List UInt8) := store.files.read .config

end Store

/-- A configuration as `config_blocking` returns it, and the version it had in memory. -/
structure Seen where
  config : Config
  version : Nat

/-! ## Requests -/

structure LoginReq where
  username : String := ""
  password : String
deriving Repr, DecidableEq

structure PasswordChange where
  old : String
  new : String
deriving Repr, DecidableEq

/-- What a request is answered with. `configured` is the list of fields `point_service_at_cert`
gives. -/
structure Reply where
  status : Nat
  error : String := ""
  retryAfter : Option Nat := none
  configured : List String := []
deriving Repr, DecidableEq

/-- Who calls `edit_config`. -/
inductive Editor where
  | putConsole
  | putService
  | cert (service : String)
  | password (keep : Option String)
deriving Repr, DecidableEq

/-- Who calls `config_blocking`, and goes on with what it returns: `login`, `new_session` for a login
that was accepted, `change_password`, or anybody else. -/
inductive Caller where
  | login (req : LoginReq)
  | session (req : LoginReq) (seen : Seen)
  | change (req : PasswordChange) (keep : Option String)
  | other

/-- Who verifies a password. -/
inductive Check where
  | login (req : LoginReq)
  | change (req : PasswordChange) (keep : Option String)

/-- Who saves: `edit_config` and `pin_token` hold the write lock, `save_config` a read lock. The last
two have changed memory before, from what they found to what they left. -/
inductive Saver where
  | edit (editor : Editor) (staged : Config)
  | pin (found left : Config)
  | enable (found left : Config)

namespace Saver

/-- The configuration that is saved. -/
def config (mem : Config) : Saver → Config
  | edit _ staged => staged
  | pin _ _ => mem
  | enable _ _ => mem

/-- Whether the write lock is held. -/
def exclusive : Saver → Bool
  | enable _ _ => false
  | _ => true

end Saver

/-- Where `Config::save` stands, by what comes next. -/
inductive SavePc where
  | serialize
  | openTemp (out : List UInt8)
  | write (i : Inode) (offset : Nat) (out : List UInt8)
  | sync (i : Inode) (out : List UInt8)
  | rename (i : Inode) (out : List UInt8)

/-- Where a request stands. -/
inductive Pc where
  | idle
  /-- `edit_config`, before the write lock. -/
  | edit (editor : Editor) (edit : Edit)
  /-- `set_enabled`, before the write lock, and then before the read lock of `save_config`. -/
  | enable (service : String) (enabled : Bool)
  | enableSave (found left : Config)
  /-- `pin_token`, before the write lock. -/
  | pin (token : String)
  | saving (saver : Saver) (pc : SavePc)
  /-- `change_password`, before it ends the other sessions. -/
  | endSessions (version : Nat) (keep : Option String)
  /-- `config_blocking`: after so many attempts, before the snapshot is stored, and when all attempts
  have failed. -/
  | reading (tries : Nat) (caller : Caller)
  | storing (seen : Seen) (caller : Caller)
  | fallback (caller : Caller)
  /-- Before a permit of `password_hashes`, and with it. -/
  | permit (check : Check) (seen : Seen)
  | verify (check : Check) (seen : Seen)
  /-- `login` with wrong credentials. -/
  | failed
  | throttle
  /-- `login` with right ones, before `clear_login_failures` and before its session is inserted. -/
  | clear (req : LoginReq) (seen : Seen)
  | insert (req : LoginReq) (seen : Seen) (ttl : UInt64)
  /-- `change_password` after the old password was right. -/
  | hash (req : PasswordChange) (keep : Option String)

namespace Pc

/-- Waits for the write lock of the configuration. -/
def awaitsWrite : Pc → Bool
  | edit _ _ => true
  | enable _ _ => true
  | pin _ => true
  | _ => false

/-- Between the opening of the temporary file and the end of the save. -/
def usesTemp : Pc → Bool
  | saving _ (.write _ _ _) => true
  | saving _ (.sync _ _) => true
  | saving _ (.rename _ _) => true
  | _ => false

/-- Inside an operation that changes the configuration: from the request for the write lock to the
end of its save. -/
def changing : Pc → Bool
  | edit _ _ => true
  | enable _ _ => true
  | enableSave _ _ => true
  | pin _ => true
  | saving _ _ => true
  | _ => false

/-- At the beginning of `config_blocking`. -/
def beginsRead : Pc → Bool
  | reading 0 _ => true
  | _ => false

/-- The operation that is accepted by a step between two places. -/
def accepts : Pc → Pc → Option Op
  | edit _ e, saving _ _ => some (.edit e)
  | enable service enabled, enableSave _ _ => some (.enable service enabled)
  | pin token, saving _ _ => some (.pin token)
  | _, _ => none

end Pc

/-! ## The whole console -/

/-- An entry of `sessions`, with what the login that issued it was verified with. -/
structure Session where
  token : String
  expiry : Nat
  password : String
  seen : Seen

/-- A password hash put into memory, as the configuration of the given version. -/
structure Install where
  version : Nat
  hash : String
deriving Repr, DecidableEq

/-- A `change_password` that has returned success: the version of its configuration, and the token of
its caller. -/
structure Change where
  version : Nat
  keep : Option String
deriving Repr, DecidableEq

/-- A call of `config_blocking` that has returned: what it returned, whether all its attempts had
failed, and the versions memory had when it began and when it returned. -/
structure Read where
  config : Config
  fellBack : Bool
  began : Nat
  ended : Nat

/-- `AppState`. `loaded` is the text of the file at the start. Of each task, `touched` tells whether its
operation has changed memory or the file, and `began` the version at the beginning of its call of
`config_blocking`. `accepted` are the operations that were carried out, or will be unless their save
fails. -/
structure State where
  store : Store
  loaded : List UInt8
  snapshot : Seen
  sessions : List Session := []
  loginFailures : Nat × Nat := (0, 0)
  permits : Nat := 2
  pcs : TaskId → Pc := fun _ => .idle
  replies : TaskId → Option Reply := fun _ => none
  installs : List Install
  returned : List Change := []
  touched : TaskId → Bool := fun _ => false
  began : TaskId → Nat := fun _ => 0
  reads : List Read := []
  accepted : List Op := []

/-! ## Failed logins -/

/-- `LOGIN_MAX_FAILURES`. -/
def loginMaxFailures : Nat := 10

/-- `LOGIN_FAILURE_WINDOW`, in seconds. -/
def loginFailureWindow : Nat := 300

/-- `note_login_failure`, on the window's count and start. -/
def noteLoginFailure (now : Nat) (window : Nat × Nat) : Nat × Nat :=
  if loginFailureWindow ≤ now - window.2 then (1, now)
  else (min (window.1 + 1) (2 ^ 32 - 1), window.2)

/-- `login_throttled`: the window, and after how many seconds to try again. -/
def loginThrottled (now : Nat) (window : Nat × Nat) : (Nat × Nat) × Option Nat :=
  let window := if loginFailureWindow ≤ now - window.2 then (0, now) else window
  if window.1 < loginMaxFailures then (window, none)
  else (window, some (max (loginFailureWindow - (now - window.2)) 1))

namespace State

def goto (s : State) (t : TaskId) (pc : Pc) : State := { s with pcs := Function.update s.pcs t pc }

/-- The request is answered, and its task is done. -/
def answer (s : State) (t : TaskId) (reply : Reply) : State :=
  { s.goto t .idle with replies := Function.update s.replies t (some reply) }

/-- What `config_blocking` is about to return to a task. -/
def returning (s : State) (t : TaskId) : Pc → Option Read
  | .storing seen _ => some ⟨seen.config, false, s.began t, s.store.version⟩
  | .fallback _ => some ⟨s.snapshot.config, true, s.began t, s.store.version⟩
  | _ => none

/-- What is remembered of a step of a task. -/
def note (t : TaskId) (begins : Bool) (before after : State) : State :=
  { after with
    touched := Function.update before.touched t
      ((!begins && before.touched t) || decide (after.store.mem ≠ before.store.mem) ||
        decide (after.store.file ≠ before.store.file))
    began := if (after.pcs t).beginsRead then Function.update before.began t before.store.version
      else before.began
    reads := before.reads ++ (before.returning t (before.pcs t)).toList
    accepted := before.accepted ++ ((before.pcs t).accepts (after.pcs t)).toList }

end State

end Remgr.Console
