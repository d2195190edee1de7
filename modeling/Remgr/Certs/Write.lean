/-
Module: Remgr.Certs.Write
Purpose: Calls of `write_service_cert` for one service: both files are staged under names that all
  calls share, then moved into place one after the other.
Trusted boundary: the file system is Remgr.Lib.Files; file modes are left out
Main exports: validServiceName, checkPem, FileName, Call, State, step, certs
-/
import Remgr.Lib.Files
import Remgr.Lib.Transition
import Remgr.Lib.Lines

namespace Remgr.Certs

open Lib

/-- Service names become part of a file name. -/
def validServiceName (service : String) : Bool :=
  service ≠ "" && service.toList.all fun c => c.isAlphanum || c == '_'

/-- What a call refuses before it touches a file. -/
def checkPem (service certPem keyPem : String) : Except String Unit :=
  let has (text needle : String) := Text.contains needle.toList text.toList
  if !validServiceName service then .error "invalid service name"
  else if !has certPem "BEGIN CERTIFICATE" || !has certPem "END CERTIFICATE" then
    .error "cert_pem does not look like a PEM certificate"
  else if !has keyPem "PRIVATE KEY" || !has keyPem "END" then
    .error "key_pem does not look like a PEM private key"
  else .ok ()

/-- The files of one service. -/
inductive FileName where
  | cert
  | key
  | certNew
  | keyNew
deriving DecidableEq, Repr

/-- Where a call is. -/
inductive Pc where
  | openCert
  | writeCert (i : Inode) (offset : Nat)
  | openKey
  | writeKey (i : Inode) (offset : Nat)
  | renameCert
  | renameKey
  | returned (ok : Bool)
deriving DecidableEq, Repr

/-- One call. `altered` records whether a step of this call changed the live pair; no code reads
it. -/
structure Call where
  certPem : List UInt8
  keyPem : List UInt8
  pc : Pc
  altered : Bool
deriving DecidableEq, Repr

/-- The bytes of the certificate and the key the service uses. -/
abbrev Pair := Option (List UInt8) × Option (List UInt8)

def live (files : Files FileName) : Pair := (files.read .cert, files.read .key)

/-- `first` is the live pair before any call; no code reads it. -/
structure State where
  files : Files FileName
  calls : Nat → Option Call
  first : Pair

inductive Input where
  | begin (t : Nat) (service certPem keyPem : String)
  | go (t : Nat)
  | wrote (t count : Nat)
  | fails (t : Nat)

def bytes (text : String) : List UInt8 := text.toList.flatMap String.utf8EncodeChar

/-- A call goes on, with these files. -/
def State.goto (s : State) (t : Nat) (call : Call) (files : Files FileName) (pc : Pc) : State :=
  { s with
    files := files
    calls := Function.update s.calls t (some
      { call with pc := pc, altered := call.altered || live files ≠ live s.files }) }

/-- The next system call of a call. -/
def callStep (s : State) (t : Nat) (call : Call) : Option State :=
  match call.pc with
  | .openCert =>
      let opened := s.files.openTruncate .certNew
      some (s.goto t call opened.2 (.writeCert opened.1 0))
  | .writeCert _ offset =>
      if offset = call.certPem.length then some (s.goto t call s.files .openKey) else none
  | .openKey =>
      let opened := s.files.openTruncate .keyNew
      some (s.goto t call opened.2 (.writeKey opened.1 0))
  | .writeKey _ offset =>
      if offset = call.keyPem.length then some (s.goto t call s.files .renameCert) else none
  | .renameCert =>
      match s.files.rename .certNew .cert with
      | some files => some (s.goto t call files .renameKey)
      | none => some (s.goto t call s.files (.returned false))
  | .renameKey =>
      match s.files.rename .keyNew .key with
      | some files => some (s.goto t call files (.returned true))
      | none => some (s.goto t call s.files (.returned false))
  | .returned _ => none

/-- A write of `count` bytes of what is left to write. -/
def writeStep (s : State) (t count : Nat) (call : Call) : Option State :=
  match call.pc with
  | .writeCert i offset =>
      if 0 < count ∧ offset + count ≤ call.certPem.length then
        some (s.goto t call (s.files.writeAt i offset ((call.certPem.drop offset).take count))
          (.writeCert i (offset + count)))
      else none
  | .writeKey i offset =>
      if 0 < count ∧ offset + count ≤ call.keyPem.length then
        some (s.goto t call (s.files.writeAt i offset ((call.keyPem.drop offset).take count))
          (.writeKey i (offset + count)))
      else none
  | _ => none

def step (s : State) : Input → Option State
  | .begin t service certPem keyPem =>
      if s.calls t = none then
        let pc := match checkPem service certPem keyPem with
          | .ok _ => .openCert
          | .error _ => .returned false
        let call : Call :=
          { certPem := bytes certPem, keyPem := bytes keyPem, pc := pc, altered := false }
        some { s with calls := Function.update s.calls t (some call) }
      else none
  | .go t => (s.calls t).bind fun call => callStep s t call
  | .wrote t count => (s.calls t).bind fun call => writeStep s t count call
  | .fails t =>
      (s.calls t).bind fun call =>
        match call.pc with
        | .returned _ => none
        | _ => some (s.goto t call s.files (.returned false))

/-- The calls of one service, from any files. -/
def certs : System State Input where
  init s := s.calls = (fun _ => none) ∧ s.first = live s.files
  step s input s' := step s input = some s'

end Remgr.Certs
