/-
Module: Remgr.Frps.Server.Registration
Purpose: `handle_new_proxy`, `start_tcp_proxy` and `start_udp_proxy` as one task that stops at every
  lock and every await. The two start functions differ in their proxy type only, which is a
  parameter here; what the spawned listener then does is in `Remgr.Frps.Server.Step`.
Trusted boundary: as in `Remgr.Frps.Server.State`; the outcome of each bind attempt is an input
Main exports: Input, remotePortOf, regStep
-/
import Remgr.Frps.Server.State

namespace Remgr.Frps.Server

open Remgr.Lib

/-- One attempt to bind a proxy port. `text` is the error as it is printed. -/
inductive BindResult where
  | bound
  | addrInUse (text : String)
  | failed (text : String)
deriving Repr, DecidableEq

/-- What a task of a stream may be given when it is resumed. -/
inductive Input where
  | go
  | frame (msg : Option RawMsg)
  | uuid (id : String)
  | wrote (ok : Bool)
  | bound (result : BindResult)
  | via (way : SendVia)
  | cancelled
  | sessionOver

/-- `remote_port_of`: `u16::try_from` of the signed field, and not zero. -/
def remotePortOf (np : NewProxy) : Option UInt16 :=
  let value := np.remotePort.toInt
  if 0 ≤ value ∧ value < 65536 then
    let port := UInt16.ofNat value.toNat
    if port ≠ 0 then some port else none
  else none

/-- The response `proxy_error` sends. -/
def proxyError (np : NewProxy) (error : String) : NewProxyResp :=
  { proxyName := np.proxyName, remoteAddr := "", error := error }

/-! ## Error texts -/

def nameInUse (np : NewProxy) : String :=
  "proxy name " ++ np.proxyName ++ " is already in use"

def optionsUnsupported : String := "use_encryption/use_compression not supported by remgr-frps"

def typeUnsupported (np : NewProxy) : String :=
  "proxy type \"" ++ np.proxyType ++ "\" not supported by remgr-frps"

def portInvalid (np : NewProxy) : String := "invalid remote port " ++ toString np.remotePort.toInt

def portNotAllowed (port : UInt16) : String :=
  "remote port " ++ toString port.toNat ++ " not allowed"

/-- `AddrParseError` of a socket address prints one fixed text. -/
def addrInvalid : String := "invalid bind addr: invalid socket address syntax"

def bindFailed (kind : ProxyType) (port : UInt16) (text : String) : String :=
  "bind " ++ kind.text ++ " " ++ toString port.toNat ++ " failed: " ++ text

/-- `ATTEMPTS` of `retry_while_port_busy`. -/
def bindAttempts : Nat := 20

/-! ## The task -/

/-- What follows the reservation in `handle_new_proxy`: the options and the type are looked at
without another wait. -/
def afterReserve (np : NewProxy) : RegPc :=
  if np.useEncryption || np.useCompression then .drop optionsUnsupported
  else
    match ProxyType.ofText np.proxyType with
    | some kind => .config kind
    | none => .drop (typeUnsupported np)

/-- The port checks after the configuration has been read. -/
def afterConfig (cfg : FrpsConfig) (kind : ProxyType) (np : NewProxy) : RegPc :=
  match remotePortOf np with
  | none => .drop (portInvalid np)
  | some port =>
      if !cfg.portAllowed port then .drop (portNotAllowed port)
      else .port kind port cfg.bindAddr

/-- The bind address is parsed once the port is registered. -/
def afterPort (w : World) (kind : ProxyType) (port : UInt16) (bindAddr : String) : RegPc :=
  match w.parseAddr (bindAddr ++ ":" ++ toString port.toNat) with
  | none => .release kind port addrInvalid
  | some addr => .bind kind port addr 0

/-- One attempt of `retry_while_port_busy`: only a busy port is tried again, up to the limit. -/
def afterBind (np : NewProxy) (kind : ProxyType) (port : UInt16) (addr : String) (attempt : Nat) :
    BindResult → RegPc
  | .bound =>
      .reply { proxyName := np.proxyName, remoteAddr := addr, error := "" } (some (kind, port))
  | .addrInUse text =>
      if attempt + 1 < bindAttempts then .bind kind port addr (attempt + 1)
      else .release kind port (bindFailed kind port text)
  | .failed text => .release kind port (bindFailed kind port text)

/-- After `send_and_flush` has returned, for whatever reason: an error ends the call, success goes
on to the late check. -/
def afterFlush (r : RegId) : Option (ProxyType × UInt16) → StreamPc
  | none => .reading
  | some (kind, port) => .registering r (.late kind port)

/-- The name of the proxy a registration is for. -/
def State.nameOf (s : State) (r : RegId) : String := (s.regs r).np.proxyName

/-- The server a control belongs to. -/
def State.epochOf (s : State) (c : StreamId) : Epoch := (s.ctl c).epoch

/-- The first lock of `handle_new_proxy`: check and reserve the name. -/
def State.reserve (s : State) (k : StreamId) (r : RegId) : State :=
  let np := (s.regs r).np
  if np.proxyName ∈ s.proxies k then
    s.goto k (.registering r (.reply (proxyError np (nameInUse np)) none))
  else
    (s.setProxies k ((s.proxies k).insert np.proxyName r)).goto k
      (.registering r (afterReserve np))

/-- `register_proxy_port`, and the parsing of the address after it. -/
def State.registerProxyPort (s : State) (w : World) (k : StreamId) (r : RegId) (kind : ProxyType)
    (port : UInt16) (bindAddr : String) : State :=
  match (s.shared (s.epochOf k)).registerProxyPort kind port (s.nameOf r) with
  | .error text => s.goto k (.registering r (.drop text))
  | .ok shared =>
      (s.setShared (s.epochOf k) shared).goto k
        (.registering r (afterPort w kind port bindAddr))

/-- `set_proxy` and the spawn of the listener. -/
def State.publish (s : State) (k : StreamId) (r : RegId) (kind : ProxyType) (port : UInt16) :
    State :=
  let info : ProxyInfo :=
    { proxyName := s.nameOf r, proxyType := kind, remotePort := port, user := (s.ctl k).user }
  ((s.setProxy info).setReg r { s.regs r with listener := .running kind port }).goto k .reading

/-- One step of the call `r` of `handle_new_proxy` on the reader of control `k`. -/
def regStep (w : World) (k : StreamId) (r : RegId) (s : State) : RegPc → Input → Option State
  | .reserve, .go => if s.proxiesFree k then some (s.reserve k r) else none
  | .config kind, .go =>
      some ((s.setReg r { s.regs r with cfg := some s.cfg }).goto k
        (.registering r (afterConfig s.cfg kind (s.regs r).np)))
  | .port kind port bindAddr, .go => some (s.registerProxyPort w k r kind port bindAddr)
  | .bind kind port addr attempt, .bound result =>
      some (s.goto k (.registering r (afterBind (s.regs r).np kind port addr attempt result)))
  | .release kind port error, .go =>
      some ((s.releaseProxyPort (s.epochOf k) kind port (s.nameOf r)).goto k
        (.registering r (.drop error)))
  | .drop error, .go =>
      if s.proxiesFree k then
        some ((s.dropReservation k (s.nameOf r)).goto k
          (.registering r (.reply (proxyError (s.regs r).np error) none)))
      else none
  | .reply resp serve, .via way =>
      (s.trySend k (.newProxyResp resp, some r) way).map fun s =>
        s.goto k (if way = .queued then .registering r (.flush serve) else afterFlush r serve)
  | .flush serve, .go =>
      if (s.out k).latchPending r then none else some (s.goto k (afterFlush r serve))
  | .late kind port, .go =>
      some (s.goto k (.registering r
        (if s.ptkCancelled r then .undoRelease kind port else .publish kind port)))
  | .undoRelease kind port, .go =>
      some ((s.releaseProxyPort (s.epochOf k) kind port (s.nameOf r)).goto k
        (.registering r .undoClose))
  | .undoClose, .go =>
      (s.closeProxy .reader k (s.nameOf r)).map fun after =>
        after.1.goto k (if after.2 then .reading else .registering r .undoClose)
  | .publish kind port, .go => some (s.publish k r kind port)
  | _, _ => none

end Remgr.Frps.Server
