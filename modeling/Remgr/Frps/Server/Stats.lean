/-
Module: Remgr.Frps.Server.Stats
Purpose: What `FrpsServer::stats` reports, of `remgr-frps/src/server.rs`. The byte counters are left
  out, as nothing modelled moves them.
Trusted boundary: as in `Remgr.Frps.Server.State`; texts are ordered by their characters, which is the
  order of their bytes
Main exports: ServerStats, State.snapshot, State.stats
-/
import Remgr.Frps.Server.State
import Mathlib.Data.Finset.Sort
import Mathlib.Data.String.Basic

namespace Remgr.Frps.Server

structure ServerStats where
  running : Bool
  bind : String
  clientsOnline : UInt64
  totalLogins : UInt64
  totalUserConns : UInt64
  proxies : List ProxyInfo

/-- `Stats::snapshot`: the infos in the order of their names. -/
def State.snapshot (s : State) : List ProxyInfo :=
  (s.proxyInfos.keys.sort (· ≤ ·)).filterMap s.proxyInfos.lookup

/-- `FrpsServer::stats`. It waits for the `run` lock, which `stop` keeps to its end. -/
def State.stats (s : State) : Option ServerStats :=
  let report (running : Bool) : ServerStats :=
    { running
      bind := s.cfg.bindAddr ++ ":" ++ toString s.cfg.serverPort.toNat
      clientsOnline := s.clientsOnline
      totalLogins := s.totalLogins
      totalUserConns := s.totalUserConns
      proxies := s.snapshot }
  match s.server with
  | .idle => some (report false)
  | .running _ => some (report true)
  | .stopping _ _ => none

end Remgr.Frps.Server
