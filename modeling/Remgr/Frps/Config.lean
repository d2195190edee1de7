/-
Module: Remgr.Frps.Config
Purpose: The fields of `FrpsConfig` in `remgr-frps/src/config.rs` that the server reads while it
  runs, and the allow list of remote ports.
Trusted boundary: none
Main exports: FrpsConfig, FrpsConfig.portAllowed
-/
import Remgr.Lib.Text

namespace Remgr.Frps

open Remgr.Lib

structure FrpsConfig where
  bindAddr : String := "0.0.0.0"
  serverPort : UInt16 := 7000
  token : String := ""
  tcpMux : Bool := true
  maxPoolCount : UInt32 := 50
  heartbeatTimeout : UInt64 := 90
  allowPorts : Option String := none
deriving Repr, DecidableEq, Inhabited

namespace FrpsConfig

/-- `str::parse::<u16>`. -/
def parsePort (text : List Char) : Option Nat := Text.parseUnsigned 65536 text

/-- One part of the allow list: `lo-hi` or a single port. Anything else allows nothing. -/
def partAllows (port : UInt16) (part : List Char) : Bool :=
  let part := Text.trim part
  match Text.splitOnce '-' part with
  | some (lo, hi) =>
      match parsePort (Text.trim lo), parsePort (Text.trim hi) with
      | some lo, some hi => lo ≤ port.toNat && port.toNat ≤ hi
      | _, _ => false
  | none =>
      match parsePort part with
      | some p => p == port.toNat
      | none => false

/-- `FrpsConfig::port_allowed`: no list, or a blank one, allows every port. -/
def portAllowed (cfg : FrpsConfig) (port : UInt16) : Bool :=
  match cfg.allowPorts with
  | none => true
  | some spec =>
      if Text.trim spec.toList = [] then true
      else (Text.split (· == ',') spec.toList).any (partAllows port)

example : ({ allowPorts := some "6000-6100, 7000" } : FrpsConfig).portAllowed 7000 = true := by
  decide
example : ({ allowPorts := some "6000-6100, 7000" } : FrpsConfig).portAllowed 6101 = false := by
  decide

end FrpsConfig

end Remgr.Frps
