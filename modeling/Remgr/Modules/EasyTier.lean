/-
Module: Remgr.Modules.EasyTier
Purpose: The document the EasyTier module hands to its instance manager: the five settings of the node
  put into the text of a TOML document.
Trusted boundary: none
Main exports: EasyTierConfig, isControl, tomlString, buildInstanceToml
-/
import Mathlib.Data.List.Basic

namespace Remgr.Modules.EasyTier

/-- What the document is made of. -/
structure EasyTierConfig where
  nodeName : String := "remgr-node"
  networkName : String := ""
  networkSecret : String := ""
  virtualIpv4 : String := ""
  listeners : List String := []
deriving Repr, DecidableEq

/-- `DEFAULT_NODE_NAME`. -/
def defaultNodeName : String := "remgr-node"

/-- `char::is_control`: the general category `Cc`. -/
def isControl (c : Char) : Bool := c.toNat ≤ 0x1F || (0x7F ≤ c.toNat && c.toNat ≤ 0x9F)

/-- What the loop of `toml_string` pushes for a character. -/
def quoteChar (c : Char) : List Char :=
  if c = '"' then ['\\', '"']
  else if c = '\\' then ['\\', '\\']
  else if isControl c then []
  else [c]

def tomlString (value : String) : String := String.ofList (value.toList.flatMap quoteChar)

/-- The name of the node: what is configured, or the default. -/
def nodeNameOf (cfg : EasyTierConfig) : String :=
  if cfg.nodeName = "" then defaultNodeName else cfg.nodeName

/-- The loop over the listeners. -/
def listenerLines (listeners : List String) : String :=
  listeners.foldl (fun out l => out ++ ("  \"" ++ tomlString l ++ "\",\n")) ""

/-- `ip_part`. -/
def ipPart (cfg : EasyTierConfig) : String :=
  if cfg.virtualIpv4 = "" then "dhcp = true"
  else "ipv4 = \"" ++ tomlString cfg.virtualIpv4 ++ "\"\ndhcp = false"

def buildInstanceToml (cfg : EasyTierConfig) : Except String String :=
  let host := tomlString (nodeNameOf cfg)
  let name := tomlString cfg.networkName
  let secret := tomlString cfg.networkSecret
  .ok ("listeners = [\n" ++ listenerLines cfg.listeners ++ "]\n" ++
    "instance_name = \"" ++ host ++ "\"\n" ++
    "hostname = \"" ++ host ++ "\"\n" ++
    ipPart cfg ++ "\n" ++
    "[network_identity]\n" ++
    "network_name = \"" ++ name ++ "\"\n" ++
    "network_secret = \"" ++ secret ++ "\"\n" ++
    "[flags]\n" ++
    "default_protocol = \"tcp\"\n" ++
    "latency_first = true\n")

end Remgr.Modules.EasyTier
