/-
Module: Remgr.Console.Config
Purpose: The configuration of `remgr/src/config.rs` with its sections, the text `Config::save` writes,
  and the changes the console makes to it: `put_config`, `point_service_at_cert`, `change_password`,
  `set_enabled_flag` and `pin_token`.
Trusted boundary: the `toml` writer, serde's readers of the sections, the password hasher and the
  platform's paths are parameters
Main exports: Config, World, Config.serialize, putConfig, Edit, Edit.apply, Config.setEnabledFlag,
  Op.apply
-/
import Remgr.Frps.Config
import Remgr.Frpc.Config
import Remgr.Lib.IpParse
import Remgr.Lib.Json

namespace Remgr.Console

open Remgr.Lib

/-! ## The sections -/

structure ConsoleConfig where
  port : UInt16 := 9443
  username : String := "admin"
  passwordHash : String := ""
  tls : Bool := false
  tlsCert : String
  tlsKey : String
  sessionTtl : UInt64 := 7 * 24 * 3600
deriving Repr, DecidableEq

structure EasyTierConfig where
  enabled : Bool := true
  configServerPort : UInt16 := 22020
  apiAddr : String := "127.0.0.1"
  apiPort : UInt16 := 11211
  dbPath : String
  nodeEnabled : Bool := true
  nodeName : String := "remgr-node"
  networkName : String := ""
  networkSecret : String := ""
  virtualIpv4 : String := ""
  listeners : List String :=
    ["tcp://0.0.0.0:11010", "udp://0.0.0.0:11010", "wg://0.0.0.0:11011", "ws://0.0.0.0:11011/",
      "wss://0.0.0.0:11012/", "faketcp://0.0.0.0:11013"]
deriving Repr, DecidableEq

structure StunTurnConfig where
  enabled : Bool := true
  bindAddr : String := "0.0.0.0"
  stunPort : UInt16 := 3478
  turnEnabled : Bool := true
  tlsPort : UInt16 := 5349
  domain : String := ""
  relayMinPort : UInt16 := 49152
  relayMaxPort : UInt16 := 65535
  externalIp : String := ""
  users : List String := []
  realm : String := "remgr"
  certPath : String
  keyPath : String
deriving Repr, DecidableEq

structure RustDeskConfig where
  enabled : Bool := true
  key : String := ""
  relayPort : UInt16 := 21117
  hbbsPort : UInt16 := 21116
deriving Repr, DecidableEq

/-- `remgr_frps::FrpsConfig` with the fields only the console and the listener read. -/
structure FrpsSection extends Frps.FrpsConfig where
  enabled : Bool := true
  tlsCertPath : Option String := some "/etc/remgr/ssl/frps_cert.pem"
  tlsKeyPath : Option String := some "/etc/remgr/ssl/frps_key.pem"
  cryptoSalt : String := "frp"
deriving Repr, DecidableEq

/-- `Config`, without the path it was read from, which never changes. -/
structure Config where
  console : ConsoleConfig
  easytier : EasyTierConfig
  stunTurn : StunTurnConfig
  rustdesk : RustDeskConfig
  frps : FrpsSection
  frpc : Frpc.FrpcConfig
deriving Repr, DecidableEq

/-- What the console takes as it is: `toml::to_string_pretty` and `Config::load` on the text of a
file, `serde_json::from_value` for each section, `{:?}` of a string, `verify_password`, and what the
platform says about paths. -/
structure World where
  toStringPretty : Config → Except String (List UInt8)
  load : List UInt8 → Option Config
  consoleFromValue : Json → Except String ConsoleConfig
  easytierFromValue : Json → Except String EasyTierConfig
  stunTurnFromValue : Json → Except String StunTurnConfig
  rustdeskFromValue : Json → Except String RustDeskConfig
  frpsFromValue : Json → Except String FrpsSection
  frpcFromValue : Json → Except String Frpc.FrpcConfig
  debug : String → String
  verifyPassword : String → String → Bool
  isAbsolute : String → Bool
  pathIsVisible : String → Bool
  certDir : String

/-- The text `Config::save` writes: a line end is added when there is none. -/
def Config.serialize (w : World) (cfg : Config) : Except String (List UInt8) :=
  (w.toStringPretty cfg).map fun out => if out.getLast? = some 10 then out else out ++ [10]

/-! ## Changes -/

/-- `api_error`: the status and the text of the answer. -/
structure ApiError where
  status : Nat
  error : String
deriving Repr, DecidableEq

/-- What `edit_config` is asked to do to the configuration. -/
inductive Edit where
  | console (console : ConsoleConfig)
  | service (service : String) (value : Json)
  | cert (service certPath keyPath : String)
  | password (newHash : String)

/-- The closures `edit_config` is called with. -/
def Edit.apply (w : World) (cfg : Config) : Edit → Except String Config
  -- the password has its own endpoint
  | .console wanted =>
      .ok { cfg with console := { wanted with passwordHash := cfg.console.passwordHash } }
  | .service "easytier" value => do
      let parsed ← w.easytierFromValue value
      if (IpAddr.parse parsed.apiAddr.toList).isNone then
        .error ("api_addr must be an IP address (the console proxies /et to it): " ++
          w.debug parsed.apiAddr)
      else .ok { cfg with easytier := parsed }
  | .service "stun_turn" value => do .ok { cfg with stunTurn := ← w.stunTurnFromValue value }
  | .service "rustdesk" value => do .ok { cfg with rustdesk := ← w.rustdeskFromValue value }
  | .service "frps" value => do .ok { cfg with frps := ← w.frpsFromValue value }
  | .service "frpc" value => do .ok { cfg with frpc := ← w.frpcFromValue value }
  | .service _ _ => .error "unknown service"
  | .cert "turn" certPath keyPath | .cert "stun_turn" certPath keyPath =>
      .ok { cfg with stunTurn := { cfg.stunTurn with certPath := certPath, keyPath := keyPath } }
  | .cert "frps" certPath keyPath =>
      .ok { cfg with
        frps := { cfg.frps with tlsCertPath := some certPath, tlsKeyPath := some keyPath } }
  | .cert "console" certPath keyPath =>
      .ok { cfg with console := { cfg.console with tlsCert := certPath, tlsKey := keyPath } }
  | .cert _ _ _ => .ok cfg
  | .password newHash =>
      .ok { cfg with console := { cfg.console with passwordHash := newHash } }

/-- `VISIBLE_ROOTS`. -/
def visibleRoots : List String :=
  ["/var/lib/remgr", "/etc/remgr", "/var/db/remgr", "/var/log/remgr", "/var/run/remgr", "/etc/ssl"]

/-- `str::contains("..")`. -/
def hasDots (path : String) : Bool := path.toList.tails.any (['.', '.'].isPrefixOf ·)

/-- The checks of `put_config` on one path of the console's certificate. -/
def checkTlsPath (w : World) (what path : String) : Except ApiError Unit :=
  if !w.isAbsolute path || hasDots path then .error ⟨400, what ++ " must be an absolute path"⟩
  else if !w.pathIsVisible path then
    .error ⟨400, what ++ " is outside the sandbox's readable trees (" ++
      ", ".intercalate visibleRoots ++ ") — put the certificate under " ++ w.certDir⟩
  else .ok ()

/-- The checks of `put_config` on the console's own section. -/
def checkConsole (w : World) (console : ConsoleConfig) : Except ApiError Unit :=
  if console.port = 0 then .error ⟨400, "console port must not be 0"⟩
  else if Text.trim console.username.toList = [] then
    .error ⟨400, "console username must not be empty"⟩
  else if console.sessionTtl = 0 then .error ⟨400, "session_ttl must not be 0"⟩
  else if console.tls then
    if Text.trim console.tlsCert.toList = [] ∨ Text.trim console.tlsKey.toList = [] then
      .error ⟨400, "TLS needs both a certificate and a key path"⟩
    else do
      checkTlsPath w "tls_cert" console.tlsCert
      checkTlsPath w "tls_key" console.tlsKey
  else .ok ()

/-- The names `AppState::module` knows. -/
def moduleNames : List String := ["easytier", "stun_turn", "rustdesk", "frps", "frpc"]

/-- `put_config` up to its `edit_config`: what it asks for, or the answer it gives at once. -/
def putConfig (w : World) (service : String) : Json → Except ApiError Edit
  | .obj [] =>
      .error ⟨400, "empty body: PUT replaces the whole section, send the complete config"⟩
  | value =>
      if service = "console" then
        match w.consoleFromValue value with
        | .error e => .error ⟨400, e⟩
        | .ok console => do
            checkConsole w console
            .ok (.console console)
      else if service ∈ moduleNames then .ok (.service service value)
      else .error ⟨404, "unknown service"⟩

/-- The fields `point_service_at_cert` says it has set; it does nothing when there are none. -/
def certFields : String → List String
  | "turn" | "stun_turn" => ["stun_turn.cert_path", "stun_turn.key_path"]
  | "frps" => ["frps.tls_cert_path", "frps.tls_key_path"]
  | "console" => ["console.tls_cert", "console.tls_key"]
  | _ => []

/-- `set_enabled_flag`, or nothing when the service is not one the console knows. -/
def Config.setEnabledFlag (cfg : Config) (enabled : Bool) : String → Option Config
  | "easytier" => some { cfg with easytier := { cfg.easytier with enabled := enabled } }
  | "stun_turn" => some { cfg with stunTurn := { cfg.stunTurn with enabled := enabled } }
  | "rustdesk" => some { cfg with rustdesk := { cfg.rustdesk with enabled := enabled } }
  | "frps" => some { cfg with frps := { cfg.frps with enabled := enabled } }
  | "frpc" => some { cfg with frpc := { cfg.frpc with enabled := enabled } }
  | _ => none

/-- The change `FrpsModule::pin_token` makes. -/
def Config.pinToken (cfg : Config) (token : String) : Config :=
  { cfg with frps := { cfg.frps with token := token } }

/-- An operation on the configuration: one of the edits of `edit_config`, `set_enabled` or
`pin_token`. -/
inductive Op where
  | edit (edit : Edit)
  | enable (service : String) (enabled : Bool)
  | pin (token : String)

/-- The configuration after the operation, unless it is refused. -/
def Op.apply (w : World) (cfg : Config) : Op → Option Config
  | edit e => (e.apply w cfg).toOption
  | enable service enabled => cfg.setEnabledFlag enabled service
  | pin token => some (cfg.pinToken token)

end Remgr.Console
