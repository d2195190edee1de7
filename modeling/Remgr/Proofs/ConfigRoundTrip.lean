/-
Module: Remgr.Proofs.ConfigRoundTrip
Purpose: What a save writes, a load reads back. Every section is read back as it was written; a frps
  certificate path that is the unix default is replaced on load, so the configuration survives
  exactly if that replacement changes nothing.
Trusted boundary: as in `Remgr.Console.Persist`; the theorem assumes of the `toml` crate that it
  reads back what it wrote, and of serde's JSON reader that it runs the same readers of the sections
Main exports: Toml.RoundTrips, Edited, Spared, config_survives
-/
import Remgr.Console.Persist
import Remgr.Proofs.ConfigParts
import Remgr.Proofs.ConsoleShape

namespace Remgr.Console

open Remgr.Lib
open Remgr.Lib.Json

/-! ## Members -/

section Members

variable {names : List String} {name : String} {fields : List (String × Option Json)}

theorem readField_written {α : Type} {value : Json} {decode : Json → Option α} {result : α}
    (default : α)
    (only : (fields.filter fun other => names.contains other.1) = [(name, some value)])
    (decoded : decode value = some result) :
    readField (present fields) names decode default = some result := by
  rw [readField_of_filter decode default only]
  exact decoded

theorem readField_optField (value : Option String)
    (only : (fields.filter fun other => names.contains other.1) = [optField name value]) :
    readField (present fields) names (asOption asString) none = some value := by
  rw [readField_of_filter _ _ only]
  cases value <;> rfl

theorem asPath_path {path : Option String} (named : path ≠ some "") :
    asPath (.str (path.getD "")) = some path := by
  cases path with
  | none => rfl
  | some text =>
      have filled : text ≠ "" := fun empty => named (congrArg some empty)
      simp [asPath, asOption, asString, Option.filter, filled]

end Members

/-! ## Sections -/

theorem ConsoleConfig.fromValue_toValue (p : Platform) (c : ConsoleConfig) :
    ConsoleConfig.fromValue p c.toValue = some c := by
  refine readNext rfl ?_
  refine readNext (readField_written _ rfl (asU16_num c.port)) ?_
  refine readNext (readField_written _ rfl rfl) ?_
  refine readNext (readField_written _ rfl rfl) ?_
  refine readNext (readField_written _ rfl rfl) ?_
  refine readNext (readField_written _ rfl rfl) ?_
  refine readNext (readField_written _ rfl rfl) ?_
  refine readNext (readField_written _ rfl (asU64_num c.sessionTtl)) ?_
  rfl

theorem EasyTierConfig.fromValue_toValue (p : Platform) (c : EasyTierConfig) :
    EasyTierConfig.fromValue p c.toValue = some c := by
  refine readNext rfl ?_
  refine readNext (readField_written _ rfl rfl) ?_
  refine readNext (readField_written _ rfl (asU16_num c.configServerPort)) ?_
  refine readNext (readField_written _ rfl rfl) ?_
  refine readNext (readField_written _ rfl (asU16_num c.apiPort)) ?_
  refine readNext (readField_written _ rfl rfl) ?_
  refine readNext (readField_written _ rfl rfl) ?_
  refine readNext (readField_written _ rfl rfl) ?_
  refine readNext (readField_written _ rfl rfl) ?_
  refine readNext (readField_written _ rfl rfl) ?_
  refine readNext (readField_written _ rfl rfl) ?_
  refine readNext (readField_written _ rfl (asList_map asString_str c.listeners)) ?_
  rfl

theorem StunTurnConfig.fromValue_toValue (p : Platform) (c : StunTurnConfig) :
    StunTurnConfig.fromValue p c.toValue = some c := by
  refine readNext rfl ?_
  refine readNext (readField_written _ rfl rfl) ?_
  refine readNext (readField_written _ rfl rfl) ?_
  refine readNext (readField_written _ rfl (asU16_num c.stunPort)) ?_
  refine readNext (readField_written _ rfl rfl) ?_
  refine readNext (readField_written _ rfl (asU16_num c.tlsPort)) ?_
  refine readNext (readField_written _ rfl rfl) ?_
  refine readNext (readField_written _ rfl (asU16_num c.relayMinPort)) ?_
  refine readNext (readField_written _ rfl (asU16_num c.relayMaxPort)) ?_
  refine readNext (readField_written _ rfl rfl) ?_
  refine readNext (readField_written _ rfl (asList_map asString_str c.users)) ?_
  refine readNext (readField_written _ rfl rfl) ?_
  refine readNext (readField_written _ rfl rfl) ?_
  refine readNext (readField_written _ rfl rfl) ?_
  rfl

theorem RustDeskConfig.fromValue_toValue (c : RustDeskConfig) :
    RustDeskConfig.fromValue c.toValue = some c := by
  refine readNext rfl ?_
  refine readNext (readField_written _ rfl rfl) ?_
  refine readNext (readField_written _ rfl rfl) ?_
  refine readNext (readField_written _ rfl (asU16_num c.relayPort)) ?_
  refine readNext (readField_written _ rfl (asU16_num c.hbbsPort)) ?_
  rfl

/-- No path is the empty text, which is how a file says that there is none. -/
def PathsNamed (c : FrpsSection) : Prop := c.tlsCertPath ≠ some "" ∧ c.tlsKeyPath ≠ some ""

theorem FrpsSection.fromValue_toValue {c : FrpsSection} (named : PathsNamed c) :
    FrpsSection.fromValue c.toValue = some c := by
  refine readNext rfl ?_
  refine readNext (readField_written _ rfl rfl) ?_
  refine readNext (readField_written _ rfl rfl) ?_
  refine readNext (readField_written _ rfl (asU16_num c.serverPort)) ?_
  refine readNext (readField_written _ rfl rfl) ?_
  refine readNext (readField_written _ rfl rfl) ?_
  refine readNext (readField_written _ rfl (asPath_path named.1)) ?_
  refine readNext (readField_written _ rfl (asPath_path named.2)) ?_
  refine readNext (readField_written _ rfl (asU32_num c.maxPoolCount)) ?_
  refine readNext (readField_written _ rfl (asU64_num c.heartbeatTimeout)) ?_
  refine readNext (readField_optField c.allowPorts rfl) ?_
  refine readNext (readField_written _ rfl rfl) ?_
  rfl

theorem proxyFromValue_proxyToValue (debug : String → String) (c : Frpc.FrpcProxyConfig) :
    proxyFromValue debug (proxyToValue c) = some c := by
  refine readNext rfl ?_
  refine readNext (readField_written _ rfl rfl) ?_
  refine readNext (readField_written _ rfl rfl) ?_
  refine readNext (readField_written _ rfl rfl) ?_
  refine readNext (readField_written _ rfl (asU16_num c.localPort)) ?_
  refine readNext (readField_written _ rfl (asU16_num c.remotePort)) ?_
  rfl

theorem frpcFromValue_frpcToValue (debug : String → String) (c : Frpc.FrpcConfig) :
    frpcFromValue debug (frpcToValue c) = some c := by
  refine readNext rfl ?_
  refine readNext (readField_written _ rfl rfl) ?_
  refine readNext (readField_written _ rfl rfl) ?_
  refine readNext (readField_written _ rfl (asU16_num c.serverPort)) ?_
  refine readNext (readField_written _ rfl rfl) ?_
  refine readNext (readField_written _ rfl rfl) ?_
  refine readNext (readField_optField c.trustedCaFile rfl) ?_
  refine readNext (readField_written _ rfl rfl) ?_
  refine readNext (readField_written _ rfl rfl) ?_
  refine readNext (readField_written _ rfl (asU64_num c.connectTimeout)) ?_
  refine readNext (readField_written _ rfl (asU32_num c.poolCount)) ?_
  refine readNext (readField_written _ rfl
    (asList_map (proxyFromValue_proxyToValue debug) c.proxies)) ?_
  rfl

theorem Config.fromValue_toValue (p : Platform) (debug : String → String) {cfg : Config}
    (named : PathsNamed cfg.frps) : Config.fromValue p debug cfg.toValue = some cfg := by
  refine readNext rfl ?_
  refine readNext (readField_written _ rfl (cfg.console.fromValue_toValue p)) ?_
  refine readNext (readField_written _ rfl (cfg.easytier.fromValue_toValue p)) ?_
  refine readNext (readField_written _ rfl (cfg.stunTurn.fromValue_toValue p)) ?_
  refine readNext (readField_written _ rfl cfg.rustdesk.fromValue_toValue) ?_
  refine readNext (readField_written _ rfl (FrpsSection.fromValue_toValue named)) ?_
  refine readNext (readField_written _ rfl (frpcFromValue_frpcToValue debug cfg.frpc)) ?_
  rfl

/-! ## Configurations the console can have -/

/-- What the crate writes it reads back, also with one more line end. -/
def Toml.RoundTrips (toml : Toml) : Prop :=
  ∀ value out, toml.toStringPretty value = .ok out →
    toml.fromStr out = some value ∧ toml.fromStr (out ++ [10]) = some value

/-- `serde_json` reads the frps section with the readers of its fields. -/
def World.ReadsFrps (w : World) : Prop :=
  ∀ value frps, w.frpsFromValue value = .ok frps → FrpsSection.fromValue value = some frps

/-- The operations as the console makes them: certificates are written to the certificate
directory. -/
def Op.Issued (p : Platform) : Op → Prop
  | .edit (.cert service certPath keyPath) =>
      certPath = p.pathInCertDir (service ++ "_cert.pem") ∧
        keyPath = p.pathInCertDir (service ++ "_key.pem")
  | _ => True

/-- A loaded configuration, after any number of changes. -/
inductive Edited (toml : Toml) (p : Platform) (w : World) : Config → Prop where
  | loaded {file : Option (List UInt8)} {cfg : Config}
      (read : Config.load toml p w.debug file = some cfg) :
      Edited toml p w cfg
  | changed {cfg cfg' : Config} {op : Op} (before : Edited toml p w cfg) (issued : op.Issued p)
      (applied : op.apply w cfg = some cfg') : Edited toml p w cfg'

theorem asPath_named {value : Json} {path : Option String} (read : asPath value = some path) :
    path ≠ some "" := by
  obtain ⟨inner, -, rfl⟩ := Option.map_eq_some_iff.mp read
  intro empty
  simpa using (Option.filter_eq_some_iff.mp empty).2

theorem readField_asPath {members : List (String × Json)} {names : List String}
    {default path : Option String} (named : default ≠ some "")
    (read : readField members names asPath default = some path) : path ≠ some "" := by
  unfold readField at read
  split at read
  · cases read
    exact named
  · exact asPath_named read
  · cases read

theorem FrpsSection.named_of_fromValue {value : Json} {c : FrpsSection}
    (read : FrpsSection.fromValue value = some c) : PathsNamed c := by
  obtain ⟨m, -, read⟩ := Option.bind_eq_some_iff.mp read
  obtain ⟨enabled, -, read⟩ := Option.bind_eq_some_iff.mp read
  obtain ⟨bindAddr, -, read⟩ := Option.bind_eq_some_iff.mp read
  obtain ⟨serverPort, -, read⟩ := Option.bind_eq_some_iff.mp read
  obtain ⟨token, -, read⟩ := Option.bind_eq_some_iff.mp read
  obtain ⟨tcpMux, -, read⟩ := Option.bind_eq_some_iff.mp read
  obtain ⟨tlsCertPath, cert, read⟩ := Option.bind_eq_some_iff.mp read
  obtain ⟨tlsKeyPath, key, read⟩ := Option.bind_eq_some_iff.mp read
  obtain ⟨maxPoolCount, -, read⟩ := Option.bind_eq_some_iff.mp read
  obtain ⟨heartbeatTimeout, -, read⟩ := Option.bind_eq_some_iff.mp read
  obtain ⟨allowPorts, -, read⟩ := Option.bind_eq_some_iff.mp read
  obtain ⟨cryptoSalt, -, read⟩ := Option.bind_eq_some_iff.mp read
  cases read
  exact ⟨readField_asPath (by decide) cert, readField_asPath (by decide) key⟩

theorem FrpsSection.default_named : PathsNamed {} := ⟨by decide, by decide⟩

theorem replacePath_named {unix mine : String} {slot : Option String} (filled : mine ≠ "")
    (named : slot ≠ some "") : replacePath unix mine slot ≠ some "" := by
  unfold replacePath
  split
  · simpa using filled
  · exact named

theorem Config.named_of_fromValue {p : Platform} {debug : String → String} {value : Json} {cfg : Config}
    (read : Config.fromValue p debug value = some cfg) : PathsNamed cfg.frps := by
  obtain ⟨m, -, read⟩ := Option.bind_eq_some_iff.mp read
  obtain ⟨console, -, read⟩ := Option.bind_eq_some_iff.mp read
  obtain ⟨easytier, -, read⟩ := Option.bind_eq_some_iff.mp read
  obtain ⟨stunTurn, -, read⟩ := Option.bind_eq_some_iff.mp read
  obtain ⟨rustdesk, -, read⟩ := Option.bind_eq_some_iff.mp read
  obtain ⟨frps, section', read⟩ := Option.bind_eq_some_iff.mp read
  obtain ⟨frpc, -, read⟩ := Option.bind_eq_some_iff.mp read
  cases read
  unfold readField at section'
  split at section'
  · cases section'
    exact FrpsSection.default_named
  · exact FrpsSection.named_of_fromValue section'
  · cases section'

theorem Config.named_of_load {toml : Toml} {p : Platform} {debug : String → String}
    {file : Option (List UInt8)} {cfg : Config} (read : Config.load toml p debug file = some cfg) :
    PathsNamed cfg.frps := by
  obtain ⟨raw, got, rfl⟩ := Option.map_eq_some_iff.mp read
  have named : PathsNamed raw.frps := by
    cases file with
    | none =>
        cases got
        exact FrpsSection.default_named
    | some bytes =>
        obtain ⟨value, -, read⟩ := Option.bind_eq_some_iff.mp got
        exact Config.named_of_fromValue read
  exact ⟨replacePath_named (p.named _ (by decide)) named.1,
    replacePath_named (p.named _ (by decide)) named.2⟩

/-- No operation of the console makes a path the empty text. -/
theorem Op.named {p : Platform} {w : World} (reads : w.ReadsFrps) {op : Op} {cfg cfg' : Config}
    (issued : op.Issued p) (applied : op.apply w cfg = some cfg') (named : PathsNamed cfg.frps) :
    PathsNamed cfg'.frps := by
  obtain ⟨write, writes, rfl⟩ := Op.apply_writes applied
  cases writes with
  | frps read => exact FrpsSection.named_of_fromValue (reads _ _ read)
  | frpsCert certPath keyPath =>
      obtain ⟨rfl, rfl⟩ := issued
      have filled : ∀ name, name ≠ "" → some (p.pathInCertDir name) ≠ some "" :=
        fun name nonempty same => p.named name nonempty (Option.some.inj same)
      exact ⟨filled _ (by decide), filled _ (by decide)⟩
  | _ => exact named

theorem Edited.named {toml : Toml} {p : Platform} {w : World} (reads : w.ReadsFrps) {cfg : Config}
    (edited : Edited toml p w cfg) : PathsNamed cfg.frps := by
  induction edited with
  | loaded read => exact Config.named_of_load read
  | changed _ issued applied inductionHypothesis =>
      exact Op.named reads issued applied inductionHypothesis

/-! ## Save, then load -/

/-- The replacement `load` makes changes nothing: a path that is the unix default is the platform's
own path, too. -/
def Spared (p : Platform) (cfg : Config) : Prop :=
  (cfg.frps.tlsCertPath = some unixCert → p.pathInCertDir "frps_cert.pem" = unixCert) ∧
    (cfg.frps.tlsKeyPath = some unixKey → p.pathInCertDir "frps_key.pem" = unixKey)

theorem replacePath_eq_self {unix mine : String} {slot : Option String} :
    replacePath unix mine slot = slot ↔ (slot = some unix → mine = unix) := by
  unfold replacePath
  split
  · next same => simp [same]
  · next other => simp [other]

theorem applyPlatformDefaults_eq_self {p : Platform} {cfg : Config} :
    cfg.applyPlatformDefaults p = cfg ↔ Spared p cfg := by
  rw [Spared, ← replacePath_eq_self, ← replacePath_eq_self]
  constructor
  · intro same
    have frps := congrArg Config.frps same
    exact ⟨congrArg FrpsSection.tlsCertPath frps, congrArg FrpsSection.tlsKeyPath frps⟩
  · rintro ⟨cert, key⟩
    rw [Config.applyPlatformDefaults, cert, key]

theorem Toml.fromStr_save {toml : Toml} (faithful : toml.RoundTrips) {cfg : Config} {out : List UInt8}
    (saved : cfg.save toml = .ok out) : toml.fromStr out = some cfg.toValue := by
  unfold Config.save at saved
  generalize cfg.toValue = value at saved ⊢
  cases text : toml.toStringPretty value with
  | error e =>
      rw [text] at saved
      cases saved
  | ok written =>
      have ⟨plain, ended⟩ := faithful _ _ text
      rw [text] at saved
      cases saved
      dsimp only
      split
      · exact plain
      · exact ended

theorem Config.load_save {toml : Toml} (faithful : toml.RoundTrips) (p : Platform)
    (debug : String → String) {cfg : Config} (named : PathsNamed cfg.frps) {out : List UInt8}
    (saved : cfg.save toml = .ok out) :
    Config.load toml p debug (some out) = some (cfg.applyPlatformDefaults p) := by
  have value := Toml.fromStr_save faithful saved
  have read := Config.fromValue_toValue p debug named
  generalize cfg.toValue = written at value read
  unfold Config.load
  dsimp only
  rw [value, Option.bind_some, read, Option.map_some]

/-! ## Two files to look at -/

/-- An array of tables, or an empty array. -/
def proxyLines : List Frpc.FrpcProxyConfig → List String
  | [] => ["proxies = []"]
  | proxies =>
      proxies.flatMap fun p =>
        ["", "[[frpc.proxies]]", "name = \"" ++ p.name ++ "\"", "type = \"" ++ p.proxyType ++ "\"",
          "local_ip = \"" ++ p.localIp ++ "\"", "local_port = " ++ toString p.localPort.toNat,
          "remote_port = " ++ toString p.remotePort.toNat]

/-- The file of a configuration with the platform's directories, sections of frps and frpc of its
own and the defaults elsewhere. -/
def savedLines (ssl lib : String) (frps : FrpsSection) (frpc : Frpc.FrpcConfig) : List String :=
  ["[console]", "port = 9443", "username = \"admin\"", "password_hash = \"\"", "tls = false",
    "tls_cert = \"" ++ ssl ++ "console_cert.pem\"", "tls_key = \"" ++ ssl ++ "console_key.pem\"",
    "session_ttl = 604800", "",
    "[easytier]", "enabled = true", "config_server_port = 22020", "api_addr = \"127.0.0.1\"",
    "api_port = 11211", "db_path = \"" ++ lib ++ "easytier/et.db\"", "node_enabled = true",
    "node_name = \"remgr-node\"", "network_name = \"\"", "network_secret = \"\"",
    "virtual_ipv4 = \"\"", "listeners = [", "    \"tcp://0.0.0.0:11010\",",
    "    \"udp://0.0.0.0:11010\",", "    \"wg://0.0.0.0:11011\",", "    \"ws://0.0.0.0:11011/\",",
    "    \"wss://0.0.0.0:11012/\",", "    \"faketcp://0.0.0.0:11013\",", "]", "",
    "[stun_turn]", "enabled = true", "bind_addr = \"0.0.0.0\"", "stun_port = 3478",
    "turn_enabled = true", "tls_port = 5349", "domain = \"\"", "relay_min_port = 49152",
    "relay_max_port = 65535", "external_ip = \"\"", "users = []", "realm = \"remgr\"",
    "cert_path = \"" ++ ssl ++ "turn_cert.pem\"", "key_path = \"" ++ ssl ++ "turn_key.pem\"", "",
    "[rustdesk]", "enabled = true", "key = \"\"", "relay_port = 21117", "hbbs_port = 21116", "",
    "[frps]", "enabled = true", "bind_addr = \"0.0.0.0\"", "server_port = 7000",
    "token = \"" ++ frps.token ++ "\"",
    "tcp_mux = true", "tls_cert_path = \"" ++ frps.tlsCertPath.getD "" ++ "\"",
    "tls_key_path = \"" ++ frps.tlsKeyPath.getD "" ++ "\"", "max_pool_count = 50",
    "heartbeat_timeout = 90",
    "crypto_salt = \"frp\"", "",
    "[frpc]", "enabled = false", "server_addr = \"" ++ frpc.serverAddr ++ "\"",
    "server_port = 7000", "token = \"\"", "tls = false", "server_name = \"\"", "tcp_mux = true",
    "connect_timeout = 10", "pool_count = 5"] ++ proxyLines frpc.proxies

/-- The text ends its last line. -/
def savedBytes (ssl lib : String) (frps : FrpsSection) (frpc : Frpc.FrpcConfig) : List UInt8 :=
  utf8 ("\n".intercalate (savedLines ssl lib frps frpc)) ++ [10]

open Classical in
/-- The crate on one value and its text. -/
noncomputable def tomlOf (value : Json) (text : List UInt8) : Toml where
  toStringPretty other := if other = value then .ok text else .error "unsupported value"
  fromStr bytes := if bytes = text ∨ bytes = text ++ [10] then some value else none

theorem tomlOf_roundTrips (value : Json) (text : List UInt8) : (tomlOf value text).RoundTrips := by
  intro other out written
  simp only [tomlOf] at written ⊢
  split at written
  · next same =>
      cases written
      simp [same]
  · cases written

theorem save_tomlOf (cfg : Config) (ssl lib : String) (frps : FrpsSection)
    (frpc : Frpc.FrpcConfig) :
    cfg.save (tomlOf cfg.toValue (savedBytes ssl lib frps frpc)) =
      .ok (savedBytes ssl lib frps frpc) := by
  simp [Config.save, tomlOf, Except.map, savedBytes]

def platformAt (ssl lib : String) : Platform where
  pathInCertDir name := ssl ++ name
  dbPath := lib ++ "easytier/et.db"
  named := by
    intro name nonempty empty
    exact nonempty (String.append_eq_empty_iff.mp empty).2

/-- `REMGR_HOME` is `/srv/remgr`. -/
def relocatedPlatform : Platform := platformAt "/srv/remgr/ssl/" "/srv/remgr/lib/"

def jsonWorld : World :=
  { sampleWorld with
    frpsFromValue := fun value =>
      match FrpsSection.fromValue value with
      | some frps => .ok frps
      | none => .error "invalid type"
    frpcFromValue := fun value =>
      match frpcFromValue sampleWorld.debug value with
      | some frpc => .ok frpc
      | none => .error "invalid type" }

theorem jsonWorld_readsFrps : jsonWorld.ReadsFrps := by
  intro value frps read
  unfold jsonWorld at read
  dsimp only at read
  split at read
  · next parsed =>
      cases read
      exact parsed
  · cases read

/-- The section an operator sends who asks for the certificate of the host. -/
def hostCertSection : FrpsSection :=
  { tlsCertPath := some unixCert, tlsKeyPath := some "/srv/remgr/ssl/frps_key.pem" }

/-- What the console under another root then has. -/
def relocatedConfig : Config := { Config.default relocatedPlatform with frps := hostCertSection }

theorem hostCertSection_named : PathsNamed hostCertSection := ⟨by decide, by decide⟩

theorem frpsEdit_applied {frps : FrpsSection} (named : PathsNamed frps) (cfg : Config) :
    Op.apply jsonWorld cfg (.edit (.service "frps" frps.toValue)) =
      some { cfg with frps := frps } := by
  have read : jsonWorld.frpsFromValue frps.toValue = .ok frps := by
    unfold jsonWorld
    dsimp only
    rw [FrpsSection.fromValue_toValue named]
  simp only [Op.apply, Edit.apply, read, bind, Except.bind, Except.toOption]

theorem frpcEdit_applied (frpc : Frpc.FrpcConfig) (cfg : Config) :
    Op.apply jsonWorld cfg (.edit (.service "frpc" (frpcToValue frpc))) =
      some { cfg with frpc := frpc } := by
  have read : jsonWorld.frpcFromValue (frpcToValue frpc) = .ok frpc := by
    unfold jsonWorld
    dsimp only
    rw [frpcFromValue_frpcToValue]
  simp only [Op.apply, Edit.apply, read, bind, Except.bind, Except.toOption]

/-- A new console under another root has its own paths. -/
theorem relocated_loaded (toml : Toml) : Edited toml relocatedPlatform jsonWorld
    ((Config.default relocatedPlatform).applyPlatformDefaults relocatedPlatform) :=
  .loaded (show Config.load toml relocatedPlatform jsonWorld.debug none = _ from rfl)

/-- A certificate at a path of the operator's, and no key. -/
def ownCertSection : FrpsSection :=
  { tlsCertPath := some "/srv/remgr/ssl/own.pem", tlsKeyPath := none }

theorem ownCertSection_named : PathsNamed ownCertSection := ⟨by decide, by decide⟩

/-- An upstream with two proxies. -/
def ownFrpc : Frpc.FrpcConfig :=
  { serverAddr := "frp.lan"
    proxies := [{ name := "ssh", localPort := 22, remotePort := 6000 },
      { name := "dns", proxyType := "udp", localPort := 53, remotePort := 6053 }] }

/-- What the console under another root has after edits of both sections, with a token. -/
def editedConfig : Config :=
  { Config.default relocatedPlatform with
    frps := { ownCertSection with token := "s3cret" }
    frpc := ownFrpc }

theorem editedConfig_edited (toml : Toml) :
    Edited toml relocatedPlatform jsonWorld editedConfig := by
  have certs := Edited.changed (relocated_loaded toml) (by trivial)
    (frpsEdit_applied ownCertSection_named _)
  have proxies := Edited.changed certs (by trivial) (frpcEdit_applied ownFrpc _)
  exact .changed proxies (by trivial) (show Op.apply _ _ (.pin "s3cret") = _ from rfl)

/-- A configuration the console can have comes back from its file exactly if `load` does not replace
one of its frps paths. -/
theorem config_survives (toml : Toml) (faithful : toml.RoundTrips) (p : Platform) (w : World)
    (reads : w.ReadsFrps) (cfg : Config) (edited : Edited toml p w cfg) (out : List UInt8)
    (saved : cfg.save toml = .ok out) :
    Config.load toml p w.debug (some out) = some cfg ↔ Spared p cfg := by
  rw [Config.load_save faithful p w.debug (edited.named reads) saved, Option.some.injEq]
  exact applyPlatformDefaults_eq_self

/-- Under another root, the paths an operator set and cleared, the proxies and the token come back.
-/
theorem config_survives_edited :
    let out := savedBytes "/srv/remgr/ssl/" "/srv/remgr/lib/" editedConfig.frps editedConfig.frpc
    let toml := tomlOf editedConfig.toValue out
    Edited toml relocatedPlatform jsonWorld editedConfig ∧ editedConfig.save toml = .ok out ∧
      Config.load toml relocatedPlatform jsonWorld.debug (some out) = some editedConfig := by
  intro out toml
  have saved : editedConfig.save toml = .ok out := save_tomlOf ..
  have spared : Spared relocatedPlatform editedConfig := ⟨by decide, by decide⟩
  refine ⟨editedConfig_edited toml, saved, ?_⟩
  exact (config_survives _ (tomlOf_roundTrips _ _) relocatedPlatform jsonWorld jsonWorld_readsFrps
    editedConfig (editedConfig_edited toml) out saved).mpr spared

/-- Under another root, the path an operator set is replaced by the next start. -/
theorem set_path_replaced : ∃ toml p w cfg out, Toml.RoundTrips toml ∧ World.ReadsFrps w ∧
    Edited toml p w cfg ∧ cfg.save toml = .ok out ∧
      Config.load toml p w.debug (some out) ≠ some cfg := by
  let out :=
    savedBytes "/srv/remgr/ssl/" "/srv/remgr/lib/" relocatedConfig.frps relocatedConfig.frpc
  let toml := tomlOf relocatedConfig.toValue out
  have faithful : toml.RoundTrips := tomlOf_roundTrips _ _
  have saved : relocatedConfig.save toml = .ok out := save_tomlOf ..
  have edited : Edited toml relocatedPlatform jsonWorld relocatedConfig :=
    .changed (relocated_loaded toml) (by trivial) (frpsEdit_applied hostCertSection_named _)
  refine ⟨toml, relocatedPlatform, jsonWorld, relocatedConfig, out, faithful, jsonWorld_readsFrps,
    edited, saved, ?_⟩
  rw [Config.load_save faithful relocatedPlatform jsonWorld.debug hostCertSection_named saved]
  intro same
  have spared := applyPlatformDefaults_eq_self.mp (Option.some.inj same)
  have path : relocatedPlatform.pathInCertDir "frps_cert.pem" = unixCert := spared.1 rfl
  exact absurd path (by decide)

end Remgr.Console
