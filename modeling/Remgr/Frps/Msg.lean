/-
Module: Remgr.Frps.Msg
Purpose: The message types of `remgr-frps/src/msg.rs` with the serde attributes of every field, and
  `Message::decode`. A field lists its serialized name, when it is skipped, and what it defaults to.
Trusted boundary: the serde derive (field attributes mean what they say) and `serde_json`, whose
  parser is a parameter
Main exports: Login, NewProxy, UdpPacket, Message, Message.typeByte, Message.toJson,
  Message.decode, authKey
-/
import Remgr.Lib.Json
import Remgr.Frps.Frame

namespace Remgr.Frps

open Remgr.Lib
open Remgr.Lib.Json

/-! ## Type bytes -/

def TYPE_LOGIN : UInt8 := 111
def TYPE_LOGIN_RESP : UInt8 := 49
def TYPE_NEW_PROXY : UInt8 := 112
def TYPE_NEW_PROXY_RESP : UInt8 := 50
def TYPE_CLOSE_PROXY : UInt8 := 99
def TYPE_NEW_WORK_CONN : UInt8 := 119
def TYPE_REQ_WORK_CONN : UInt8 := 114
def TYPE_START_WORK_CONN : UInt8 := 115
def TYPE_NEW_VISITOR_CONN : UInt8 := 118
def TYPE_NEW_VISITOR_CONN_RESP : UInt8 := 51
def TYPE_PING : UInt8 := 104
def TYPE_PONG : UInt8 := 52
def TYPE_UDP_PACKET : UInt8 := 117

/-- `is_known_type`: every type byte frp defines, also those without a message here. -/
def isKnownType (typeByte : UInt8) : Bool :=
  [TYPE_LOGIN, TYPE_LOGIN_RESP, TYPE_NEW_PROXY, TYPE_NEW_PROXY_RESP, TYPE_CLOSE_PROXY,
    TYPE_NEW_WORK_CONN, TYPE_REQ_WORK_CONN, TYPE_START_WORK_CONN, TYPE_NEW_VISITOR_CONN,
    TYPE_NEW_VISITOR_CONN_RESP, TYPE_PING, TYPE_PONG, TYPE_UDP_PACKET].contains typeByte

/-! ## Members

One definition for each `skip_serializing_if` predicate the structs use. -/

/-- `skip_serializing_if = "String::is_empty"`. -/
def strMember (name value : String) : String × Option Json :=
  (name, if value = "" then none else some (.str value))

/-- `skip_serializing_if = "std::ops::Not::not"`. -/
def boolMember (name : String) (value : Bool) : String × Option Json :=
  (name, if !value then none else some (.bool value))

/-- `skip_serializing_if = "is_zero_i64"`. -/
def i64Member (name : String) (value : Int64) : String × Option Json :=
  (name, if value = 0 then none else some (.num value.toInt))

/-- `skip_serializing_if = "is_zero_u16"`. -/
def u16Member (name : String) (value : UInt16) : String × Option Json :=
  (name, if value = 0 then none else some (.num value.toNat))

/-- `skip_serializing_if = "Option::is_none"`. -/
def optMember {α : Type} (name : String) (encode : α → Json) (value : Option α) :
    String × Option Json :=
  (name, value.map encode)

@[simp] theorem strMember_name (name value : String) : (strMember name value).1 = name := rfl
@[simp] theorem boolMember_name (name : String) (value : Bool) :
    (boolMember name value).1 = name := rfl
@[simp] theorem i64Member_name (name : String) (value : Int64) :
    (i64Member name value).1 = name := rfl
@[simp] theorem u16Member_name (name : String) (value : UInt16) :
    (u16Member name value).1 = name := rfl
@[simp] theorem optMember_name {α : Type} (name : String) (encode : α → Json) (value : Option α) :
    (optMember name encode value).1 = name := rfl

/-! ## The structs

Every struct carries a container-level `#[serde(default)]`, so a missing field takes the default
of its type. -/

structure ClientSpec where
  clientType : String := ""
  alwaysAuthPass : Bool := false
deriving Repr, DecidableEq, Inhabited

structure Login where
  version : String := ""
  hostname : String := ""
  os : String := ""
  arch : String := ""
  user : String := ""
  privilegeKey : String := ""
  timestamp : Int64 := 0
  runId : String := ""
  clientId : String := ""
  metas : Option StrMap := none
  clientSpec : Option ClientSpec := none
  poolCount : Int64 := 0
deriving DecidableEq, Inhabited

structure LoginResp where
  version : String := ""
  runId : String := ""
  error : String := ""
deriving Repr, DecidableEq, Inhabited

structure NewProxy where
  proxyName : String := ""
  proxyType : String := ""
  useEncryption : Bool := false
  useCompression : Bool := false
  bandwidthLimit : String := ""
  bandwidthLimitMode : String := ""
  group : String := ""
  groupKey : String := ""
  metas : Option StrMap := none
  annotations : Option StrMap := none
  remotePort : Int64 := 0
  customDomains : Option (List String) := none
  subdomain : String := ""
  sk : String := ""
  multiplexer : String := ""
deriving DecidableEq, Inhabited

structure NewProxyResp where
  proxyName : String := ""
  remoteAddr : String := ""
  error : String := ""
deriving Repr, DecidableEq, Inhabited

structure CloseProxy where
  proxyName : String := ""
deriving Repr, DecidableEq, Inhabited

structure NewWorkConn where
  runId : String := ""
  privilegeKey : String := ""
  timestamp : Int64 := 0
deriving Repr, DecidableEq, Inhabited

structure ReqWorkConn where
deriving Repr, DecidableEq, Inhabited

structure StartWorkConn where
  proxyName : String := ""
  srcAddr : String := ""
  dstAddr : String := ""
  srcPort : UInt16 := 0
  dstPort : UInt16 := 0
  error : String := ""
deriving Repr, DecidableEq, Inhabited

structure Ping where
  privilegeKey : String := ""
  timestamp : Int64 := 0
deriving Repr, DecidableEq, Inhabited

structure Pong where
  error : String := ""
deriving Repr, DecidableEq, Inhabited

/-- Go's `net.UDPAddr`: capitalised names, with lower-case aliases accepted. -/
structure UdpAddrJson where
  ip : Option String := none
  port : UInt16 := 0
  zone : String := ""
deriving Repr, DecidableEq, Inhabited

structure UdpPacket where
  contentB64 : String := ""
  localAddr : Option UdpAddrJson := none
  remoteAddr : Option UdpAddrJson := none
deriving Repr, DecidableEq, Inhabited

inductive Message where
  | login (payload : Login)
  | loginResp (payload : LoginResp)
  | newProxy (payload : NewProxy)
  | newProxyResp (payload : NewProxyResp)
  | closeProxy (payload : CloseProxy)
  | newWorkConn (payload : NewWorkConn)
  | reqWorkConn (payload : ReqWorkConn)
  | startWorkConn (payload : StartWorkConn)
  | ping (payload : Ping)
  | pong (payload : Pong)
  | udpPacket (payload : UdpPacket)
deriving DecidableEq, Inhabited

/-! ## Serialization

`fields` lists the serialized names in declaration order, with the skipped ones as `none`. -/

def ClientSpec.fields (s : ClientSpec) : List (String × Option Json) :=
  [strMember "type" s.clientType, boolMember "always_auth_pass" s.alwaysAuthPass]

def ClientSpec.toJson (s : ClientSpec) : Json := .obj (present s.fields)

def Login.fields (order : IterOrder) (s : Login) : List (String × Option Json) := [
    strMember "version" s.version,
    strMember "hostname" s.hostname,
    strMember "os" s.os,
    strMember "arch" s.arch,
    strMember "user" s.user,
    strMember "privilege_key" s.privilegeKey,
    i64Member "timestamp" s.timestamp,
    strMember "run_id" s.runId,
    strMember "client_id" s.clientId,
    optMember "metas" (ofStrMap order "metas") s.metas,
    optMember "client_spec" ClientSpec.toJson s.clientSpec,
    i64Member "pool_count" s.poolCount]

def Login.toJson (order : IterOrder) (s : Login) : Json := .obj (present (s.fields order))

def LoginResp.fields (s : LoginResp) : List (String × Option Json) :=
  [strMember "version" s.version, strMember "run_id" s.runId, strMember "error" s.error]

def LoginResp.toJson (s : LoginResp) : Json := .obj (present s.fields)

def NewProxy.fields (order : IterOrder) (s : NewProxy) : List (String × Option Json) := [
    strMember "proxy_name" s.proxyName,
    strMember "proxy_type" s.proxyType,
    boolMember "use_encryption" s.useEncryption,
    boolMember "use_compression" s.useCompression,
    strMember "bandwidth_limit" s.bandwidthLimit,
    strMember "bandwidth_limit_mode" s.bandwidthLimitMode,
    strMember "group" s.group,
    strMember "group_key" s.groupKey,
    optMember "metas" (ofStrMap order "metas") s.metas,
    optMember "annotations" (ofStrMap order "annotations") s.annotations,
    i64Member "remote_port" s.remotePort,
    optMember "custom_domains" (fun domains => .arr (domains.map .str)) s.customDomains,
    strMember "subdomain" s.subdomain,
    strMember "sk" s.sk,
    strMember "multiplexer" s.multiplexer]

def NewProxy.toJson (order : IterOrder) (s : NewProxy) : Json := .obj (present (s.fields order))

def NewProxyResp.fields (s : NewProxyResp) : List (String × Option Json) := [
    strMember "proxy_name" s.proxyName,
    strMember "remote_addr" s.remoteAddr,
    strMember "error" s.error]

def NewProxyResp.toJson (s : NewProxyResp) : Json := .obj (present s.fields)

def CloseProxy.fields (s : CloseProxy) : List (String × Option Json) :=
  [strMember "proxy_name" s.proxyName]

def CloseProxy.toJson (s : CloseProxy) : Json := .obj (present s.fields)

def NewWorkConn.fields (s : NewWorkConn) : List (String × Option Json) := [
    strMember "run_id" s.runId,
    strMember "privilege_key" s.privilegeKey,
    i64Member "timestamp" s.timestamp]

def NewWorkConn.toJson (s : NewWorkConn) : Json := .obj (present s.fields)

def ReqWorkConn.toJson (_ : ReqWorkConn) : Json := .obj (present [])

def StartWorkConn.fields (s : StartWorkConn) : List (String × Option Json) := [
    strMember "proxy_name" s.proxyName,
    strMember "src_addr" s.srcAddr,
    strMember "dst_addr" s.dstAddr,
    u16Member "src_port" s.srcPort,
    u16Member "dst_port" s.dstPort,
    strMember "error" s.error]

def StartWorkConn.toJson (s : StartWorkConn) : Json := .obj (present s.fields)

def Ping.fields (s : Ping) : List (String × Option Json) :=
  [strMember "privilege_key" s.privilegeKey, i64Member "timestamp" s.timestamp]

def Ping.toJson (s : Ping) : Json := .obj (present s.fields)

def Pong.fields (s : Pong) : List (String × Option Json) :=
  [strMember "error" s.error]

def Pong.toJson (s : Pong) : Json := .obj (present s.fields)

def UdpAddrJson.fields (s : UdpAddrJson) : List (String × Option Json) :=
  [optMember "IP" .str s.ip, u16Member "Port" s.port, strMember "Zone" s.zone]

def UdpAddrJson.toJson (s : UdpAddrJson) : Json := .obj (present s.fields)

def UdpPacket.fields (s : UdpPacket) : List (String × Option Json) := [
    strMember "c" s.contentB64,
    optMember "l" UdpAddrJson.toJson s.localAddr,
    optMember "r" UdpAddrJson.toJson s.remoteAddr]

def UdpPacket.toJson (s : UdpPacket) : Json := .obj (present s.fields)

/-! ## Deserialization -/

def ClientSpec.ofJson (j : Json) : Option ClientSpec := do
  let m ← structMembers ["type", "always_auth_pass"] j
  let clientType ← readField m ["type"] asString ""
  let alwaysAuthPass ← readField m ["always_auth_pass"] asBool false
  pure ⟨clientType, alwaysAuthPass⟩

def Login.ofJson (j : Json) : Option Login := do
  let m ← structMembers ["version", "hostname", "os", "arch", "user", "privilege_key",
    "timestamp", "run_id", "client_id", "metas", "client_spec", "pool_count"] j
  let version ← readField m ["version"] asString ""
  let hostname ← readField m ["hostname"] asString ""
  let os ← readField m ["os"] asString ""
  let arch ← readField m ["arch"] asString ""
  let user ← readField m ["user"] asString ""
  let privilegeKey ← readField m ["privilege_key"] asString ""
  let timestamp ← readField m ["timestamp"] asI64 0
  let runId ← readField m ["run_id"] asString ""
  let clientId ← readField m ["client_id"] asString ""
  let metas ← readField m ["metas"] (asOption asStrMap) none
  let clientSpec ← readField m ["client_spec"] (asOption ClientSpec.ofJson) none
  let poolCount ← readField m ["pool_count"] asI64 0
  pure ⟨version, hostname, os, arch, user, privilegeKey, timestamp, runId, clientId, metas,
    clientSpec, poolCount⟩

def LoginResp.ofJson (j : Json) : Option LoginResp := do
  let m ← structMembers ["version", "run_id", "error"] j
  let version ← readField m ["version"] asString ""
  let runId ← readField m ["run_id"] asString ""
  let error ← readField m ["error"] asString ""
  pure ⟨version, runId, error⟩

def NewProxy.ofJson (j : Json) : Option NewProxy := do
  let m ← structMembers ["proxy_name", "proxy_type", "use_encryption", "use_compression",
    "bandwidth_limit", "bandwidth_limit_mode", "group", "group_key", "metas", "annotations",
    "remote_port", "custom_domains", "subdomain", "sk", "multiplexer"] j
  let proxyName ← readField m ["proxy_name"] asString ""
  let proxyType ← readField m ["proxy_type"] asString ""
  let useEncryption ← readField m ["use_encryption"] asBool false
  let useCompression ← readField m ["use_compression"] asBool false
  let bandwidthLimit ← readField m ["bandwidth_limit"] asString ""
  let bandwidthLimitMode ← readField m ["bandwidth_limit_mode"] asString ""
  let group ← readField m ["group"] asString ""
  let groupKey ← readField m ["group_key"] asString ""
  let metas ← readField m ["metas"] (asOption asStrMap) none
  let annotations ← readField m ["annotations"] (asOption asStrMap) none
  let remotePort ← readField m ["remote_port"] asI64 0
  let customDomains ← readField m ["custom_domains"] (asOption (asList asString)) none
  let subdomain ← readField m ["subdomain"] asString ""
  let sk ← readField m ["sk"] asString ""
  let multiplexer ← readField m ["multiplexer"] asString ""
  pure ⟨proxyName, proxyType, useEncryption, useCompression, bandwidthLimit, bandwidthLimitMode,
    group, groupKey, metas, annotations, remotePort, customDomains, subdomain, sk, multiplexer⟩

def NewProxyResp.ofJson (j : Json) : Option NewProxyResp := do
  let m ← structMembers ["proxy_name", "remote_addr", "error"] j
  let proxyName ← readField m ["proxy_name"] asString ""
  let remoteAddr ← readField m ["remote_addr"] asString ""
  let error ← readField m ["error"] asString ""
  pure ⟨proxyName, remoteAddr, error⟩

def CloseProxy.ofJson (j : Json) : Option CloseProxy := do
  let m ← structMembers ["proxy_name"] j
  let proxyName ← readField m ["proxy_name"] asString ""
  pure ⟨proxyName⟩

def NewWorkConn.ofJson (j : Json) : Option NewWorkConn := do
  let m ← structMembers ["run_id", "privilege_key", "timestamp"] j
  let runId ← readField m ["run_id"] asString ""
  let privilegeKey ← readField m ["privilege_key"] asString ""
  let timestamp ← readField m ["timestamp"] asI64 0
  pure ⟨runId, privilegeKey, timestamp⟩

def ReqWorkConn.ofJson (j : Json) : Option ReqWorkConn := do
  let _ ← structMembers [] j
  pure ⟨⟩

def StartWorkConn.ofJson (j : Json) : Option StartWorkConn := do
  let m ← structMembers ["proxy_name", "src_addr", "dst_addr", "src_port", "dst_port",
    "error"] j
  let proxyName ← readField m ["proxy_name"] asString ""
  let srcAddr ← readField m ["src_addr"] asString ""
  let dstAddr ← readField m ["dst_addr"] asString ""
  let srcPort ← readField m ["src_port"] asU16 0
  let dstPort ← readField m ["dst_port"] asU16 0
  let error ← readField m ["error"] asString ""
  pure ⟨proxyName, srcAddr, dstAddr, srcPort, dstPort, error⟩

def Ping.ofJson (j : Json) : Option Ping := do
  let m ← structMembers ["privilege_key", "timestamp"] j
  let privilegeKey ← readField m ["privilege_key"] asString ""
  let timestamp ← readField m ["timestamp"] asI64 0
  pure ⟨privilegeKey, timestamp⟩

def Pong.ofJson (j : Json) : Option Pong := do
  let m ← structMembers ["error"] j
  let error ← readField m ["error"] asString ""
  pure ⟨error⟩

/-- Both spellings of a name fill the same field, so giving both is a repetition. -/
def UdpAddrJson.ofJson (j : Json) : Option UdpAddrJson := do
  let m ← structMembers ["IP", "Port", "Zone"] j
  let ip ← readField m ["IP", "ip"] (asOption asString) none
  let port ← readField m ["Port", "port"] asU16 0
  let zone ← readField m ["Zone", "zone"] asString ""
  pure ⟨ip, port, zone⟩

def UdpPacket.ofJson (j : Json) : Option UdpPacket := do
  let m ← structMembers ["c", "l", "r"] j
  let contentB64 ← readField m ["c"] asString ""
  let localAddr ← readField m ["l"] (asOption UdpAddrJson.ofJson) none
  let remoteAddr ← readField m ["r"] (asOption UdpAddrJson.ofJson) none
  pure ⟨contentB64, localAddr, remoteAddr⟩

/-! ## Messages -/

namespace Message

/-- `Message::type_byte`. -/
def typeByte : Message → UInt8
  | .login _ => TYPE_LOGIN
  | .loginResp _ => TYPE_LOGIN_RESP
  | .newProxy _ => TYPE_NEW_PROXY
  | .newProxyResp _ => TYPE_NEW_PROXY_RESP
  | .closeProxy _ => TYPE_CLOSE_PROXY
  | .newWorkConn _ => TYPE_NEW_WORK_CONN
  | .reqWorkConn _ => TYPE_REQ_WORK_CONN
  | .startWorkConn _ => TYPE_START_WORK_CONN
  | .ping _ => TYPE_PING
  | .pong _ => TYPE_PONG
  | .udpPacket _ => TYPE_UDP_PACKET

/-- The JSON of the payload struct, which is what goes into a frame body. -/
def toJson (order : IterOrder) : Message → Json
  | .login payload => payload.toJson order
  | .loginResp payload => payload.toJson
  | .newProxy payload => payload.toJson order
  | .newProxyResp payload => payload.toJson
  | .closeProxy payload => payload.toJson
  | .newWorkConn payload => payload.toJson
  | .reqWorkConn payload => payload.toJson
  | .startWorkConn payload => payload.toJson
  | .ping payload => payload.toJson
  | .pong payload => payload.toJson
  | .udpPacket payload => payload.toJson

/-- Why `Message::decode` fails. -/
inductive DecodeError where
  | badBody
  | unknownType (typeByte : UInt8)
deriving Repr, DecidableEq

/-- A body read as one struct, with `serde_json::from_slice` as a parameter. -/
def decodeAs {α : Type} (fromSlice : List UInt8 → Option Json) (ofJson : Json → Option α)
    (wrap : α → Message) (body : List UInt8) : Except DecodeError Message :=
  match (fromSlice body).bind ofJson with
  | some payload => .ok (wrap payload)
  | none => .error .badBody

/-- `Message::decode`. -/
def decode (fromSlice : List UInt8 → Option Json) (typeByte : UInt8) (body : List UInt8) :
    Except DecodeError Message :=
  if typeByte = TYPE_LOGIN then decodeAs fromSlice Login.ofJson .login body
  else if typeByte = TYPE_LOGIN_RESP then decodeAs fromSlice LoginResp.ofJson .loginResp body
  else if typeByte = TYPE_NEW_PROXY then decodeAs fromSlice NewProxy.ofJson .newProxy body
  else if typeByte = TYPE_NEW_PROXY_RESP then
    decodeAs fromSlice NewProxyResp.ofJson .newProxyResp body
  else if typeByte = TYPE_CLOSE_PROXY then decodeAs fromSlice CloseProxy.ofJson .closeProxy body
  else if typeByte = TYPE_NEW_WORK_CONN then
    decodeAs fromSlice NewWorkConn.ofJson .newWorkConn body
  else if typeByte = TYPE_REQ_WORK_CONN then
    decodeAs fromSlice ReqWorkConn.ofJson .reqWorkConn body
  else if typeByte = TYPE_START_WORK_CONN then
    decodeAs fromSlice StartWorkConn.ofJson .startWorkConn body
  else if typeByte = TYPE_PING then decodeAs fromSlice Ping.ofJson .ping body
  else if typeByte = TYPE_PONG then decodeAs fromSlice Pong.ofJson .pong body
  else if typeByte = TYPE_UDP_PACKET then decodeAs fromSlice UdpPacket.ofJson .udpPacket body
  else .error (.unknownType typeByte)

end Message

/-! ## Credentials -/

/-- The UTF-8 bytes of a string. -/
def utf8 (s : String) : List UInt8 := s.toList.flatMap String.utf8EncodeChar

/-- `hex_lower`. -/
def hexLower (data : List UInt8) : String :=
  String.ofList (data.flatMap fun b => [hexDigit (b.toNat / 16), hexDigit (b.toNat % 16)])

/-- `auth_key`: `hex(md5(token + timestamp))`, the digest being a parameter. -/
def authKey (md5 : List UInt8 → List UInt8) (token : String) (timestamp : Int64) : String :=
  hexLower (md5 (utf8 token ++ utf8 (toString timestamp.toInt)))

end Remgr.Frps
