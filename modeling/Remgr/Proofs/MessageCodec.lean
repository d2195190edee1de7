/-
Module: Remgr.Proofs.MessageCodec
Purpose: Decoding a message body gives back the message it was serialized from, for every variant
  and all field values. Each kind of member is shown to be restored once: a skipped value is the
  default, and a written value is read under the name it was written with.
Trusted boundary: as in `Remgr.Frps.Msg`; the theorem assumes of the JSON parser only that it reads
  back the text in question
Main exports: Message.decode_toJson
-/
import Remgr.Frps.Msg

namespace Remgr.Frps

open Remgr.Lib
open Remgr.Lib.Json

/-! ## Members

`only` says that the member is the one field of the record that answers to `names`; for the structs
here it holds by evaluation. -/

section Members

variable {names : List String} {name : String} {fields : List (String × Option Json)}

/-- A string is skipped only when it is the default. -/
theorem readField_strMember (value : String)
    (only : (fields.filter fun other => names.contains other.1) = [strMember name value]) :
    readField (present fields) names asString "" = some value := by
  rw [readField_of_filter _ _ only]
  by_cases empty : value = ""
  · simp [strMember, empty]
  · simp [strMember, empty, asString]

theorem readField_boolMember (value : Bool)
    (only : (fields.filter fun other => names.contains other.1) = [boolMember name value]) :
    readField (present fields) names asBool false = some value := by
  rw [readField_of_filter _ _ only]
  cases value <;> rfl

theorem readField_i64Member (value : Int64)
    (only : (fields.filter fun other => names.contains other.1) = [i64Member name value]) :
    readField (present fields) names asI64 0 = some value := by
  rw [readField_of_filter _ _ only]
  by_cases zero : value = 0
  · simp [i64Member, zero]
  · simp only [i64Member, zero, if_false]
    exact asI64_num value

theorem readField_u16Member (value : UInt16)
    (only : (fields.filter fun other => names.contains other.1) = [u16Member name value]) :
    readField (present fields) names asU16 0 = some value := by
  rw [readField_of_filter _ _ only]
  by_cases zero : value = 0
  · simp [u16Member, zero]
  · simp only [u16Member, zero, if_false]
    exact asU16_num value

/-- An optional value is restored when its encoding is read back and is not `null`. -/
theorem readField_optMember {α : Type} {encode : α → Json} {decode : Json → Option α}
    (value : Option α)
    (only : (fields.filter fun other => names.contains other.1) = [optMember name encode value])
    (restored : ∀ a, decode (encode a) = some a) (solid : ∀ a, encode a ≠ .null) :
    readField (present fields) names (asOption decode) none = some value := by
  rw [readField_of_filter _ _ only]
  cases value with
  | none => rfl
  | some a =>
      have notNull := solid a
      simp only [optMember, Option.map_some]
      rw [asOption.eq_2 _ _ notNull, restored a, Option.map_some]

/-- A `HashMap` field, whatever the order it was written in. -/
theorem readField_mapMember (order : IterOrder) (field : String) (value : Option StrMap)
    (only : (fields.filter fun other => names.contains other.1) =
      [optMember name (ofStrMap order field) value]) :
    readField (present fields) names (asOption asStrMap) none = some value := by
  apply readField_optMember value only
  · exact asStrMap_ofStrMap order field
  · intro m isNull
    cases isNull

end Members

/-! ## Structs

Each struct is read back field by field, in the order its reader asks for them. -/

theorem ClientSpec.ofJson_toJson (s : ClientSpec) : ClientSpec.ofJson s.toJson = some s := by
  refine readNext rfl ?_
  refine readNext (readField_strMember s.clientType rfl) ?_
  refine readNext (readField_boolMember s.alwaysAuthPass rfl) ?_
  rfl

theorem Login.ofJson_toJson (order : IterOrder) (s : Login) :
    Login.ofJson (s.toJson order) = some s := by
  refine readNext rfl ?_
  refine readNext (readField_strMember s.version rfl) ?_
  refine readNext (readField_strMember s.hostname rfl) ?_
  refine readNext (readField_strMember s.os rfl) ?_
  refine readNext (readField_strMember s.arch rfl) ?_
  refine readNext (readField_strMember s.user rfl) ?_
  refine readNext (readField_strMember s.privilegeKey rfl) ?_
  refine readNext (readField_i64Member s.timestamp rfl) ?_
  refine readNext (readField_strMember s.runId rfl) ?_
  refine readNext (readField_strMember s.clientId rfl) ?_
  refine readNext (readField_mapMember order "metas" s.metas rfl) ?_
  refine readNext (readField_optMember s.clientSpec rfl ClientSpec.ofJson_toJson (fun _ => nofun)) ?_
  refine readNext (readField_i64Member s.poolCount rfl) ?_
  rfl

theorem LoginResp.ofJson_toJson (s : LoginResp) : LoginResp.ofJson s.toJson = some s := by
  refine readNext rfl ?_
  refine readNext (readField_strMember s.version rfl) ?_
  refine readNext (readField_strMember s.runId rfl) ?_
  refine readNext (readField_strMember s.error rfl) ?_
  rfl

theorem NewProxy.ofJson_toJson (order : IterOrder) (s : NewProxy) :
    NewProxy.ofJson (s.toJson order) = some s := by
  refine readNext rfl ?_
  refine readNext (readField_strMember s.proxyName rfl) ?_
  refine readNext (readField_strMember s.proxyType rfl) ?_
  refine readNext (readField_boolMember s.useEncryption rfl) ?_
  refine readNext (readField_boolMember s.useCompression rfl) ?_
  refine readNext (readField_strMember s.bandwidthLimit rfl) ?_
  refine readNext (readField_strMember s.bandwidthLimitMode rfl) ?_
  refine readNext (readField_strMember s.group rfl) ?_
  refine readNext (readField_strMember s.groupKey rfl) ?_
  refine readNext (readField_mapMember order "metas" s.metas rfl) ?_
  refine readNext (readField_mapMember order "annotations" s.annotations rfl) ?_
  refine readNext (readField_i64Member s.remotePort rfl) ?_
  refine readNext
    (readField_optMember s.customDomains rfl (asList_map asString_str) (fun _ => nofun)) ?_
  refine readNext (readField_strMember s.subdomain rfl) ?_
  refine readNext (readField_strMember s.sk rfl) ?_
  refine readNext (readField_strMember s.multiplexer rfl) ?_
  rfl

theorem NewProxyResp.ofJson_toJson (s : NewProxyResp) : NewProxyResp.ofJson s.toJson = some s := by
  refine readNext rfl ?_
  refine readNext (readField_strMember s.proxyName rfl) ?_
  refine readNext (readField_strMember s.remoteAddr rfl) ?_
  refine readNext (readField_strMember s.error rfl) ?_
  rfl

theorem CloseProxy.ofJson_toJson (s : CloseProxy) : CloseProxy.ofJson s.toJson = some s := by
  refine readNext rfl ?_
  refine readNext (readField_strMember s.proxyName rfl) ?_
  rfl

theorem NewWorkConn.ofJson_toJson (s : NewWorkConn) : NewWorkConn.ofJson s.toJson = some s := by
  refine readNext rfl ?_
  refine readNext (readField_strMember s.runId rfl) ?_
  refine readNext (readField_strMember s.privilegeKey rfl) ?_
  refine readNext (readField_i64Member s.timestamp rfl) ?_
  rfl

theorem StartWorkConn.ofJson_toJson (s : StartWorkConn) :
    StartWorkConn.ofJson s.toJson = some s := by
  refine readNext rfl ?_
  refine readNext (readField_strMember s.proxyName rfl) ?_
  refine readNext (readField_strMember s.srcAddr rfl) ?_
  refine readNext (readField_strMember s.dstAddr rfl) ?_
  refine readNext (readField_u16Member s.srcPort rfl) ?_
  refine readNext (readField_u16Member s.dstPort rfl) ?_
  refine readNext (readField_strMember s.error rfl) ?_
  rfl

theorem Ping.ofJson_toJson (s : Ping) : Ping.ofJson s.toJson = some s := by
  refine readNext rfl ?_
  refine readNext (readField_strMember s.privilegeKey rfl) ?_
  refine readNext (readField_i64Member s.timestamp rfl) ?_
  rfl

theorem Pong.ofJson_toJson (s : Pong) : Pong.ofJson s.toJson = some s := by
  refine readNext rfl ?_
  refine readNext (readField_strMember s.error rfl) ?_
  rfl

/-- Only the capitalised names are written, so the aliases never make a repetition. -/
theorem UdpAddrJson.ofJson_toJson (s : UdpAddrJson) : UdpAddrJson.ofJson s.toJson = some s := by
  have stringRead : ∀ text, asString (.str text) = some text := fun _ => rfl
  refine readNext rfl ?_
  refine readNext (readField_optMember s.ip rfl stringRead (fun _ => nofun)) ?_
  refine readNext (readField_u16Member s.port rfl) ?_
  refine readNext (readField_strMember s.zone rfl) ?_
  rfl

theorem UdpPacket.ofJson_toJson (s : UdpPacket) : UdpPacket.ofJson s.toJson = some s := by
  refine readNext rfl ?_
  refine readNext (readField_strMember s.contentB64 rfl) ?_
  refine readNext (readField_optMember s.localAddr rfl UdpAddrJson.ofJson_toJson (fun _ => nofun)) ?_
  refine readNext (readField_optMember s.remoteAddr rfl UdpAddrJson.ofJson_toJson (fun _ => nofun)) ?_
  rfl

/-! ## Messages -/

/-- A body that parses to what was serialized, read as the struct it was serialized from. -/
theorem Message.decodeAs_toVec {α : Type} {fromSlice : List UInt8 → Option Json} {json : Json}
    {ofJson : Json → Option α} (wrap : α → Message) {payload : α}
    (parses : fromSlice (toVec json) = some json) (restored : ofJson json = some payload) :
    Message.decodeAs fromSlice ofJson wrap (toVec json) = .ok (wrap payload) := by
  simp only [Message.decodeAs, parses, Option.bind_some, restored]

/-- For every message, whatever the order its maps are written in: its type byte selects the struct
it was serialized from and no other, and that struct restores every field. -/
theorem Message.decode_toJson (fromSlice : List UInt8 → Option Json) (order : IterOrder)
    (m : Message) (parses : fromSlice (toVec (m.toJson order)) = some (m.toJson order)) :
    Message.decode fromSlice m.typeByte (toVec (m.toJson order)) = .ok m := by
  cases m with
  | login payload => exact decodeAs_toVec .login parses (Login.ofJson_toJson order payload)
  | loginResp payload => exact decodeAs_toVec .loginResp parses (LoginResp.ofJson_toJson payload)
  | newProxy payload => exact decodeAs_toVec .newProxy parses (NewProxy.ofJson_toJson order payload)
  | newProxyResp payload =>
      exact decodeAs_toVec .newProxyResp parses (NewProxyResp.ofJson_toJson payload)
  | closeProxy payload => exact decodeAs_toVec .closeProxy parses (CloseProxy.ofJson_toJson payload)
  | newWorkConn payload =>
      exact decodeAs_toVec .newWorkConn parses (NewWorkConn.ofJson_toJson payload)
  | reqWorkConn payload => exact decodeAs_toVec .reqWorkConn parses rfl
  | startWorkConn payload =>
      exact decodeAs_toVec .startWorkConn parses (StartWorkConn.ofJson_toJson payload)
  | ping payload => exact decodeAs_toVec .ping parses (Ping.ofJson_toJson payload)
  | pong payload => exact decodeAs_toVec .pong parses (Pong.ofJson_toJson payload)
  | udpPacket payload => exact decodeAs_toVec .udpPacket parses (UdpPacket.ofJson_toJson payload)

/-- A TCP proxy request as frpc sends it. The parser here knows this one text. -/
theorem Message.decode_newProxy_web :
    let request : NewProxy := { proxyName := "web", proxyType := "tcp", remotePort := 6001 }
    let text := utf8
      "\x7b\"proxy_name\":\"web\",\"proxy_type\":\"tcp\",\"remote_port\":6001\x7d"
    let fromSlice := fun body => if body = text then
      some (.obj [("proxy_name", .str "web"), ("proxy_type", .str "tcp"),
        ("remote_port", .num 6001)]) else none
    Message.decode fromSlice TYPE_NEW_PROXY text = .ok (.newProxy request) := by
  intro request text fromSlice
  let order : IterOrder := ⟨fun _ m => m.entries.toList, fun _ m => Multiset.coe_toList m.entries⟩
  have written : toVec ((Message.newProxy request).toJson order) = text := by decide +kernel
  rw [← written]
  exact Message.decode_toJson fromSlice order (.newProxy request) (by rw [written]; rfl)

end Remgr.Frps
