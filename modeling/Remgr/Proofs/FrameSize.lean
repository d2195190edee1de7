/-
Module: Remgr.Proofs.FrameSize
Purpose: The sizes of the messages the server builds, against the limit of `write_frame`. A response
  takes what its name and its text take; a StartWorkConn takes the name and at most two long
  addresses; a UdpPacket always has room.
Trusted boundary: none
Main exports: nameRoom, startRoom, fits_proxyError, fits_bound, builds_fit_iff
-/
import Remgr.Frps.Server.Tunnel
import Remgr.Lib.JsonSize

namespace Remgr.Frps.Server

open Remgr.Lib
open Remgr.Lib.Json

/-! ## Members -/

/-- What a string member of a record takes. -/
theorem memberSize_strMember (key value : String) :
    memberSize (strMember key value) =
      if value = "" then 0 else textSize key + textSize value + 6 := by
  unfold memberSize strMember
  by_cases empty : value = ""
  · simp only [if_pos empty]
  · simp only [if_neg empty, size_str]
    omega

theorem utf8Size_digitChar : ∀ d < 16, (Nat.digitChar d).utf8Size = 1 := by decide

theorem byteCount_digits (n : Nat) :
    byteCount (Nat.toDigits 10 n) = (Nat.toDigits 10 n).length := by
  have single : ∀ text : List Char, (∀ c ∈ text, c.utf8Size = 1) →
      byteCount text = text.length := by
    intro text plain
    induction text with
    | nil => rfl
    | cons c text inductionHypothesis =>
        rw [byteCount_cons, plain c (List.mem_cons_self ..), List.length_cons,
          inductionHypothesis fun d inside => plain d (List.mem_cons_of_mem c inside)]
        omega
  apply single
  intro c inside
  rcases Text.mem_toDigits (by decide) inside with ⟨d, small, rfl⟩
  exact utf8Size_digitChar d (by omega)

/-- A port takes at most five digits. -/
theorem memberSize_u16Member_le (key : String) (value : UInt16) :
    memberSize (u16Member key value) ≤ textSize key + 9 := by
  have digits : (Json.num value.toNat).size ≤ 5 := by
    have printed : (toString (value.toNat : Int)).toList = Nat.toDigits 10 value.toNat := by
      change (toString value.toNat).toList = _
      rw [Nat.toString_eq_repr, Nat.toList_repr]
    rw [size_eq, print, printed, byteCount_digits]
    exact (Nat.length_toDigits_le_iff (by decide) (by decide)).mpr
      (Nat.lt_trans value.toNat_lt (by decide))
  unfold memberSize u16Member
  split
  · omega
  · next shown =>
      split at shown
      · cases shown
      · cases shown
        dsimp only
        omega

/-- An address takes at most 39 bytes, none of them escaped. -/
theorem textSize_ipText_le (addr : SocketAddr) : textSize (ipText addr) ≤ 39 := by
  have plain : ∀ c ∈ addr.ip.text, charSize c = 1 := by
    have digit : ∀ d < 16, charSize (Nat.digitChar d) = 1 := by decide
    intro c inside
    rcases IpAddr.mem_text inside with ⟨d, small, rfl⟩ | rfl | rfl
    · exact digit d small
    · decide
    · decide
  rw [ipText, textSize_of_plain plain]
  exact addr.ip.text_length_le

theorem memberSize_address_le (key : String) (addr : SocketAddr) :
    memberSize (strMember key (ipText addr)) ≤ textSize key + 45 := by
  have short := textSize_ipText_le addr
  rw [memberSize_strMember]
  split <;> omega

/-! ## Responses -/

/-- What the name of a proxy takes in a message that carries it. -/
def nameRoom (name : String) : Nat := if name = "" then 0 else textSize name + 16

theorem memberSize_name (name : String) : memberSize (strMember "proxy_name" name) =
    nameRoom name := by
  have key : textSize "proxy_name" = 10 := by decide
  rw [memberSize_strMember, nameRoom, key]
  split <;> omega

theorem fits_iff (m : Message) : fits m = true ↔ (writerBody m).length ≤ 10240 := by
  rw [fits, decide_eq_true_eq, MAX_MSG_LEN]
  exact Int.ofNat_le

/-- The size of a response, with the braces and without the last comma. -/
theorem writerBody_newProxyResp (resp : NewProxyResp) :
    (writerBody (.newProxyResp resp)).length = 1 + max 1 (nameRoom resp.proxyName +
      memberSize (strMember "remote_addr" resp.remoteAddr) +
      memberSize (strMember "error" resp.error)) := by
  change (NewProxyResp.toJson resp).size = _
  rw [NewProxyResp.toJson, size_record]
  simp only [NewProxyResp.fields, List.map_cons, List.map_nil, List.sum_cons, List.sum_nil,
    memberSize_name]
  rw [Nat.add_zero, Nat.add_assoc]

/-- An error fits exactly when the name and the text leave room for each other. -/
theorem fits_proxyError (np : NewProxy) {error : String} (filled : error ≠ "") :
    fits (.newProxyResp (proxyError np error)) = true ↔
      nameRoom np.proxyName + textSize error + 12 ≤ 10240 := by
  have key : textSize "error" = 5 := by decide
  rw [fits_iff, writerBody_newProxyResp]
  simp only [proxyError, memberSize_strMember, if_true, if_neg filled, key]
  omega

/-- The room the address of a success takes. -/
def addrRoom (addr : String) : Nat := if addr = "" then 0 else textSize addr + 17

theorem fits_bound (name addr : String) :
    fits (.newProxyResp { proxyName := name, remoteAddr := addr, error := "" }) = true ↔
      nameRoom name + addrRoom addr + 1 ≤ 10240 := by
  have key : textSize "remote_addr" = 11 := by decide
  have address : memberSize (strMember "remote_addr" addr) = addrRoom addr := by
    rw [memberSize_strMember, addrRoom, key]
    split <;> omega
  rw [fits_iff, writerBody_newProxyResp]
  simp only [address, memberSize_strMember, if_true]
  omega

/-! ## Work connections -/

theorem writerBody_startWorkConn (start : StartWorkConn) :
    (writerBody (.startWorkConn start)).length = 1 + max 1 (nameRoom start.proxyName +
      (memberSize (strMember "src_addr" start.srcAddr) +
      memberSize (strMember "dst_addr" start.dstAddr) +
      memberSize (u16Member "src_port" start.srcPort) +
      memberSize (u16Member "dst_port" start.dstPort) +
      memberSize (strMember "error" start.error))) := by
  change (StartWorkConn.toJson start).size = _
  rw [StartWorkConn.toJson, size_record]
  simp only [StartWorkConn.fields, List.map_cons, List.map_nil, List.sum_cons, List.sum_nil,
    memberSize_name]
  omega

/-- With this much room for the name, the StartWorkConn of a tcp user fits whatever the addresses
are. -/
theorem fits_startTcp {name : String} (room : nameRoom name + 141 ≤ 10240) (peer : SocketAddr)
    (here : Option SocketAddr) : fits (.startWorkConn (startTcp name peer here)) = true := by
  have keys : textSize "src_addr" = 8 ∧ textSize "dst_addr" = 8 ∧ textSize "src_port" = 8 ∧
      textSize "dst_port" = 8 := by decide
  have source := memberSize_address_le "src_addr" peer
  have sourcePort := memberSize_u16Member_le "src_port" (startTcp name peer here).srcPort
  have targetPort := memberSize_u16Member_le "dst_port" (startTcp name peer here).dstPort
  have target : memberSize (strMember "dst_addr" (startTcp name peer here).dstAddr) ≤ 53 := by
    cases here with
    | none =>
        change memberSize (strMember "dst_addr" "") ≤ 53
        decide
    | some addr =>
        have bound := memberSize_address_le "dst_addr" addr
        rw [keys.2.1] at bound
        exact bound
  have noError : memberSize (strMember "error" (startTcp name peer here).error) = 0 := by
    rw [startTcp, memberSize_strMember, if_pos rfl]
  rw [fits_iff, writerBody_startWorkConn, noError]
  change 1 + max 1 (nameRoom name + (memberSize (strMember "src_addr" (ipText peer)) + _ + _ + _ +
    _)) ≤ 10240
  omega

/-- A user with the longest address and port there are. -/
def widestAddr : SocketAddr :=
  { ip := .v6 #v[0xffff, 0xffff, 0xffff, 0xffff, 0xffff, 0xffff, 0xffff, 0xffff], port := 65535 }

/-- That user needs all of the room. -/
theorem room_of_widest {name : String}
    (fitting : fits (.startWorkConn (startTcp name widestAddr (some widestAddr))) = true) :
    nameRoom name + 141 ≤ 10240 := by
  have full : memberSize (strMember "src_addr" (ipText widestAddr)) +
      memberSize (strMember "dst_addr" (ipText widestAddr)) +
      memberSize (u16Member "src_port" 65535) + memberSize (u16Member "dst_port" 65535) +
      memberSize (strMember "error" "") = 140 := by decide +kernel
  rw [fits_iff, writerBody_startWorkConn] at fitting
  simp only [startTcp, Option.map_some, Option.getD_some] at fitting
  simp only [show widestAddr.port = 65535 from rfl] at fitting
  rw [full] at fitting
  omega

theorem fits_startUdp (name : String) :
    fits (.startWorkConn (startUdp name)) = true ↔ nameRoom name + 1 ≤ 10240 := by
  have rest : memberSize (strMember "src_addr" "") + memberSize (strMember "dst_addr" "") +
      memberSize (u16Member "src_port" 0) + memberSize (u16Member "dst_port" 0) +
      memberSize (strMember "error" "") = 0 := by decide
  rw [fits_iff, writerBody_startWorkConn]
  simp only [startUdp]
  rw [rest]
  omega

/-- The address of a datagram takes at most 61 bytes. -/
theorem size_udpAddr_le (addr : SocketAddr) : (UdpAddrJson.ofAddr addr).toJson.size ≤ 61 := by
  have keys : textSize "IP" = 2 ∧ textSize "Port" = 4 := by decide
  have ip : memberSize (optMember "IP" Json.str (some (ipText addr))) ≤ 47 := by
    have short := textSize_ipText_le addr
    change textSize "IP" + (Json.str (ipText addr)).size + 4 ≤ 47
    rw [size_str]
    omega
  have port := memberSize_u16Member_le "Port" addr.port
  have zone : memberSize (strMember "Zone" "") = 0 := by decide
  rw [UdpAddrJson.toJson, size_record]
  simp only [UdpAddrJson.fields, UdpAddrJson.ofAddr, List.map_cons, List.map_nil, List.sum_cons,
    List.sum_nil, zone]
  omega

theorem memberSize_udpAddr_le (key : String) (addr : Option SocketAddr) :
    memberSize (optMember key UdpAddrJson.toJson (addr.map UdpAddrJson.ofAddr)) ≤
      textSize key + 65 := by
  cases addr with
  | none => exact Nat.zero_le _
  | some addr =>
      have short := size_udpAddr_le addr
      change textSize key + (UdpAddrJson.ofAddr addr).toJson.size + 4 ≤ _
      omega

/-- A datagram as the buffer holds it always fits: the limit is for messages much longer. -/
theorem fits_packet (datagram : List UInt8) (here : Option SocketAddr) (peer : SocketAddr) :
    fits (.udpPacket (UdpPacket.fromContent (datagram.take udpBuffer) here peer)) = true := by
  have keys : textSize "c" = 1 ∧ textSize "l" = 1 ∧ textSize "r" = 1 := by decide
  have content : textSize (String.ofList (Base64.encode (datagram.take udpBuffer))) ≤ 2000 := by
    have checked : ('=' :: Base64.alphabet).all (fun c => charSize c == 1) = true := by
      decide +kernel
    have plain : ∀ c ∈ '=' :: Base64.alphabet, charSize c = 1 := by
      intro c inside
      exact eq_of_beq (List.all_eq_true.mp checked c inside)
    rw [textSize_of_plain fun c inside => plain c (Base64.mem_encode inside),
      Base64.encode_length, List.length_take]
    simp only [udpBuffer]
    omega
  have carried : memberSize (strMember "c"
      (String.ofList (Base64.encode (datagram.take udpBuffer)))) ≤ 2007 := by
    rw [memberSize_strMember]
    split <;> omega
  have source := memberSize_udpAddr_le "l" here
  have target := memberSize_udpAddr_le "r" (some peer)
  rw [fits_iff]
  change (UdpPacket.toJson _).size ≤ 10240
  rw [UdpPacket.toJson, size_record]
  simp only [UdpPacket.fields, UdpPacket.fromContent, List.map_cons, List.map_nil, List.sum_cons,
    List.sum_nil]
  simp only [Option.map_some] at target
  omega

/-- What the users of a proxy need at most, by its type. -/
def startRoom (name : String) : ProxyType → Nat
  | .tcp => nameRoom name + 141
  | .udp => nameRoom name + 1

/-- Everything built for the users of a proxy fits exactly when there is that much room. -/
theorem builds_fit_iff (name : String) (kind : ProxyType) :
    (∀ m, Builds name kind m → fits m = true) ↔ startRoom name kind ≤ 10240 := by
  constructor
  · intro fitting
    cases kind with
    | tcp => exact room_of_widest (fitting _ (.startTcp widestAddr (some widestAddr)))
    | udp => exact (fits_startUdp name).mp (fitting _ .startUdp)
  · intro room m built
    cases built with
    | startTcp peer here => exact fits_startTcp room peer here
    | startUdp => exact (fits_startUdp name).mpr room
    | packet datagram here peer => exact fits_packet datagram here peer

end Remgr.Frps.Server
