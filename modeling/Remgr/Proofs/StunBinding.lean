/-
Module: Remgr.Proofs.StunBinding
Purpose: Which datagrams are answered, and with what. No index is out of range, bytes behind the
  declared length do not count, and an attribute that asks for another address matters up to and
  including the first one that runs past the end of the message. The answer is a message in which the
  client finds its own address.
Trusted boundary: as in `Remgr.Stun.Binding`
Main exports: Accepted, processStunPacket_eq, requests_answered, overrun_request_dropped, reply_received
-/
import Remgr.Stun.Message

namespace Remgr.Stun

open Remgr.Lib

/-! ## The walk of the program -/

/-- The attribute asks for an answer from another address or port. -/
def Alternate (a : Tlv.Attribute) : Prop :=
  (a.kind = attrChangeRequest ∨ a.kind = attrResponsePort) ∧ ∃ b ∈ a.value, b ≠ 0

instance (a : Tlv.Attribute) : Decidable (Alternate a) :=
  inferInstanceAs (Decidable ((_ ∨ _) ∧ ∃ b ∈ a.value, b ≠ 0))

theorem be16_of_drop {packet rest : List UInt8} {i : Nat} {a b : UInt8}
    (view : packet.drop i = a :: b :: rest) : be16 packet i = some (natOfBe [a, b]) := by
  have first : packet[i]? = some a := by
    rw [← Nat.add_zero i, ← List.getElem?_drop, view]
    rfl
  have second : packet[i + 1]? = some b := by
    rw [← List.getElem?_drop, view]
    rfl
  rw [be16, first, second]
  rfl

theorem slice_eq {packet : List UInt8} {start stop : Nat} (order : start ≤ stop)
    (within : stop ≤ packet.length) : slice packet start stop = some ((packet.take stop).drop start) :=
  if_pos ⟨order, within⟩

/-- While there is room for a header, the walk of the program reads the one at its place. -/
theorem header_at {packet : List UInt8} {msgEnd pos : Nat} (within : msgEnd ≤ packet.length)
    (room : pos + 4 ≤ msgEnd) :
    ∃ k₁ k₂ l₁ l₂, (packet.take msgEnd).drop pos =
        k₁ :: k₂ :: l₁ :: l₂ :: (packet.take msgEnd).drop (pos + 4) ∧
      be16 packet pos = some (natOfBe [k₁, k₂]) ∧ be16 packet (pos + 2) = some (natOfBe [l₁, l₂]) := by
  have size : ((packet.take msgEnd).drop pos).length = msgEnd - pos := by
    rw [List.length_drop, List.length_take, Nat.min_eq_left within]
  have whole : packet.drop pos = (packet.take msgEnd).drop pos ++ packet.drop msgEnd := by
    have enough : pos ≤ (packet.take msgEnd).length := by
      rw [List.length_take]
      omega
    rw [← List.drop_append_of_le_length enough, List.take_append_drop]
  have behind : (packet.take msgEnd).drop (pos + 4) = ((packet.take msgEnd).drop pos).drop 4 := by
    rw [List.drop_drop]
  rcases view : (packet.take msgEnd).drop pos with _ | ⟨k₁, _ | ⟨k₂, _ | ⟨l₁, _ | ⟨l₂, rest⟩⟩⟩⟩
  case cons.cons.cons.cons =>
    rw [view] at whole behind
    have lengthBytes : packet.drop (pos + 2) = l₁ :: l₂ :: (rest ++ packet.drop msgEnd) := by
      rw [← List.drop_drop, whole]
      rfl
    exact ⟨k₁, k₂, l₁, l₂, by rw [behind]; rfl, be16_of_drop whole, be16_of_drop lengthBytes⟩
  all_goals
    rw [view] at size
    simp only [List.length_nil, List.length_cons] at size
    omega

theorem alternate_iff (kind : Nat) (value : List UInt8) :
    ((kind = attrChangeRequest ∨ kind = attrResponsePort) ∧ value.any (· != 0) = true) ↔
      Alternate ⟨kind, value⟩ := by
  simp [Alternate]

/-- The loop of the program asks about the attributes a reader of the message meets. -/
theorem asksLoop_eq {packet : List UInt8} {msgEnd : Nat} (within : msgEnd ≤ packet.length)
    (pos : Nat) : asksLoop packet msgEnd pos =
      some (decide (∃ a ∈ Tlv.met 4 ((packet.take msgEnd).drop pos), Alternate a)) := by
  induction size : msgEnd - pos using Nat.strongRecOn generalizing pos with
  | ind left inductionHypothesis =>
      by_cases room : pos + 4 ≤ msgEnd
      · obtain ⟨k₁, k₂, l₁, l₂, view, kind, length⟩ := header_at within room
        set alen := natOfBe [l₁, l₂] with alenEq
        set rest := (packet.take msgEnd).drop (pos + 4) with restEq
        have length' : rest.length = msgEnd - (pos + 4) := by
          rw [restEq, List.length_drop, List.length_take, Nat.min_eq_left within]
        have value : slice packet (pos + 4) (min (pos + 4 + alen) msgEnd) = some (rest.take alen) := by
          rw [slice_eq (by omega) (by omega), restEq, List.take_drop, List.take_take]
        rw [asksLoop, if_pos room, kind, length]
        simp only [Option.bind_eq_bind, Option.bind_some, value]
        simp only [alternate_iff, view]
        by_cases whole : alen ≤ rest.length
        · have onward : (packet.take msgEnd).drop (min (pos + 4 + alen) msgEnd + (4 - alen % 4) % 4) =
              rest.drop (alen + Tlv.padding 4 alen) := by
            have stop : min (pos + 4 + alen) msgEnd = pos + 4 + alen := by omega
            rw [stop, restEq, List.drop_drop, Tlv.padding, Nat.add_assoc (pos + 4)]
          have fewer : msgEnd - (min (pos + 4 + alen) msgEnd + (4 - alen % 4) % 4) < left := by omega
          have behind := inductionHypothesis _ fewer _ rfl
          rw [onward] at behind
          rw [Tlv.met_whole whole, behind, if_neg (by omega : ¬ msgEnd < pos + 4 + alen)]
          simp only [List.exists_mem_cons_iff, ← alenEq]
          split
          · next asks => simp only [asks, true_or, decide_true]
          · next asks => simp only [asks, false_or]
        · rw [Tlv.met_overrun (Nat.not_le.mp whole), if_pos (by omega : msgEnd < pos + 4 + alen),
            List.take_of_length_le (by omega)]
          simp only [List.mem_singleton, exists_eq_left]
          split
          · next asks => simp only [asks, decide_true]
          · next asks => simp only [asks, decide_false]
      · have short : ((packet.take msgEnd).drop pos).length < 4 := by
          rw [List.length_drop, List.length_take]
          omega
        rw [asksLoop, if_neg room, Tlv.met_short short]
        simp

/-! ## What is answered -/

/-- The datagrams to answer, where `seen` says which attributes of the declared body count. -/
structure Accepted (seen : List UInt8 → List Tlv.Attribute) (packet : List UInt8) : Prop where
  header : 20 ≤ packet.length
  cookie : (packet.drop 4).take 4 = cookieBytes
  aligned : declaredLength packet % 4 = 0
  fits : 20 + declaredLength packet ≤ packet.length
  request : natOfBe (packet.take 2) = bindingRequest
  plain : ∀ a ∈ seen (declaredBody packet), ¬ Alternate a

theorem accepted_iff {seen : List UInt8 → List Tlv.Attribute} {packet : List UInt8} :
    Accepted seen packet ↔ 20 ≤ packet.length ∧ (packet.drop 4).take 4 = cookieBytes ∧
      declaredLength packet % 4 = 0 ∧ 20 + declaredLength packet ≤ packet.length ∧
      natOfBe (packet.take 2) = bindingRequest ∧ ∀ a ∈ seen (declaredBody packet), ¬ Alternate a :=
  ⟨fun ⟨a, b, c, d, e, f⟩ => ⟨a, b, c, d, e, f⟩, fun ⟨a, b, c, d, e, f⟩ => ⟨a, b, c, d, e, f⟩⟩

instance (seen : List UInt8 → List Tlv.Attribute) (packet : List UInt8) :
    Decidable (Accepted seen packet) :=
  decidable_of_iff' _ accepted_iff

theorem natOfBe_eq_cookie {bytes : List UInt8} (four : bytes.length = 4) :
    natOfBe bytes = magicCookie.toNat ↔ bytes = cookieBytes := by
  constructor
  · intro same
    rw [cookieBytes, ← same, ← four]
    exact (natToBe_natOfBe bytes).symm
  · intro same
    rw [same]
    decide

theorem asksForAlternateAddress_eq {packet : List UInt8} {bodyLen : Nat}
    (fits : 20 + bodyLen ≤ packet.length) : asksForAlternateAddress packet bodyLen =
      some (decide (∃ a ∈ Tlv.met 4 ((packet.drop 20).take bodyLen), Alternate a)) := by
  rw [asksForAlternateAddress, Nat.min_eq_left fits, asksLoop_eq fits, List.drop_take,
    Nat.add_sub_cancel_left]

/-- Every datagram is answered or dropped, and no index of the program is out of range. -/
theorem processStunPacket_eq (packet : List UInt8) (src : SocketAddr) :
    processStunPacket packet src =
      some (if Accepted (Tlv.met 4) packet then some (response (transactionId packet) src)
        else none) := by
  by_cases header : packet.length < 20
  · have refused : ¬ Accepted (Tlv.met 4) packet := fun accepted =>
      Nat.not_le.mpr header accepted.header
    rw [processStunPacket, if_pos header, if_neg refused]
  · have tid : slice packet 8 20 = some (transactionId packet) := by
      rw [slice_eq (by omega) (by omega), List.drop_take, transactionId]
    rw [processStunPacket, if_neg header]
    match packet, header, tid with
    | b₀ :: b₁ :: b₂ :: b₃ :: b₄ :: b₅ :: b₆ :: b₇ :: rest, header, tid =>
        generalize whole : b₀ :: b₁ :: b₂ :: b₃ :: b₄ :: b₅ :: b₆ :: b₇ :: rest = packet at *
        have kind : be16 packet 0 = some (natOfBe (packet.take 2)) := by
          rw [← whole]
          rfl
        have cookie : be32 packet 4 = some (natOfBe ((packet.drop 4).take 4)) := by
          rw [← whole]
          rfl
        have length : be16 packet 2 = some (declaredLength packet) := by
          rw [← whole]
          rfl
        have four : ((packet.drop 4).take 4).length = 4 := by
          rw [← whole]
          rfl
        simp only [kind, cookie, length, tid, Option.bind_eq_bind, Option.bind_some, ne_eq,
          natOfBe_eq_cookie four]
        split
        · next other => rw [if_neg fun accepted => other accepted.cookie]
        · next cookie' =>
            split
            · next shape =>
                rw [if_neg]
                intro accepted
                rcases shape with unaligned | short
                · exact unaligned accepted.aligned
                · have fits := accepted.fits
                  omega
            · next shape =>
                split
                · next other => rw [if_neg fun accepted => other accepted.request]
                · next request =>
                    have fits : 20 + declaredLength packet ≤ packet.length := by omega
                    have asked : (∃ a ∈ Tlv.met 4 (declaredBody packet), Alternate a) ↔
                        ¬ Accepted (Tlv.met 4) packet := by
                      constructor
                      · rintro ⟨a, inside, alternate⟩ accepted
                        exact accepted.plain a inside alternate
                      · intro refused
                        by_contra none'
                        exact refused ⟨by omega, not_not.mp cookie', by omega, fits, not_not.mp request,
                          fun a inside alternate => none' ⟨a, inside, alternate⟩⟩
                    rw [asksForAlternateAddress_eq fits, Option.bind_some, ← declaredBody]
                    simp only [asked, decide_eq_true_eq, ite_not]

/-! ## Behind the declared length -/

theorem window_eq {packet : List UInt8} {n i j : Nat} (within : n ≤ packet.length) (inside : i + j ≤ n)
    (tail : List UInt8) :
    ((packet.take n ++ tail).drop i).take j = (packet.drop i).take j := by
  have front : (packet.take n).length = n := by rw [List.length_take, Nat.min_eq_left within]
  have kept : j ≤ ((packet.take n).drop i).length := by
    rw [List.length_drop, front]
    omega
  rw [List.drop_append_of_le_length (by omega), List.take_append_of_le_length kept, List.drop_take,
    List.take_take, Nat.min_eq_left (by omega)]

/-- Every datagram is answered or dropped without an index out of range; it is answered exactly when it
is a Binding Request none of whose attributes asks for another address, and then whatever stands behind
the declared length. -/
theorem requests_answered (packet : List UInt8) (src : SocketAddr) :
    ∃ sent, processStunPacket packet src = some sent ∧
      (sent.isSome = true ↔ Accepted (Tlv.met 4) packet) ∧
      ∀ tail, 20 + declaredLength packet ≤ packet.length →
        processStunPacket (packet.take (20 + declaredLength packet) ++ tail) src = some sent := by
  refine ⟨_, processStunPacket_eq packet src, ?_, ?_⟩
  · split
    · next accepted => exact iff_of_true rfl accepted
    · next refused => exact iff_of_false Bool.false_ne_true refused
  · intro tail fits
    have window := fun {i j : Nat} (inside : i + j ≤ 20 + declaredLength packet) =>
      window_eq fits inside tail
    set other := packet.take (20 + declaredLength packet) ++ tail with otherEq
    have length : declaredLength other = declaredLength packet :=
      congrArg natOfBe (window (by omega))
    have body : declaredBody other = declaredBody packet := by
      rw [declaredBody, length, window (Nat.le_refl _), declaredBody]
    have tid : transactionId other = transactionId packet := window (by omega)
    have kind : other.take 2 = packet.take 2 := window (i := 0) (by omega)
    have long : 20 + declaredLength packet ≤ other.length := by
      rw [otherEq, List.length_append, List.length_take]
      omega
    have same : Accepted (Tlv.met 4) other ↔ Accepted (Tlv.met 4) packet := by
      rw [accepted_iff, accepted_iff, window (i := 4) (j := 4) (by omega), length, kind, body]
      exact and_congr (iff_of_true (by omega) (by omega)) (and_congr_right fun _ =>
        and_congr_right fun _ => and_congr_left fun _ => iff_of_true long fits)
    rw [processStunPacket_eq, tid]
    simp only [same]

/-- A Binding Request of one attribute: a CHANGE-REQUEST that declares eight bytes and has four. -/
def overrunRequest : List UInt8 :=
  [0, 1, 0, 8] ++ cookieBytes ++ List.replicate 12 0 ++ [0, 3, 0, 8, 0, 0, 0, 6]

/-- It is dropped, although no attribute before the first one that runs past the end asks for another
address. -/
theorem overrun_request_dropped :
    ¬ ∀ packet src, ∃ sent, processStunPacket packet src = some sent ∧
      (sent.isSome = true ↔ Accepted (fun body => (Tlv.walk 4 body).1) packet) ∧
      ∀ tail, 20 + declaredLength packet ≤ packet.length →
        processStunPacket (packet.take (20 + declaredLength packet) ++ tail) src = some sent := by
  intro claim
  obtain ⟨sent, sends, exact, -⟩ := claim overrunRequest ⟨.v4 192 0 2 7, 40000⟩
  have body : declaredBody overrunRequest = [0, 3, 0, 8, 0, 0, 0, 6] := by decide
  have stuck : Tlv.next 4 [0, 3, 0, 8, 0, 0, 0, 6] = none := by decide
  have none' : (Tlv.walk 4 (declaredBody overrunRequest)).1 = [] := by
    rw [body, Tlv.walk_of_none stuck]
  have accepted : Accepted (fun body => (Tlv.walk 4 body).1) overrunRequest := by
    refine ⟨by decide, by decide, by decide, by decide, by decide, ?_⟩
    intro a inside
    rw [none'] at inside
    cases inside
  have refused : ¬ Accepted (Tlv.met 4) overrunRequest := by
    intro met
    refine met.plain ⟨3, [0, 0, 0, 6]⟩ ?_ (by decide)
    rw [body, Tlv.met_overrun (by decide)]
    exact List.mem_singleton_self _
  rw [processStunPacket_eq, if_neg refused] at sends
  cases sends
  cases exact.mpr accepted

/-! ## The reply -/

theorem xor_cancel {xs mask : List UInt8} (room : xs.length ≤ mask.length) :
    List.zipWith (fun b m => b ^^^ m) (List.zipWith (fun b m => b ^^^ m) xs mask) mask = xs := by
  induction xs generalizing mask with
  | nil => rfl
  | cons x xs inductionHypothesis =>
      cases mask with
      | nil => exact absurd room (Nat.not_succ_le_zero _)
      | cons m mask =>
          rw [List.zipWith_cons_cons, List.zipWith_cons_cons,
            inductionHypothesis (Nat.le_of_succ_le_succ room), UInt8.xor_assoc, UInt8.xor_self,
            UInt8.xor_zero]

theorem octets_length (segments : Vector UInt16 8) : (octets (.v6 segments)).length = 16 := by
  simp [octets, List.length_flatMap]

theorem ofNat_natOfBe_natToBe (n : UInt16) : UInt16.ofNat (natOfBe (natToBe 2 n.toNat)) = n := by
  have small : n.toNat < 256 ^ 2 := n.toNat_lt
  rw [natOfBe_natToBe, Nat.mod_eq_of_lt small, UInt16.ofNat_toNat]

/-- The `i`-th piece of a text put together from pieces of one width. -/
theorem piece_flatMap {α : Type} {pieces : α → List UInt8} {width : Nat}
    (size : ∀ x, (pieces x).length = width) {xs : List α} {i : Nat} {x : α} (here : xs[i]? = some x) :
    ((xs.flatMap pieces).drop (width * i)).take width = pieces x := by
  induction xs generalizing i with
  | nil => cases here
  | cons first xs inductionHypothesis =>
      rw [List.flatMap_cons]
      cases i with
      | zero =>
          cases here
          rw [Nat.mul_zero, List.drop_zero, List.take_left' (size _)]
      | succ i =>
          have front : width * (i + 1) = (pieces first).length + width * i := by
            rw [size, Nat.mul_succ, Nat.add_comm]
          rw [front, ← List.drop_drop, List.drop_left]
          exact inductionHypothesis here

theorem ofOctets_octets (ip : IpAddr) : ofOctets (octets ip) = some ip := by
  cases ip with
  | v4 a b c d => rfl
  | v6 segments =>
      have sixteen := octets_length segments
      have read : ∀ i : Fin 8, UInt16.ofNat (natOfBe (((octets (.v6 segments)).drop (2 * i)).take 2)) =
          segments[i] := by
        intro i
        have here : segments.toList[i.val]? = some segments[i] := by simp
        rw [octets, piece_flatMap (fun _ => natToBe_length 2 _) here, ofNat_natOfBe_natToBe]
      unfold ofOctets
      split
      · next four =>
          rw [four] at sixteen
          simp at sixteen
      · rw [if_pos sixteen]
        congr 2
        ext i small
        rw [Vector.getElem_ofFn]
        exact congrArg _ (read ⟨i, small⟩)

/-- The attributes of a reply. -/
def replyAttrs (tid : List UInt8) (src : SocketAddr) : List Tlv.Attribute :=
  [⟨attrXorMappedAddress, xorMappedAddress src (cookieBytes ++ tid)⟩, ⟨attrSoftware, software⟩]

/-- The address takes four octets or sixteen, so its attribute needs no padding. -/
theorem xorMappedAddress_length {tid : List UInt8} (twelve : tid.length = 12) (src : SocketAddr) :
    (xorMappedAddress src (cookieBytes ++ tid)).length = 8 ∨
      (xorMappedAddress src (cookieBytes ++ tid)).length = 20 := by
  have mask : (cookieBytes ++ tid).length = 16 := by
    rw [List.length_append, twelve]
    rfl
  rcases src with ⟨ip, port⟩
  cases ip with
  | v4 a b c d =>
      left
      simp [xorMappedAddress, mask, octets]
  | v6 segments =>
      right
      simp [xorMappedAddress, mask, octets_length]

/-- The reply is a header and its attributes, and the length field counts the bytes of these. -/
theorem response_eq {tid : List UInt8} (twelve : tid.length = 12) (src : SocketAddr) :
    ∃ length, length < 65536 ∧ length % 4 = 0 ∧
      ((replyAttrs tid src).flatMap (Tlv.Attribute.encode 4)).length = length ∧
      response tid src = natToBe 2 bindingSuccess ++ (natToBe 2 length ++ (cookieBytes ++ (tid ++
        (replyAttrs tid src).flatMap (Tlv.Attribute.encode 4)))) := by
  rcases xorMappedAddress_length twelve src with eight | twenty
  · refine ⟨24, by decide, by decide, ?_, ?_⟩
    · simp [replyAttrs, Tlv.Attribute.encode, eight, Tlv.padding, software]
    · simp [replyAttrs, Tlv.Attribute.encode, eight, Tlv.padding, software, response, softwarePadded]
  · refine ⟨36, by decide, by decide, ?_, ?_⟩
    · simp [replyAttrs, Tlv.Attribute.encode, twenty, Tlv.padding, software]
    · simp [replyAttrs, Tlv.Attribute.encode, twenty, Tlv.padding, software, response, softwarePadded]

/-- A client finds its own address in the attribute. -/
theorem mappedAddress_xorMappedAddress {tid : List UInt8} (twelve : tid.length = 12)
    (src : SocketAddr) :
    mappedAddress tid (xorMappedAddress src (cookieBytes ++ tid)) = some src := by
  rcases src with ⟨ip, port⟩
  set xored := port ^^^ (magicCookie >>> 16).toUInt16 with xoredEq
  have unmasked : UInt16.ofNat (natOfBe (natToBe 2 xored.toNat)) ^^^ 0x2112 = port := by
    have half : (magicCookie >>> 16).toUInt16 = 0x2112 := by decide
    rw [ofNat_natOfBe_natToBe, xoredEq, half, UInt16.xor_assoc, UInt16.xor_self, UInt16.xor_zero]
  have mask : (cookieBytes ++ tid).length = 16 := by
    rw [List.length_append, twelve]
    rfl
  cases ip with
  | v4 a b c d =>
      have back : List.zipWith (fun b m => b ^^^ m)
          (List.zipWith (fun b m => b ^^^ m) (octets (.v4 a b c d)) cookieBytes) cookieBytes =
          octets (.v4 a b c d) := xor_cancel (Nat.le_refl 4)
      change (ofOctets (List.zipWith (fun b m => b ^^^ m)
        (List.zipWith (fun b m => b ^^^ m) (octets (.v4 a b c d)) cookieBytes) cookieBytes)).bind
          (fun ip => some (SocketAddr.mk ip (.ofNat (natOfBe (natToBe 2 xored.toNat)) ^^^ 0x2112))) = _
      rw [back, ofOctets_octets, unmasked]
      rfl
  | v6 segments =>
      have sixteen := octets_length segments
      set masked := List.zipWith (fun b m => b ^^^ m) (octets (.v6 segments)) (cookieBytes ++ tid)
      have whole : masked.length = 16 := by rw [List.length_zipWith, sixteen, mask, Nat.min_self]
      have back : List.zipWith (fun b m => b ^^^ m) masked (cookieBytes ++ tid) =
          octets (.v6 segments) := xor_cancel (by rw [sixteen, mask])
      change (if (2 : UInt8) = 2 ∧ masked.length = 16 then
          (ofOctets (List.zipWith (fun b m => b ^^^ m) masked (cookieBytes ++ tid))).bind
            (fun ip => some (SocketAddr.mk ip (.ofNat (natOfBe (natToBe 2 xored.toNat)) ^^^ 0x2112)))
        else none) = _
      rw [if_pos ⟨rfl, whole⟩, back, ofOctets_octets, unmasked]
      rfl

/-- The answer to a request is a success response with the transaction id of the request, in which the
client that sent it finds its own address. -/
theorem reply_received {packet reply : List UInt8} {src : SocketAddr}
    (answered : processStunPacket packet src = some (some reply)) :
    ∃ attrs value, Message.read reply = some ⟨bindingSuccess, transactionId packet, attrs⟩ ∧
      (attrs.find? (·.kind = attrXorMappedAddress)).map (·.value) = some value ∧
      mappedAddress (transactionId packet) value = some src := by
  rw [processStunPacket_eq] at answered
  split at answered
  case isFalse => cases Option.some.inj answered
  case isTrue accepted =>
    have replyEq : response (transactionId packet) src = reply :=
      Option.some.inj (Option.some.inj answered)
    have twelve : (transactionId packet).length = 12 := by
      have header := accepted.header
      rw [transactionId, List.length_take, List.length_drop]
      omega
    refine ⟨replyAttrs (transactionId packet) src, _, ?_, rfl, mappedAddress_xorMappedAddress twelve src⟩
    obtain ⟨length, small, aligned, counted, whole⟩ := response_eq twelve src
    rw [replyEq] at whole
    set tid := transactionId packet
    set body := (replyAttrs tid src).flatMap (Tlv.Attribute.encode 4) with bodyEq
    have size : reply.length = 20 + length := by
      rw [whole]
      simp only [List.length_append, natToBe_length, twelve, counted, cookieBytes]
      omega
    have declared : declaredLength reply = length := by
      have field : (reply.drop 2).take 2 = natToBe 2 length := by
        rw [whole]
        rfl
      rw [declaredLength, field, natOfBe_natToBe]
      exact Nat.mod_eq_of_lt small
    have cookie : (reply.drop 4).take 4 = cookieBytes := by
      rw [whole]
      rfl
    have behind : reply.drop 8 = tid ++ body := by
      rw [whole]
      rfl
    have same : transactionId reply = tid := by
      rw [transactionId, behind, List.take_left' twelve]
    have attrs : reply.drop 20 = body := by
      have twenty : reply.drop 20 = (reply.drop 8).drop 12 := by rw [List.drop_drop]
      rw [twenty, behind, List.drop_left' twelve]
    have kind : natOfBe (reply.take 2) = bindingSuccess := by
      rw [whole]
      rfl
    have fits : ∀ a ∈ replyAttrs tid src, a.kind < 65536 ∧ a.value.length < 65536 := by
      intro a inside
      rcases List.mem_cons.mp inside with rfl | inside
      · refine ⟨(by decide : attrXorMappedAddress < 65536), ?_⟩
        rcases xorMappedAddress_length twelve src with eight | twenty
        · exact eight ▸ by decide
        · exact twenty ▸ by decide
      · cases List.mem_singleton.mp inside
        exact ⟨by decide, by decide⟩
    rw [Message.read, if_pos ⟨by omega, cookie, by omega, by omega⟩, attrs, bodyEq,
      Tlv.walk_encode fits, kind, same]

/-- The answer to a request without attributes, from an IPv6 address. -/
theorem reply_received_bare :
    ∃ reply attrs value, Message.read reply = some ⟨bindingSuccess, List.replicate 12 7, attrs⟩ ∧
      (attrs.find? (·.kind = attrXorMappedAddress)).map (·.value) = some value ∧
      mappedAddress (List.replicate 12 7) value =
        some ⟨.v6 #v[0x2001, 0xdb8, 0, 0, 0, 0, 0, 1], 40000⟩ := by
  set packet : List UInt8 := [0, 1, 0, 0] ++ cookieBytes ++ List.replicate 12 7
  set src : SocketAddr := ⟨.v6 #v[0x2001, 0xdb8, 0, 0, 0, 0, 0, 1], 40000⟩
  have plain : Tlv.met 4 (declaredBody packet) = [] := Tlv.met_short (by decide)
  have accepted : Accepted (Tlv.met 4) packet := by
    refine ⟨by decide, by decide, by decide, by decide, by decide, ?_⟩
    intro a inside
    rw [plain] at inside
    cases inside
  have answered : processStunPacket packet src = some (some (response (transactionId packet) src)) := by
    rw [processStunPacket_eq, if_pos accepted]
  obtain ⟨attrs, value, read, found, mapped⟩ := reply_received answered
  exact ⟨_, attrs, value, read, found, mapped⟩

end Remgr.Stun
