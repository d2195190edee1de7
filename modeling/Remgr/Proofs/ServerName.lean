/-
Module: Remgr.Proofs.ServerName
Purpose: The TLS name that the frp client derives from the address of its upstream is the host it
  dials, but for some spellings of the address.
Trusted boundary: as in Remgr.Frpc.Dial; Outside.Documented is what is known of its parameters
Main exports: Outside.Documented, Accepted, NamesDialed, PlainAddress, Dials, dials_of_dialed,
  names_dialed_iff, name_dialed, bracketed_address_unnamed
-/
import Remgr.Frpc.Dial
import Remgr.Proofs.ProxyConfig

namespace Remgr.Frpc

open Remgr.Lib

def nameCharacter (c : Char) : Bool := c.isAlphanum || c == '-' || c == '_' || c == '.'

/-- What is known of host names and of the resolver. -/
structure Outside.Documented (o : Outside) : Prop where
  characters : ∀ name, o.dnsName name = true → ∀ c ∈ name, nameCharacter c = true
  distinct : ∀ name, o.dnsName name = true → IpAddr.parse name = none
  named : ∀ text name, o.resolve text = some (.name name) → name = text
  unbracketed : ∀ text, o.resolve ('[' :: text) = none

/-- The configurations with TLS and without a server name. -/
structure Accepted (w : World) (cfg : FrpcConfig) : Prop where
  valid : cfg.validate w = .ok ()
  tls : cfg.tls = true
  blank : Text.trim cfg.serverName.toList = []

/-- `inner` is the text without the blanks around it and without brackets. -/
structure Undecorated (text inner : List Char) : Prop where
  whole : Text.trim text = inner ∨ Text.trim text = bracketed inner
  unbracketed : inner.head? ≠ some '['

/-- The TLS name is the host, without blanks and brackets, and a name that TLS takes. -/
structure NamesDialed (o : Outside) (cfg : FrpcConfig) (host : RemoteHost) : Prop where
  undecorated : Undecorated cfg.serverAddr.toList (serverName cfg).toList
  taken : connectUpstream o cfg = .ok ⟨host, some host⟩

/-- An address in its plainest form, or a host name that TLS takes. The resolver may know others. -/
structure PlainAddress (o : Outside) (text : List Char) : Prop where
  trimmed : Text.trim text = text
  unbracketed : text.head? ≠ some '['
  unscoped : ∀ inner after, text = inner ++ '%' :: after → IpAddr.parse inner = none
  full : IpAddr.parse text = none → ∀ ip, o.resolve text ≠ some (.address ip)
  accepted : IpAddr.parse text = none → o.dnsName text = true

/-- The spellings of a host that can be dialed. -/
inductive Dials (o : Outside) (text : List Char) : RemoteHost → Prop where
  | full (ip : IpAddr) (read : IpAddr.parse text = some ip) : Dials o text (.address ip)
  | scope (ip : IpAddr) (inner after : List Char) (whole : text = inner ++ '%' :: after)
      (read : IpAddr.parse inner = some ip) : Dials o text (.address ip)
  | brackets (ip : IpAddr) (first : text.head? = some '[') : Dials o text (.address ip)
  | resolved (host : RemoteHost) (other : IpAddr.parse text = none)
      (found : o.resolve text = some host) : Dials o text host

variable {o : Outside} {cfg : FrpcConfig} {host : RemoteHost}

theorem bracketed_inj {a b : List Char} (same : bracketed a = bracketed b) : a = b :=
  List.append_cancel_right (List.cons.inj same).2

/-- What is dialed for a text that is read as an address in front of a port. -/
theorem dials_of_reads {text : String} {ip : IpAddr} (reads : IpAddr.Reads (dialedHost text) ip) :
    Dials o (Text.trim text.toList) (.address ip) := by
  unfold dialedHost at reads
  split at reads
  · cases reads with
    | plain read =>
        have none : IpAddr.parse (bracketed (Text.trim text.toList)) = none := IpAddr.parse_bracket _
        rw [none] at read
        cases read
    | bracketed inner zone whole isZone read =>
        have same := bracketed_inj whole
        rcases isZone with rfl | ⟨after, rfl⟩
        · rw [List.append_nil] at same
          exact .full ip (same ▸ read)
        · exact .scope ip inner after same read
  · cases reads with
    | plain read => exact .full ip read
    | bracketed inner zone whole isZone read => exact .brackets ip (by rw [whole]; rfl)

/-- What `connect_upstream` dials, for any configured text. -/
theorem dials_of_dialed (documented : o.Documented) {text : String} {port : UInt16}
    (found : dialed o (hostPort text port) = some host) : Dials o (Text.trim text.toList) host := by
  unfold dialed at found
  rw [hostPort_toList] at found
  rcases IpAddr.toSocketAddrs_port (dialedHost text) port with ⟨endpoint, target, reads⟩ |
    ⟨unread, target⟩
  · rw [target] at found
    cases found
    exact dials_of_reads reads
  · rw [target] at found
    dsimp only at found
    unfold dialedHost at found unread
    split at found
    · rw [bracketed, documented.unbracketed] at found
      cases found
    · next bare =>
        rw [if_neg bare] at unread
        refine .resolved host (Option.eq_none_iff_forall_ne_some.mpr fun ip read => ?_) found
        cases ip with
        | v4 a b c d =>
            rw [IpAddr.parseSocket_v4 read] at unread
            cases unread
        | v6 segments =>
            have colon := IpAddr.colon_mem_of_parse read
            have first : (Text.trim text.toList).head? = some '[' := by
              by_contra other
              exact bare ⟨colon, other⟩
            obtain ⟨rest, whole⟩ := List.head?_eq_some_iff.mp first
            rw [whole, IpAddr.parse_bracket] at read
            cases read

/-- `ServerName::try_from` takes an address and a name as what they are. -/
theorem toServerName_address (documented : o.Documented) {text : String} {ip : IpAddr}
    (read : IpAddr.parse text.toList = some ip) : toServerName o text = some (.address ip) := by
  have other : o.dnsName text.toList ≠ true := by
    intro isName
    rw [documented.distinct _ isName] at read
    cases read
  rw [toServerName, if_neg other, read]
  rfl

theorem toServerName_unread {text : String} (unread : IpAddr.parse text.toList = none)
    (taken : toServerName o text = some host) :
    host = .name text.toList ∧ o.dnsName text.toList = true := by
  unfold toServerName at taken
  split at taken
  · next isName =>
      cases taken
      exact ⟨rfl, isName⟩
  · rw [unread] at taken
    cases taken

theorem serverName_blank (blank : Text.trim cfg.serverName.toList = []) :
    serverName cfg = cfg.serverAddr := if_pos blank

theorem connectUpstream_ok_iff (tls : cfg.tls = true)
    (found : dialed o (hostPort cfg.serverAddr cfg.serverPort) = some host) {name : RemoteHost} :
    connectUpstream o cfg = .ok ⟨host, some name⟩ ↔ toServerName o (serverName cfg) = some name := by
  unfold connectUpstream
  dsimp only
  rw [found, tls]
  cases toServerName o (serverName cfg) <;> simp

theorem length_trim_le (text : List Char) : (Text.trim text).length ≤ text.length := by
  rw [Text.trim, List.length_reverse]
  calc (((text.dropWhile Text.isWhitespace).reverse).dropWhile Text.isWhitespace).length
      ≤ (text.dropWhile Text.isWhitespace).reverse.length := (List.dropWhile_suffix _).length_le
    _ = (text.dropWhile Text.isWhitespace).length := List.length_reverse
    _ ≤ text.length := (List.dropWhile_suffix _).length_le

theorem Undecorated.of_self {text inner : List Char} (undecorated : Undecorated text inner)
    (same : inner = text) :
    Text.trim text = text ∧ text.head? ≠ some '[' := by
  subst same
  refine ⟨?_, undecorated.unbracketed⟩
  rcases undecorated.whole with plain | brackets
  · exact plain
  · have shorter := length_trim_le inner
    rw [brackets, bracketed, List.length_cons, List.length_append, List.length_singleton] at shorter
    omega

/-- The TLS name is the dialed host exactly if the configured address has no blanks around it, no
brackets, no scope, and is an address written in full or a name that TLS takes. -/
theorem names_dialed_iff (w : World) (documented : o.Documented) (accepted : Accepted w cfg)
    (found : dialed o (hostPort cfg.serverAddr cfg.serverPort) = some host) :
    NamesDialed o cfg host ↔ PlainAddress o cfg.serverAddr.toList := by
  have dials := dials_of_dialed documented found
  have own := serverName_blank accepted.blank
  constructor
  · intro names
    have taken := (connectUpstream_ok_iff accepted.tls found).mp names.taken
    rw [own] at taken
    obtain ⟨trimmed, unbracketed⟩ := Undecorated.of_self names.undecorated (by rw [own])
    have unscoped : ∀ inner after, cfg.serverAddr.toList = inner ++ '%' :: after →
        IpAddr.parse inner = none := by
      intro inner after whole
      refine Option.eq_none_iff_forall_ne_some.mpr fun ip read => ?_
      have unread := IpAddr.parse_zone read after
      rw [← whole] at unread
      obtain ⟨-, isName⟩ := toServerName_unread unread taken
      have mark : '%' ∈ cfg.serverAddr.toList := by simp [whole]
      exact absurd (documented.characters _ isName _ mark) (by decide)
    refine ⟨trimmed, unbracketed, unscoped, fun unread ip resolved => ?_,
      fun unread => (toServerName_unread unread taken).2⟩
    obtain ⟨rfl, -⟩ := toServerName_unread unread taken
    rw [trimmed] at dials
    cases dials with
    | resolved host other found =>
        rw [found] at resolved
        cases resolved
  · intro plain
    rw [plain.trimmed] at dials
    refine ⟨⟨.inl (by rw [own, plain.trimmed]), by rw [own]; exact plain.unbracketed⟩, ?_⟩
    rw [connectUpstream_ok_iff accepted.tls found, own]
    cases dials with
    | full ip read => exact toServerName_address documented read
    | scope ip inner after whole read =>
        rw [plain.unscoped inner after whole] at read
        cases read
    | brackets ip first => exact absurd first plain.unbracketed
    | resolved host unread resolved =>
        cases host with
        | address ip => exact absurd resolved (plain.full unread ip)
        | name text =>
            cases documented.named _ _ resolved
            rw [toServerName, if_pos (plain.accepted unread)]

/-- A resolver that knows one name. -/
def oneName : Outside where
  dnsName name := name == "example.org".toList
  resolve text := if text = "example.org".toList then some (.name text) else none

theorem oneName_resolve (text : List Char) : oneName.resolve text =
    if text = "example.org".toList then some (.name text) else none := rfl

theorem oneName_documented : oneName.Documented := by
  have only : ∀ name, oneName.dnsName name = true → name = "example.org".toList :=
    fun name same => beq_iff_eq.mp same
  refine ⟨?_, ?_, ?_, ?_⟩
  · intro name isName
    rw [only name isName]
    exact List.all_eq_true.mp (by decide)
  · intro name isName
    rw [only name isName]
    decide
  · intro text name resolved
    rw [oneName_resolve] at resolved
    split at resolved
    · cases resolved
      rfl
    · cases resolved
  · intro text
    rw [oneName_resolve, if_neg]
    intro same
    have other : "example.org".toList.head? ≠ some '[' := by decide
    exact other (by rw [← same]; rfl)

/-- What is used of the standard library, with debug texts left as they are. -/
def plainWorld : World := { parseIp := IpAddr.parse, debug := id }

theorem name_dialed : NamesDialed oneName { serverAddr := "example.org", tls := true }
    (.name "example.org".toList) := by
  refine (names_dialed_iff plainWorld oneName_documented ⟨rfl, rfl, rfl⟩ (by decide +kernel)).mpr ?_
  refine ⟨by decide, by decide, fun inner after whole => ?_, fun _ ip => ?_, fun _ => rfl⟩
  · have mark : '%' ∈ "example.org".toList := by simp [whole]
    exact absurd mark (by decide)
  · rw [oneName_resolve, if_pos rfl]
    nofun

/-- An IPv6 address in brackets is dialed, but its TLS name is not valid. -/
theorem bracketed_address_unnamed :
    ¬ ∀ (w : World) (o : Outside), o.Documented → ∀ cfg, Accepted w cfg → ∀ host,
      dialed o (hostPort cfg.serverAddr cfg.serverPort) = some host → NamesDialed o cfg host := by
  intro law
  have names := law plainWorld oneName oneName_documented { serverAddr := "[::1]", tls := true }
    ⟨rfl, rfl, rfl⟩ (.address (.v6 #v[0, 0, 0, 0, 0, 0, 0, 1])) (by decide +kernel)
  have refused : connectUpstream oneName { serverAddr := "[::1]", tls := true } =
      .error .invalidServerName := by decide +kernel
  cases refused.symm.trans names.taken

end Remgr.Frpc
