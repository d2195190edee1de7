/-
Module: Remgr.Proofs.ProxyConfig
Purpose: What `validate` of the frp client lets through: the checks of every proxy, distinct names, and
  no proxy that dials the upstream's own control port or its own published one. Two hosts that differ
  only in the brackets around an IPv6 address are dialed alike and not recognised, as the last section
  shows.
Trusted boundary: as in `Remgr.Frpc.Config`
Main exports: ProxyAccepted, validate_proxies, LoopFree, loops_rejected_iff, bracketed_loop_accepted
-/
import Remgr.Frpc.Config
import Remgr.Lib.AsciiCase
import Remgr.Lib.IpParse
import Remgr.Lib.Lines

namespace Remgr.Frpc

open Remgr.Lib

/-! ## The checks of one proxy -/

/-- What `validate` asks of one proxy by itself. -/
structure ProxyAccepted (w : World) (cfg : FrpcConfig) (p : FrpcProxyConfig) : Prop where
  named : Text.trim p.name.toList ≠ []
  typed : p.proxyType = "tcp" ∨ p.proxyType = "udp"
  hosted : Text.trim p.localIp.toList ≠ []
  localPort : p.localPort ≠ 0
  remotePort : p.remotePort ≠ 0
  control : ¬ (sameHost w p.localIp cfg.serverAddr = true ∧ p.localPort = cfg.serverPort)
  published : ¬ (sameHost w p.localIp cfg.serverAddr = true ∧ p.localPort = p.remotePort)

variable {w : World} {cfg : FrpcConfig}

/-- A check that refuses comes to nothing exactly when its condition fails. -/
theorem check_ok {refused : Prop} [Decidable refused] {msg : String} {rest : Except String Unit} :
    (if refused then .error msg else rest) = .ok () ↔ ¬ refused ∧ rest = .ok () := by
  split
  · next holds => exact iff_of_false nofun fun passed => passed.1 holds
  · next fails => exact ⟨fun onward => ⟨fails, onward⟩, fun passed => passed.2⟩

theorem validateProxy_ok {seen : List String} {i : Nat} {p : FrpcProxyConfig} :
    cfg.validateProxy w seen i p = .ok () ↔ ProxyAccepted w cfg p ∧ p.name ∉ seen := by
  unfold FrpcConfig.validateProxy
  simp only [check_ok, and_true]
  constructor
  · rintro ⟨named, fresh, typed, hosted, localPort, remotePort, control, published⟩
    have typed' : p.proxyType = "tcp" ∨ p.proxyType = "udp" := by
      by_contra neither
      exact typed (not_or.mp neither)
    exact ⟨⟨named, typed', hosted, localPort, remotePort, control, published⟩, fresh⟩
  · rintro ⟨⟨named, typed, hosted, localPort, remotePort, control, published⟩, fresh⟩
    exact ⟨named, fresh, fun neither => typed.elim neither.1 neither.2, hosted, localPort, remotePort,
      control, published⟩

theorem validateProxies_ok {seen : List String} {i : Nat} {proxies : List FrpcProxyConfig} :
    cfg.validateProxies w seen i proxies = .ok () ↔
      (∀ p ∈ proxies, ProxyAccepted w cfg p) ∧ (proxies.map FrpcProxyConfig.name).Nodup ∧
        ∀ p ∈ proxies, p.name ∉ seen := by
  induction proxies generalizing seen i with
  | nil => simp [FrpcConfig.validateProxies]
  | cons p rest inductionHypothesis =>
      have step : cfg.validateProxies w seen i (p :: rest) = .ok () ↔
          cfg.validateProxy w seen i p = .ok () ∧
            cfg.validateProxies w (seen ++ [p.name]) (i + 1) rest = .ok () := by
        rw [FrpcConfig.validateProxies]
        cases cfg.validateProxy w seen i p with
        | error msg => exact iff_of_false nofun nofun
        | ok _ => exact ⟨fun onward => ⟨rfl, onward⟩, fun both => both.2⟩
      rw [step, validateProxy_ok, inductionHypothesis]
      simp only [List.mem_append, not_or, List.map_cons, List.nodup_cons,
        List.mem_cons, forall_eq_or_imp, List.mem_map, not_exists, not_and]
      grind

/-- What `validate` lets through: every proxy passes its own checks, and the names are distinct. -/
theorem validate_proxies (accepted : cfg.validate w = .ok ()) :
    (∀ p ∈ cfg.proxies, ProxyAccepted w cfg p) ∧ (cfg.proxies.map FrpcProxyConfig.name).Nodup := by
  unfold FrpcConfig.validate at accepted
  simp only [check_ok] at accepted
  obtain ⟨-, -, -, -, passed⟩ := accepted
  have spelled := validateProxies_ok.mp passed
  exact ⟨spelled.1, spelled.2.1⟩

/-! ## Where a host and a port lead -/

theorem eqIgnoreAsciiCase_iff {a b : List Char} :
    eqIgnoreAsciiCase a b = true ↔ a.map Char.toLower = b.map Char.toLower := beq_iff_eq

/-- One pair of brackets around a text. -/
def bracketed (inner : List Char) : List Char := '[' :: (inner ++ [']'])

/-- `host_port` puts brackets around this text. -/
def Bare (host : List Char) : Prop := ':' ∈ host ∧ host.head? ≠ some '['

instance (host : List Char) : Decidable (Bare host) :=
  inferInstanceAs (Decidable (_ ∧ _))

/-- The host as `host_port` writes it. -/
def dialedHost (host : String) : List Char :=
  if Bare (Text.trim host.toList) then bracketed (Text.trim host.toList) else Text.trim host.toList

theorem hostPort_toList (host : String) (port : UInt16) :
    (hostPort host port).toList = dialedHost host ++ ':' :: Nat.toDigits 10 port.toNat := by
  unfold hostPort dialedHost
  dsimp only
  by_cases bare : Bare (Text.trim host.toList)
  · have marked : ':' ∈ Text.trim host.toList ∧ (Text.trim host.toList).head? ≠ some '[' := bare
    rw [if_pos bare, if_pos marked]
    simp [bracketed]
  · have plain : ¬ (':' ∈ Text.trim host.toList ∧ (Text.trim host.toList).head? ≠ some '[') := bare
    rw [if_neg bare, if_neg plain]
    simp

theorem toNat_digit {n : Nat} {c : Char} (inside : c ∈ Nat.toDigits 10 n) : c.toNat < 58 := by
  have table : ∀ d < 10, d.digitChar.toNat < 58 := by decide
  obtain ⟨d, small, rfl⟩ := Text.mem_toDigits (by decide) inside
  exact table d small

/-- Two texts of `host_port` agree up to letter case exactly when the ports and the hosts do. -/
theorem hostPort_same {a b : String} {p q : UInt16} :
    eqIgnoreAsciiCase (hostPort a p).toList (hostPort b q).toList = true ↔
      p = q ∧ eqIgnoreAsciiCase (dialedHost a) (dialedHost b) = true := by
  have plain : ∀ n : Nat, (Nat.toDigits 10 n).map Char.toLower = Nat.toDigits 10 n := fun n =>
    Text.map_toLower_eq_self fun c inside => .inl (Nat.lt_trans (toNat_digit inside) (by decide))
  have clear : ∀ n : Nat, ':' ∉ (Nat.toDigits 10 n).reverse := fun n inside =>
    absurd (toNat_digit (List.mem_reverse.mp inside)) (by decide)
  have colon : Char.toLower ':' = ':' := by decide
  rw [eqIgnoreAsciiCase_iff, eqIgnoreAsciiCase_iff, hostPort_toList, hostPort_toList]
  simp only [List.map_append, List.map_cons, plain, colon]
  constructor
  · intro same
    have backward := congrArg List.reverse same
    simp only [List.reverse_append, List.reverse_cons, List.append_assoc, List.singleton_append]
      at backward
    obtain ⟨ports, hosts⟩ := Text.append_separator_inj (clear _) (clear _) backward
    refine ⟨?_, List.reverse_injective hosts⟩
    have numbers := Text.digits_toDigits p.toNat
    rw [List.reverse_injective ports, Text.digits_toDigits] at numbers
    exact (UInt16.toNat_inj.mp (Option.some.inj numbers)).symm
  · rintro ⟨rfl, hosts⟩
    rw [hosts]

/-- The host is localhost, or a loopback address, bare or in brackets. -/
def NamesLoopback (w : World) (host : String) : Prop :=
  eqIgnoreAsciiCase (Text.trim host.toList) "localhost".toList = true ∨
    ∃ inner ip, '[' ∉ inner ∧ ']' ∉ inner ∧
      (Text.trim host.toList = inner ∨ Text.trim host.toList = bracketed inner) ∧
      w.parseIp inner = some ip ∧ isLoopback ip = true

/-- Both lead to one place: `host_port` gives one text, up to letter case, or both name loopback and
the ports agree. -/
def SameEndpoint (w : World) (a : String) (p : UInt16) (b : String) (q : UInt16) : Prop :=
  eqIgnoreAsciiCase (hostPort a p).toList (hostPort b q).toList = true ∨
    p = q ∧ NamesLoopback w a ∧ NamesLoopback w b

/-- No two proxies share a name, and none leads back into the tunnel. -/
structure LoopFree (w : World) (cfg : FrpcConfig) : Prop where
  distinct : (cfg.proxies.map FrpcProxyConfig.name).Nodup
  control : ∀ p ∈ cfg.proxies,
    ¬ SameEndpoint w p.localIp p.localPort cfg.serverAddr cfg.serverPort
  published : ∀ p ∈ cfg.proxies,
    ¬ SameEndpoint w p.localIp p.localPort cfg.serverAddr p.remotePort

/-- The hosts are one address, in brackets on one side and bare on the other. -/
def BracketsApart (a b : String) : Prop :=
  Bare (Text.trim a.toList) ∧
      eqIgnoreAsciiCase (bracketed (Text.trim a.toList)) (Text.trim b.toList) = true ∨
    Bare (Text.trim b.toList) ∧
      eqIgnoreAsciiCase (Text.trim a.toList) (bracketed (Text.trim b.toList)) = true

instance (a b : String) : Decidable (BracketsApart a b) :=
  inferInstanceAs (Decidable (_ ∧ _ ∨ _ ∧ _))

theorem loopback_of_names {host : String} (names : NamesLoopback w host) :
    loopback w (Text.trim host.toList) = true := by
  rw [loopback, Bool.or_eq_true]
  rcases names with local' | ⟨inner, ip, noOpen, noClose, spelled, read, loops⟩
  · exact .inl local'
  · right
    have kept : ∀ {mark : Char} {text : List Char}, mark ∉ text → text.dropWhile (· == mark) = text := by
      intro mark text clear
      rw [List.dropWhile_eq_self_iff]
      intro filled opens
      exact clear (beq_iff_eq.mp opens ▸ List.getElem_mem filled)
    have closed : ']' ∉ inner.reverse := by simpa using noClose
    rcases spelled with spelled | spelled
    · rw [spelled, kept noOpen, kept closed, List.reverse_reverse, read]
      exact loops
    · have opens : (bracketed inner).dropWhile (· == '[') = inner ++ [']'] := by
        have clear : '[' ∉ inner ++ [']'] := by simpa using noOpen
        rw [bracketed, List.dropWhile_cons_of_pos (by decide), kept clear]
      have closes : (inner ++ [']']).reverse.dropWhile (· == ']') = inner.reverse := by
        rw [List.reverse_append, List.reverse_singleton, List.singleton_append,
          List.dropWhile_cons_of_pos (by decide), kept closed]
      rw [spelled, opens, closes, List.reverse_reverse, read]
      exact loops

/-- The two readings of a host differ by the brackets alone. -/
theorem dialedHost_same_iff {a b : String} :
    eqIgnoreAsciiCase (dialedHost a) (dialedHost b) = true ↔
      eqIgnoreAsciiCase (Text.trim a.toList) (Text.trim b.toList) = true ∨ BracketsApart a b := by
  simp only [eqIgnoreAsciiCase_iff, BracketsApart, dialedHost]
  generalize Text.trim a.toList = x
  generalize Text.trim b.toList = y
  have opened : ∀ {inner host : List Char},
      (bracketed inner).map Char.toLower = host.map Char.toLower → ¬ Bare host := by
    intro inner host same bare
    cases host with
    | nil => cases same
    | cons c host =>
        have first : Char.toLower '[' = c.toLower := (List.cons.inj same).1
        have opens := Text.eq_of_toLower (by decide) first.symm
        exact bare.2 (congrArg some opens)
  have lowered : ∀ {inner other : List Char},
      (bracketed inner).map Char.toLower = (bracketed other).map Char.toLower ↔
        inner.map Char.toLower = other.map Char.toLower := by
    intro inner other
    simp [bracketed]
  have alike : ∀ {host other : List Char},
      host.map Char.toLower = other.map Char.toLower → Bare host → Bare other := by
    intro host other same bare
    refine ⟨?_, fun opens => bare.2 ?_⟩
    · have inside : Char.toLower ':' ∈ other.map Char.toLower := same ▸ List.mem_map_of_mem bare.1
      obtain ⟨c, here, lowered⟩ := List.mem_map.mp inside
      have colon : c = ':' := Text.eq_of_toLower (by decide) lowered
      exact colon ▸ here
    · have heads := congrArg List.head? same
      rw [List.head?_map, List.head?_map, opens] at heads
      obtain ⟨c, first, lowered⟩ := Option.map_eq_some_iff.mp heads
      have bracket : c = '[' := Text.eq_of_toLower (by decide) lowered
      rw [first, bracket]
  by_cases bareX : Bare x <;> by_cases bareY : Bare y
  · rw [if_pos bareX, if_pos bareY, lowered]
    constructor
    · exact .inl
    · rintro (same | ⟨-, same⟩ | ⟨-, same⟩)
      · exact same
      · exact absurd bareY (opened same)
      · exact absurd bareX (opened same.symm)
  · rw [if_pos bareX, if_neg bareY]
    constructor
    · exact fun same => .inr (.inl ⟨bareX, same⟩)
    · rintro (same | ⟨-, same⟩ | ⟨bare, -⟩)
      · exact absurd (alike same bareX) bareY
      · exact same
      · exact absurd bare bareY
  · rw [if_neg bareX, if_pos bareY]
    constructor
    · exact fun same => .inr (.inr ⟨bareY, same⟩)
    · rintro (same | ⟨bare, -⟩ | ⟨-, same⟩)
      · exact absurd (alike same.symm bareY) bareX
      · exact absurd bare bareX
      · exact same
  · rw [if_neg bareX, if_neg bareY]
    constructor
    · exact .inl
    · rintro (same | ⟨bare, -⟩ | ⟨bare, -⟩)
      · exact same
      · exact absurd bare bareX
      · exact absurd bare bareY

/-- Where the ports meet, a validated proxy leads back exactly when brackets keep its host apart from
the upstream's. -/
theorem sameEndpoint_iff {a b : String} {p : UInt16} (different : sameHost w a b = false) :
    SameEndpoint w a p b p ↔ BracketsApart a b := by
  have hosts : ¬ eqIgnoreAsciiCase (Text.trim a.toList) (Text.trim b.toList) = true ∧
      ¬ (loopback w (Text.trim a.toList) = true ∧ loopback w (Text.trim b.toList) = true) := by
    rw [sameHost, Bool.or_eq_false_iff, Bool.and_eq_false_iff] at different
    refine ⟨fun same => ?_, fun both => ?_⟩
    · rw [different.1] at same
      cases same
    · rcases different.2 with first | second
      · cases first.symm.trans both.1
      · cases second.symm.trans both.2
  rw [SameEndpoint, hostPort_same, dialedHost_same_iff]
  constructor
  · rintro (⟨-, same | apart⟩ | ⟨-, first, second⟩)
    · exact absurd same hosts.1
    · exact apart
    · exact absurd ⟨loopback_of_names first, loopback_of_names second⟩ hosts.2
  · exact fun apart => .inl ⟨rfl, .inr apart⟩

/-! ## The result -/

/-- `validate` refuses two proxies of one name, and every proxy that leads back into the tunnel but for
those whose host is kept apart from the upstream's by brackets alone. -/
theorem loops_rejected_iff (accepted : cfg.validate w = .ok ()) :
    LoopFree w cfg ↔ ∀ p ∈ cfg.proxies, BracketsApart p.localIp cfg.serverAddr →
      p.localPort ≠ cfg.serverPort ∧ p.localPort ≠ p.remotePort := by
  obtain ⟨passed, distinct⟩ := validate_proxies accepted
  have ports : ∀ {a b : String} {p q : UInt16}, SameEndpoint w a p b q → p = q := by
    intro a b p q same
    rcases same with same | same
    · exact (hostPort_same.mp same).1
    · exact same.1
  constructor
  · intro free p inside apart
    have leads : ∀ {q : UInt16}, p.localPort = q →
        SameEndpoint w p.localIp p.localPort cfg.serverAddr q := by
      rintro q rfl
      exact .inl (hostPort_same.mpr ⟨rfl, dialedHost_same_iff.mpr (.inr apart)⟩)
    exact ⟨fun same => free.control p inside (leads same),
      fun same => free.published p inside (leads same)⟩
  · intro condition
    have apart : ∀ p ∈ cfg.proxies, ∀ q,
        ¬ (sameHost w p.localIp cfg.serverAddr = true ∧ p.localPort = q) →
        SameEndpoint w p.localIp p.localPort cfg.serverAddr q →
        BracketsApart p.localIp cfg.serverAddr ∧ p.localPort = q := by
      intro p inside q refused same
      have meet := ports same
      subst meet
      have different : sameHost w p.localIp cfg.serverAddr = false := by
        by_contra host
        exact refused ⟨eq_true_of_ne_false host, rfl⟩
      exact ⟨(sameEndpoint_iff different).mp same, rfl⟩
    refine ⟨distinct, fun p inside same => ?_, fun p inside same => ?_⟩
    · obtain ⟨apart', meet⟩ := apart p inside _ (passed p inside).control same
      exact (condition p inside apart').1 meet
    · obtain ⟨apart', meet⟩ := apart p inside _ (passed p inside).published same
      exact (condition p inside apart').2 meet

/-- The parser of the standard library. -/
def stdWorld : World := { parseIp := IpAddr.parse, debug := fun text => text }

def sampleProxy (localIp : String) (localPort : UInt16) : FrpcProxyConfig :=
  { name := "web", localIp, localPort, remotePort := 7001 }

/-- Distinct ports on the upstream itself are no loop. -/
theorem loops_rejected_local :
    LoopFree stdWorld { serverAddr := "127.0.0.1", proxies := [sampleProxy "localhost" 8080] } :=
  (loops_rejected_iff (by decide +kernel)).mpr (by decide +kernel)

/-- The upstream's control port behind an IPv6 address, which one side writes in brackets. -/
theorem bracketed_loop_accepted :
    ¬ ∀ (w : World) (cfg : FrpcConfig), cfg.validate w = .ok () → LoopFree w cfg := by
  intro claim
  have free := claim stdWorld
    { serverAddr := "[2001:db8::1]", proxies := [sampleProxy "2001:db8::1" 7000] } (by decide +kernel)
  exact free.control (sampleProxy "2001:db8::1" 7000) (List.mem_singleton_self _)
    (.inl (by decide +kernel))

end Remgr.Frpc
