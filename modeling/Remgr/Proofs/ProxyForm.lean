/-
Module: Remgr.Proofs.ProxyForm
Purpose: The console's form of the proxies, opened and saved unchanged. The list comes back when
  every name and host is one word that cannot be taken for another field, and only then.
Trusted boundary: as in `Remgr.Frpc.ProxyLine`
Main exports: Plain, parseLine_proxyLine, form_kept_iff, form_kept_pair, spaced_name_lost
-/
import Mathlib.Data.List.Forall2
import Remgr.Proofs.ProxyConfig
import Remgr.Proofs.ProxyLine

namespace Remgr.Frpc

open Remgr.Lib

/-! ## Words of a line -/

/-- The text holds nothing at which `parse_line` splits. -/
def Whole (text : List Char) : Prop := ∀ c ∈ text, isSeparator c = false

instance (text : List Char) : Decidable (Whole text) :=
  decidable_of_iff (text.all fun c => !isSeparator c) (by simp [Whole])

theorem lineTokens_cons {word back : List Char} (whole : Whole word) (filled : word ≠ []) :
    lineTokens (word ++ ' ' :: back) = word :: lineTokens back := by
  unfold lineTokens
  rw [Text.split_append isSeparator (by decide), Text.split_of_plain isSeparator whole,
    List.singleton_append, List.filter_cons_of_pos (by simpa using filled)]

theorem lineTokens_single {word : List Char} (whole : Whole word) (filled : word ≠ []) :
    lineTokens word = [word] := by
  unfold lineTokens
  rw [Text.split_of_plain isSeparator whole, List.filter_cons_of_pos (by simpa using filled),
    List.filter_nil]

theorem whole_of_mem_lineTokens {text word : List Char} (inside : word ∈ lineTokens text) :
    Whole word :=
  Text.plain_of_mem_split (List.mem_filter.mp inside).1

theorem isSeparator_digit {c : Char} (low : 48 ≤ c.toNat) (high : c.toNat ≤ 57) :
    isSeparator c = false := by
  have comma : c ≠ ',' := by
    rintro rfl
    exact absurd low (by decide)
  simp only [isSeparator, Text.isWhitespace, Bool.or_eq_false_iff, Bool.and_eq_false_iff,
    decide_eq_false_iff_not, beq_eq_false_iff_ne]
  refine ⟨?_, comma⟩
  omega

theorem whole_toDigits (n : Nat) : Whole (Nat.toDigits 10 n) := fun _ inside =>
  isSeparator_digit (Text.mem_decimalDigits inside).1 (Text.mem_decimalDigits inside).2

theorem portOf_toDigits (port : UInt16) : portOf (Nat.toDigits 10 port.toNat) = some port := by
  rw [portOf, Text.parseUnsigned_toDigits port.toNat_lt, Option.map_some, UInt16.ofNat_toNat]

theorem isType_of_portOf {tok : List Char} {port : UInt16} (number : portOf tok = some port) :
    isType tok = false := by
  by_contra typed
  cases (portOf_of_isType (eq_true_of_ne_false typed)).symm.trans number

/-- A port is a number of 64 bits as well. -/
theorem portOf_of_parseSigned {tok : List Char} (unread : Text.parseSigned 64 tok = none) :
    portOf tok = none := by
  cases number : Text.parseUnsigned 65536 tok with
  | none => rw [portOf, number, Option.map_none]
  | some n =>
      have unsigned : tok.head? ≠ some '-' := by
        intro minus
        obtain ⟨rest, rfl⟩ : ∃ rest, tok = '-' :: rest := by
          cases tok with
          | nil => cases minus
          | cons c rest => exact ⟨rest, congrArg (· :: rest) (Option.some.inj minus)⟩
        rw [Text.parseUnsigned_of_head (List.cons_ne_nil '-' rest) (by simp), Text.digits,
          if_neg (by decide)] at number
        cases number
      rw [Text.parseSigned_of_head unsigned, Text.parseUnsigned_mono (by decide) number] at unread
      cases unread

/-! ## One proxy -/

/-- The host cannot be taken for a type or a number. -/
structure Host (text : List Char) : Prop where
  untyped : isType text = false
  unread : Text.parseSigned 64 text = none

theorem others_ports (localPort remotePort : UInt16) :
    others [Nat.toDigits 10 localPort.toNat, Nat.toDigits 10 remotePort.toNat] = [] := by
  have dropped (port : UInt16) (rest : List (List Char)) :
      others (Nat.toDigits 10 port.toNat :: rest) = others rest := by
    rw [others_cons, if_neg fun both => by cases (portOf_toDigits port).symm.trans both.2]
  rw [dropped, dropped]
  rfl

/-- What the words behind the name of a proxy's line come to, up to its host. -/
theorem words_of_fields {p : FrpcProxyConfig} (typed : p.proxyType = "tcp" ∨ p.proxyType = "udp") :
    let words := [p.proxyType.toList, p.localIp.toList, Nat.toDigits 10 p.localPort.toNat,
      Nat.toDigits 10 p.remotePort.toNat]
    words.filterMap portOf =
        (portOf p.localIp.toList).toList ++ [p.localPort, p.remotePort] ∧
      others words = (if isType p.localIp.toList = false ∧ portOf p.localIp.toList = none then
        [p.localIp.toList] else []) ∧
      (isType p.localIp.toList = false → lastType "tcp" words = p.proxyType) := by
  have named : isType p.proxyType.toList = true ∧
      String.ofList (p.proxyType.toList.map Char.toLower) = p.proxyType := by
    rcases typed with tcp | udp
    · rw [tcp]
      exact ⟨by decide, by decide⟩
    · rw [udp]
      exact ⟨by decide, by decide⟩
  refine ⟨?_, ?_, fun untyped => ?_⟩
  · rw [List.filterMap_cons_none (portOf_of_isType named.1), List.filterMap_cons,
      List.filterMap_cons_some (portOf_toDigits _), List.filterMap_cons_some (portOf_toDigits _),
      List.filterMap_nil]
    cases portOf p.localIp.toList <;> rfl
  · rw [others_cons, if_neg fun both => Bool.noConfusion (named.1.symm.trans both.1), others_cons,
      others_ports]
  · have plain (port : UInt16) := isType_of_portOf (portOf_toDigits port)
    rw [lastType_cons, if_pos named.1, lastType_cons, if_neg (by simp [untyped]), lastType_cons,
      if_neg (by simp [plain]), lastType_cons, if_neg (by simp [plain]), named.2]
    rfl

/-- A line of the right five words is read back exactly when the fourth field is no other one. -/
theorem parseLine_fields {debug : String → String} {p : FrpcProxyConfig} {text : List Char}
    (typed : p.proxyType = "tcp" ∨ p.proxyType = "udp")
    (words : lineTokens text = [p.name.toList, p.proxyType.toList, p.localIp.toList,
      Nat.toDigits 10 p.localPort.toNat, Nat.toDigits 10 p.remotePort.toNat]) :
    FrpcProxyConfig.parseLine debug text = .ok p ↔ Host p.localIp.toList := by
  obtain ⟨ports, addresses, type⟩ := words_of_fields typed
  rw [parseLine_ok]
  constructor
  · rintro ⟨name, rest, named, -, -, read, -, numbers, address⟩
    obtain ⟨rfl, rfl⟩ := List.cons.inj (words.symm.trans named)
    have noPort : portOf p.localIp.toList = none := by
      rw [ports] at read
      cases port : portOf p.localIp.toList with
      | none => rfl
      | some n =>
          rw [port] at read
          cases congrArg List.length read
    have untyped : isType p.localIp.toList = false := by
      by_contra typed
      rw [addresses, if_neg fun both => typed both.1] at address
      rw [address] at typed
      exact typed (by decide)
    rw [addresses, if_pos ⟨untyped, noPort⟩] at numbers
    exact ⟨untyped, numbers _ (List.mem_singleton_self _)⟩
  · intro host
    have noPort := portOf_of_parseSigned host.unread
    rw [if_pos ⟨host.untyped, noPort⟩] at addresses
    refine ⟨_, _, words, String.ofList_toList.symm, (type host.untyped).symm, ?_, ?_, ?_, ?_⟩
    · rw [ports, noPort]
      rfl
    · rw [addresses]
      exact Nat.le_refl 1
    · rw [addresses]
      intro a inside
      rw [List.mem_singleton.mp inside]
      exact host.unread
    · rw [addresses, firstAddress, List.head?_cons, Option.map_some, String.ofList_toList]
      rfl

/-- What `parse_line` returns is made of whole words. -/
theorem whole_of_parseLine {debug : String → String} {p : FrpcProxyConfig} {text : List Char}
    (read : FrpcProxyConfig.parseLine debug text = .ok p) :
    Whole p.name.toList ∧ Whole p.localIp.toList := by
  obtain ⟨name, rest, words, spelled, -, -, -, -, address⟩ := parseLine_ok.mp read
  have whole : ∀ word ∈ name :: rest, Whole word := fun word inside =>
    whole_of_mem_lineTokens (words ▸ inside)
  refine ⟨?_, ?_⟩
  · rw [spelled, String.toList_ofList]
    exact whole name List.mem_cons_self
  · rw [address]
    cases first : (others rest).head? with
    | none =>
        rw [firstAddress, first, Option.map_none, Option.getD_none]
        decide
    | some a =>
        rw [firstAddress, first, Option.map_some, Option.getD_some, String.toList_ofList]
        have inside : a ∈ rest := (List.mem_filter.mp (List.mem_of_head? first)).1
        exact whole a (List.mem_cons_of_mem name inside)

/-! ## Its line in the form -/

/-- What a browser takes for white space and `parse_line` does not. -/
def byteOrderMark : Char := Char.ofNat 0xFEFF

theorem browserSpace_of_word {c : Char} (space : isBrowserSpace c = true)
    (word : isSeparator c = false) : c = byteOrderMark := by
  have code : c.toNat = 0xFEFF := by
    simp only [isSeparator, Text.isWhitespace, isBrowserSpace, Bool.or_eq_false_iff,
      Bool.and_eq_false_iff, Bool.or_eq_true, Bool.and_eq_true, decide_eq_false_iff_not,
      decide_eq_true_eq, beq_eq_false_iff_ne, beq_iff_eq] at space word
    omega
  rw [byteOrderMark, ← code, Char.ofNat_toNat]

theorem browserTrim_of_last {text : List Char} {c : Char} (last : isBrowserSpace c = false) :
    browserTrim (text ++ [c]) = (text ++ [c]).dropWhile isBrowserSpace := by
  have ends : ∃ front, (text ++ [c]).dropWhile isBrowserSpace = front ++ [c] := by
    rw [List.dropWhile_append]
    split
    · exact ⟨[], List.dropWhile_cons_of_neg (by simp [last])⟩
    · exact ⟨_, rfl⟩
  obtain ⟨front, same⟩ := ends
  rw [browserTrim, same, List.reverse_append, List.reverse_singleton, List.singleton_append,
    List.dropWhile_cons_of_neg (by simp [last]), List.reverse_cons, List.reverse_reverse]

variable {w : World} {cfg : FrpcConfig} {p : FrpcProxyConfig}

theorem filled_of_trim {text : String} (filled : Text.trim text.toList ≠ []) : text.toList ≠ [] := by
  intro empty
  rw [empty] at filled
  exact filled rfl

/-- The fields behind the name. -/
def tailFields (p : FrpcProxyConfig) : List Char :=
  p.localIp.toList ++ ' ' :: (Nat.toDigits 10 p.localPort.toNat ++
    ' ' :: Nat.toDigits 10 p.remotePort.toNat)

theorem proxyLine_eq (accepted : ProxyAccepted w cfg p) :
    proxyLine p = p.name.toList ++ ' ' :: (p.proxyType.toList ++ ' ' :: tailFields p) := by
  have typed : p.proxyType.toList ≠ [] := by
    rcases accepted.typed with type | type <;> rw [type] <;> decide
  rw [proxyLine, orElse, if_neg typed, orElse, if_neg (filled_of_trim accepted.hosted), tailFields]
  simp

theorem lineTokens_tail (accepted : ProxyAccepted w cfg p) (host : Whole p.localIp.toList) :
    lineTokens (p.proxyType.toList ++ ' ' :: tailFields p) =
      [p.proxyType.toList, p.localIp.toList, Nat.toDigits 10 p.localPort.toNat,
        Nat.toDigits 10 p.remotePort.toNat] := by
  have typed : Whole p.proxyType.toList ∧ p.proxyType.toList ≠ [] := by
    rcases accepted.typed with type | type <;> rw [type] <;> decide
  rw [lineTokens_cons typed.1 typed.2, tailFields,
    lineTokens_cons host (filled_of_trim accepted.hosted),
    lineTokens_cons (whole_toDigits _) (Text.toDigits_ne_nil _),
    lineTokens_single (whole_toDigits _) (Text.toDigits_ne_nil _)]

theorem browserTrim_proxyLine (accepted : ProxyAccepted w cfg p) :
    browserTrim (proxyLine p) = (proxyLine p).dropWhile isBrowserSpace := by
  have printed := Text.toDigits_ne_nil p.remotePort.toNat
  have digit := Text.mem_decimalDigits (List.getLast_mem printed)
  have visible : isBrowserSpace ((Nat.toDigits 10 p.remotePort.toNat).getLast printed) = false := by
    simp only [isBrowserSpace, Bool.or_eq_false_iff, Bool.and_eq_false_iff,
      decide_eq_false_iff_not, beq_eq_false_iff_ne]
    omega
  obtain ⟨front, same⟩ : ∃ front, proxyLine p =
      front ++ [(Nat.toDigits 10 p.remotePort.toNat).getLast printed] := by
    refine ⟨p.name.toList ++ ' ' :: (p.proxyType.toList ++ ' ' :: (p.localIp.toList ++ ' ' ::
      (Nat.toDigits 10 p.localPort.toNat ++ ' ' ::
        (Nat.toDigits 10 p.remotePort.toNat).dropLast))), ?_⟩
    rw [proxyLine_eq accepted, tailFields]
    conv_lhs => rw [← List.dropLast_append_getLast printed]
    simp
  rw [same, browserTrim_of_last visible]

/-- The trimmed line begins with a whole word, which no browser space leads. -/
theorem trimmed_word (accepted : ProxyAccepted w cfg p) (name : Whole p.name.toList) :
    ∃ word back, browserTrim (proxyLine p) = word ++ ' ' :: back ∧ Whole word ∧ word ≠ [] ∧
      ∀ c, word.head? = some c → isBrowserSpace c = false := by
  rw [browserTrim_proxyLine accepted, proxyLine_eq accepted, List.dropWhile_append]
  split
  · have lettered : ∃ c rest, p.proxyType.toList = c :: rest ∧ isBrowserSpace c = false ∧
        Whole p.proxyType.toList := by
      rcases accepted.typed with type | type <;> rw [type] <;>
        exact ⟨_, _, rfl, by decide, by decide⟩
    obtain ⟨c, rest, type, visible, whole⟩ := lettered
    refine ⟨p.proxyType.toList, tailFields p, ?_, whole, type ▸ List.cons_ne_nil c rest, ?_⟩
    · rw [List.dropWhile_cons_of_pos (by decide), type, List.cons_append,
        List.dropWhile_cons_of_neg (by simp [visible])]
    · intro d first
      rw [type] at first
      exact Option.some.inj first ▸ visible
  · next left =>
      refine ⟨_, _, rfl, fun c inside => name c ((List.dropWhile_sublist _).mem inside),
        fun empty => left (List.isEmpty_iff.mpr empty), fun c first => ?_⟩
      have leads := List.head?_dropWhile_not isBrowserSpace p.name.toList
      rw [first] at leads
      simpa using leads

/-- The line of the form gives the proxy back: its name and its host are whole words, no byte order
mark leads the name, and the host cannot be taken for another field. -/
structure Plain (p : FrpcProxyConfig) : Prop where
  name : Whole p.name.toList
  unmarked : p.name.toList.head? ≠ some byteOrderMark
  address : Whole p.localIp.toList
  host : Host p.localIp.toList

/-- A line that comes back is the line of a plain proxy. -/
theorem parseLine_proxyLine {debug : String → String} (accepted : ProxyAccepted w cfg p) :
    FrpcProxyConfig.parseLine debug (browserTrim (proxyLine p)) = .ok p ↔ Plain p := by
  have untrimmed : ∀ {c}, Whole p.name.toList → p.name.toList.head? = some c →
      isBrowserSpace c = false → Whole p.localIp.toList →
      lineTokens (browserTrim (proxyLine p)) =
        [p.name.toList, p.proxyType.toList, p.localIp.toList,
          Nat.toDigits 10 p.localPort.toNat, Nat.toDigits 10 p.remotePort.toNat] := by
    intro c name first visible host
    have same : browserTrim (proxyLine p) = proxyLine p := by
      rw [browserTrim_proxyLine accepted, proxyLine_eq accepted]
      cases letters : p.name.toList with
      | nil => cases (letters ▸ first : ([] : List Char).head? = some c)
      | cons d rest =>
          rw [letters] at first
          rw [List.cons_append, List.dropWhile_cons_of_neg]
          rw [Option.some.inj first, visible]
          exact Bool.false_ne_true
    rw [same, proxyLine_eq accepted, lineTokens_cons name (filled_of_trim accepted.named),
      lineTokens_tail accepted host]
  constructor
  · intro read
    obtain ⟨name, host⟩ := whole_of_parseLine read
    obtain ⟨word, back, trimmed, whole, filled, visible⟩ := trimmed_word accepted name
    have first : p.name.toList = word := by
      obtain ⟨name', rest, words, spelled, -⟩ := parseLine_ok.mp read
      rw [trimmed, lineTokens_cons whole filled] at words
      rw [spelled, String.toList_ofList]
      exact (List.cons.inj words).1.symm
    obtain ⟨c, leads⟩ : ∃ c, p.name.toList.head? = some c :=
      Option.ne_none_iff_exists'.mp fun none => filled (first ▸ List.head?_eq_none_iff.mp none)
    have seen : isBrowserSpace c = false := visible c (first ▸ leads)
    refine ⟨name, fun marked => ?_, host,
      (parseLine_fields accepted.typed (untrimmed name leads seen host)).mp read⟩
    have mark : c = byteOrderMark := Option.some.inj (leads.symm.trans marked)
    rw [mark] at seen
    cases seen
  · intro plain
    obtain ⟨c, leads⟩ : ∃ c, p.name.toList.head? = some c :=
      Option.ne_none_iff_exists'.mp fun none =>
        filled_of_trim accepted.named (List.head?_eq_none_iff.mp none)
    have seen : isBrowserSpace c = false := by
      by_contra space
      have mark := browserSpace_of_word (eq_true_of_ne_false space)
        (plain.name c (List.mem_of_head? leads))
      exact plain.unmarked (mark ▸ leads)
    exact (parseLine_fields accepted.typed (untrimmed plain.name leads seen plain.address)).mpr
      plain.host

/-! ## The whole form -/

theorem mapM_ok_iff {α β ε : Type} {f : α → Except ε β} {inputs : List α} {results : List β} :
    inputs.mapM f = .ok results ↔ List.Forall₂ (fun a b => f a = .ok b) inputs results := by
  induction inputs generalizing results with
  | nil =>
      rw [List.mapM_nil, List.forall₂_nil_left_iff]
      exact ⟨fun same => by cases same; rfl, fun same => by rw [same]; rfl⟩
  | cons a inputs inductionHypothesis =>
      rw [List.mapM_cons, List.forall₂_cons_left_iff]
      constructor
      · intro read
        cases first : f a with
        | error msg =>
            rw [first] at read
            cases read
        | ok b =>
            rw [first] at read
            cases later : inputs.mapM f with
            | error msg =>
                rw [later] at read
                cases read
            | ok others =>
                rw [later] at read
                cases read
                exact ⟨b, others, rfl, inductionHypothesis.mp later, rfl⟩
      · rintro ⟨b, others, first, later, rfl⟩
        rw [first, inductionHypothesis.mpr later]
        rfl

/-- No line of the form is broken. -/
theorem proxyLine_unbroken (accepted : ProxyAccepted w cfg p) (name : Whole p.name.toList)
    (host : Whole p.localIp.toList) : ∀ c ∈ proxyLine p, (c == '\n') = false := by
  have unbroken : ∀ {text : List Char}, Whole text → ∀ c ∈ text, (c == '\n') = false := by
    intro text whole c inside
    refine beq_false_of_ne fun newline => ?_
    cases (whole c inside).symm.trans (newline ▸ (by decide : isSeparator '\n' = true))
  have space : (' ' == '\n') = false := by decide
  have type : Whole p.proxyType.toList := by
    rcases accepted.typed with type | type <;> rw [type] <;> decide
  rw [proxyLine_eq accepted, tailFields]
  simp only [List.forall_mem_append, List.forall_mem_cons]
  exact ⟨unbroken name, space, unbroken type, space, unbroken host, space,
    unbroken (whole_toDigits _), space, unbroken (whole_toDigits _)⟩

theorem savedLines_formText {proxies : List FrpcProxyConfig}
    (accepted : ∀ p ∈ proxies, ProxyAccepted w cfg p)
    (whole : ∀ p ∈ proxies, Whole p.name.toList ∧ Whole p.localIp.toList) :
    savedLines (formText proxies) = proxies.map fun p => browserTrim (proxyLine p) := by
  cases proxies with
  | nil => rfl
  | cons p rest =>
      have unbroken : ∀ line ∈ (p :: rest).map proxyLine, ∀ c ∈ line, (c == '\n') = false := by
        intro line inside
        obtain ⟨q, here, rfl⟩ := List.mem_map.mp inside
        exact proxyLine_unbroken (accepted q here) (whole q here).1 (whole q here).2
      rw [savedLines, formText, Text.split_intercalate _ rfl (by simp) unbroken, List.map_map,
        List.filter_eq_self.mpr]
      · rfl
      · intro line inside
        obtain ⟨q, here, rfl⟩ := List.mem_map.mp inside
        obtain ⟨word, back, trimmed, -, filled, -⟩ :=
          trimmed_word (accepted q here) (whole q here).1
        rw [Function.comp_apply, trimmed]
        cases word with
        | nil => exact absurd rfl filled
        | cons c word => rfl

/-- Opening the form and saving it unchanged keeps the proxies of a valid configuration exactly when
every one of them is plain. -/
theorem form_kept_iff (valid : cfg.validate w = .ok ()) :
    reopened w.debug cfg.proxies = .ok cfg.proxies ↔ ∀ p ∈ cfg.proxies, Plain p := by
  obtain ⟨accepted, -⟩ := validate_proxies valid
  have kept (whole : ∀ p ∈ cfg.proxies, Whole p.name.toList ∧ Whole p.localIp.toList) :
      reopened w.debug cfg.proxies = .ok cfg.proxies ↔ ∀ p ∈ cfg.proxies, Plain p := by
    rw [reopened, savedLines_formText accepted whole, mapM_ok_iff, List.forall₂_map_left_iff,
      List.forall₂_same]
    exact forall₂_congr fun p inside => parseLine_proxyLine (accepted p inside)
  constructor
  · intro read
    have fromLines : List.Forall₂ (fun p line => FrpcProxyConfig.parseLine w.debug line = .ok p)
        cfg.proxies (savedLines (formText cfg.proxies)) := (mapM_ok_iff.mp read).flip
    have whole := (List.forall₂_and_left _ _).mp
      (fromLines.imp fun p line parsed => And.intro (whole_of_parseLine parsed) parsed)
    exact (kept whole.1).mp read
  · intro plain
    exact (kept fun p inside => ⟨(plain p inside).name, (plain p inside).address⟩).mpr plain

/-- A page and a name server, of which the second is reached over udp. -/
def samplePair : List FrpcProxyConfig :=
  [sampleProxy "127.0.0.1" 8080,
    { name := "dns", proxyType := "udp", localIp := "nas.lan", localPort := 53,
      remotePort := 5353 }]

theorem form_kept_pair : reopened stdWorld.debug samplePair = .ok samplePair := by
  have plain : ∀ p ∈ samplePair, Plain p := by
    intro p inside
    rcases List.mem_cons.mp inside with rfl | inside
    · exact ⟨by decide, by decide, by decide, by decide, by decide⟩
    · rcases List.mem_singleton.mp inside with rfl
      exact ⟨by decide, by decide, by decide, by decide, by decide⟩
  have valid : ({ serverAddr := "203.0.113.5", proxies := samplePair } :
      FrpcConfig).validate stdWorld = .ok () := by decide +kernel
  exact (form_kept_iff valid).mpr plain

/-- A name of two words, of which the server reads the second as a host. -/
theorem spaced_name_lost :
    ¬ ∀ (w : World) (cfg : FrpcConfig), cfg.validate w = .ok () →
      reopened w.debug cfg.proxies = .ok cfg.proxies := by
  intro claim
  have kept := claim stdWorld
    { serverAddr := "203.0.113.5"
      proxies := [{ sampleProxy "127.0.0.1" 8080 with name := "my web" }] } (by decide +kernel)
  have refused : (reopened stdWorld.debug
      [{ sampleProxy "127.0.0.1" 8080 with name := "my web" }]).toOption = none := by decide +kernel
  rw [kept] at refused
  cases refused

end Remgr.Frpc
