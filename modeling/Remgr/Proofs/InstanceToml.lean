/-
Module: Remgr.Proofs.InstanceToml
Purpose: The document of the EasyTier node is a TOML document with exactly the intended keys, whatever
  characters the settings hold: a value never leaves its quotes.
Trusted boundary: Remgr.Lib.Toml, Remgr.Modules.EasyTier
Main exports: withoutControls, quoted_tomlString, instanceDoc, instance_toml_parses, empty_name_replaced
-/
import Remgr.Lib.Toml
import Remgr.Modules.EasyTier

namespace Remgr.Modules.EasyTier

open Lib

/-- A setting with its control characters removed. -/
def withoutControls (value : String) : List Char := value.toList.filter fun c => !isControl c

theorem isText_of_visible {c : Char} (visible : isControl c = false) : Toml.isText c = true := by
  rw [isControl, Bool.or_eq_false_iff, decide_eq_false_iff_not, Bool.and_eq_false_iff,
    decide_eq_false_iff_not, decide_eq_false_iff_not] at visible
  have printable : 0x20 ≤ c.toNat ∧ c.toNat ≠ 0x7F := by omega
  simp [Toml.isText, printable]

/-- What is written for a character is read back as this character, or as none. -/
theorem readBasic_quoteChar (c : Char) (rest : List Char) :
    Toml.readBasic (quoteChar c ++ rest) =
      if isControl c then Toml.readBasic rest else Toml.push c (Toml.readBasic rest) := by
  unfold quoteChar
  by_cases quote : c = '"'
  · subst quote
    exact Toml.readBasic_escaped (.inl rfl) rest
  · by_cases backslash : c = '\\'
    · subst backslash
      exact Toml.readBasic_escaped (.inr rfl) rest
    · rw [if_neg quote, if_neg backslash]
      cases control : isControl c with
      | true => rfl
      | false => exact Toml.readBasic_text (isText_of_visible control) quote backslash rest

/-- A value stays between its quotes. The induction is on its characters. -/
theorem quoted_tomlString (value : String) :
    Toml.Quoted (withoutControls value) (tomlString value).toList := by
  intro tail
  rw [tomlString, String.toList_ofList, withoutControls]
  induction value.toList with
  | nil => exact Toml.readBasic_quote tail
  | cons c text inductionHypothesis =>
      rw [List.flatMap_cons, List.append_assoc, readBasic_quoteChar, inductionHypothesis]
      cases control : isControl c <;> simp [control, Toml.push]

/-! ## The document -/

/-- The keys and tables that are meant, for a node of this name. -/
def instanceDoc (name : String) (cfg : EasyTierConfig) : Toml.Doc where
  root :=
    [("listeners".toList, .array (cfg.listeners.map fun l => .string (withoutControls l))),
      ("instance_name".toList, .string (withoutControls name)),
      ("hostname".toList, .string (withoutControls name))] ++
    if cfg.virtualIpv4 = "" then [("dhcp".toList, .boolean true)]
    else [("ipv4".toList, .string (withoutControls cfg.virtualIpv4)),
      ("dhcp".toList, .boolean false)]
  tables :=
    [("network_identity".toList,
        [("network_name".toList, .string (withoutControls cfg.networkName)),
          ("network_secret".toList, .string (withoutControls cfg.networkSecret))]),
      ("flags".toList,
        [("default_protocol".toList, .string "tcp".toList),
          ("latency_first".toList, .boolean true)])]

theorem toList_listenerLines (listeners : List String) :
    (listenerLines listeners).toList =
      listeners.flatMap fun l => Toml.itemLine (tomlString l).toList := by
  have loop : ∀ out : String, (listeners.foldl (fun out l =>
      out ++ ("  \"" ++ tomlString l ++ "\",\n")) out).toList =
        out.toList ++ listeners.flatMap fun l => Toml.itemLine (tomlString l).toList := by
    have opening : "  \"".toList = [' ', ' ', '"'] := by decide
    have closing : "\",\n".toList = ['"', ',', '\n'] := by decide
    induction listeners with
    | nil => simp
    | cons l listeners inductionHypothesis =>
        intro out
        simp [inductionHypothesis, Toml.itemLine, opening, closing]
  exact loop ""

def settingLine (key value : String) : List Char :=
  key.toList ++ ' ' :: '=' :: ' ' :: '"' :: ((tomlString value).toList ++ ['"', '\n'])

def flagLine (key : String) (value : Bool) : List Char :=
  key.toList ++ ' ' :: '=' :: ' ' :: ((if value then "true".toList else "false".toList) ++ ['\n'])

def tableLine (name : String) : List Char := '[' :: (name.toList ++ [']', '\n'])

/-- A key that needs no quotes. -/
def Plain (key : String) : Prop := key.toList ≠ [] ∧ ∀ c ∈ key.toList, Toml.isBare c = true

instance (key : String) : Decidable (Plain key) :=
  decidable_of_iff (key.toList ≠ [] ∧ key.toList.all Toml.isBare = true)
    (and_congr_right fun _ => List.all_eq_true)

section Lines

variable {doc doc' whole : Toml.Doc} {key : String} {rest : List Char}

/-- The line of a setting adds the setting. -/
theorem continues_setting (value : String) (plain : Plain key)
    (set : doc.put key.toList (.string (withoutControls value)) = some doc')
    (continues : Toml.Continues doc' rest whole) :
    Toml.Continues doc (settingLine key value ++ rest) whole := by
  have line : settingLine key value ++ rest = key.toList ++ ' ' :: '=' :: ' ' ::
      (('"' :: (tomlString value).toList ++ ['"']) ++ '\n' :: rest) := by
    simp only [settingLine, List.append_assoc, List.cons_append, List.nil_append]
  rw [line]
  refine Toml.continues_key plain.1 plain.2 (Toml.spells_string (quoted_tomlString value)) ?_ ?_
    (List.cons_ne_nil _ _) set continues
  · rw [List.length_append]
    exact Nat.le_add_left _ _
  · rintro c ⟨rfl⟩
    rfl

theorem continues_flag (value : Bool) (plain : Plain key)
    (set : doc.put key.toList (.boolean value) = some doc')
    (continues : Toml.Continues doc' rest whole) :
    Toml.Continues doc (flagLine key value ++ rest) whole := by
  have line : flagLine key value ++ rest = key.toList ++ ' ' :: '=' :: ' ' ::
      ((if value then "true".toList else "false".toList) ++ '\n' :: rest) := by
    simp only [flagLine, List.append_assoc, List.cons_append, List.nil_append]
  rw [line]
  refine Toml.continues_key plain.1 plain.2 (Toml.spells_boolean value) ?_ ?_ ?_ set continues
  · cases value <;> decide
  · cases value
    all_goals
      rintro c ⟨rfl⟩
      rfl
  · cases value <;> decide

theorem continues_header (plain : Plain key) (opened : doc.openTable key.toList = some doc')
    (continues : Toml.Continues doc' rest whole) :
    Toml.Continues doc (tableLine key ++ rest) whole := by
  have line : tableLine key ++ rest = '[' :: (key.toList ++ ']' :: '\n' :: rest) := by
    simp only [tableLine, List.append_assoc, List.cons_append, List.nil_append]
  rw [line]
  exact Toml.continues_table plain.1 plain.2 opened continues

end Lines

/-- The lines of the document. -/
theorem toList_instance (cfg : EasyTierConfig) :
    ∃ text, buildInstanceToml cfg = .ok text ∧ text.toList =
      "listeners = [\n".toList ++
        ((cfg.listeners.flatMap fun l => Toml.itemLine (tomlString l).toList) ++ ']' :: '\n' ::
        (settingLine "instance_name" (nodeNameOf cfg) ++ (settingLine "hostname" (nodeNameOf cfg) ++
        ((if cfg.virtualIpv4 = "" then flagLine "dhcp" true
          else settingLine "ipv4" cfg.virtualIpv4 ++ flagLine "dhcp" false) ++
        (tableLine "network_identity" ++ (settingLine "network_name" cfg.networkName ++
        (settingLine "network_secret" cfg.networkSecret ++ (tableLine "flags" ++
        (settingLine "default_protocol" "tcp" ++ flagLine "latency_first" true))))))))) := by
  refine ⟨_, rfl, ?_⟩
  have identity : "[network_identity]\n".toList = tableLine "network_identity" := by decide
  have flags : "[flags]\n".toList = tableLine "flags" := by decide
  have protocol : "default_protocol = \"tcp\"\n".toList =
    settingLine "default_protocol" "tcp" := by decide
  have latency : "latency_first = true\n".toList = flagLine "latency_first" true := by decide
  have setting : ∀ {key opening : String} (value : String), key ++ " = \"" = opening →
      settingLine key value = opening.toList ++ ((tomlString value).toList ++ "\"\n".toList) := by
    rintro key _ value rfl
    have equals : " = \"".toList = [' ', '=', ' ', '"'] := by decide
    have ends : "\"\n".toList = ['"', '\n'] := by decide
    simp [settingLine, equals, ends]
  have instanceName := setting (nodeNameOf cfg)
    (by decide : "instance_name" ++ _ = "instance_name = \"")
  have hostname := setting (nodeNameOf cfg) (by decide : "hostname" ++ _ = "hostname = \"")
  have networkName := setting cfg.networkName (by decide : "network_name" ++ _ = "network_name = \"")
  have networkSecret :=
    setting cfg.networkSecret (by decide : "network_secret" ++ _ = "network_secret = \"")
  have address : (ipPart cfg ++ "\n").toList =
      if cfg.virtualIpv4 = "" then flagLine "dhcp" true
      else settingLine "ipv4" cfg.virtualIpv4 ++ flagLine "dhcp" false := by
    unfold ipPart
    by_cases empty : cfg.virtualIpv4 = ""
    · rw [if_pos empty, if_pos empty]
      decide
    · have ends : "\"\ndhcp = false".toList ++ "\n".toList =
          "\"\n".toList ++ flagLine "dhcp" false := by decide
      rw [if_neg empty, if_neg empty, setting _ (by decide : "ipv4" ++ _ = "ipv4 = \"")]
      simp only [String.toList_append, List.append_assoc, ends]
  have bracket : "]\n".toList = [']', '\n'] := by decide
  rw [← address]
  simp only [String.toList_append, toList_listenerLines, identity, flags, protocol, latency,
    instanceName, hostname, networkName, networkSecret, bracket, List.append_assoc, List.cons_append,
    List.nil_append]

/-- The array of the listeners. -/
theorem continues_listeners {doc whole : Toml.Doc} {rest : List Char} (cfg : EasyTierConfig)
    (noTables : doc.tables = []) (fresh : "listeners".toList ∉ doc.root.map Prod.fst)
    (continues : Toml.Continues
      { doc with root := doc.root ++ [("listeners".toList,
          .array (cfg.listeners.map fun l => .string (withoutControls l)))] } rest whole) :
    Toml.Continues doc ("listeners = [\n".toList ++
      ((cfg.listeners.flatMap fun l => Toml.itemLine (tomlString l).toList) ++ ']' :: '\n' :: rest))
      whole := by
  let items := cfg.listeners.map fun l => (withoutControls l, (tomlString l).toList)
  have quoted : ∀ item ∈ items, Toml.Quoted item.1 item.2 := by
    intro item inside
    obtain ⟨l, _, rfl⟩ := List.mem_map.mp inside
    exact quoted_tomlString l
  have texts : (items.flatMap fun item => Toml.itemLine item.2) =
      cfg.listeners.flatMap fun l => Toml.itemLine (tomlString l).toList := List.flatMap_map ..
  have values : (items.map fun item => Toml.Value.string item.1) =
      cfg.listeners.map fun l => .string (withoutControls l) := List.map_map ..
  have spells := Toml.spells_strings quoted
  rw [texts, values] at spells
  have opening : "listeners = [\n".toList =
      "listeners".toList ++ [' ', '=', ' ', '[', '\n'] := by decide
  have line : "listeners = [\n".toList ++
      ((cfg.listeners.flatMap fun l => Toml.itemLine (tomlString l).toList) ++ ']' :: '\n' :: rest) =
      "listeners".toList ++ ' ' :: '=' :: ' ' :: (('[' :: '\n' ::
        (cfg.listeners.flatMap fun l => Toml.itemLine (tomlString l).toList) ++ [']']) ++
          '\n' :: rest) := by
    simp only [opening, List.append_assoc, List.cons_append, List.nil_append]
  have room : items.length + 2 ≤ ('[' :: '\n' ::
      (cfg.listeners.flatMap fun l => Toml.itemLine (tomlString l).toList) ++ [']']).length := by
    rw [← texts]
    have items_le := Toml.length_le_itemLines items
    simp only [List.length_append, List.length_cons]
    omega
  rw [line]
  have plain : Plain "listeners" := by decide
  refine Toml.continues_key plain.1 plain.2 spells room ?_ (List.cons_ne_nil _ _)
    (Toml.Doc.put_root _ noTables fresh) continues
  rintro c ⟨rfl⟩
  rfl

/-- The lines from `[network_identity]` on. -/
theorem continues_tables {doc : Toml.Doc} (name : String) (cfg : EasyTierConfig)
    (noTables : doc.tables = []) (free : "network_identity".toList ∉ doc.root.map Prod.fst ∧
      "flags".toList ∉ doc.root.map Prod.fst) :
    Toml.Continues doc
      (tableLine "network_identity" ++ (settingLine "network_name" cfg.networkName ++
        (settingLine "network_secret" cfg.networkSecret ++ (tableLine "flags" ++
        (settingLine "default_protocol" "tcp" ++ flagLine "latency_first" true)))))
      { doc with tables := (instanceDoc name cfg).tables } := by
  rcases doc with ⟨root, tables⟩
  cases noTables
  let identity : List (List Char × Toml.Value) :=
    [("network_name".toList, .string (withoutControls cfg.networkName)),
      ("network_secret".toList, .string (withoutControls cfg.networkSecret))]
  rw [← List.append_nil (flagLine "latency_first" true)]
  refine continues_header (by decide) (Toml.Doc.openTable_fresh ⟨free.1, List.not_mem_nil⟩) ?_
  refine continues_setting cfg.networkName (by decide)
    (Toml.Doc.put_table _ [] "network_identity".toList [] rfl List.not_mem_nil) ?_
  refine continues_setting cfg.networkSecret (by decide)
    (Toml.Doc.put_table _ [] "network_identity".toList (identity.take 1) rfl ?_) ?_
  · change _ ∉ ["network_name".toList]
    decide
  refine continues_header (by decide) (Toml.Doc.openTable_fresh ⟨free.2, ?_⟩) ?_
  · change _ ∉ ["network_identity".toList]
    decide
  refine continues_setting "tcp" (by decide)
    (Toml.Doc.put_table _ [("network_identity".toList, identity)] "flags".toList [] rfl
      List.not_mem_nil) ?_
  refine continues_flag true (by decide)
    (Toml.Doc.put_table _ [("network_identity".toList, identity)] "flags".toList
      [("default_protocol".toList, .string "tcp".toList)] rfl ?_) ?_
  · change _ ∉ ["default_protocol".toList]
    decide
  exact Toml.continues_nil _

/-- The document is read, and holds what is meant and nothing else. -/
theorem instance_toml_parses (cfg : EasyTierConfig) :
    ∃ text, buildInstanceToml cfg = .ok text ∧
      Toml.parse text.toList = some (instanceDoc (nodeNameOf cfg) cfg) := by
  obtain ⟨text, built, lines⟩ := toList_instance cfg
  refine ⟨text, built, ?_⟩
  have tables : ∀ root : List (List Char × Toml.Value),
      ("network_identity".toList ∉ root.map Prod.fst ∧ "flags".toList ∉ root.map Prod.fst) →
      Toml.Continues { root } _ { root, tables := (instanceDoc (nodeNameOf cfg) cfg).tables } :=
    fun root free => continues_tables (nodeNameOf cfg) cfg rfl free
  rw [lines]
  refine Toml.Continues.parse (continues_listeners cfg rfl List.not_mem_nil ?_)
  refine continues_setting (nodeNameOf cfg) (by decide) (Toml.Doc.put_root _ rfl ?_) ?_
  · change _ ∉ ["listeners".toList]
    decide
  refine continues_setting (nodeNameOf cfg) (by decide) (Toml.Doc.put_root _ rfl ?_) ?_
  · change _ ∉ ["listeners".toList, "instance_name".toList]
    decide
  unfold instanceDoc
  by_cases empty : cfg.virtualIpv4 = ""
  · rw [if_pos empty, if_pos empty]
    refine continues_flag true (by decide) (Toml.Doc.put_root _ rfl ?_) (tables _ ⟨?_, ?_⟩)
    · change _ ∉ ["listeners".toList, "instance_name".toList, "hostname".toList]
      decide
    · change _ ∉ ["listeners".toList, "instance_name".toList, "hostname".toList, "dhcp".toList]
      decide
    · change _ ∉ ["listeners".toList, "instance_name".toList, "hostname".toList, "dhcp".toList]
      decide
  · rw [if_neg empty, if_neg empty, List.append_assoc (settingLine "ipv4" cfg.virtualIpv4)]
    refine continues_setting cfg.virtualIpv4 (by decide) (Toml.Doc.put_root _ rfl ?_) ?_
    · change _ ∉ ["listeners".toList, "instance_name".toList, "hostname".toList]
      decide
    refine continues_flag false (by decide) (Toml.Doc.put_root _ rfl ?_) (tables _ ⟨?_, ?_⟩)
    · change _ ∉ ["listeners".toList, "instance_name".toList, "hostname".toList, "ipv4".toList]
      decide
    · change _ ∉ ["listeners".toList, "instance_name".toList, "hostname".toList, "ipv4".toList,
        "dhcp".toList]
      decide
    · change _ ∉ ["listeners".toList, "instance_name".toList, "hostname".toList, "ipv4".toList,
        "dhcp".toList]
      decide

/-- A node without a name of its own gets the default one. -/
theorem empty_name_replaced :
    ¬ ∀ cfg : EasyTierConfig, ∃ text, buildInstanceToml cfg = .ok text ∧
      Toml.parse text.toList = some (instanceDoc cfg.nodeName cfg) := by
  intro parses
  let named (doc : Toml.Doc) : Bool := doc.root.any fun entry =>
    match entry.2 with
    | .string value => value == defaultNodeName.toList
    | _ => false
  obtain ⟨text, built, parsed⟩ := parses { nodeName := "" }
  have shown : ((buildInstanceToml { nodeName := "" }).toOption.bind fun text =>
      Toml.parse text.toList).any named = true := by decide +kernel
  rw [built] at shown
  simp only [Except.toOption, Option.bind_some, parsed] at shown
  revert shown
  decide +kernel

end Remgr.Modules.EasyTier
