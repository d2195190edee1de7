/-
Module: Remgr.Lib.Json
Purpose: JSON values, their compact text as a serializer writes it, and the reading of records from
  JSON objects with optional members, aliases and defaults. A record writer lists its members in
  order and leaves some out; a record reader looks each one up by name.
Trusted boundary: the compact printer follows the documented output format of a JSON serializer
Main exports: Json, Json.toVec, StrMap, IterOrder, present, readField, structMembers,
  readField_of_filter, readNext, asList_map
-/
import Mathlib.Data.Finmap
import Mathlib.Data.Int.Basic

namespace Remgr.Lib

/-- A parsed JSON value. Objects keep their members in the order of the text, repetitions
included; a number with a fraction or an exponent is only ever compared with other types. -/
inductive Json where
  | null
  | bool (value : Bool)
  | num (value : Int)
  | float (text : String)
  | str (value : String)
  | arr (items : List Json)
  | obj (members : List (String × Json))
deriving Repr, Inhabited

namespace Json

/-! ## Compact text -/

def hexDigit (n : Nat) : Char :=
  if n < 10 then Char.ofNat (48 + n) else Char.ofNat (87 + n)

/-- A character inside a string literal: the two-character escapes, `\u00XX` for the other control
characters, everything else as it is. -/
def escapeChar (c : Char) : List Char :=
  if c = '"' then ['\\', '"']
  else if c = '\\' then ['\\', '\\']
  else if c = Char.ofNat 8 then ['\\', 'b']
  else if c = Char.ofNat 9 then ['\\', 't']
  else if c = Char.ofNat 10 then ['\\', 'n']
  else if c = Char.ofNat 12 then ['\\', 'f']
  else if c = Char.ofNat 13 then ['\\', 'r']
  else if c.toNat < 32 then
    ['\\', 'u', '0', '0', hexDigit (c.toNat / 16), hexDigit (c.toNat % 16)]
  else [c]

/-- A string literal with its quotes. -/
def printString (s : String) : List Char :=
  '"' :: (s.toList.flatMap escapeChar ++ ['"'])

mutual

/-- The text of a value without any white space. -/
def print : Json → List Char
  | .null => "null".toList
  | .bool true => "true".toList
  | .bool false => "false".toList
  | .num value => (toString value).toList
  | .float text => text.toList
  | .str value => printString value
  | .arr items => '[' :: (printItems items ++ [']'])
  | .obj members => '\x7b' :: (printMembers members ++ ['\x7d'])

/-- Array items, separated by commas. -/
def printItems : List Json → List Char
  | [] => []
  | [item] => item.print
  | item :: items => item.print ++ ',' :: printItems items

/-- Object members, separated by commas. -/
def printMembers : List (String × Json) → List Char
  | [] => []
  | [(name, value)] => printString name ++ ':' :: value.print
  | (name, value) :: members =>
      printString name ++ ':' :: (value.print ++ ',' :: printMembers members)

end

/-- `serde_json::to_vec` of a value: the UTF-8 bytes of its compact text. -/
def toVec (value : Json) : List UInt8 := value.print.flatMap String.utf8EncodeChar

/-! ## Reading scalars -/

def asString : Json → Option String
  | .str value => some value
  | _ => none

def asBool : Json → Option Bool
  | .bool value => some value
  | _ => none

/-- A 64-bit signed field: an integer outside the range is refused, never wrapped. -/
def asI64 : Json → Option Int64
  | .num value => if -2 ^ 63 ≤ value ∧ value < 2 ^ 63 then some (Int64.ofInt value) else none
  | _ => none

/-- A 16-bit unsigned field. -/
def asU16 : Json → Option UInt16
  | .num value => if 0 ≤ value ∧ value < 2 ^ 16 then some (UInt16.ofNat value.toNat) else none
  | _ => none

/-- A 32-bit unsigned field. -/
def asU32 : Json → Option UInt32
  | .num value => if 0 ≤ value ∧ value < 2 ^ 32 then some (UInt32.ofNat value.toNat) else none
  | _ => none

/-- A 64-bit unsigned field. -/
def asU64 : Json → Option UInt64
  | .num value => if 0 ≤ value ∧ value < 2 ^ 64 then some (UInt64.ofNat value.toNat) else none
  | _ => none

/-- An optional field: `null` is `None`. -/
def asOption {α : Type} (decode : Json → Option α) : Json → Option (Option α)
  | .null => some none
  | value => (decode value).map some

def asList {α : Type} (decode : Json → Option α) : Json → Option (List α)
  | .arr items => items.mapM decode
  | _ => none

theorem asI64_num (n : Int64) : asI64 (.num n.toInt) = some n := by
  have low : -2 ^ 63 ≤ n.toInt := n.le_toInt
  have high : n.toInt < 2 ^ 63 := n.toInt_lt
  simp only [asI64, low, high, and_self, if_true, Int64.ofInt_toInt]

theorem asU16_num (n : UInt16) : asU16 (.num n.toNat) = some n := by
  have high : (n.toNat : Int) < 2 ^ 16 := by
    have := n.toNat_lt
    omega
  simp only [asU16, Int.natCast_nonneg, true_and, Int.toNat_natCast, UInt16.ofNat_toNat]
  exact if_pos high

theorem asU32_num (n : UInt32) : asU32 (.num n.toNat) = some n := by
  have high : (n.toNat : Int) < 2 ^ 32 := by
    have := n.toNat_lt
    omega
  simp only [asU32, Int.natCast_nonneg, true_and, Int.toNat_natCast, UInt32.ofNat_toNat]
  exact if_pos high

theorem asU64_num (n : UInt64) : asU64 (.num n.toNat) = some n := by
  have high : (n.toNat : Int) < 2 ^ 64 := by
    have := n.toNat_lt
    omega
  simp only [asU64, Int.natCast_nonneg, true_and, Int.toNat_natCast, UInt64.ofNat_toNat]
  exact if_pos high

theorem asString_str (text : String) : asString (.str text) = some text := rfl

/-- Items that are read back one by one. -/
theorem asList_map {α : Type} {encode : α → Json} {decode : Json → Option α}
    (restored : ∀ a, decode (encode a) = some a) (items : List α) :
    asList decode (.arr (items.map encode)) = some items := by
  simp only [asList]
  induction items with
  | nil => rfl
  | cons item items inductionHypothesis =>
      simp [List.mapM_cons, restored, inductionHypothesis]

/-! ## String maps -/

/-- A hash map from strings to strings, as a value: it has no order. -/
abbrev StrMap := Finmap fun _ : String => String

end Json

open Json

/-- The order in which a hash map happens to be iterated. It may be anything, and differ from one
field to the next, but it lists exactly the entries. -/
structure IterOrder where
  list : String → StrMap → List (Σ _ : String, String)
  entries : ∀ field m, (list field m : Multiset (Σ _ : String, String)) = m.entries

namespace Json

/-- A string map as an object, in iteration order. -/
def ofStrMap (order : IterOrder) (field : String) (m : StrMap) : Json :=
  .obj ((order.list field m).map fun entry => (entry.1, .str entry.2))

/-- Entries are inserted one after another, so the last of a repeated name stays. -/
def insertMembers : List (String × Json) → StrMap → Option StrMap
  | [], m => some m
  | (name, value) :: members, m =>
      match value.asString with
      | some text => insertMembers members (m.insert name text)
      | none => none

def asStrMap : Json → Option StrMap
  | .obj members => insertMembers members ∅
  | _ => none

theorem insertMembers_lookup (entries : List (Σ _ : String, String)) (m : StrMap)
    (distinct : entries.NodupKeys) :
    ∃ all, insertMembers (entries.map fun entry => (entry.1, .str entry.2)) m = some all ∧
      ∀ name, all.lookup name = ((entries.dlookup name).or (m.lookup name)) := by
  induction entries generalizing m with
  | nil => exact ⟨m, rfl, fun name => rfl⟩
  | cons entry entries inductionHypothesis =>
      rcases entry with ⟨key, text⟩
      rcases List.nodupKeys_cons.mp distinct with ⟨fresh, distinctTail⟩
      rcases inductionHypothesis (m.insert key text) distinctTail with ⟨all, allEq, lookupEq⟩
      refine ⟨all, allEq, ?_⟩
      intro name
      rw [lookupEq name]
      by_cases same : name = key
      · subst same
        rw [List.dlookup_eq_none.mpr fresh, Finmap.lookup_insert, List.dlookup_cons_eq]
        rfl
      · rw [Finmap.lookup_insert_of_ne m same, List.dlookup_cons_ne entries ⟨key, text⟩ same]

/-- Whatever the iteration order, reading the object back gives the map. -/
theorem asStrMap_ofStrMap (order : IterOrder) (field : String) (m : StrMap) :
    asStrMap (ofStrMap order field m) = some m := by
  have listed := order.entries field m
  have distinct : (order.list field m).NodupKeys := by
    have nodup := m.nodupKeys
    rw [← listed] at nodup
    exact nodup
  rcases insertMembers_lookup (order.list field m) ∅ distinct with ⟨all, allEq, lookupEq⟩
  have same : all = m := by
    apply Finmap.ext_lookup
    intro name
    rw [lookupEq name, Finmap.lookup_empty, Option.or_none]
    have asAList : (⟨order.list field m, distinct⟩ : AList fun _ : String => String).toFinmap = m :=
      Finmap.ext listed
    have lookupList : (order.list field m).dlookup name =
        Finmap.lookup name
          (⟨order.list field m, distinct⟩ : AList fun _ : String => String).toFinmap := rfl
    rw [lookupList, asAList]
  simp only [asStrMap, ofStrMap, allEq, same]

end Json

/-! ## Records -/

/-- The members a record writer emits: those it does not skip, in order. -/
def present (fields : List (String × Option Json)) : List (String × Json) :=
  fields.filterMap fun field => field.2.map fun value => (field.1, value)

/-- One field of a record reader: absent takes the default, a repetition (also of an alias) is an
error, and unknown members are not looked at. -/
def readField {α : Type} (members : List (String × Json)) (names : List String)
    (decode : Json → Option α) (default : α) : Option α :=
  match members.filter fun member => names.contains member.1 with
  | [] => some default
  | [member] => decode member.2
  | _ => none

/-- A record may come as an object or as an array of its leading fields. -/
def structMembers (names : List String) : Json → Option (List (String × Json))
  | .obj members => some members
  | .arr items => if items.length ≤ names.length then some (names.zip items) else none
  | _ => none

/-- A field that is the only one with its name: absent it takes the default, present it is what its
value decodes to. Whatever stands before and after it does not matter. -/
theorem readField_of_filter {α : Type} {field : String × Option Json}
    {fields : List (String × Option Json)} {names : List String}
    (decode : Json → Option α) (default : α)
    (only : (fields.filter fun other => names.contains other.1) = [field]) :
    readField (present fields) names decode default =
      match field.2 with
      | none => some default
      | some value => decode value := by
  have filtered : (present fields).filter (fun member => names.contains member.1) =
      present [field] := by
    rw [← only]
    simp only [present, List.filter_filterMap, List.filterMap_filter]
    apply List.filterMap_congr
    intro other _
    rcases other with ⟨name, value⟩
    cases value with
    | none => simp
    | some value => cases inNames : names.contains name <;> simp_all
  rcases field with ⟨name, value⟩
  cases value with
  | none => simp only [readField, filtered]; rfl
  | some value => simp only [readField, filtered]; rfl

/-- One successful read, and the rest of the reader with what it gave. -/
theorem readNext {α β : Type} {field : Option α} {rest : α → Option β} {value : α} {result : β}
    (got : field = some value) (restEq : rest value = some result) :
    (field >>= rest) = some result :=
  Option.bind_eq_some_iff.mpr ⟨value, got, restEq⟩

end Remgr.Lib
