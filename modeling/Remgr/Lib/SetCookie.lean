/-
Module: Remgr.Lib.SetCookie
Purpose: What a browser takes from a `Set-Cookie` header: the name, the value and the attributes, and
  which attribute counts when one is given twice.
Trusted boundary: the definitions follow RFC 6265, section 5.2; what section 5.3 does with the
  attributes is `last` and `domain`
Main exports: Cookie, read, last, domain, read_intercalate, pair_of_begins
-/
import Remgr.Lib.AsciiCase
import Remgr.Lib.Strip

namespace Remgr.Lib.SetCookie

open Text

def lower (text : List Char) : List Char := text.map Char.toLower

structure Cookie where
  name : List Char
  value : List Char
  /-- In the order of the header, with their names in lower case. -/
  attributes : List (List Char × List Char)

/-- What stands before and after the first equals sign. -/
def pair (part : List Char) : Option (List Char × List Char) :=
  (splitOnce '=' part).map fun halves => (strip isBlank halves.1, strip isBlank halves.2)

/-- A part after the first. Without an equals sign its value is empty. -/
def cookieAv (part : List Char) : List Char × List Char :=
  match pair part with
  | some (name, value) => (lower name, value)
  | none => (lower (strip isBlank part), [])

/-- A cookie without a name is ignored. -/
def ofParts : List (List Char) → Option Cookie
  | [] => none
  | first :: rest =>
      match pair first with
      | none => none
      | some (name, value) => if name = [] then none else some ⟨name, value, rest.map cookieAv⟩

def read (text : List Char) : Option Cookie := ofParts (split (· == ';') text)

/-- The value of the last attribute of a name. -/
def last (name : List Char) (attributes : List (List Char × List Char)) : Option (List Char) :=
  ((attributes.filter (·.1 == name)).getLast?).map (·.2)

/-- The domain a cookie is sent to beyond its own host: an empty `Domain` is no attribute, and a
leading dot is dropped. -/
def domain (attributes : List (List Char × List Char)) : List Char :=
  match last "domain".toList (attributes.filter (·.2 ≠ [])) with
  | some ('.' :: rest) => lower rest
  | some value => lower value
  | none => []

/-! ## Blanks -/

theorem isBlank_toLower (c : Char) : isBlank c.toLower = isBlank c := by
  have tab : ∀ c : Char, c = '\t' ↔ c.toNat = 9 := fun c => (Char.toNat_inj (d := '\t')).symm
  have space : ∀ c : Char, c = ' ' ↔ c.toNat = 32 := fun c => (Char.toNat_inj (d := ' ')).symm
  rw [Bool.eq_iff_iff]
  simp only [isBlank, Bool.or_eq_true, beq_iff_eq, tab, space]
  rcases toLower_cases c with same | ⟨low, high, moved⟩
  · rw [same]
  · omega

theorem lower_strip (text : List Char) : lower (strip isBlank text) = strip isBlank (lower text) := by
  rw [lower, lower, strip_map]
  exact congrArg (List.map Char.toLower) (strip_congr fun c _ => (isBlank_toLower c).symm)

/-- The equals sign that splits a part splits it also without the blanks around it. -/
theorem pair_strip (part : List Char) : pair (strip isBlank part) = pair part := by
  unfold pair
  cases halves : splitOnce '=' part with
  | some both =>
      obtain ⟨front, back⟩ := both
      obtain ⟨rfl, clear⟩ := splitOnce_eq_some_iff.mp halves
      have shorter : '=' ∉ front.dropWhile isBlank :=
        fun inside => clear ((List.dropWhile_suffix isBlank).subset inside)
      rw [strip_mark (by decide), splitOnce_append shorter]
      simp only [Option.map_some, strip_dropWhile, strip_rdropWhile]
  | none =>
      cases stripped : splitOnce '=' (strip isBlank part) with
      | none => rfl
      | some other =>
          obtain ⟨whole, -⟩ := splitOnce_eq_some_iff.mp stripped
          have inside : '=' ∈ part := by
            refine mem_of_mem_strip (p := isBlank) ?_
            rw [whole]
            exact List.mem_append_right _ List.mem_cons_self
          obtain ⟨front, back, rfl, clear⟩ := List.eq_append_cons_of_mem inside
          rw [splitOnce_append clear] at halves
          cases halves

theorem cookieAv_strip (part : List Char) : cookieAv (strip isBlank part) = cookieAv part := by
  rw [cookieAv, cookieAv, pair_strip, strip_strip]

/-- Blanks around the parts do not matter. -/
theorem ofParts_strip (parts : List (List Char)) :
    ofParts (parts.map (strip isBlank)) = ofParts parts := by
  cases parts with
  | nil => rfl
  | cons first rest =>
      have attributes : (rest.map (strip isBlank)).map cookieAv = rest.map cookieAv := by
        rw [List.map_map]
        exact List.map_congr_left fun part _ => cookieAv_strip part
      simp only [List.map_cons, ofParts, pair_strip, attributes]

/-- Parts joined by a semicolon and a space are read one by one. -/
theorem read_intercalate {parts : List (List Char)} (filled : parts ≠ [])
    (proper : ∀ part ∈ parts, Trimmed isBlank part ∧ ∀ c ∈ part, c ≠ ';') :
    read ("; ".toList.intercalate parts) = ofParts parts := by
  have apart : (split (· == ';') ("; ".toList.intercalate parts)).map (strip isBlank) = parts :=
    strip_split_join filled (fun part inside => (proper part inside).2)
      (fun part inside => (proper part inside).1) (by decide)
  rw [read, ← ofParts_strip, apart]

theorem ofParts_eq_some_iff {first : List Char} {rest : List (List Char)} {cookie : Cookie} :
    ofParts (first :: rest) = some cookie ↔ ∃ name value, pair first = some (name, value) ∧
      name ≠ [] ∧ cookie = ⟨name, value, rest.map cookieAv⟩ := by
  rw [ofParts]
  cases halves : pair first with
  | none => simp
  | some both =>
      obtain ⟨name, value⟩ := both
      simp [eq_comm]

/-- Whether a cookie is ignored is decided by its first part. -/
theorem ofParts_eq_none_iff {first : List Char} {rest : List (List Char)} :
    ofParts (first :: rest) = none ↔ ∀ name value, pair first = some (name, value) → name = [] := by
  rw [ofParts]
  cases halves : pair first with
  | none => simp
  | some both =>
      obtain ⟨name, value⟩ := both
      simp

/-! ## Names -/

/-- A part that begins, in any case, with a name and the equals sign is an attribute of this name. -/
theorem pair_of_begins {name part : List Char} (clear : '=' ∉ name)
    (trimmed : Trimmed isBlank name) (begins : (name ++ ['=']).isPrefixOf (lower part) = true) :
    ∃ written value, pair part = some (written, value) ∧ lower written = name := by
  obtain ⟨tail, whole⟩ := List.isPrefixOf_iff_prefix.mp begins
  rw [List.append_assoc, List.singleton_append] at whole
  obtain ⟨front, rest, rfl, isName, isRest⟩ := List.map_eq_append_iff.mp whole.symm
  obtain ⟨c, back, rfl, isMark, -⟩ := List.map_eq_cons_iff.mp isRest
  obtain rfl : c = '=' := eq_of_toLower (.inl (by decide)) isMark
  have apart : '=' ∉ front := by
    intro inside
    refine clear ?_
    rw [← isName]
    exact List.mem_map.mpr ⟨'=', inside, by decide⟩
  refine ⟨strip isBlank front, strip isBlank back, ?_, ?_⟩
  · rw [pair, splitOnce_append apart]
    rfl
  · rw [lower_strip, lower, isName, strip_of_trimmed trimmed]

theorem cookieAv_of_pair {part written value : List Char} (halves : pair part = some (written, value)) :
    cookieAv part = (lower written, value) := by
  rw [cookieAv, halves]

/-! ## The attribute that counts -/

theorem last_append_of_ne {name : List Char} {attributes others : List (List Char × List Char)}
    (different : ∀ other ∈ others, other.1 ≠ name) :
    last name (attributes ++ others) = last name attributes := by
  have nothing : others.filter (·.1 == name) = [] :=
    List.filter_eq_nil_iff.mpr fun other inside => by simpa using different other inside
  rw [last, List.filter_append, nothing, List.append_nil, last]

theorem last_cons_of_ne {name : List Char} {other : List Char × List Char}
    {attributes : List (List Char × List Char)} (different : other.1 ≠ name) :
    last name (other :: attributes) = last name attributes := by
  rw [last, List.filter_cons_of_neg (by simpa using different), last]

theorem last_isSome_iff {name : List Char} {attributes : List (List Char × List Char)} :
    (last name attributes).isSome ↔ ∃ found ∈ attributes, found.1 = name := by
  rw [last, Option.isSome_map, List.getLast?_isSome, ne_eq, List.filter_eq_nil_iff]
  simp

/-- Parts that are left out do not matter to an attribute that none of them is. -/
theorem last_filter {name : List Char} {parts : List (List Char)} {keep : List Char → Bool}
    (kept : ∀ part ∈ parts, (cookieAv part).1 = name → keep part = true) :
    last name ((parts.filter keep).map cookieAv) = last name (parts.map cookieAv) := by
  have same : ((parts.filter keep).map cookieAv).filter (·.1 == name) =
      (parts.map cookieAv).filter (·.1 == name) := by
    rw [List.filter_map, List.filter_map, List.filter_filter]
    refine congrArg (List.map cookieAv) (List.filter_congr fun part inside => ?_)
    by_cases named : (cookieAv part).1 = name
    · simp [named, kept part inside named]
    · simp [named]
  rw [last, same, last]

theorem domain_append_of_ne {attributes others : List (List Char × List Char)}
    (different : ∀ other ∈ others, other.1 ≠ "domain".toList) :
    domain (attributes ++ others) = domain attributes := by
  have rest : ∀ other ∈ others.filter (·.2 ≠ []), other.1 ≠ "domain".toList :=
    fun other inside => different other (List.mem_of_mem_filter inside)
  rw [domain, List.filter_append, last_append_of_ne rest, domain]

end Remgr.Lib.SetCookie
