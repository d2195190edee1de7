/-
Module: Remgr.Lib.JsonSize
Purpose: How many bytes the compact text of a JSON value takes. A text counts with its escapes, and
  a record with the members its writer does not skip, each with its quotes, colon and comma.
Trusted boundary: none
Main exports: Json.textSize, Json.size, Json.memberSize, Json.size_record
-/
import Mathlib.Algebra.GroupWithZero.Nat
import Remgr.Lib.Json

namespace Remgr.Lib.Json

/-! ## Texts -/

/-- The bytes of a list of characters. -/
def byteCount (text : List Char) : Nat := (text.flatMap String.utf8EncodeChar).length

@[simp] theorem byteCount_nil : byteCount [] = 0 := rfl

@[simp] theorem byteCount_cons (c : Char) (text : List Char) :
    byteCount (c :: text) = c.utf8Size + byteCount text := by
  simp [byteCount]

@[simp] theorem byteCount_append (front back : List Char) :
    byteCount (front ++ back) = byteCount front + byteCount back := by
  simp [byteCount]

/-- The bytes of a character inside a string literal. -/
def charSize (c : Char) : Nat := byteCount (escapeChar c)

/-- The bytes of a text inside a string literal, without the quotes. -/
def textSize (text : String) : Nat := (text.toList.map charSize).sum

@[simp] theorem textSize_append (front back : String) :
    textSize (front ++ back) = textSize front + textSize back := by
  simp [textSize]

theorem byteCount_escaped (text : List Char) :
    byteCount (text.flatMap escapeChar) = (text.map charSize).sum := by
  induction text with
  | nil => rfl
  | cons c text inductionHypothesis =>
      rw [List.flatMap_cons, byteCount_append, inductionHypothesis]
      rfl

/-- A text of characters that need no escape and take one byte each. -/
theorem textSize_of_plain {text : List Char} (plain : ∀ c ∈ text, charSize c = 1) :
    textSize (String.ofList text) = text.length := by
  rw [textSize, String.toList_ofList]
  induction text with
  | nil => rfl
  | cons c text inductionHypothesis =>
      have rest := inductionHypothesis fun d inside => plain d (List.mem_cons_of_mem c inside)
      rw [List.map_cons, List.sum_cons, rest, plain c (List.mem_cons_self ..), List.length_cons]
      exact Nat.add_comm ..

theorem byteCount_printString (text : String) :
    byteCount (printString text) = textSize text + 2 := by
  have quote : '"'.utf8Size = 1 := by decide
  rw [printString, byteCount_cons, byteCount_append, byteCount_escaped, byteCount_cons,
    byteCount_nil, quote, textSize]
  omega

/-! ## Values -/

/-- The bytes of a value. -/
def size (value : Json) : Nat := (toVec value).length

theorem size_eq (value : Json) : value.size = byteCount value.print := rfl

@[simp] theorem size_str (text : String) : (Json.str text).size = textSize text + 2 := by
  rw [size_eq, print, byteCount_printString]

/-- A member of a record with its comma: nothing when it is skipped. -/
def memberSize (field : String × Option Json) : Nat :=
  match field.2 with
  | none => 0
  | some value => textSize field.1 + value.size + 4

/-- The members of an object take one comma less than their number. -/
theorem byteCount_printMembers (member : String × Json) (members : List (String × Json)) :
    byteCount (printMembers (member :: members)) + 1 =
      ((member :: members).map fun entry => textSize entry.1 + entry.2.size + 4).sum := by
  have colon : ':'.utf8Size = 1 := by decide
  have comma : ','.utf8Size = 1 := by decide
  induction members generalizing member with
  | nil =>
      rcases member with ⟨name, value⟩
      simp only [printMembers, byteCount_append, byteCount_cons, byteCount_printString,
        colon, ← size_eq, List.map_cons, List.map_nil, List.sum_cons, List.sum_nil]
      omega
  | cons next members inductionHypothesis =>
      rcases member with ⟨name, value⟩
      have rest := inductionHypothesis next
      rw [List.map_cons, List.sum_cons, ← rest]
      rw [printMembers, byteCount_append, byteCount_printString, byteCount_cons, byteCount_append,
        byteCount_cons, colon, comma, ← size_eq]
      · dsimp only
        omega
      · nofun

/-- A record: the braces, and what its members take. -/
theorem size_record (fields : List (String × Option Json)) :
    (Json.obj (present fields)).size = 1 + max 1 (fields.map memberSize).sum := by
  have braces : '\x7b'.utf8Size = 1 ∧ '\x7d'.utf8Size = 1 := by decide
  have total : (fields.map memberSize).sum =
      ((present fields).map fun entry => textSize entry.1 + entry.2.size + 4).sum := by
    induction fields with
    | nil => rfl
    | cons field fields inductionHypothesis =>
        rcases field with ⟨name, value⟩
        cases value with
        | none => simpa [present, memberSize] using inductionHypothesis
        | some value => simpa [present, memberSize] using inductionHypothesis
  rw [size_eq, print, byteCount_cons, byteCount_append, byteCount_cons, byteCount_nil, braces.1,
    braces.2, total]
  cases members : present fields with
  | nil => rfl
  | cons member rest =>
      have counted := byteCount_printMembers member rest
      omega

end Remgr.Lib.Json
