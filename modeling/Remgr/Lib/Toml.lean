/-
Module: Remgr.Lib.Toml
Purpose: A reader of TOML 1.0 documents, and the rules by which a document is read line by line: what
  the line of a key or of a table adds, whatever stands after it.
Trusted boundary: `parse` reads keys that are not dotted, strings on one line, booleans, arrays, tables
  and comments as TOML 1.0 defines them; every text it reads is a document with that meaning, and what
  else a document may hold (numbers, dates, inline tables, arrays of tables, dotted keys and strings
  over several lines) it refuses
Main exports: Value, Doc, readBasic, parse, Spells, Continues, continues_key, continues_table
-/
import Mathlib.Data.List.TakeWhile
import Mathlib.Tactic.Common

namespace Remgr.Lib.Toml

inductive Value where
  | string (text : List Char)
  | boolean (value : Bool)
  | array (items : List Value)
deriving Repr, Inhabited

/-- A document: the keys of the root table, and the tables with their keys, in order. -/
structure Doc where
  root : List (List Char × Value) := []
  tables : List (List Char × List (List Char × Value)) := []
deriving Repr

namespace Doc

/-- A key is set in the table that was opened last, and once only. -/
def put (doc : Doc) (key : List Char) (value : Value) : Option Doc :=
  match doc.tables.getLast? with
  | none =>
      if key ∈ doc.root.map Prod.fst then none
      else some { doc with root := doc.root ++ [(key, value)] }
  | some (name, keys) =>
      if key ∈ keys.map Prod.fst then none
      else some { doc with tables := doc.tables.dropLast ++ [(name, keys ++ [(key, value)])] }

/-- A table is opened once, under a name the root table does not use. -/
def openTable (doc : Doc) (name : List Char) : Option Doc :=
  if name ∈ doc.root.map Prod.fst ∨ name ∈ doc.tables.map Prod.fst then none
  else some { doc with tables := doc.tables ++ [(name, [])] }

theorem put_root {doc : Doc} {key : List Char} (value : Value) (noTables : doc.tables = [])
    (fresh : key ∉ doc.root.map Prod.fst) :
    doc.put key value = some { doc with root := doc.root ++ [(key, value)] } := by
  rw [put, noTables]
  exact if_neg fresh

theorem put_table {doc : Doc} {key : List Char} (value : Value)
    (tables : List (List Char × List (List Char × Value))) (name : List Char)
    (keys : List (List Char × Value)) (last : doc.tables = tables ++ [(name, keys)])
    (fresh : key ∉ keys.map Prod.fst) :
    doc.put key value =
      some { doc with tables := tables ++ [(name, keys ++ [(key, value)])] } := by
  rw [put, last, List.getLast?_concat, List.dropLast_concat]
  exact if_neg fresh

theorem openTable_fresh {doc : Doc} {name : List Char}
    (fresh : name ∉ doc.root.map Prod.fst ∧ name ∉ doc.tables.map Prod.fst) :
    doc.openTable name = some { doc with tables := doc.tables ++ [(name, [])] } :=
  if_neg (not_or.mpr fresh)

end Doc

/-! ## Characters -/

/-- `wschar`. -/
def isBlank (c : Char) : Bool := c == ' ' || c == '\t'

/-- What may stand in a comment or unescaped in a string: no control character but the tab. -/
def isText (c : Char) : Bool := c == '\t' || (0x20 ≤ c.toNat && c.toNat != 0x7F)

/-- What a key without quotes is made of. -/
def isBare (c : Char) : Bool := c.isAlphanum || c == '-' || c == '_'

def hexDigit (c : Char) : Option Nat :=
  if '0' ≤ c ∧ c ≤ '9' then some (c.toNat - 48)
  else if 'a' ≤ c ∧ c ≤ 'f' then some (c.toNat - 87)
  else if 'A' ≤ c ∧ c ≤ 'F' then some (c.toNat - 55)
  else none

/-- The character of `\u` or `\U` with these digits: a Unicode scalar value. -/
def scalar (digits : List Char) : Option Char := do
  let value ← digits.foldlM (fun value c => (hexDigit c).map (16 * value + ·)) 0
  if value.isValidChar then some (.ofNat value) else none

/-- The escapes of one character. -/
def escape : Char → Option Char
  | 'b' => some '\x08'
  | 't' => some '\t'
  | 'n' => some '\n'
  | 'f' => some '\x0C'
  | 'r' => some '\r'
  | '"' => some '"'
  | '\\' => some '\\'
  | _ => none

/-! ## Strings -/

/-- One more character before what is read. -/
def push (c : Char) (read : Option (List Char × List Char)) : Option (List Char × List Char) :=
  read.map fun got => (c :: got.1, got.2)

/-- A basic string after its opening quote, and what follows its closing one. -/
def readBasic : List Char → Option (List Char × List Char)
  | [] => none
  | c :: rest =>
      if c = '"' then some ([], rest)
      else if c = '\\' then
        match rest with
        | 'u' :: d₁ :: d₂ :: d₃ :: d₄ :: rest => do push (← scalar [d₁, d₂, d₃, d₄]) (readBasic rest)
        | 'U' :: d₁ :: d₂ :: d₃ :: d₄ :: d₅ :: d₆ :: d₇ :: d₈ :: rest => do
            push (← scalar [d₁, d₂, d₃, d₄, d₅, d₆, d₇, d₈]) (readBasic rest)
        | e :: rest => do push (← escape e) (readBasic rest)
        | [] => none
      else if isText c then push c (readBasic rest)
      else none

/-- A literal string after its opening quote. -/
def readLiteral : List Char → Option (List Char × List Char)
  | [] => none
  | c :: rest =>
      if c = '\'' then some ([], rest)
      else if isText c then push c (readLiteral rest)
      else none

/-! ## Values -/

/-- `ws-comment-newline`, which may stand around the items of an array; `comment` tells whether it goes
on inside a comment. -/
def skipFill (comment : Bool) : List Char → List Char
  | [] => []
  | c :: rest =>
      if c = '\n' then skipFill false rest
      else if c = '\r' ∧ rest.head? = some '\n' then skipFill comment rest
      else if comment then if isText c then skipFill true rest else c :: rest
      else if isBlank c then skipFill false rest
      else if c = '#' then skipFill true rest
      else c :: rest

mutual

/-- A value; `fuel` bounds the items and the depth of arrays. -/
def readValue : Nat → List Char → Option (Value × List Char)
  | 0, _ => none
  | fuel + 1, text =>
      match text with
      | '"' :: rest => (readBasic rest).map fun got => (.string got.1, got.2)
      | '\'' :: rest => (readLiteral rest).map fun got => (.string got.1, got.2)
      | 't' :: 'r' :: 'u' :: 'e' :: rest => some (.boolean true, rest)
      | 'f' :: 'a' :: 'l' :: 's' :: 'e' :: rest => some (.boolean false, rest)
      | '[' :: rest => (readItems fuel rest).map fun got => (.array got.1, got.2)
      | _ => none

/-- The items of an array up to its closing bracket. A comma may stand after the last one. -/
def readItems : Nat → List Char → Option (List Value × List Char)
  | 0, _ => none
  | fuel + 1, text =>
      match skipFill false text with
      | ']' :: rest => some ([], rest)
      | text =>
          match readValue fuel text with
          | none => none
          | some (item, rest) =>
              match skipFill false rest with
              | ',' :: rest => (readItems fuel rest).map fun got => (item :: got.1, got.2)
              | ']' :: rest => some ([item], rest)
              | _ => none

end

/-! ## Lines -/

def readKey : List Char → Option (List Char × List Char)
  | '"' :: rest => readBasic rest
  | '\'' :: rest => readLiteral rest
  | text =>
      if text.takeWhile isBare = [] then none
      else some (text.takeWhile isBare, text.dropWhile isBare)

/-- `key = value`, from the key on. -/
def readKeyVal (doc : Doc) (text : List Char) : Option (Doc × List Char) := do
  let (key, rest) ← readKey text
  match rest.dropWhile isBlank with
  | '=' :: rest =>
      let text := rest.dropWhile isBlank
      let (value, rest) ← readValue text.length text
      some (← doc.put key value, rest)
  | _ => none

/-- `[name]`, behind the first bracket. -/
def readTable (doc : Doc) (text : List Char) : Option (Doc × List Char) := do
  let (name, rest) ← readKey (text.dropWhile isBlank)
  match rest.dropWhile isBlank with
  | ']' :: rest => some (← doc.openTable name, rest)
  | _ => none

/-- What a line says, if it says anything. -/
def readExpression (doc : Doc) (text : List Char) : Option (Doc × List Char) :=
  match text with
  | [] => some (doc, [])
  | '[' :: rest => readTable doc rest
  | c :: _ => if c = '#' ∨ c = '\n' ∨ c = '\r' then some (doc, text) else readKeyVal doc text

/-- The end of a line, after a comment. -/
def readEnd (text : List Char) : Option (List Char) :=
  let text :=
    match text.dropWhile isBlank with
    | '#' :: rest => rest.dropWhile isText
    | rest => rest
  match text with
  | [] => some []
  | '\n' :: rest => some rest
  | '\r' :: '\n' :: rest => some rest
  | _ => none

/-- The lines of a document; `fuel` bounds their number. -/
def readLines : Nat → Doc → List Char → Option Doc
  | 0, _, _ => none
  | fuel + 1, doc, text =>
      if text = [] then some doc
      else
        match readExpression doc (text.dropWhile isBlank) with
        | none => none
        | some (doc, rest) =>
            match readEnd rest with
            | none => none
            | some rest => readLines fuel doc rest

def parse (text : List Char) : Option Doc := readLines (text.length + 1) {} text

example : (parse "a = 'x'\na = 'y'\n".toList).isNone = true := by decide +kernel
example : (parse "a = \"x\ny\"".toList).isNone = true := by decide +kernel
example : (parse "[\"t\"] # one\r\nb = [ true,\n # two\n \"\\u00e9\\\"\" ]".toList).any (fun doc =>
    match doc.tables with
    | [(['t'], [(['b'], .array [.boolean true, .string text])])] => text == ['é', '"']
    | _ => false) = true := by decide +kernel

/-! ## What a text is read as, whatever follows it -/

theorem readBasic_quote (rest : List Char) : readBasic ('"' :: rest) = some ([], rest) := by
  rw [readBasic.eq_def]
  rfl

theorem readBasic_text {c : Char} (text : isText c = true) (quote : c ≠ '"') (backslash : c ≠ '\\')
    (rest : List Char) : readBasic (c :: rest) = push c (readBasic rest) := by
  rw [readBasic.eq_def]
  simp only [quote, backslash, text, if_false, if_true]

/-- The escapes of the quote and of the backslash, which alone cannot stand for themselves. -/
theorem readBasic_escaped {c : Char} (special : c = '"' ∨ c = '\\') (rest : List Char) :
    readBasic ('\\' :: c :: rest) = push c (readBasic rest) := by
  rw [readBasic.eq_def]
  rcases special with rfl | rfl <;> simp [escape]

/-- With this much fuel the text is read as the value, and the reader stops behind it. -/
def Spells (value : Value) (size : Nat) (text : List Char) : Prop :=
  ∀ (fuel : Nat) (tail : List Char), size ≤ fuel →
    readValue fuel (text ++ tail) = some (value, tail)

/-- The text between the quotes of a basic string. -/
def Quoted (value body : List Char) : Prop :=
  ∀ tail, readBasic (body ++ '"' :: tail) = some (value, tail)

theorem spells_string {value body : List Char} (quoted : Quoted value body) :
    Spells (.string value) 1 ('"' :: body ++ ['"']) := by
  intro fuel tail room
  cases fuel with
  | zero => cases room
  | succ fuel =>
      rw [List.append_assoc, List.cons_append, List.singleton_append, readValue, quoted tail]
      rfl

theorem spells_boolean (value : Bool) :
    Spells (.boolean value) 1 (if value then "true".toList else "false".toList) := by
  intro fuel tail room
  cases fuel with
  | zero => cases room
  | succ fuel => cases value <;> rfl

/-- The line of an item of an array of strings. -/
def itemLine (body : List Char) : List Char := ' ' :: ' ' :: '"' :: (body ++ ['"', ',', '\n'])

theorem length_le_itemLines (items : List (List Char × List Char)) :
    items.length ≤ (items.flatMap fun item => itemLine item.2).length := by
  induction items with
  | nil => exact Nat.le_refl 0
  | cons item items inductionHypothesis =>
      rw [List.flatMap_cons, List.length_append, List.length_cons, itemLine, List.length_cons]
      omega

/-- The induction is on the items; the newline is the one that ends the line before. -/
theorem readItems_strings {items : List (List Char × List Char)}
    (quoted : ∀ item ∈ items, Quoted item.1 item.2) {fuel : Nat} (room : items.length < fuel)
    (tail : List Char) :
    readItems fuel ('\n' :: ((items.flatMap fun item => itemLine item.2) ++ ']' :: tail)) =
      some (items.map fun item => .string item.1, tail) := by
  induction items generalizing fuel with
  | nil =>
      cases fuel with
      | zero => cases room
      | succ fuel => rfl
  | cons item items inductionHypothesis =>
      cases fuel with
      | zero => cases room
      | succ fuel =>
          have rest := inductionHypothesis
            (fun other inside => quoted other (List.mem_cons_of_mem item inside))
            (Nat.lt_of_succ_lt_succ room)
          let later := '\n' :: ((items.flatMap fun item => itemLine item.2) ++ ']' :: tail)
          have first := spells_string (quoted item List.mem_cons_self) fuel (',' :: later)
            (Nat.one_le_of_lt (Nat.lt_of_succ_lt_succ room))
          have text : '\n' :: (((item :: items).flatMap fun item => itemLine item.2) ++ ']' :: tail) =
              '\n' :: ' ' :: ' ' :: (('"' :: item.2 ++ ['"']) ++ ',' :: later) := by
            simp only [later, List.flatMap_cons, itemLine, List.cons_append, List.append_assoc,
              List.nil_append]
          have skipped : skipFill false
              ('\n' :: ' ' :: ' ' :: (('"' :: item.2 ++ ['"']) ++ ',' :: later)) =
              ('"' :: item.2 ++ ['"']) ++ ',' :: later := rfl
          rw [text, readItems, skipped]
          change (match readValue fuel (('"' :: item.2 ++ ['"']) ++ ',' :: later) with
            | none => none
            | some (item, rest) => _) = _
          rw [first]
          change (readItems fuel later).map _ = _
          rw [rest]
          rfl

/-- An array of strings, one on a line. -/
theorem spells_strings {items : List (List Char × List Char)}
    (quoted : ∀ item ∈ items, Quoted item.1 item.2) :
    Spells (.array (items.map fun item => .string item.1)) (items.length + 2)
      ('[' :: '\n' :: (items.flatMap fun item => itemLine item.2) ++ [']']) := by
  intro fuel tail room
  cases fuel with
  | zero => cases room
  | succ fuel =>
      have read := readItems_strings quoted (Nat.lt_of_succ_le (Nat.le_of_succ_le_succ room)) tail
      simp only [List.cons_append, List.append_assoc, List.nil_append, readValue, read]
      rfl

/-! ## Lines -/

/-- The text that is left makes this document of the one that was read so far. -/
def Continues (doc : Doc) (text : List Char) (whole : Doc) : Prop :=
  ∀ fuel : Nat, text.length < fuel → readLines fuel doc text = some whole

theorem Continues.parse {text : List Char} {whole : Doc} (continues : Continues {} text whole) :
    parse text = some whole :=
  continues _ (Nat.lt_succ_self _)

theorem continues_nil (doc : Doc) : Continues doc [] doc := by
  intro fuel room
  cases fuel with
  | zero => cases room
  | succ fuel => rfl

theorem takeWhile_bare {key rest : List Char} (bare : ∀ c ∈ key, isBare c = true)
    (stops : ∀ c ∈ rest.head?, isBare c = false) :
    (key ++ rest).takeWhile isBare = key ∧ (key ++ rest).dropWhile isBare = rest := by
  rw [List.takeWhile_append_of_pos bare, List.dropWhile_append_of_pos bare]
  cases rest with
  | nil => exact ⟨List.append_nil key, rfl⟩
  | cons c rest =>
      have stop := stops c rfl
      rw [List.takeWhile_cons_of_neg (by simp [stop]), List.dropWhile_cons_of_neg (by simp [stop])]
      exact ⟨List.append_nil key, rfl⟩

theorem isBlank_of_isBare {c : Char} (bare : isBare c = true) : isBlank c = false := by
  by_contra blank
  rw [Bool.not_eq_false, isBlank, Bool.or_eq_true, beq_iff_eq, beq_iff_eq] at blank
  rcases blank with rfl | rfl <;> cases bare

theorem dropBlank_of_head {c : Char} {rest : List Char} (plain : isBlank c = false) :
    (c :: rest).dropWhile isBlank = c :: rest :=
  List.dropWhile_cons_of_neg (by rw [plain]; exact Bool.false_ne_true)

/-- A key without quotes is read up to the first other character. -/
theorem readKey_bare {key rest : List Char} (filled : key ≠ [])
    (bare : ∀ c ∈ key, isBare c = true) (stops : ∀ c ∈ rest.head?, isBare c = false) :
    readKey (key ++ rest) = some (key, rest) := by
  have parts := takeWhile_bare bare stops
  cases key with
  | nil => exact absurd rfl filled
  | cons c key =>
      have plain := bare c List.mem_cons_self
      unfold readKey
      split
      · next same =>
          cases (List.cons.inj same).1
          cases plain
      · next same =>
          cases (List.cons.inj same).1
          cases plain
      · rw [parts.1, parts.2, if_neg (List.cons_ne_nil c key)]

theorem readEnd_newline (rest : List Char) : readEnd ('\n' :: rest) = some rest := rfl

/-- A line that adds something is followed by the rest of the document. -/
theorem continues_line {doc doc' whole : Doc} {line rest : List Char}
    (starts : ∀ c ∈ line.head?, isBlank c = false) (filled : line ≠ [])
    (reads : readExpression doc (line ++ '\n' :: rest) = some (doc', '\n' :: rest))
    (continues : Continues doc' rest whole) : Continues doc (line ++ '\n' :: rest) whole := by
  intro fuel room
  cases line with
  | nil => exact absurd rfl filled
  | cons c line =>
      have start := starts c rfl
      rw [List.length_append, List.length_cons, List.length_cons] at room
      cases fuel with
      | zero => cases room
      | succ fuel =>
          have whole' : ¬ (c :: line ++ '\n' :: rest) = [] := nofun
          have bare : (c :: line ++ '\n' :: rest).dropWhile isBlank = c :: line ++ '\n' :: rest :=
            dropBlank_of_head start
          simp only [readLines, whole', if_false, bare, reads, readEnd_newline]
          exact continues fuel (by omega)

/-- The line of a key adds its value. -/
theorem continues_key {doc doc' whole : Doc} {key text rest : List Char} {value : Value} {size : Nat}
    (filled : key ≠ []) (bare : ∀ c ∈ key, isBare c = true) (spells : Spells value size text)
    (room : size ≤ text.length) (starts : ∀ c ∈ text.head?, isBlank c = false) (spelled : text ≠ [])
    (set : doc.put key value = some doc') (continues : Continues doc' rest whole) :
    Continues doc (key ++ ' ' :: '=' :: ' ' :: (text ++ '\n' :: rest)) whole := by
  have line : key ++ ' ' :: '=' :: ' ' :: (text ++ '\n' :: rest) =
      (key ++ ' ' :: '=' :: ' ' :: text) ++ '\n' :: rest := by
    simp only [List.cons_append, List.append_assoc]
  have read : readKey (key ++ ' ' :: '=' :: ' ' :: (text ++ '\n' :: rest)) =
      some (key, ' ' :: '=' :: ' ' :: (text ++ '\n' :: rest)) := by
    refine readKey_bare filled bare ?_
    rintro c ⟨rfl⟩
    rfl
  have value' : (' ' :: (text ++ '\n' :: rest)).dropWhile isBlank = text ++ '\n' :: rest := by
    cases text with
    | nil => exact absurd rfl spelled
    | cons c text => exact dropBlank_of_head (starts c rfl)
  have enough : size ≤ (text ++ '\n' :: rest).length := by
    rw [List.length_append]
    omega
  have reads : readKeyVal doc (key ++ ' ' :: '=' :: ' ' :: (text ++ '\n' :: rest)) =
      some (doc', '\n' :: rest) := by
    have equals : (' ' :: '=' :: ' ' :: (text ++ '\n' :: rest)).dropWhile isBlank =
        '=' :: ' ' :: (text ++ '\n' :: rest) := rfl
    simp only [readKeyVal, read, Option.bind_eq_bind, Option.bind_some, equals, value',
      spells _ _ enough, set]
  rw [line]
  cases key with
  | nil => exact absurd rfl filled
  | cons c key =>
      have plain := bare c List.mem_cons_self
      refine continues_line ?_ (List.cons_ne_nil _ _) ?_ continues
      · rintro d ⟨rfl⟩
        exact isBlank_of_isBare plain
      · rw [← line, ← reads]
        have other : ∀ d, isBare d = false → c ≠ d := fun d no same => by
          rw [← same, plain] at no
          cases no
        unfold readExpression
        split
        · next empty => cases empty
        · next same => exact absurd (List.cons.inj same).1 (other _ rfl)
        · next d tail _ same =>
            rw [← (List.cons.inj same).1]
            exact if_neg fun either => either.elim (other _ rfl) fun late =>
              late.elim (other _ rfl) (other _ rfl)

/-- The line of a table opens it. -/
theorem continues_table {doc doc' whole : Doc} {name rest : List Char}
    (filled : name ≠ []) (bare : ∀ c ∈ name, isBare c = true)
    (opened : doc.openTable name = some doc') (continues : Continues doc' rest whole) :
    Continues doc ('[' :: (name ++ ']' :: '\n' :: rest)) whole := by
  have line : '[' :: (name ++ ']' :: '\n' :: rest) = ('[' :: (name ++ [']'])) ++ '\n' :: rest := by
    simp only [List.cons_append, List.append_assoc, List.nil_append]
  have read : readKey (name ++ ']' :: '\n' :: rest) = some (name, ']' :: '\n' :: rest) := by
    refine readKey_bare filled bare ?_
    rintro c ⟨rfl⟩
    rfl
  have start : (name ++ ']' :: '\n' :: rest).dropWhile isBlank = name ++ ']' :: '\n' :: rest := by
    cases name with
    | nil => exact absurd rfl filled
    | cons c name => exact dropBlank_of_head (isBlank_of_isBare (bare c List.mem_cons_self))
  rw [line]
  refine continues_line ?_ (List.cons_ne_nil _ _) ?_ continues
  · rintro c ⟨rfl⟩
    rfl
  · have closes : (']' :: '\n' :: rest).dropWhile isBlank = ']' :: '\n' :: rest := rfl
    rw [← line]
    simp only [readExpression, readTable, start, read, Option.bind_eq_bind, Option.bind_some, closes,
      opened]

end Remgr.Lib.Toml
