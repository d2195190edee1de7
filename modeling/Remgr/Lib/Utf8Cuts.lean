/-
Module: Remgr.Lib.Utf8Cuts
Purpose: A text in UTF-8 that is read in pieces, each on its own: what becomes of the characters that a
  cut goes through.
Trusted boundary: Remgr.Lib.Utf8
Main exports: encode, readPieces, fromUtf8Lossy_append, fromUtf8Lossy_encode, cut_text,
  replaced_le_readPieces, Whole, whole_of_unreplaced, whole_of_cuts
-/
import Mathlib.Algebra.GroupWithZero.Nat
import Mathlib.Data.List.Induction
import Remgr.Lib.Cuts
import Remgr.Lib.Utf8

namespace Remgr.Lib

/-- The bytes of a text. -/
def encode (text : List Char) : List UInt8 := text.flatMap String.utf8EncodeChar

/-- Pieces of a stream, read one by one. -/
def readPieces (pieces : List (List UInt8)) : List Char := pieces.flatMap fromUtf8Lossy

@[simp] theorem encode_nil : encode [] = [] := rfl

@[simp] theorem encode_append (front back : List Char) :
    encode (front ++ back) = encode front ++ encode back :=
  List.flatMap_append

theorem encode_cons (c : Char) (text : List Char) :
    encode (c :: text) = String.utf8EncodeChar c ++ encode text :=
  List.flatMap_cons

@[simp] theorem readPieces_append (front back : List (List UInt8)) :
    readPieces (front ++ back) = readPieces front ++ readPieces back :=
  List.flatMap_append

@[simp] theorem readPieces_cons (piece : List UInt8) (pieces : List (List UInt8)) :
    readPieces (piece :: pieces) = fromUtf8Lossy piece ++ readPieces pieces :=
  List.flatMap_cons

theorem readPieces_concat (pieces : List (List UInt8)) (piece : List UInt8) :
    readPieces (pieces ++ [piece]) = readPieces pieces ++ fromUtf8Lossy piece := by
  simp [readPieces]

/-! ## The bytes of a character -/

/-- The bytes of a character, as the decoder looks at them. -/
inductive Encodes (c : Char) : List UInt8 → Prop where
  | one (a : UInt8) (first : a < 0x80) (value : Char.ofNat a.toNat = c) : Encodes c [a]
  | two (a b : UInt8) (first : 0xC2 ≤ a ∧ a ≤ 0xDF) (second : continuation b = true)
      (value : Char.ofNat (a.toNat % 32 * 64 + payload b) = c) : Encodes c [a, b]
  | three (a b d : UInt8) (first : 0xE0 ≤ a ∧ a ≤ 0xEF) (second : secondByte a b = true)
      (third : continuation d = true)
      (value : Char.ofNat (a.toNat % 16 * 4096 + payload b * 64 + payload d) = c) :
      Encodes c [a, b, d]
  | four (a b d e : UInt8) (first : 0xF0 ≤ a ∧ a ≤ 0xF4) (second : secondByte a b = true)
      (third : continuation d = true) (fourth : continuation e = true)
      (value : Char.ofNat (a.toNat % 8 * 262144 + payload b * 4096 + payload d * 64 + payload e) = c) :
      Encodes c [a, b, d, e]

theorem continuation_iff {b : UInt8} : continuation b = true ↔ 0x80 ≤ b.toNat ∧ b.toNat ≤ 0xBF := by
  simp [continuation, UInt8.le_iff_toNat_le]

theorem secondByte_iff {a b : UInt8} : secondByte a b = true ↔
    (0x80 ≤ b.toNat ∧ b.toNat ≤ 0xBF) ∧ (a.toNat = 0xE0 → 0xA0 ≤ b.toNat) ∧
      (a.toNat = 0xED → b.toNat ≤ 0x9F) ∧ (a.toNat = 0xF0 → 0x90 ≤ b.toNat) ∧
      (a.toNat = 0xF4 → b.toNat ≤ 0x8F) := by
  have numbers : (0xE0 : UInt8).toNat = 0xE0 ∧ (0xED : UInt8).toNat = 0xED ∧
      (0xF0 : UInt8).toNat = 0xF0 ∧ (0xF4 : UInt8).toNat = 0xF4 := by decide
  have bounds : (0xA0 : UInt8).toNat = 0xA0 ∧ (0xBF : UInt8).toNat = 0xBF ∧
      (0x80 : UInt8).toNat = 0x80 ∧ (0x9F : UInt8).toNat = 0x9F ∧ (0x90 : UInt8).toNat = 0x90 ∧
      (0x8F : UInt8).toNat = 0x8F := by decide
  unfold secondByte
  simp only [← UInt8.toNat_inj, numbers]
  split
  · simp only [Bool.and_eq_true, decide_eq_true_eq, UInt8.le_iff_toNat_le, bounds]
    omega
  · split
    · simp only [Bool.and_eq_true, decide_eq_true_eq, UInt8.le_iff_toNat_le, bounds]
      omega
    · split
      · simp only [Bool.and_eq_true, decide_eq_true_eq, UInt8.le_iff_toNat_le, bounds]
        omega
      · split
        · simp only [Bool.and_eq_true, decide_eq_true_eq, UInt8.le_iff_toNat_le, bounds]
          omega
        · rw [continuation_iff]
          omega

theorem continuation_of_secondByte {a b : UInt8} (second : secondByte a b = true) :
    continuation b = true :=
  continuation_iff.mpr (secondByte_iff.mp second).1

theorem toNat_continuation (n : Nat) : (UInt8.ofNat (n % 64 + 0x80)).toNat = n % 64 + 0x80 := by
  rw [UInt8.toNat_ofNat']
  omega

theorem continuation_ofNat (n : Nat) : continuation (UInt8.ofNat (n % 64 + 0x80)) = true := by
  rw [continuation_iff, toNat_continuation]
  omega

theorem payload_ofNat (n : Nat) : payload (UInt8.ofNat (n % 64 + 0x80)) = n % 64 := by
  rw [payload, toNat_continuation]
  omega

theorem char_range (c : Char) : c.toNat < 0xD800 ∨ 0xDFFF < c.toNat ∧ c.toNat < 0x110000 := c.valid

theorem encodes (c : Char) : Encodes c (String.utf8EncodeChar c) := by
  have range := char_range c
  have value : c.val.toNat = c.toNat := rfl
  unfold String.utf8EncodeChar
  simp only [value]
  split
  · next small =>
      have first : (UInt8.ofNat c.toNat).toNat = c.toNat := by
        rw [UInt8.toNat_ofNat']
        omega
      refine .one _ ?_ ?_
      · rw [UInt8.lt_iff_toNat_lt, first]
        exact Nat.lt_succ_of_le small
      · rw [first, Char.ofNat_toNat]
  · next large =>
      split
      · next small =>
          have first : (UInt8.ofNat (c.toNat / 64 % 32 + 0xC0)).toNat = c.toNat / 64 + 0xC0 := by
            rw [UInt8.toNat_ofNat']
            omega
          refine .two _ _ ?_ (continuation_ofNat _) ?_
          · simp only [UInt8.le_iff_toNat_le, first]
            constructor
            · change 0xC2 ≤ _
              omega
            · change _ ≤ 0xDF
              omega
          · rw [first, payload_ofNat]
            have whole : (c.toNat / 64 + 192) % 32 * 64 + c.toNat % 64 = c.toNat := by omega
            rw [whole, Char.ofNat_toNat]
      · next large =>
          split
          · next small =>
              have first : (UInt8.ofNat (c.toNat / 4096 % 16 + 0xE0)).toNat =
                  c.toNat / 4096 + 0xE0 := by
                rw [UInt8.toNat_ofNat']
                omega
              refine .three _ _ _ ?_ ?_ (continuation_ofNat _) ?_
              · simp only [UInt8.le_iff_toNat_le, first]
                constructor
                · change 0xE0 ≤ _
                  omega
                · change _ ≤ 0xEF
                  omega
              · rw [secondByte_iff, first, toNat_continuation]
                omega
              · rw [first, payload_ofNat, payload_ofNat]
                have whole : (c.toNat / 4096 + 224) % 16 * 4096 + c.toNat / 64 % 64 * 64 +
                    c.toNat % 64 = c.toNat := by omega
                rw [whole, Char.ofNat_toNat]
          · next large =>
              have first : (UInt8.ofNat (c.toNat / 262144 % 8 + 0xF0)).toNat =
                  c.toNat / 262144 + 0xF0 := by
                rw [UInt8.toNat_ofNat']
                omega
              refine .four _ _ _ _ ?_ ?_ (continuation_ofNat _) (continuation_ofNat _) ?_
              · simp only [UInt8.le_iff_toNat_le, first]
                constructor
                · change 0xF0 ≤ _
                  omega
                · change _ ≤ 0xF4
                  omega
              · rw [secondByte_iff, first, toNat_continuation]
                omega
              · rw [first, payload_ofNat, payload_ofNat, payload_ofNat]
                have whole : (c.toNat / 262144 + 240) % 8 * 262144 + c.toNat / 4096 % 64 * 4096 +
                    c.toNat / 64 % 64 * 64 + c.toNat % 64 = c.toNat := by omega
                rw [whole, Char.ofNat_toNat]

/-! ## The decoder -/

theorem not_ascii {a low : UInt8} (above : 0x80 ≤ low) (first : low ≤ a) : ¬ a < 0x80 := by
  simp only [UInt8.le_iff_toNat_le, UInt8.lt_iff_toNat_lt] at *
  omega

theorem fromUtf8Lossy_two {a : UInt8} (first : 0xC2 ≤ a ∧ a ≤ 0xDF) (rest : List UInt8) :
    fromUtf8Lossy (a :: rest) =
      match rest with
      | b :: tail =>
          if continuation b then
            Char.ofNat (a.toNat % 32 * 64 + payload b) :: fromUtf8Lossy tail
          else '\uFFFD' :: fromUtf8Lossy (b :: tail)
      | [] => ['\uFFFD'] := by
  have unfolded := fromUtf8Lossy.eq_def (a :: rest)
  simp only [not_ascii (by decide) first.1, if_false, first, and_self, if_true] at unfolded
  exact unfolded

theorem fromUtf8Lossy_three {a : UInt8} (first : 0xE0 ≤ a ∧ a ≤ 0xEF) (rest : List UInt8) :
    fromUtf8Lossy (a :: rest) =
      match rest with
      | b :: c :: tail =>
          if !secondByte a b then '\uFFFD' :: fromUtf8Lossy (b :: c :: tail)
          else if continuation c then
            Char.ofNat (a.toNat % 16 * 4096 + payload b * 64 + payload c) :: fromUtf8Lossy tail
          else '\uFFFD' :: fromUtf8Lossy (c :: tail)
      | [b] => if secondByte a b then ['\uFFFD'] else '\uFFFD' :: fromUtf8Lossy [b]
      | [] => ['\uFFFD'] := by
  have notTwo : ¬ (0xC2 ≤ a ∧ a ≤ 0xDF) := by
    simp only [UInt8.le_iff_toNat_le] at *
    have low : (0xE0 : UInt8).toNat = 0xE0 := rfl
    have high : (0xDF : UInt8).toNat = 0xDF := rfl
    omega
  have unfolded := fromUtf8Lossy.eq_def (a :: rest)
  simp only [not_ascii (by decide) first.1, if_false, notTwo, first, and_self, if_true] at unfolded
  exact unfolded

theorem fromUtf8Lossy_four {a : UInt8} (first : 0xF0 ≤ a ∧ a ≤ 0xF4) (rest : List UInt8) :
    fromUtf8Lossy (a :: rest) =
      match rest with
      | b :: c :: d :: tail =>
          if !secondByte a b then '\uFFFD' :: fromUtf8Lossy (b :: c :: d :: tail)
          else if !continuation c then '\uFFFD' :: fromUtf8Lossy (c :: d :: tail)
          else if continuation d then
            Char.ofNat (a.toNat % 8 * 262144 + payload b * 4096 + payload c * 64 + payload d) ::
              fromUtf8Lossy tail
          else '\uFFFD' :: fromUtf8Lossy (d :: tail)
      | [b, c] =>
          if !secondByte a b then '\uFFFD' :: fromUtf8Lossy [b, c]
          else if continuation c then ['\uFFFD']
          else '\uFFFD' :: fromUtf8Lossy [c]
      | [b] => if secondByte a b then ['\uFFFD'] else '\uFFFD' :: fromUtf8Lossy [b]
      | [] => ['\uFFFD'] := by
  have notTwo : ¬ (0xC2 ≤ a ∧ a ≤ 0xDF) := by
    simp only [UInt8.le_iff_toNat_le] at *
    have low : (0xF0 : UInt8).toNat = 0xF0 := rfl
    have high : (0xDF : UInt8).toNat = 0xDF := rfl
    omega
  have notThree : ¬ (0xE0 ≤ a ∧ a ≤ 0xEF) := by
    simp only [UInt8.le_iff_toNat_le] at *
    have low : (0xF0 : UInt8).toNat = 0xF0 := rfl
    have high : (0xEF : UInt8).toNat = 0xEF := rfl
    omega
  have unfolded := fromUtf8Lossy.eq_def (a :: rest)
  simp only [not_ascii (by decide) first.1, if_false, notTwo, notThree, first, and_self, if_true] at unfolded
  exact unfolded

theorem fromUtf8Lossy_ascii {a : UInt8} (first : a < 0x80) (rest : List UInt8) :
    fromUtf8Lossy (a :: rest) = Char.ofNat a.toNat :: fromUtf8Lossy rest := by
  rw [fromUtf8Lossy.eq_def]
  simp only [first, if_true]

/-- A byte that no sequence begins with. -/
def stray (a : UInt8) : Prop :=
  ¬ a < 0x80 ∧ ¬ (0xC2 ≤ a ∧ a ≤ 0xDF) ∧ ¬ (0xE0 ≤ a ∧ a ≤ 0xEF) ∧ ¬ (0xF0 ≤ a ∧ a ≤ 0xF4)

theorem fromUtf8Lossy_stray {a : UInt8} (first : stray a) (rest : List UInt8) :
    fromUtf8Lossy (a :: rest) = '\uFFFD' :: fromUtf8Lossy rest := by
  rw [fromUtf8Lossy.eq_def]
  simp only [first.1, first.2.1, first.2.2.1, first.2.2.2, if_false]

theorem stray_of_continuation {b : UInt8} (later : continuation b = true) : stray b := by
  rw [continuation_iff] at later
  have numbers : (0x80 : UInt8).toNat = 0x80 ∧ (0xC2 : UInt8).toNat = 0xC2 ∧
      (0xE0 : UInt8).toNat = 0xE0 ∧ (0xF0 : UInt8).toNat = 0xF0 := by decide
  simp only [stray, UInt8.le_iff_toNat_le, UInt8.lt_iff_toNat_lt, numbers]
  omega

theorem first_cases (a : UInt8) :
    a < 0x80 ∨ (0xC2 ≤ a ∧ a ≤ 0xDF) ∨ (0xE0 ≤ a ∧ a ≤ 0xEF) ∨ (0xF0 ≤ a ∧ a ≤ 0xF4) ∨ stray a := by
  unfold stray
  tauto

theorem Encodes.decode {c : Char} {bytes : List UInt8} (shape : Encodes c bytes) (rest : List UInt8) :
    fromUtf8Lossy (bytes ++ rest) = c :: fromUtf8Lossy rest := by
  cases shape with
  | one a first value => rw [List.singleton_append, fromUtf8Lossy_ascii first, value]
  | two a b first second value =>
      simp only [List.cons_append, List.nil_append, fromUtf8Lossy_two first, second, if_true, value]
  | three a b d first second third value =>
      simp only [List.cons_append, List.nil_append, fromUtf8Lossy_three first, second, third,
        Bool.not_true, Bool.false_eq_true, if_false, if_true, value]
  | four a b d e first second third fourth value =>
      simp only [List.cons_append, List.nil_append, fromUtf8Lossy_four first, second, third, fourth,
        Bool.not_true, Bool.false_eq_true, if_false, if_true, value]

/-- Text in UTF-8 is read back. -/
theorem fromUtf8Lossy_encode (text : List Char) (rest : List UInt8) :
    fromUtf8Lossy (encode text ++ rest) = text ++ fromUtf8Lossy rest := by
  induction text with
  | nil => rfl
  | cons c text inductionHypothesis =>
      rw [encode_cons, List.append_assoc, (encodes c).decode, inductionHypothesis, List.cons_append]

/-- A character that is cut short is one replacement character, and what is left of it are
continuation bytes. -/
theorem Encodes.cut {c : Char} {head pending : List UInt8} (shape : Encodes c (head ++ pending))
    (started : head ≠ []) (unfinished : pending ≠ []) :
    fromUtf8Lossy head = ['\uFFFD'] ∧ ∀ b ∈ pending, continuation b = true := by
  generalize whole : head ++ pending = bytes at shape
  obtain ⟨x, front, rfl⟩ := List.exists_cons_of_ne_nil started
  obtain ⟨y, back, rfl⟩ := List.exists_cons_of_ne_nil unfinished
  cases shape with
  | one a first value => simp at whole
  | two a b first second value =>
      match front, whole with
      | [], whole =>
          obtain ⟨rfl, rfl, rfl⟩ : x = a ∧ y = b ∧ back = [] := by simpa using whole
          exact ⟨by rw [fromUtf8Lossy_two first], by simp [second]⟩
      | z :: front, whole => simp at whole
  | three a b d first second third value =>
      have later := continuation_of_secondByte second
      match front, whole with
      | [], whole =>
          obtain ⟨rfl, rfl, rfl⟩ : x = a ∧ y = b ∧ back = [d] := by simpa using whole
          exact ⟨by rw [fromUtf8Lossy_three first], by simp [later, third]⟩
      | [z], whole =>
          obtain ⟨rfl, rfl, rfl, rfl⟩ : x = a ∧ z = b ∧ y = d ∧ back = [] := by simpa using whole
          exact ⟨by simp only [fromUtf8Lossy_three first, second, if_true], by simp [third]⟩
      | z :: z' :: front, whole => simp at whole
  | four a b d e first second third fourth value =>
      have later := continuation_of_secondByte second
      match front, whole with
      | [], whole =>
          obtain ⟨rfl, rfl, rfl⟩ : x = a ∧ y = b ∧ back = [d, e] := by simpa using whole
          exact ⟨by rw [fromUtf8Lossy_four first], by simp [later, third, fourth]⟩
      | [z], whole =>
          obtain ⟨rfl, rfl, rfl, rfl⟩ : x = a ∧ z = b ∧ y = d ∧ back = [e] := by simpa using whole
          exact ⟨by simp only [fromUtf8Lossy_four first, second, if_true], by simp [third, fourth]⟩
      | [z, z'], whole =>
          obtain ⟨rfl, rfl, rfl, rfl, rfl⟩ : x = a ∧ z = b ∧ z' = d ∧ y = e ∧ back = [] := by
            simpa using whole
          refine ⟨?_, by simp [fourth]⟩
          simp only [fromUtf8Lossy_four first, second, third, Bool.not_true, Bool.false_eq_true,
            if_false, if_true]
      | z :: z' :: z'' :: front, whole => simp at whole

theorem fromUtf8Lossy_continuations {pending : List UInt8}
    (later : ∀ b ∈ pending, continuation b = true) (rest : List UInt8) :
    fromUtf8Lossy (pending ++ rest) =
      List.replicate pending.length '\uFFFD' ++ fromUtf8Lossy rest := by
  induction pending with
  | nil => rfl
  | cons b pending inductionHypothesis =>
      have first := stray_of_continuation (later b List.mem_cons_self)
      rw [List.cons_append, fromUtf8Lossy_stray first,
        inductionHypothesis fun d inside => later d (List.mem_cons_of_mem b inside)]
      rfl

/-! ## Where reading starts afresh -/

/-- No character goes on into these bytes. -/
def Fresh (bytes : List UInt8) : Prop := ∀ b ∈ bytes.head?, continuation b = false

theorem not_secondByte {a b : UInt8} (fresh : continuation b = false) : secondByte a b = false := by
  refine Bool.eq_false_iff.mpr fun second => ?_
  rw [continuation_of_secondByte second] at fresh
  cases fresh

/-- Reading can be interrupted where no character goes on. The induction is on the length of what
comes before, as the decoder takes up to four bytes at a time. -/
theorem fromUtf8Lossy_append (front : List UInt8) {back : List UInt8} (fresh : Fresh back) :
    fromUtf8Lossy (front ++ back) = fromUtf8Lossy front ++ fromUtf8Lossy back := by
  cases back with
  | nil =>
      have nothing : fromUtf8Lossy [] = [] := rfl
      rw [List.append_nil, nothing, List.append_nil]
  | cons next back =>
      have stops : continuation next = false := fresh next rfl
      have other : ∀ a, secondByte a next = false := fun a => not_secondByte stops
      generalize size : front.length = n
      induction n using Nat.strongRecOn generalizing front with
      | ind n inductionHypothesis =>
          have shorter : ∀ rest : List UInt8, rest.length < n → fromUtf8Lossy (rest ++ next :: back) =
              fromUtf8Lossy rest ++ fromUtf8Lossy (next :: back) :=
            fun rest less => inductionHypothesis rest.length less rest rfl
          subst size
          cases front with
          | nil => rfl
          | cons a front =>
              rw [List.cons_append]
              rcases first_cases a with ascii | two | three | four | alone
              · rw [fromUtf8Lossy_ascii ascii, fromUtf8Lossy_ascii ascii, shorter front (by simp),
                  List.cons_append]
              · rw [fromUtf8Lossy_two two, fromUtf8Lossy_two two]
                match front with
                | [] => simp [stops]
                | b :: front =>
                    have rest := shorter front (by simp only [List.length_cons]; omega)
                    have again := shorter (b :: front) (by simp)
                    rw [List.cons_append] at again
                    by_cases later : continuation b = true
                    · simp [later, rest]
                    · simp [later, again]
              · rw [fromUtf8Lossy_three three, fromUtf8Lossy_three three]
                match front with
                | [] => cases back <;> simp [other]
                | [b] =>
                    have again := shorter [b] (by simp)
                    by_cases second : secondByte a b = true
                    · simp [second, stops]
                    · simpa [second] using again
                | b :: c :: front =>
                    have rest := shorter front (by simp only [List.length_cons]; omega)
                    have again := shorter (b :: c :: front) (by simp)
                    have third := shorter (c :: front) (by simp)
                    rw [List.cons_append] at third
                    rw [List.cons_append, List.cons_append] at again
                    by_cases second : secondByte a b = true
                    · by_cases later : continuation c = true
                      · simp [second, later, rest]
                      · simp [second, later, third]
                    · simp [second, again]
              · rw [fromUtf8Lossy_four four, fromUtf8Lossy_four four]
                match front with
                | [] =>
                    match back with
                    | [] => simp [other]
                    | [c] => simp [other]
                    | c :: d :: back => simp [other]
                | [b] =>
                    have again := shorter [b] (by simp)
                    rw [List.singleton_append] at again
                    by_cases second : secondByte a b = true
                    · cases back <;> simp [second, stops]
                    · cases back <;> simp [second, again]
                | [b, c] =>
                    have again := shorter [b, c] (by simp)
                    have third := shorter [c] (by simp)
                    rw [List.singleton_append] at third
                    rw [List.cons_append, List.singleton_append] at again
                    by_cases second : secondByte a b = true
                    · by_cases later : continuation c = true
                      · simp [second, later, stops]
                      · simp [second, later, third]
                    · simp [second, again]
                | b :: c :: d :: front =>
                    have rest := shorter front (by simp only [List.length_cons]; omega)
                    have again := shorter (b :: c :: d :: front) (by simp)
                    have third := shorter (c :: d :: front) (by simp)
                    have fourth := shorter (d :: front) (by simp)
                    simp only [List.cons_append] at again third fourth
                    by_cases second : secondByte a b = true
                    · by_cases later : continuation c = true
                      · by_cases last : continuation d = true
                        · simp [second, later, last, rest]
                        · simp [second, later, last, fourth]
                      · simp [second, later, third]
                    · simp [second, again]
              · rw [fromUtf8Lossy_stray alone, fromUtf8Lossy_stray alone, shorter front (by simp),
                  List.cons_append]

theorem Encodes.fresh {c : Char} {bytes : List UInt8} (shape : Encodes c bytes) :
    bytes ≠ [] ∧ Fresh bytes := by
  have numbers : (0x80 : UInt8).toNat = 0x80 ∧ (0xC2 : UInt8).toNat = 0xC2 ∧
      (0xE0 : UInt8).toNat = 0xE0 ∧ (0xF0 : UInt8).toNat = 0xF0 := by decide
  cases shape with
  | one a first value =>
      refine ⟨List.cons_ne_nil _ _, fun b isFirst => ?_⟩
      cases isFirst
      rw [Bool.eq_false_iff, ne_eq, continuation_iff]
      rw [UInt8.lt_iff_toNat_lt, numbers.1] at first
      omega
  | two a b first second value | three a b d first second third value
  | four a b d e first second third fourth value =>
      refine ⟨List.cons_ne_nil _ _, fun b isFirst => ?_⟩
      cases isFirst
      rw [Bool.eq_false_iff, ne_eq, continuation_iff]
      simp only [UInt8.le_iff_toNat_le, numbers] at first
      omega

theorem fresh_encode (text : List Char) : Fresh (encode text) := by
  cases text with
  | nil => nofun
  | cons c text =>
      obtain ⟨filled, fresh⟩ := (encodes c).fresh
      intro b isFirst
      rw [encode_cons, List.head?_append_of_ne_nil _ filled] at isFirst
      exact fresh b isFirst

/-! ## Cuts -/

/-- A cut of a text is between two characters or goes through one. -/
theorem cut_text {front back : List UInt8} {text : List Char} (whole : front ++ back = encode text) :
    (∃ read left, text = read ++ left ∧ front = encode read ∧ back = encode left) ∨
      ∃ read c left head pending, text = read ++ c :: left ∧ front = encode read ++ head ∧
        back = pending ++ encode left ∧ Encodes c (head ++ pending) ∧ head ≠ [] ∧ pending ≠ [] := by
  induction text generalizing front with
  | nil =>
      obtain ⟨rfl, rfl⟩ := List.append_eq_nil_iff.mp whole
      exact .inl ⟨[], [], rfl, rfl, rfl⟩
  | cons c text inductionHypothesis =>
      have shape := encodes c
      rw [encode_cons] at whole
      rcases List.append_eq_append_iff.mp whole with ⟨pending, first, rfl⟩ | ⟨rest, rfl, others⟩
      · rw [first] at shape
        by_cases unstarted : front = []
        · subst unstarted
          exact .inl ⟨[], c :: text, rfl, rfl, by rw [encode_cons, first, List.nil_append]⟩
        · by_cases finished : pending = []
          · subst finished
            rw [List.append_nil] at first
            exact .inl ⟨[c], text, rfl, by simp [encode, first], rfl⟩
          · exact .inr ⟨[], c, text, front, pending, rfl, rfl, rfl, shape, unstarted, finished⟩
      · rcases inductionHypothesis others.symm with ⟨read, left, rfl, rfl, rfl⟩ |
          ⟨read, d, left, head, pending, rfl, rfl, rfl, cut⟩
        · exact .inl ⟨c :: read, left, rfl, (encode_cons c read).symm, rfl⟩
        · refine .inr ⟨c :: read, d, left, head, pending, rfl, ?_, rfl, cut⟩
          rw [encode_cons, List.append_assoc]

/-- How many replacement characters a text has. -/
def replaced (text : List Char) : Nat := text.count '\uFFFD'

@[simp] theorem replaced_append (front back : List Char) :
    replaced (front ++ back) = replaced front + replaced back :=
  List.count_append

@[simp] theorem replaced_replicate (n : Nat) : replaced (List.replicate n '\uFFFD') = n :=
  List.count_replicate_self

theorem replaced_singleton_le (c : Char) : replaced [c] ≤ 1 := List.count_le_length

theorem nothing_pending : ∀ b ∈ ([] : List UInt8), continuation b = true := nofun

/-- Every character that a cut goes through becomes two replacement characters or more; `pending` is
what is left of one when the pieces begin. The induction is on the pieces. -/
theorem replaced_le_readPieces {pieces : List (List UInt8)} {pending : List UInt8} {text : List Char}
    (later : ∀ b ∈ pending, continuation b = true) (whole : pieces.flatten = pending ++ encode text) :
    pending.length + replaced text ≤ replaced (readPieces pieces) ∧
      (pending = [] → replaced (readPieces pieces) = replaced text →
        ∀ piece ∈ pieces, ∃ part, piece = encode part) := by
  induction pieces generalizing pending text with
  | nil =>
      obtain ⟨rfl, nothing⟩ := List.append_eq_nil_iff.mp whole.symm
      have empty : text = [] := by
        cases text with
        | nil => rfl
        | cons c text =>
            rw [encode_cons] at nothing
            exact absurd (List.append_eq_nil_iff.mp nothing).1 (encodes c).fresh.1
      subst empty
      exact ⟨Nat.le_refl 0, fun _ _ => nofun⟩
  | cons piece pieces inductionHypothesis =>
      rw [List.flatten_cons] at whole
      rw [readPieces_cons, replaced_append]
      rcases List.append_eq_append_iff.mp whole with ⟨left, rfl, rest⟩ | ⟨front, rfl, rest⟩
      · -- the piece lies inside the character that was cut
        have inPiece : ∀ b ∈ piece, continuation b = true :=
          fun b inside => later b (List.mem_append_left _ inside)
        obtain ⟨bound, equal⟩ :=
          inductionHypothesis (fun b inside => later b (List.mem_append_right _ inside)) rest
        have read := fromUtf8Lossy_continuations inPiece []
        have nothing : fromUtf8Lossy [] = [] := rfl
        rw [List.append_nil, nothing, List.append_nil] at read
        rw [read, replaced_replicate, List.length_append]
        refine ⟨by omega, fun empty same => ?_⟩
        obtain ⟨rfl, rfl⟩ := List.append_eq_nil_iff.mp empty
        have others := equal rfl (by simpa using same)
        exact List.forall_mem_cons.mpr ⟨⟨[], rfl⟩, others⟩
      · rw [fromUtf8Lossy_continuations later, replaced_append, replaced_replicate]
        rcases cut_text rest.symm with ⟨read, left, rfl, rfl, others⟩ |
          ⟨read, c, left, head, cut, rfl, rfl, others, shape, started, unfinished⟩
        · obtain ⟨bound, equal⟩ := inductionHypothesis nothing_pending others
          have text := fromUtf8Lossy_encode read []
          have nothing : fromUtf8Lossy [] = [] := rfl
          rw [List.append_nil, nothing, List.append_nil] at text
          rw [List.length_nil, Nat.zero_add] at bound
          rw [text, replaced_append]
          refine ⟨by omega, fun empty same => ?_⟩
          subst empty
          rw [List.length_nil, Nat.zero_add] at same
          exact List.forall_mem_cons.mpr ⟨⟨read, rfl⟩, equal rfl (by omega)⟩
        · obtain ⟨short, laterCut⟩ := shape.cut started unfinished
          obtain ⟨bound, -⟩ := inductionHypothesis laterCut others
          have one := replaced_singleton_le c
          have two : replaced ['\uFFFD'] = 1 := rfl
          have some' := List.length_pos_iff.mpr unfinished
          have parts : read ++ c :: left = read ++ ([c] ++ left) := rfl
          rw [fromUtf8Lossy_encode, short, parts, replaced_append, replaced_append, replaced_append,
            two]
          exact ⟨by omega, fun _ same => by omega⟩

theorem fromUtf8Lossy_encode' (text : List Char) : fromUtf8Lossy (encode text) = text := by
  have nothing : fromUtf8Lossy [] = [] := rfl
  have read := fromUtf8Lossy_encode text []
  rwa [List.append_nil, nothing, List.append_nil] at read

theorem encode_inj {a b : List Char} (same : encode a = encode b) : a = b := by
  rw [← fromUtf8Lossy_encode' a, same, fromUtf8Lossy_encode']

/-- Pieces of whole characters. -/
def Whole (pieces : List (List UInt8)) : Prop := ∀ piece ∈ pieces, ∃ part, piece = encode part

/-- Pieces of whole characters are read as they are. -/
theorem Whole.flatten {pieces : List (List UInt8)} (whole : Whole pieces) :
    pieces.flatten = encode (readPieces pieces) := by
  induction pieces with
  | nil => rfl
  | cons piece pieces inductionHypothesis =>
      obtain ⟨part, rfl⟩ := whole piece List.mem_cons_self
      have others := inductionHypothesis fun other inside => whole other (List.mem_cons_of_mem _ inside)
      rw [List.flatten_cons, readPieces_cons, encode_append, fromUtf8Lossy_encode', others]

theorem encode_append_left {front back : List Char} {bytes : List UInt8}
    (same : encode front ++ bytes = encode back) : bytes = encode (fromUtf8Lossy bytes) := by
  have read := fromUtf8Lossy_encode' back
  rw [← same, fromUtf8Lossy_encode] at read
  rw [← read, encode_append] at same
  exact List.append_cancel_left same

/-- Pieces that are cut between characters only are pieces of whole characters. -/
theorem whole_of_cuts {pieces : List (List UInt8)}
    (clean : ∀ front back, pieces = front ++ back → ∃ part, front.flatten = encode part) :
    Whole pieces := by
  intro piece inside
  obtain ⟨front, back, whole⟩ := List.append_of_mem inside
  obtain ⟨before, early⟩ := clean front (piece :: back) whole
  obtain ⟨both, late⟩ := clean (front ++ [piece]) back (by rw [whole, List.append_assoc]; rfl)
  rw [List.flatten_append, List.flatten_singleton, early] at late
  exact ⟨_, encode_append_left late⟩

/-- Without a replacement character nothing was cut. -/
theorem whole_of_unreplaced {pieces : List (List UInt8)} {rest : List UInt8} {text : List Char}
    (stream : pieces.flatten ++ rest = encode text) (clear : replaced (readPieces pieces) = 0) :
    Whole pieces := by
  induction pieces generalizing text with
  | nil => nofun
  | cons piece pieces inductionHypothesis =>
      rw [List.flatten_cons, List.append_assoc] at stream
      rw [readPieces_cons, replaced_append] at clear
      rcases cut_text stream with ⟨read, left, rfl, rfl, others⟩ |
        ⟨read, c, left, head, cut, rfl, rfl, others, shape, started, unfinished⟩
      · have onward := inductionHypothesis others (by omega)
        exact List.forall_mem_cons.mpr ⟨⟨read, rfl⟩, onward⟩
      · have two : replaced ['\uFFFD'] = 1 := rfl
        rw [fromUtf8Lossy_encode, (shape.cut started unfinished).1, replaced_append, two] at clear
        omega

/-- A character that is read is one of the text's, or stands for one that was cut. -/
theorem mem_readPieces {pieces : List (List UInt8)} {pending rest : List UInt8} {text : List Char}
    (later : ∀ b ∈ pending, continuation b = true)
    (stream : pieces.flatten ++ rest = pending ++ encode text) {c : Char}
    (inside : c ∈ readPieces pieces) : c = '\uFFFD' ∨ c ∈ text := by
  induction pieces generalizing pending text with
  | nil => cases inside
  | cons piece pieces inductionHypothesis =>
      rw [List.flatten_cons, List.append_assoc] at stream
      rw [readPieces_cons, List.mem_append] at inside
      rcases List.append_eq_append_iff.mp stream with ⟨left, rfl, others⟩ | ⟨front, rfl, others⟩
      · have onward := inductionHypothesis
          (fun b inside => later b (List.mem_append_right _ inside)) others
        rcases inside with here | there
        · have read := fromUtf8Lossy_continuations
            (fun b inside => later b (List.mem_append_left left inside)) []
          have nothing : fromUtf8Lossy [] = [] := rfl
          rw [List.append_nil, nothing, List.append_nil] at read
          rw [read] at here
          exact .inl (List.eq_of_mem_replicate here)
        · exact onward there
      · rw [fromUtf8Lossy_continuations later, List.mem_append, or_assoc] at inside
        rcases inside with here | inside
        · exact .inl (List.eq_of_mem_replicate here)
        · rcases cut_text others.symm with ⟨read, left, rfl, rfl, onward⟩ |
            ⟨read, d, left, head, cut, rfl, rfl, onward, shape, started, unfinished⟩
          · rw [fromUtf8Lossy_encode'] at inside
            rcases inside with here | there
            · exact .inr (List.mem_append_left _ here)
            · exact (inductionHypothesis nothing_pending onward there).imp_right
                (List.mem_append_right _)
          · obtain ⟨short, laterCut⟩ := shape.cut started unfinished
            rw [fromUtf8Lossy_encode, short, List.mem_append, or_assoc] at inside
            rcases inside with here | mark | there
            · exact .inr (List.mem_append_left _ here)
            · exact .inl (List.mem_singleton.mp mark)
            · refine (inductionHypothesis laterCut onward there).imp_right fun later => ?_
              exact List.mem_append_right _ (List.mem_cons_of_mem d later)

theorem length_encode (text : List Char) : (encode text).length = (text.map Char.utf8Size).sum := by
  rw [encode, List.length_flatMap]
  simp

/-! ## Newlines -/

theorem encode_newline : encode ['\n'] = [10] := by decide

theorem high_of_continuation {b : UInt8} (later : continuation b = true) : ¬ b < 0x80 :=
  (stray_of_continuation later).1

/-- An ASCII byte is a character of its own. -/
theorem Encodes.ascii {c : Char} {bytes : List UInt8} (shape : Encodes c bytes) {b : UInt8}
    (inside : b ∈ bytes) (small : b < 0x80) : c = Char.ofNat b.toNat := by
  cases shape with
  | one a first value => rw [List.mem_singleton.mp inside, value]
  | two a d first second value =>
      simp only [List.mem_cons, List.not_mem_nil, or_false] at inside
      rcases inside with rfl | rfl
      · exact absurd small (not_ascii (by decide) first.1)
      · exact absurd small (high_of_continuation second)
  | three a d e first second third value =>
      simp only [List.mem_cons, List.not_mem_nil, or_false] at inside
      rcases inside with rfl | rfl | rfl
      · exact absurd small (not_ascii (by decide) first.1)
      · exact absurd small (high_of_continuation (continuation_of_secondByte second))
      · exact absurd small (high_of_continuation third)
  | four a d e f first second third fourth value =>
      simp only [List.mem_cons, List.not_mem_nil, or_false] at inside
      rcases inside with rfl | rfl | rfl | rfl
      · exact absurd small (not_ascii (by decide) first.1)
      · exact absurd small (high_of_continuation (continuation_of_secondByte second))
      · exact absurd small (high_of_continuation third)
      · exact absurd small (high_of_continuation fourth)

theorem newline_mem_encode {text : List Char} : (10 : UInt8) ∈ encode text ↔ '\n' ∈ text := by
  constructor
  · intro inside
    obtain ⟨c, isChar, here⟩ := List.mem_flatMap.mp inside
    rw [(encodes c).ascii here (by decide)] at isChar
    exact isChar
  · intro inside
    have own : (10 : UInt8) ∈ String.utf8EncodeChar '\n' := by decide
    exact List.mem_flatMap.mpr ⟨'\n', inside, own⟩

/-- Pieces that end with a newline are read as text that does. -/
theorem readPieces_newline {pieces : List (List UInt8)} {bytes : List UInt8}
    (ends : pieces.flatten = bytes ++ [10]) : ∃ text, readPieces pieces = text ++ ['\n'] := by
  have fresh : Fresh [10] := by
    rintro b ⟨rfl⟩
    rfl
  have newline : fromUtf8Lossy [10] = ['\n'] := by decide
  induction pieces using List.reverseRecOn generalizing bytes with
  | nil => simp at ends
  | append_singleton pieces piece inductionHypothesis =>
      rw [List.flatten_append, List.flatten_singleton] at ends
      rw [readPieces_append]
      rcases List.eq_nil_or_concat' piece with rfl | ⟨front, last, rfl⟩
      · rw [List.append_nil] at ends
        obtain ⟨text, read⟩ := inductionHypothesis ends
        have nothing : readPieces [[]] = [] := rfl
        exact ⟨text, by rw [read, nothing, List.append_nil]⟩
      · rw [← List.append_assoc] at ends
        obtain ⟨-, same⟩ := List.append_inj' ends rfl
        rw [same]
        refine ⟨readPieces pieces ++ fromUtf8Lossy front, ?_⟩
        rw [readPieces_cons, fromUtf8Lossy_append front fresh, newline, List.append_assoc,
          List.append_assoc]
        rfl

theorem readPieces_of_empty {pieces : List (List UInt8)} (empty : pieces.flatten = []) :
    readPieces pieces = [] := by
  refine List.flatMap_eq_nil_iff.mpr fun piece inside => ?_
  rw [List.flatten_eq_nil_iff.mp empty piece inside]
  rfl

/-- The parts of a stream are read on their own where no character is cut between them. -/
theorem readPieces_divides {pieces front back : List (List UInt8)} (divides : Divides pieces front back)
    (fresh : Fresh back.flatten) : readPieces pieces = readPieces front ++ readPieces back := by
  cases divides with
  | between same => rw [same, readPieces_append]
  | within before left right after leftFilled rightFilled whole first second =>
      subst whole first second
      have fresh : Fresh right := by
        intro b isFirst
        refine fresh b ?_
        rw [List.flatten_cons, List.head?_append_of_ne_nil _ rightFilled]
        exact isFirst
      have nothing : readPieces [] = [] := rfl
      simp only [readPieces_append, readPieces_cons, fromUtf8Lossy_append left fresh, nothing,
        List.append_nil, List.append_assoc]

end Remgr.Lib
