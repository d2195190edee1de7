/-
Module: Remgr.Proofs.ConsoleCookie
Purpose: The console's session token never reaches the upstream of `/et`, and the other cookies of a
  request do, unless one byte of the header is not ASCII.
Trusted boundary: Remgr.Console.Cookies
Main exports: pairs, Withheld, drop_pairs, requestToken_forwardHeaders, withheld_iff,
  foreign_cookie_dropped
-/
import Remgr.Console.Cookies

namespace Remgr.Console.Cookies

open Lib Lib.Text

/-- The cookie pairs of a header value: what stands between semicolons, without the blanks around it,
where there is something. -/
def pairs (value : HeaderValue) : List (List Char) :=
  ((split (· == ';') value.chars).map (strip isBlank)).filter (· ≠ [])

/-- The pairs that are not the console's. -/
def foreign (value : HeaderValue) : List (List Char) :=
  (pairs value).filter fun pair => !sessionCookie.isPrefixOf pair

/-- What is promised of a `Cookie` header on its way to the upstream. -/
structure Withheld (raw : HeaderValue) : Prop where
  forwards : ((dropConsoleCookie raw).map pairs).getD [] = foreign raw
  silent : ∀ sent ∈ dropConsoleCookie raw, requestToken [("cookie", sent)] = none
  secret : ∀ token, requestToken [("cookie", raw)] = some token →
    ∀ sent ∈ dropConsoleCookie raw, sessionCookie ++ token ∉ pairs sent

/-! ## Visible text -/

theorem visibleChar_iff {c : Char} :
    visibleChar c = true ↔ c.toNat = 9 ∨ 0x20 ≤ c.toNat ∧ c.toNat < 0x7F := by
  have tab : c = '\t' ↔ c.toNat = 9 := (Char.toNat_inj (d := '\t')).symm
  simp [visibleChar, tab]

theorem isWhitespace_of_visible {c : Char} (visible : visibleChar c = true) :
    isWhitespace c = isBlank c := by
  have tab : c = '\t' ↔ c.toNat = 9 := (Char.toNat_inj (d := '\t')).symm
  have space : c = ' ' ↔ c.toNat = 32 := (Char.toNat_inj (d := ' ')).symm
  rw [visibleChar_iff] at visible
  rw [Bool.eq_iff_iff]
  simp only [isWhitespace, isBlank, Bool.or_eq_true, Bool.and_eq_true, decide_eq_true_eq,
    beq_iff_eq, tab, space]
  omega

theorem trim_visible {text : List Char} (visible : ∀ c ∈ text, visibleChar c = true) :
    trim text = strip isBlank text :=
  strip_congr fun c inside => isWhitespace_of_visible (visible c inside)

theorem toStr_visible {value : HeaderValue} (visible : ∀ c ∈ value.chars, visibleChar c = true) :
    value.toStr = some ⟨value.chars, visible⟩ :=
  dif_pos (List.all_eq_true.mpr visible)

theorem toStr_hidden {value : HeaderValue} (hidden : ¬ ∀ c ∈ value.chars, visibleChar c = true) :
    value.toStr = none :=
  dif_neg (mt List.all_eq_true.mp hidden)

theorem toStr_eq_some {value : HeaderValue} {text : HeaderText} (read : value.toStr = some text) :
    text.chars = value.chars := by
  unfold HeaderValue.toStr at read
  split at read
  · rw [← Option.some.inj read]
  · cases read

/-- A value of allowed bytes is visible unless a byte is above ASCII. -/
theorem visible_iff (value : HeaderValue) :
    (∀ c ∈ value.chars, visibleChar c = true) ↔ ∀ b ∈ value.bytes, b < 0x80 := by
  rw [HeaderValue.chars, List.forall_mem_map]
  refine forall_congr' fun b => imp_congr_right fun inside => ?_
  have allowed := value.valid b inside
  have small : b.toNat < 256 := b.toNat_lt
  have code : (asciiChar b).toNat = b.toNat := by
    have isChar : b.toNat.isValidChar := .inl (by omega)
    rw [asciiChar, Char.ofNat, dif_pos isChar]
    rfl
  rw [visibleChar_iff, code]
  simp only [headerByte, Bool.or_eq_true, Bool.and_eq_true, beq_iff_eq, decide_eq_true_eq,
    bne_iff_ne, ne_eq, ← UInt8.toNat_inj, UInt8.le_iff_toNat_le, UInt8.lt_iff_toNat_lt] at allowed ⊢
  have nine : (9 : UInt8).toNat = 9 := rfl
  have space : (0x20 : UInt8).toNat = 0x20 := rfl
  have delete : (0x7F : UInt8).toNat = 0x7F := rfl
  have high : (0x80 : UInt8).toNat = 0x80 := rfl
  omega

theorem utf8EncodeChar_visible {c : Char} (visible : visibleChar c = true) :
    String.utf8EncodeChar c = [asciiByte c] := by
  rw [visibleChar_iff] at visible
  have small : c.utf8Size = 1 := by
    rw [Char.utf8Size_eq_one_iff, UInt32.le_iff_toNat_le]
    change c.toNat ≤ 127
    omega
  rw [String.utf8EncodeChar_eq_singleton small]
  rfl

/-- Visible text is taken as it stands. -/
theorem fromStr_visible {text : List Char} (visible : ∀ c ∈ text, visibleChar c = true) :
    ∃ value, HeaderValue.fromStr text = some value ∧ value.chars = text := by
  have bytes : text.flatMap String.utf8EncodeChar = text.map asciiByte := by
    rw [List.map_eq_flatMap]
    exact List.flatMap_congr fun c inside => utf8EncodeChar_visible (visible c inside)
  have ascii : ∀ c ∈ text, c.toNat < 128 := by
    intro c inside
    have := visibleChar_iff.mp (visible c inside)
    omega
  have valid : ∀ b ∈ text.flatMap String.utf8EncodeChar, headerByte b = true := by
    rw [bytes, List.forall_mem_map]
    intro c inside
    have range := visibleChar_iff.mp (visible c inside)
    have code : (asciiByte c).toNat = c.toNat := by
      rw [asciiByte, UInt8.toNat_ofNat']
      omega
    simp only [headerByte, Bool.or_eq_true, Bool.and_eq_true, beq_iff_eq, decide_eq_true_eq,
      bne_iff_ne, ne_eq, ← UInt8.toNat_inj, UInt8.le_iff_toNat_le, code]
    have nine : (9 : UInt8).toNat = 9 := rfl
    have space : (0x20 : UInt8).toNat = 0x20 := rfl
    have delete : (0x7F : UInt8).toNat = 0x7F := rfl
    omega
  refine ⟨⟨text.flatMap String.utf8EncodeChar, valid⟩, dif_pos (List.all_eq_true.mpr valid), ?_⟩
  exact (congrArg (List.map asciiChar) bytes).trans (map_asciiChar ascii)

/-! ## What is forwarded -/

theorem pairs_visible {value : HeaderValue} (visible : ∀ c ∈ value.chars, visibleChar c = true) :
    ((split (· == ';') value.chars).map trim).filter (· ≠ []) = pairs value := by
  rw [pairs]
  congr 1
  refine List.map_congr_left fun part inside => trim_visible fun c here => ?_
  exact visible c (mem_of_mem_split inside here)

theorem mem_pairs {value : HeaderValue} {pair : List Char} (inside : pair ∈ pairs value) :
    pair ≠ [] ∧ Trimmed isBlank pair ∧ (∀ c ∈ pair, c ≠ ';') ∧ ∀ c ∈ pair, c ∈ value.chars := by
  obtain ⟨isPart, filled⟩ := List.mem_filter.mp inside
  obtain ⟨part, inPart, rfl⟩ := List.mem_map.mp isPart
  refine ⟨of_decide_eq_true filled, strip_trimmed isBlank part, ?_, ?_⟩
  · intro c here
    have plain := plain_of_mem_split inPart c (mem_of_mem_strip here)
    exact ne_of_beq_false plain
  · intro c here
    exact mem_of_mem_split inPart (mem_of_mem_strip here)

theorem dropConsoleCookie_visible {raw : HeaderValue}
    (visible : ∀ c ∈ raw.chars, visibleChar c = true) :
    dropConsoleCookie raw =
      if foreign raw = [] then none
      else HeaderValue.fromStr ("; ".toList.intercalate (foreign raw)) := by
  have kept : ((split (· == ';') raw.chars).map trim).filter
      (fun c => !c.isEmpty && !sessionCookie.isPrefixOf c) = foreign raw := by
    rw [foreign, ← pairs_visible visible, List.filter_filter]
    refine List.filter_congr fun pair _ => ?_
    rw [Bool.and_comm]
    cases pair <;> simp
  rw [dropConsoleCookie, toStr_visible visible]
  simp only [Option.bind_eq_bind, Option.bind_some, kept]

/-- Pairs that were joined are read back. -/
theorem pairs_intercalate {value : HeaderValue} {parts : List (List Char)} (filled : parts ≠ [])
    (joined : value.chars = "; ".toList.intercalate parts)
    (proper : ∀ part ∈ parts, part ≠ [] ∧ Trimmed isBlank part ∧ ∀ c ∈ part, c ≠ ';') :
    pairs value = parts := by
  have apart : (split (· == ';') value.chars).map (strip isBlank) = parts := by
    rw [joined]
    exact strip_split_join filled (fun part inside => (proper part inside).2.2)
      (fun part inside => (proper part inside).2.1) (by decide)
  rw [pairs, apart, List.filter_eq_self]
  exact fun part inside => decide_eq_true (proper part inside).1

theorem joined_visible {raw : HeaderValue} (visible : ∀ c ∈ raw.chars, visibleChar c = true) :
    ∀ c ∈ "; ".toList.intercalate (foreign raw), visibleChar c = true := by
  intro c inside
  rcases mem_intercalate inside with mark | ⟨pair, isPair, here⟩
  · have plain : ∀ c ∈ "; ".toList, visibleChar c = true := List.all_eq_true.mp (by decide)
    exact plain c mark
  · exact visible c ((mem_pairs (List.mem_of_mem_filter isPair)).2.2.2 c here)

/-- What is forwarded holds the foreign pairs and nothing else. -/
theorem drop_pairs {raw sent : HeaderValue} (forwarded : dropConsoleCookie raw = some sent) :
    pairs sent = foreign raw := by
  by_cases visible : ∀ c ∈ raw.chars, visibleChar c = true
  · rw [dropConsoleCookie_visible visible] at forwarded
    obtain ⟨filled, encoded⟩ := Option.ite_none_left_eq_some.mp forwarded
    obtain ⟨value, same, chars⟩ := fromStr_visible (joined_visible visible)
    rw [same] at encoded
    rw [← Option.some.inj encoded]
    refine pairs_intercalate filled chars fun pair inside => ?_
    have proper := mem_pairs (List.mem_of_mem_filter inside)
    exact ⟨proper.1, proper.2.1, proper.2.2.1⟩
  · rw [dropConsoleCookie, toStr_hidden visible] at forwarded
    cases forwarded

theorem foreign_of_forwarded {raw sent : HeaderValue} (forwarded : dropConsoleCookie raw = some sent)
    {pair : List Char} (inside : pair ∈ pairs sent) : sessionCookie.isPrefixOf pair = false := by
  rw [drop_pairs forwarded] at inside
  simpa using (List.mem_filter.mp inside).2

/-! ## What the console would accept -/

/-- Without a session pair in any cookie header there is no token. -/
theorem requestToken_eq_none {headers : List Header}
    (clear : ∀ header ∈ headers, named "cookie" header = true →
      ∀ pair ∈ pairs header.2, sessionCookie.isPrefixOf pair = false) :
    requestToken headers = none := by
  have nothing : ∀ text : List Char, sessionCookie.isPrefixOf text = false →
      stripPrefix sessionCookie text = none := by
    intro text other
    rw [stripPrefix, other]
    rfl
  unfold requestToken
  cases cookie : (headers.find? (named "cookie")).bind (·.2.toStr) with
  | none => rfl
  | some text =>
      obtain ⟨header, found, read⟩ := Option.bind_eq_some_iff.mp cookie
      have isHeader := List.mem_of_find?_eq_some found
      have chars := toStr_eq_some read
      have silent : (split (· == ';') text.chars).filterMap
          (fun c => stripPrefix sessionCookie (trim c)) = [] := by
        rw [List.filterMap_eq_nil_iff]
        intro part inside
        have visible : ∀ c ∈ part, visibleChar c = true :=
          fun c here => text.visible c (mem_of_mem_split inside here)
        rw [trim_visible visible]
        refine nothing _ ?_
        by_cases empty : strip isBlank part = []
        · rw [empty]
          rfl
        · refine clear header isHeader (List.find?_some found) _ (List.mem_filter.mpr ⟨?_, ?_⟩)
          · rw [← chars]
            exact List.mem_map_of_mem inside
          · exact decide_eq_true empty
      simp only [Option.map_some, Option.getD_some, silent, List.head?_nil, Option.filter_none]

/-- The upstream of `/et` is never sent a session that the console would accept. -/
theorem requestToken_forwardHeaders (headers : List Header) :
    requestToken (forwardHeaders headers) = none := by
  refine requestToken_eq_none fun header inside isCookie pair isPair => ?_
  obtain ⟨source, -, forwarded⟩ := List.mem_filterMap.mp inside
  split at forwarded
  · cases forwarded
  · split at forwarded
    · obtain ⟨sent, dropped, rfl⟩ := Option.map_eq_some_iff.mp forwarded
      exact foreign_of_forwarded dropped isPair
    · next other =>
        rw [Option.some.inj forwarded] at other
        exact absurd isCookie other

/-! ## The law -/

theorem drop_ascii {raw : HeaderValue} (ascii : ∀ b ∈ raw.bytes, b < 0x80) :
    ((dropConsoleCookie raw).map pairs).getD [] = foreign raw := by
  have visible := (visible_iff raw).mpr ascii
  cases forwarded : dropConsoleCookie raw with
  | some sent =>
      rw [Option.map_some, Option.getD_some, drop_pairs forwarded]
  | none =>
      obtain ⟨value, same, -⟩ := fromStr_visible (joined_visible visible)
      rw [dropConsoleCookie_visible visible, same] at forwarded
      by_cases empty : foreign raw = []
      · exact empty.symm
      · rw [if_neg empty] at forwarded
        cases forwarded

theorem drop_nonAscii {raw : HeaderValue} (nonAscii : ¬ ∀ b ∈ raw.bytes, b < 0x80) :
    dropConsoleCookie raw = none := by
  rw [← visible_iff] at nonAscii
  rw [dropConsoleCookie, toStr_hidden nonAscii]
  rfl

/-- A `Cookie` header is treated as promised exactly when all its bytes are ASCII, or it holds nothing
but sessions of the console. -/
theorem withheld_iff (raw : HeaderValue) :
    Withheld raw ↔
      (∀ b ∈ raw.bytes, b < 0x80) ∨ ∀ pair ∈ pairs raw, sessionCookie.isPrefixOf pair = true := by
  constructor
  · intro withheld
    by_cases ascii : ∀ b ∈ raw.bytes, b < 0x80
    · exact .inl ascii
    · have nothing : foreign raw = [] := by
        rw [← withheld.forwards, drop_nonAscii ascii]
        rfl
      refine .inr fun pair inside => ?_
      have session := List.filter_eq_nil_iff.mp nothing pair inside
      simpa using session
  · intro fits
    have forwards : ((dropConsoleCookie raw).map pairs).getD [] = foreign raw := by
      by_cases ascii : ∀ b ∈ raw.bytes, b < 0x80
      · exact drop_ascii ascii
      · have sessions := fits.resolve_left ascii
        rw [drop_nonAscii ascii, foreign, List.filter_eq_nil_iff.mpr]
        · rfl
        · intro pair inside
          simp [sessions pair inside]
    refine ⟨forwards, ?_, ?_⟩
    · intro sent forwarded
      refine requestToken_eq_none fun header inside _ pair isPair => ?_
      rw [List.mem_singleton.mp inside] at isPair
      exact foreign_of_forwarded forwarded isPair
    · intro token _ sent forwarded inside
      have other := foreign_of_forwarded forwarded inside
      rw [List.isPrefixOf_iff_prefix.mpr (List.prefix_append sessionCookie token)] at other
      cases other

/-- `a=é; b=1`, in UTF-8. -/
def accented : HeaderValue where
  bytes := [0x61, 0x3D, 0xC3, 0xA9, 0x3B, 0x20, 0x62, 0x3D, 0x31]
  valid := List.all_eq_true.mp (by decide)

/-- For one character outside ASCII the whole header is dropped. -/
theorem foreign_cookie_dropped : ¬ ∀ raw, Withheld raw := by
  intro withheld
  have lost : ((dropConsoleCookie accented).map pairs).getD [] ≠ foreign accented := by
    decide +kernel
  exact lost (withheld accented).forwards

end Remgr.Console.Cookies
