/-
Module: Remgr.Proofs.UpstreamCookie
Purpose: The cookie that a browser stores from a `Set-Cookie` of the upstream, once the proxy under
  `/et` has rewritten it, compared with the cookie that the upstream meant.
Trusted boundary: Remgr.Lib.SetCookie, Remgr.Console.Cookies
Main exports: Rescoped, Recognised, setCookie_read, rescoped_iff, spaced_domain_kept
-/
import Remgr.Lib.SetCookie
import Remgr.Proofs.ConsoleCookie

namespace Remgr.Console.Cookies

open Lib Lib.Text Lib.SetCookie

/-- The cookie after the rewriting stands to the one before as promised. -/
structure Rescoped (old new : Cookie) : Prop where
  name : new.name = old.name
  value : new.value = old.value
  path : last "path".toList new.attributes = some "/et".toList
  domain : domain new.attributes = []
  sameSite : (last "samesite".toList new.attributes).isSome
  others : ∀ name, name ≠ "path".toList → name ≠ "domain".toList → name ≠ "samesite".toList →
    last name new.attributes = last name old.attributes

/-- The parts that the proxy takes for a domain or a path. -/
def barred (part : List Char) : Bool :=
  "domain=".toList.isPrefixOf (lower part) || "path=".toList.isPrefixOf (lower part)

/-- The parts that the proxy takes for a `SameSite`. -/
def sameSite (part : List Char) : Bool := "samesite=".toList.isPrefixOf (lower part)

/-- The proxy's reading of a header's parts does not go wrong: it does not take the cookie itself for
an attribute, and it misses no domain for a blank. -/
structure Recognised (first : List Char) (rest : List (List Char)) : Prop where
  pair : barred first = true → (rest.find? fun part => !barred part).map pair = some (pair first)
  domain : domain (((first :: rest).filter fun part => !barred part).tail.map cookieAv) = []
  sameSite : sameSite first = true → ∃ part ∈ rest, (cookieAv part).1 = "samesite".toList

/-! ## The parts -/

def parts (raw : HeaderText) : List (List Char) := (split (· == ';') raw.chars).map trim

/-- The `SameSite` that is filled in where the proxy saw none. -/
def filled (parts : List (List Char)) : List (List Char) :=
  if parts.any sameSite then [] else ["SameSite=Lax".toList]

theorem parts_eq (raw : HeaderText) : parts raw = (split (· == ';') raw.chars).map (strip isBlank) :=
  List.map_congr_left fun _ inside =>
    trim_visible fun c here => raw.visible c (mem_of_mem_split inside here)

theorem read_eq_ofParts (raw : HeaderText) : read raw.chars = ofParts (parts raw) := by
  rw [SetCookie.read, ← ofParts_strip, parts_eq]

theorem mem_parts {raw : HeaderText} {part : List Char} (inside : part ∈ parts raw) :
    Trimmed isBlank part ∧ ∀ c ∈ part, c ≠ ';' := by
  rw [parts_eq] at inside
  obtain ⟨source, isPart, rfl⟩ := List.mem_map.mp inside
  refine ⟨strip_trimmed isBlank source, fun c here => ?_⟩
  have plain := plain_of_mem_split isPart c (mem_of_mem_strip here)
  exact ne_of_beq_false plain

theorem scopeCookieToEt_eq (raw : HeaderText) :
    scopeCookieToEt raw.chars = "; ".toList.intercalate
      ((parts raw).filter (fun part => !barred part) ++ filled (parts raw) ++ ["Path=/et".toList]) := by
  have keeps : (fun part : List Char => !barred part) = fun part =>
      !"domain=".toList.isPrefixOf (part.map Char.toLower) &&
        !"path=".toList.isPrefixOf (part.map Char.toLower) :=
    funext fun part => Bool.not_or ..
  unfold scopeCookieToEt filled
  rw [keeps]
  by_cases seen : (parts raw).any sameSite = true
  · have here := seen
    unfold parts sameSite lower at here
    simp only [here, seen, if_true, List.append_nil]
    rfl
  · have here := seen
    unfold parts sameSite lower at here
    simp only [here, seen]
    rfl

/-- What the browser reads after the rewriting. -/
theorem read_scope (raw : HeaderText) :
    read (scopeCookieToEt raw.chars) = ofParts
      ((parts raw).filter (fun part => !barred part) ++ filled (parts raw) ++ ["Path=/et".toList]) := by
  rw [scopeCookieToEt_eq]
  refine read_intercalate (by simp) fun part inside => ?_
  have plain : ∀ part ∈ ["SameSite=Lax".toList, "Path=/et".toList],
      Trimmed isBlank part ∧ ∀ c ∈ part, c ≠ ';' := by
    have clear : ∀ part ∈ ["SameSite=Lax".toList, "Path=/et".toList],
        Trimmed isBlank part ∧ ';' ∉ part := by decide
    exact fun part inside => ⟨(clear part inside).1,
      fun c here same => (clear part inside).2 (same ▸ here)⟩
  rcases List.mem_append.mp inside with inside | last
  · rcases List.mem_append.mp inside with kept | added
    · exact mem_parts (List.mem_of_mem_filter kept)
    · unfold filled at added
      split at added
      · cases added
      · exact plain part (List.mem_cons.mpr (.inl (List.mem_singleton.mp added)))
  · exact plain part (List.mem_cons_of_mem _ last)

/-- A header that the proxy can read goes on to the browser, rewritten. -/
theorem setCookie_read {value : HeaderValue} {raw : HeaderText} (read : value.toStr = some raw) :
    ∃ sent, setCookie value = some sent ∧ sent.chars = scopeCookieToEt raw.chars := by
  have visible : ∀ c ∈ scopeCookieToEt raw.chars, visibleChar c = true := by
    have plain : ∀ text ∈ ["; ".toList, "SameSite=Lax".toList, "Path=/et".toList],
        ∀ c ∈ text, visibleChar c = true := by
      simp only [← List.all_eq_true]
      decide
    intro c inside
    rw [scopeCookieToEt_eq] at inside
    rcases mem_intercalate inside with mark | ⟨part, isPart, here⟩
    · exact plain _ (by simp) c mark
    · rcases List.mem_append.mp isPart with isPart | last
      · rcases List.mem_append.mp isPart with kept | added
        · have own := List.mem_of_mem_filter kept
          rw [parts_eq] at own
          obtain ⟨source, isSource, rfl⟩ := List.mem_map.mp own
          exact raw.visible c (mem_of_mem_split isSource (mem_of_mem_strip here))
        · unfold filled at added
          split at added
          · cases added
          · have lax : part = "SameSite=Lax".toList := List.mem_singleton.mp added
            exact plain part (List.mem_cons_of_mem _ (List.mem_cons.mpr (.inl lax))) c here
      · exact plain part (List.mem_cons_of_mem _ (List.mem_cons_of_mem _ last)) c here
  obtain ⟨sent, made, chars⟩ := fromStr_visible visible
  exact ⟨sent, by rw [setCookie, read]; exact made, chars⟩

/-! ## Which parts are barred -/

theorem pair_of_barred {part : List Char} (out : barred part = true) :
    ∃ written value, SetCookie.pair part = some (written, value) ∧
      (lower written = "domain".toList ∨ lower written = "path".toList) := by
  rcases Bool.or_eq_true .. ▸ out with isDomain | isPath
  · obtain ⟨written, value, halves, named⟩ :=
      @pair_of_begins "domain".toList _ (by decide) (by decide) isDomain
    exact ⟨written, value, halves, .inl named⟩
  · obtain ⟨written, value, halves, named⟩ :=
      @pair_of_begins "path".toList _ (by decide) (by decide) isPath
    exact ⟨written, value, halves, .inr named⟩

theorem cookieAv_of_barred {part : List Char} (out : barred part = true) :
    (cookieAv part).1 = "domain".toList ∨ (cookieAv part).1 = "path".toList := by
  obtain ⟨written, value, halves, named⟩ := pair_of_barred out
  rw [cookieAv_of_pair halves]
  exact named

theorem cookieAv_of_sameSite {part : List Char} (seen : sameSite part = true) :
    (cookieAv part).1 = "samesite".toList := by
  obtain ⟨written, value, halves, named⟩ :=
    @pair_of_begins "samesite".toList _ (by decide) (by decide) seen
  rw [cookieAv_of_pair halves]
  exact named

theorem not_barred {part name : List Char} (named : (cookieAv part).1 = name)
    (notDomain : name ≠ "domain".toList) (notPath : name ≠ "path".toList) : barred part = false := by
  refine Bool.eq_false_iff.mpr fun out => ?_
  rcases cookieAv_of_barred out with isDomain | isPath
  · exact notDomain (named.symm.trans isDomain)
  · exact notPath (named.symm.trans isPath)

/-! ## The parts that are kept -/

/-- The cookie's own part, or the one that takes its place, leads the parts that are kept. -/
theorem exists_kept {first : List Char} {rest : List (List Char)}
    (leads : barred first = true →
      (rest.find? fun part => !barred part).map SetCookie.pair = some (SetCookie.pair first)) :
    ∃ next kept, (first :: rest).filter (fun part => !barred part) = next :: kept ∧
      SetCookie.pair next = SetCookie.pair first := by
  cases out : barred first with
  | false => exact ⟨first, _, List.filter_cons_of_pos (by simp [out]), rfl⟩
  | true =>
      obtain ⟨next, found, same⟩ := Option.map_eq_some_iff.mp (leads out)
      rw [List.filter_cons_of_neg (by simp [out])]
      rw [← List.head?_filter] at found
      obtain ⟨kept, whole⟩ := List.head?_eq_some_iff.mp found
      exact ⟨next, kept, whole, same⟩

/-- The leading part is kept, or the first one that is kept takes its place. -/
theorem kept_cases {first next : List Char} {rest kept : List (List Char)}
    (whole : (first :: rest).filter (fun part => !barred part) = next :: kept) :
    barred first = false ∧ (rest.filter fun part => !barred part) = kept ∨
      barred first = true ∧ (rest.filter fun part => !barred part) = next :: kept := by
  cases out : barred first with
  | false =>
      rw [List.filter_cons_of_pos (by simp [out])] at whole
      exact .inl ⟨rfl, (List.cons.inj whole).2⟩
  | true =>
      rw [List.filter_cons_of_neg (by simp [out])] at whole
      exact .inr ⟨rfl, whole⟩

/-- A part that is kept is the leading one or one of the others. -/
theorem mem_kept {first next part : List Char} {rest kept : List (List Char)}
    (whole : (first :: rest).filter (fun part => !barred part) = next :: kept)
    (inside : part ∈ rest) (open' : barred part = false) :
    part ∈ kept ∨ barred first = true ∧ part = next := by
  have isKept : part ∈ rest.filter fun part => !barred part :=
    List.mem_filter.mpr ⟨inside, by simp [open']⟩
  rcases kept_cases whole with ⟨-, others⟩ | ⟨out, others⟩
  · exact .inl (others ▸ isKept)
  · rw [others] at isKept
    rcases List.mem_cons.mp isKept with same | later
    · exact .inr ⟨out, same⟩
    · exact .inl later

/-- The other attributes are those of the cookie that the upstream meant. -/
theorem last_kept {first next : List Char} {rest kept : List (List Char)}
    (whole : (first :: rest).filter (fun part => !barred part) = next :: kept)
    (same : SetCookie.pair next = SetCookie.pair first) {name : List Char}
    (notPath : name ≠ "path".toList) (notDomain : name ≠ "domain".toList) :
    last name (kept.map cookieAv) = last name (rest.map cookieAv) := by
  have through : last name ((rest.filter fun part => !barred part).map cookieAv) =
      last name (rest.map cookieAv) :=
    last_filter fun part _ named => by simp [not_barred named notDomain notPath]
  rcases kept_cases whole with ⟨-, others⟩ | ⟨out, others⟩
  · rw [← others, through]
  · obtain ⟨written, value, halves, named⟩ := pair_of_barred out
    have different : (cookieAv next).1 ≠ name := by
      rw [cookieAv_of_pair (same.trans halves)]
      rintro rfl
      exact named.elim notDomain notPath
    rw [← through, others, List.map_cons, last_cons_of_ne different]

/-! ## The parts that are added -/

def added (parts : List (List Char)) : List (List Char × List Char) :=
  (filled parts ++ ["Path=/et".toList]).map cookieAv

theorem cookieAv_path : cookieAv "Path=/et".toList = ("path".toList, "/et".toList) := by decide

theorem cookieAv_lax : cookieAv "SameSite=Lax".toList = ("samesite".toList, "Lax".toList) := by decide

theorem mem_added {parts : List (List Char)} {found : List Char × List Char}
    (inside : found ∈ added parts) :
    parts.any sameSite = false ∧ found.1 = "samesite".toList ∨ found.1 = "path".toList := by
  obtain ⟨part, isPart, rfl⟩ := List.mem_map.mp inside
  rcases List.mem_append.mp isPart with lax | path
  · unfold filled at lax
    split at lax
    · cases lax
    · next unseen =>
        rw [List.mem_singleton.mp lax, cookieAv_lax]
        exact .inl ⟨Bool.eq_false_iff.mpr unseen, rfl⟩
  · rw [List.mem_singleton.mp path, cookieAv_path]
    exact .inr rfl

theorem last_path (attributes : List (List Char × List Char)) (parts : List (List Char)) :
    last "path".toList (attributes ++ added parts) = some "/et".toList := by
  rw [added, List.map_append, ← List.append_assoc, List.map_singleton, cookieAv_path, last,
    List.filter_append, List.filter_cons_of_pos (by decide), List.filter_nil, List.getLast?_concat]
  rfl

theorem domain_added (attributes : List (List Char × List Char)) (parts : List (List Char)) :
    domain (attributes ++ added parts) = domain attributes := by
  refine domain_append_of_ne fun found inside => ?_
  rcases mem_added inside with ⟨-, named⟩ | named <;> rw [named] <;> decide

theorem last_added {name : List Char} (attributes : List (List Char × List Char))
    (parts : List (List Char)) (notPath : name ≠ "path".toList)
    (notSameSite : name ≠ "samesite".toList) :
    last name (attributes ++ added parts) = last name attributes := by
  refine last_append_of_ne fun found inside => ?_
  rcases mem_added inside with ⟨-, named⟩ | named
  · exact fun same => notSameSite (same.symm.trans named)
  · exact fun same => notPath (same.symm.trans named)

theorem lax_mem_added {parts : List (List Char)} (unseen : parts.any sameSite = false) :
    ("samesite".toList, "Lax".toList) ∈ added parts := by
  rw [added, filled, unseen, ← cookieAv_lax]
  exact List.mem_map_of_mem List.mem_cons_self

/-! ## The law -/

theorem rescoped_of_recognised {first : List Char} {rest : List (List Char)} {name value : List Char}
    {next : List Char} {kept : List (List Char)} (recognised : Recognised first rest)
    (whole : (first :: rest).filter (fun part => !barred part) = next :: kept)
    (same : SetCookie.pair next = SetCookie.pair first) :
    Rescoped ⟨name, value, rest.map cookieAv⟩
      ⟨name, value, kept.map cookieAv ++ added (first :: rest)⟩ where
  name := rfl
  value := rfl
  path := last_path ..
  domain := by
    rw [domain_added]
    have absent := recognised.domain
    rwa [whole] at absent
  sameSite := by
    rw [last_isSome_iff]
    cases seen : (first :: rest).any sameSite with
    | false => exact ⟨_, List.mem_append_right _ (lax_mem_added seen), rfl⟩
    | true =>
        have meant : ∃ part ∈ rest, (cookieAv part).1 = "samesite".toList := by
          rw [List.any_cons, Bool.or_eq_true, List.any_eq_true] at seen
          rcases seen with isFirst | ⟨part, inside, isSameSite⟩
          · exact recognised.sameSite isFirst
          · exact ⟨part, inside, cookieAv_of_sameSite isSameSite⟩
        obtain ⟨part, inside, named⟩ := meant
        have open' := not_barred named (by decide) (by decide)
        rcases mem_kept whole inside open' with isKept | ⟨out, rfl⟩
        · exact ⟨cookieAv part, List.mem_append_left _ (List.mem_map_of_mem isKept), named⟩
        · -- the leading part is then a domain or a path
          obtain ⟨written, value, halves, isBarred⟩ := pair_of_barred out
          rw [cookieAv_of_pair (same.trans halves)] at named
          rcases isBarred with isDomain | isPath
          · exact absurd (isDomain.symm.trans named) (by decide)
          · exact absurd (isPath.symm.trans named) (by decide)
  others := by
    intro name notPath notDomain notSameSite
    rw [last_added _ _ notPath notSameSite]
    exact last_kept whole same notPath notDomain

/-- A cookie whose own part is taken for an attribute loses its name, unless another part writes the
same pair. -/
theorem leads_of_rescoped {first : List Char} {rest : List (List Char)} {old new : Cookie}
    (before : ofParts (first :: rest) = some old)
    (after : ofParts ((first :: rest).filter (fun part => !barred part) ++ filled (first :: rest) ++
      ["Path=/et".toList]) = some new) (rescoped : Rescoped old new) (out : barred first = true) :
    (rest.find? fun part => !barred part).map SetCookie.pair = some (SetCookie.pair first) := by
  obtain ⟨name, value, halves, -, rfl⟩ := ofParts_eq_some_iff.mp before
  obtain ⟨written, text, again, named⟩ := pair_of_barred out
  obtain ⟨rfl, rfl⟩ := Prod.mk.inj (Option.some.inj (halves.symm.trans again))
  rw [List.filter_cons_of_neg (by simp [out])] at after
  cases kept : rest.filter fun part => !barred part with
  | nil =>
      have unseen : (first :: rest).any sameSite = false := by
        refine List.any_eq_false.mpr fun part inside isSameSite => ?_
        have open' := not_barred (cookieAv_of_sameSite isSameSite) (by decide) (by decide)
        rcases List.mem_cons.mp inside with rfl | later
        · rw [out] at open'
          cases open'
        · exact absurd (List.filter_eq_nil_iff.mp kept part later) (by simp [open'])
      rw [kept, filled, unseen] at after
      obtain ⟨written, text, lax, -, rfl⟩ := ofParts_eq_some_iff.mp after
      have isLax : written = "SameSite".toList := by
        have pairLax : SetCookie.pair "SameSite=Lax".toList =
            some ("SameSite".toList, "Lax".toList) := by decide
        exact (Prod.mk.inj (Option.some.inj (lax.symm.trans pairLax))).1
      have sameName : written = name := rescoped.name
      rw [← sameName, isLax] at named
      rcases named with isDomain | isPath
      · exact absurd isDomain (by decide)
      · exact absurd isPath (by decide)
  | cons next others =>
      rw [kept] at after
      obtain ⟨written, text, pairNext, -, rfl⟩ := ofParts_eq_some_iff.mp after
      have found : (rest.find? fun part => !barred part) = some next := by
        rw [← List.head?_filter, kept]
        rfl
      have sameName : written = name := rescoped.name
      have sameValue : text = value := rescoped.value
      rw [found, Option.map_some, pairNext, halves, sameName, sameValue]

theorem ofParts_kept {first next name value : List Char} {rest kept : List (List Char)}
    (whole : (first :: rest).filter (fun part => !barred part) = next :: kept)
    (halves : SetCookie.pair next = some (name, value)) (nonempty : name ≠ []) :
    ofParts ((first :: rest).filter (fun part => !barred part) ++ filled (first :: rest) ++
      ["Path=/et".toList]) = some ⟨name, value, kept.map cookieAv ++ added (first :: rest)⟩ := by
  rw [whole, List.append_assoc, List.cons_append]
  refine ofParts_eq_some_iff.mpr ⟨name, value, halves, nonempty, ?_⟩
  rw [List.map_append, added]

theorem recognised_of_rescoped {first next : List Char} {rest kept : List (List Char)}
    {old : Cookie} {name value : List Char}
    (leads : barred first = true →
      (rest.find? fun part => !barred part).map SetCookie.pair = some (SetCookie.pair first))
    (whole : (first :: rest).filter (fun part => !barred part) = next :: kept)
    (rescoped : Rescoped old ⟨name, value, kept.map cookieAv ++ added (first :: rest)⟩) :
    Recognised first rest where
  pair := leads
  domain := by
    have absent := rescoped.domain
    rw [domain_added] at absent
    rwa [whole]
  sameSite := by
    intro isSameSite
    have open' := not_barred (cookieAv_of_sameSite isSameSite) (by decide) (by decide)
    rw [List.filter_cons_of_pos (by simp [open'])] at whole
    obtain ⟨found, inside, named⟩ := last_isSome_iff.mp rescoped.sameSite
    rcases List.mem_append.mp inside with isKept | isAdded
    · obtain ⟨part, isPart, rfl⟩ := List.mem_map.mp isKept
      rw [← (List.cons.inj whole).2] at isPart
      exact ⟨part, List.mem_of_mem_filter isPart, named⟩
    · rcases mem_added isAdded with ⟨unseen, -⟩ | isPath
      · rw [List.any_cons, isSameSite] at unseen
        cases unseen
      · exact absurd (isPath.symm.trans named) (by decide)

/-- A cookie that browsers ignore is ignored after the rewriting. -/
theorem ofParts_ignored {first : List Char} {rest : List (List Char)}
    (ignored : ofParts (first :: rest) = none) :
    ofParts ((first :: rest).filter (fun part => !barred part) ++ filled (first :: rest) ++
      ["Path=/et".toList]) = none := by
  have nameless := ofParts_eq_none_iff.mp ignored
  have open' : barred first = false := by
    refine Bool.eq_false_iff.mpr fun out => ?_
    obtain ⟨written, value, halves, named⟩ := pair_of_barred out
    rw [nameless written value halves] at named
    exact absurd named (by decide)
  rw [List.filter_cons_of_pos (by simp [open']), List.append_assoc, List.cons_append]
  exact ofParts_eq_none_iff.mpr nameless

/-- The browser stores the cookie as promised exactly when the upstream's header is one that browsers
ignore, or the proxy's reading of its parts does not go wrong. -/
theorem rescoped_iff (raw : HeaderText) :
    Option.Rel Rescoped (read raw.chars) (read (scopeCookieToEt raw.chars)) ↔
      read raw.chars = none ∨ ∃ first rest, parts raw = first :: rest ∧ Recognised first rest := by
  obtain ⟨first, rest, whole⟩ : ∃ first rest, parts raw = first :: rest :=
    List.exists_cons_of_ne_nil fun empty => split_ne_nil _ raw.chars (List.map_eq_nil_iff.mp empty)
  rw [read_scope, read_eq_ofParts, whole]
  constructor
  · intro related
    cases before : ofParts (first :: rest) with
    | none => exact .inl rfl
    | some old =>
        refine .inr ⟨first, rest, rfl, ?_⟩
        cases after : ofParts ((first :: rest).filter (fun part => !barred part) ++
            filled (first :: rest) ++ ["Path=/et".toList]) with
        | none =>
            rw [before, after] at related
            cases related
        | some new =>
            rw [before, after] at related
            cases related with
            | some rescoped =>
                have leads := leads_of_rescoped before after rescoped
                obtain ⟨next, kept, isKept, same⟩ := exists_kept leads
                obtain ⟨name, value, halves, nonempty, -⟩ := ofParts_eq_some_iff.mp before
                rw [ofParts_kept isKept (same.trans halves) nonempty] at after
                rw [← Option.some.inj after] at rescoped
                exact recognised_of_rescoped leads isKept rescoped
  · rintro (ignored | ⟨head, tail, isParts, recognised⟩)
    · rw [ignored, ofParts_ignored ignored]
      exact .none
    · obtain ⟨rfl, rfl⟩ := List.cons.inj isParts
      cases before : ofParts (first :: rest) with
      | none =>
          rw [ofParts_ignored before]
          exact .none
      | some old =>
          obtain ⟨next, kept, isKept, same⟩ := exists_kept recognised.pair
          obtain ⟨name, value, halves, nonempty, rfl⟩ := ofParts_eq_some_iff.mp before
          rw [ofParts_kept isKept (same.trans halves) nonempty]
          exact .some (rescoped_of_recognised recognised isKept same)

/-- `sid=1; Domain =example.org`: the blank keeps the domain in. -/
def spacedDomain : HeaderText where
  chars := "sid=1; Domain =example.org".toList
  visible := List.all_eq_true.mp (by decide +kernel)

theorem spaced_domain_kept :
    ¬ ∀ raw : HeaderText, Option.Rel Rescoped (read raw.chars) (read (scopeCookieToEt raw.chars)) := by
  intro law
  have kept : (read (scopeCookieToEt spacedDomain.chars)).map (domain ·.attributes) =
      some "example.org".toList := by decide +kernel
  have related := law spacedDomain
  cases after : read (scopeCookieToEt spacedDomain.chars) with
  | none =>
      rw [after] at kept
      cases kept
  | some new =>
      rw [after] at related kept
      cases related with
      | some rescoped =>
          rw [Option.map_some, rescoped.domain] at kept
          cases kept

end Remgr.Console.Cookies
