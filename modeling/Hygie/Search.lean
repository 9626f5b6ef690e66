/-
**The search boxes of the queue and of the ignored titles.**

Both lists are searched with `LIKE`.  The text of the user goes through `escape_like`, which puts
the escape character before every character that means something to `LIKE`, the escape character
first.  So a search finds the text itself, whatever wildcards it is made of.  SQLite reads a pattern
and a value up to a NUL, and it refuses a pattern of more than 50000 bytes: a search that begins
with a NUL lists every row.

Main definitions:

* `escapeLike`, `searchPattern` — the pattern of a search;
* `queueSearch`, `ignoredSearch` — the rows that a search lists.

Main results:

* `tokens_escapeLike` — every character of the text stands for itself in the pattern;
* `like_searchPattern_iff` — **a value matches the pattern if and only if it contains the text**, as
  long as the engine reads both as a whole and takes the pattern;
* `mem_queueSearch_iff`, `mem_ignoredSearch_iff` — what the two lists show.
-/

import Hygie.LikePatterns
import Hygie.Ignoring

set_option relaxedAutoImplicit false
set_option autoImplicit false

namespace Hygie

open Like PyText

/-- `LIKE_ESCAPE_CHAR`. -/
def likeEscapeChar : Char := '!'

/-- `escape_like`. -/
def escapeLike (text : String) : String :=
  replaceChar '_' (String.ofList [likeEscapeChar, '_'])
    (replaceChar '%' (String.ofList [likeEscapeChar, '%'])
      (replaceChar likeEscapeChar (String.ofList [likeEscapeChar, likeEscapeChar]) text))

/-- `f"%{escape_like(search)}%"`. -/
def searchPattern (text : String) : String := "%" ++ escapeLike text ++ "%"

/-- The dialect of SQLite: texts end at a NUL, and a pattern has 50000 bytes at most. -/
def sqliteLike (same : Char → Char → Bool) : Dialect where
  same := same
  nulEnds := true
  maxBytes := some 50000

/-- `column LIKE ? ESCAPE '!'`; a column that is `NULL` does not match. -/
def likeColumn (d : Dialect) (pattern : String) (column : Option String) : Bool :=
  column.any (d.holds likeEscapeChar pattern)

/-- The rows with a match; the statement fails as soon as there is a row, if the engine does not
take the pattern. -/
def searchRows {ρ : Type} (d : Dialect) (pattern : String) (columns : ρ → List (Option String))
    (rows : List ρ) : Option (List ρ) :=
  if d.takes pattern || rows.isEmpty then
    some (rows.filter fun row => (columns row).any (likeColumn d pattern))
  else none

/-- The rows that `list_queue` shows for a search; an empty text is no search. -/
def queueSearch (d : Dialect) (search : String) (rows : List QueueRow) : Option (List QueueRow) :=
  if search = "" then some rows
  else
    searchRows d (searchPattern search)
      (fun row => [some row.title, some row.libraryName, some row.seerrUsername]) rows

/-- The rows that `list_ignored` shows for a search. -/
def ignoredSearch (d : Dialect) (search : String) (rows : List IgnoredMedia) :
    Option (List IgnoredMedia) :=
  if search = "" then some rows
  else searchRows d (searchPattern search) (fun row => [some row.title, some row.reason]) rows

/-! ### The pattern of a search -/

/-- What the three replacements make of one character. -/
def escapeChar (c : Char) : List Char :=
  if c = '!' ∨ c = '%' ∨ c = '_' then ['!', c] else [c]

/-- The order of the replacements: an escape character that a later one adds is not doubled. -/
theorem toList_escapeLike (text : String) :
    (escapeLike text).toList = text.toList.flatMap escapeChar := by
  simp only [escapeLike, toList_replaceChar, List.flatMap_assoc, String.toList_ofList,
    likeEscapeChar]
  congr 1
  funext c
  by_cases hbang : c = '!'
  · subst hbang
    rfl
  by_cases hpercent : c = '%'
  · subst hpercent
    rfl
  by_cases hunder : c = '_'
  · subst hunder
    rfl
  simp [escapeChar, hbang, hpercent, hunder]

theorem tokens_escapeChar (c : Char) (p : List Char) :
    tokens '!' (escapeChar c ++ p) = (tokens '!' p).map (.char c :: ·) := by
  by_cases hspecial : c = '!' ∨ c = '%' ∨ c = '_'
  · rw [escapeChar, if_pos hspecial]
    exact tokens_escaped c p
  · obtain ⟨hbang, hpercent, hunder⟩ : c ≠ '!' ∧ c ≠ '%' ∧ c ≠ '_' := by
      simpa only [not_or] using hspecial
    rw [escapeChar, if_neg hspecial, List.singleton_append, tokens_cons hbang, if_neg hpercent,
      if_neg hunder]

/-- **Every character of the text stands for itself in the pattern.** -/
theorem tokens_escapeLike (text p : List Char) :
    tokens '!' (text.flatMap escapeChar ++ p) = (tokens '!' p).map (text.map .char ++ ·) := by
  induction text with
  | nil => simp
  | cons c text ih =>
      rw [List.flatMap_cons, List.append_assoc, tokens_escapeChar, ih, Option.map_map]
      rfl

theorem tokens_searchPattern (text : String) :
    tokens likeEscapeChar (searchPattern text).toList =
      some (.any :: text.toList.map .char ++ [.any]) := by
  have hlist : (searchPattern text).toList = '%' :: (text.toList.flatMap escapeChar ++ ['%']) := by
    rw [searchPattern, String.toList_append, String.toList_append, toList_escapeLike]
    rfl
  have hlast : tokens '!' ['%'] = some [.any] := rfl
  rw [hlist, likeEscapeChar, tokens_cons (by decide), tokens_escapeLike, hlast]
  rfl

/-! ### What a search finds -/

section Search

variable {d : Dialect} {text search value : String}

/-- The pattern adds nothing to a text but wildcards and escape characters. -/
theorem whole_searchPattern (h : d.Whole text) : d.Whole (searchPattern text) := by
  intro hends hmem
  simp only [searchPattern, String.toList_append, toList_escapeLike, List.mem_append,
    List.mem_flatMap] at hmem
  have hmark : nul ∉ ("%" : String).toList := by decide
  rcases hmem with (hfirst | ⟨c, hc, hnul⟩) | hlast
  · exact hmark hfirst
  · have hbang : nul ≠ '!' := by decide
    rw [escapeChar] at hnul
    split_ifs at hnul
    · rcases List.mem_cons.1 hnul with heq | hnul
      · exact hbang heq
      · exact h hends (List.mem_singleton.1 hnul ▸ hc)
    · exact h hends (List.mem_singleton.1 hnul ▸ hc)
  · exact hmark hlast

/-- **A value matches the pattern of a search if and only if it contains the text**, up to the
folding of the engine, where the engine reads the text and the value as a whole and takes the
pattern. -/
theorem like_searchPattern_iff (htext : d.Whole text) (hvalue : d.Whole value)
    (htakes : d.takes (searchPattern text) = true) :
    ∃ found, d.like likeEscapeChar (searchPattern text) value = some found ∧
      (found = true ↔ Contains d.same text value) := by
  refine ⟨_, (Dialect.like_eq_some_iff (whole_searchPattern htext) hvalue).2 ⟨htakes, rfl⟩, ?_⟩
  rw [tokens_searchPattern, Option.any_some]
  exact accepts_within

/-- SQLite, with both wildcards and the escape character in the text. -/
theorem like_searchPattern_iff_sqlite :
    ∃ found, (sqliteLike (· == ·)).like likeEscapeChar (searchPattern "50%_!") "a 50%_! cut" =
        some found ∧ (found = true ↔ Contains (· == ·) "50%_!" "a 50%_! cut") :=
  like_searchPattern_iff (d := sqliteLike (· == ·)) (fun _ => by decide) (fun _ => by decide)
    (by decide)

/-- On SQLite, a search for a NUL matches a value without one. -/
theorem not_like_searchPattern_nul :
    ¬ ∀ text value : String, ∃ found,
      (sqliteLike (· == ·)).like likeEscapeChar (searchPattern text) value = some found ∧
        (found = true ↔ Contains (· == ·) text value) := by
  intro hclaim
  obtain ⟨found, hfound, hiff⟩ := hclaim (String.ofList [nul]) "abc"
  have hmatches : (sqliteLike (· == ·)).like likeEscapeChar
      (searchPattern (String.ofList [nul])) "abc" = some true := by decide
  obtain rfl := Option.some.inj (hmatches.symm.trans hfound)
  have hpart := contains_eq_iff.1 (hiff.1 rfl)
  exact absurd (hpart.subset (List.mem_singleton_self nul)) (by decide)

theorem likeColumn_searchPattern_iff {column : Option String} (htext : d.Whole text)
    (hcolumn : ∀ value, column = some value → d.Whole value) :
    likeColumn d (searchPattern text) column = true ↔
      ∃ value, column = some value ∧ Contains d.same text value := by
  cases column with
  | none => simp [likeColumn]
  | some value =>
      rw [likeColumn, Option.any_some, Dialect.holds,
        Dialect.read_of_whole (whole_searchPattern htext),
        Dialect.read_of_whole (hcolumn value rfl), tokens_searchPattern, Option.any_some,
        accepts_within]
      constructor
      · exact fun h => ⟨value, rfl, h⟩
      · rintro ⟨_, heq, h⟩
        exact Option.some.inj heq ▸ h

/-- The empty text is in every value. -/
theorem contains_empty (same : Char → Char → Bool) (value : String) : Contains same "" value :=
  ⟨[], List.nil_infix, List.Forall₂.nil⟩

/-- The rows with a match, where the statement does not fail. -/
theorem mem_searchRows_iff {ρ : Type} {columns : ρ → List (Option String)} {rows found : List ρ}
    {row : ρ} (htext : d.Whole text)
    (hrows : ∀ row ∈ rows, ∀ value, some value ∈ columns row → d.Whole value)
    (hfound : searchRows d (searchPattern text) columns rows = some found) :
    row ∈ found ↔ row ∈ rows ∧ ∃ value, some value ∈ columns row ∧ Contains d.same text value := by
  rw [searchRows, Option.ite_none_right_eq_some, Option.some.injEq] at hfound
  obtain ⟨-, rfl⟩ := hfound
  rw [List.mem_filter, List.any_eq_true]
  refine and_congr_right fun hrow => ?_
  have hcolumn : ∀ column ∈ columns row, likeColumn d (searchPattern text) column = true ↔
      ∃ value, column = some value ∧ Contains d.same text value := fun column hmem =>
    likeColumn_searchPattern_iff htext fun value hvalue => hrows row hrow value (hvalue ▸ hmem)
  constructor
  · rintro ⟨column, hmem, hlike⟩
    obtain ⟨value, rfl, hcontains⟩ := (hcolumn column hmem).1 hlike
    exact ⟨value, hmem, hcontains⟩
  · rintro ⟨value, hmem, hcontains⟩
    exact ⟨some value, hmem, (hcolumn _ hmem).2 ⟨value, rfl, hcontains⟩⟩

/-- **What the queue shows for a search**: the rows with the text in the title, the name of the
library or the name of the requester. -/
theorem mem_queueSearch_iff {rows found : List QueueRow} {row : QueueRow} (hsearch : d.Whole search)
    (hrows : ∀ row ∈ rows, d.Whole row.title ∧ d.Whole row.libraryName ∧ d.Whole row.seerrUsername)
    (hfound : queueSearch d search rows = some found) :
    row ∈ found ↔ row ∈ rows ∧
      (Contains d.same search row.title ∨ Contains d.same search row.libraryName ∨
        Contains d.same search row.seerrUsername) := by
  rw [queueSearch] at hfound
  split_ifs at hfound with hempty
  · subst hempty
    obtain rfl := Option.some.inj hfound
    exact ⟨fun h => ⟨h, .inl (contains_empty d.same _)⟩, And.left⟩
  · rw [mem_searchRows_iff hsearch (fun row hrow value hvalue => ?_) hfound]
    · simp
    · obtain ⟨htitle, hlibrary, huser⟩ := hrows row hrow
      simp only [List.mem_cons, Option.some.injEq, List.not_mem_nil, or_false] at hvalue
      rcases hvalue with rfl | rfl | rfl
      · exact htitle
      · exact hlibrary
      · exact huser

/-- **What the list of the ignored titles shows for a search.** -/
theorem mem_ignoredSearch_iff {rows found : List IgnoredMedia} {row : IgnoredMedia}
    (hsearch : d.Whole search) (hrows : ∀ row ∈ rows, d.Whole row.title ∧ d.Whole row.reason)
    (hfound : ignoredSearch d search rows = some found) :
    row ∈ found ↔ row ∈ rows ∧
      (Contains d.same search row.title ∨ Contains d.same search row.reason) := by
  rw [ignoredSearch] at hfound
  split_ifs at hfound with hempty
  · subst hempty
    obtain rfl := Option.some.inj hfound
    exact ⟨fun h => ⟨h, .inl (contains_empty d.same _)⟩, And.left⟩
  · rw [mem_searchRows_iff hsearch (fun row hrow value hvalue => ?_) hfound]
    · simp
    · obtain ⟨htitle, hreason⟩ := hrows row hrow
      simp only [List.mem_cons, Option.some.injEq, List.not_mem_nil, or_false] at hvalue
      rcases hvalue with rfl | rfl
      · exact htitle
      · exact hreason

end Search

end Hygie
