/-
**The pages of the queue.**

`list_queue` filters the rows, sorts them by one column and returns one page, with the number of all
that it has found; the view of the queue asks for the pages one by one.  The statement sorts by that
column alone, so the engine may put rows with the same value in any order, and in another order for
the next page.

What an engine does with texts is an `Engine`: what `LIKE` makes of them, what counts as the same
text, and how the values of a column, `NULL` among them, are sorted.

Main definitions:

* `QueueQuery`, `QueueQuery.check` — the parameters, and what is refused;
* `sortColumn`, `Engine.found` — the column that is sorted by, and the rows that are found;
* `Engine.Lists` — what a request may be answered with.

Main results:

* `shown_once_iff` — **exactly when every title is on one page of the view**;
* `shown_once_of_distinct` — it is, where no two rows have the same value.
-/

import Hygie.Pages
import Hygie.Search

set_option relaxedAutoImplicit false
set_option autoImplicit false

namespace Hygie

/-! ### The request -/

/-- The text of a status. -/
def Status.text : Status → String
  | pending => "pending"
  | deleting => "deleting"
  | deleted => "deleted"
  | error => "error"

/-- The parameters of `list_queue`. -/
structure QueueQuery where
  limit : ℤ := 50
  offset : ℤ := 0
  status : Option String := none
  search : Option String := none
  libraryId : Option String := none
  sort : String := "delete_at"
  dir : String := "asc"

/-- `_VALID_STATUSES`. -/
def validStatuses : List String := ["pending", "deleted", "error"]

/-- Why a request is refused, with the status 422. -/
inductive QueueRefusal
  /-- By the bounds of the parameters. -/
  | outOfBounds
  | status (detail : String)
  deriving DecidableEq, Repr

def QueueQuery.check (q : QueueQuery) : Except QueueRefusal Unit :=
  if q.limit < 1 ∨ 10000 < q.limit ∨ q.offset < 0 then .error .outOfBounds
  else
    match truthyText q.status with
    | some status =>
        if status ∈ validStatuses then .ok ()
        else .error (.status ("status invalide : doit être l\x27un de [\x27deleted\x27, " ++
          "\x27error\x27, \x27pending\x27]"))
    | none => .ok ()

/-- `_SORT_MAP`. -/
def sortMap : List (String × (QueueRow → Option String)) :=
  [("title", fun row => row.title),
    ("library_name", fun row => row.libraryName),
    ("library_id", fun row => row.libraryId),
    ("media_type", fun row => row.mediaType),
    ("delete_at", fun row => row.deleteAt),
    ("detected_at", fun row => row.detectedAt),
    ("added_date", fun row => row.addedDate),
    ("last_played", fun row => row.lastPlayed),
    ("status", fun row => row.status.text),
    ("seerr_username", fun row => row.seerrUsername)]

/-- The column that the rows are sorted by. -/
def sortColumn (sort : String) : QueueRow → Option String :=
  (sortMap.lookup sort).getD fun row => row.deleteAt

/-! ### The answer -/

/-- What an engine does with texts. -/
structure Engine where
  /-- What `LIKE` makes of texts. -/
  dialect : Like.Dialect
  /-- `=` takes the texts for the same. -/
  textEq : String → String → Bool
  /-- `ORDER BY` may put the first before the second. -/
  le : Option String → Option String → Bool
  le_total : ∀ a b, le a b = true ∨ le b a = true
  le_trans : ∀ a b c, le a b = true → le b c = true → le a c = true

namespace Engine

variable (e : Engine)

/-- A filter of the request, where it is given. -/
def filtered (wanted : Option String) (value : String) : Bool :=
  (truthyText wanted).all fun text => e.textEq value text

/-- The rows that the clause `WHERE` leaves; nothing where it fails. -/
def search (q : QueueQuery) (rows : List QueueRow) : Option (List QueueRow) :=
  queueSearch e.dialect (q.search.getD "") (rows.filter fun row =>
    e.filtered q.status row.status.text && e.filtered q.libraryId row.libraryId)

/-- The rows that are found. -/
def found (q : QueueQuery) (rows : List QueueRow) : List QueueRow := (e.search q rows).getD []

/-- One row may come before another one. -/
def Before (q : QueueQuery) (a b : QueueRow) : Prop :=
  -- only the letters of `desc` have these four in lower case
  if q.dir.toLower = "desc" then e.le (sortColumn q.sort b) (sortColumn q.sort a) = true
  else e.le (sortColumn q.sort a) (sortColumn q.sort b) = true

/-- **What a request may be answered with**: the items, and the number of all that were found. -/
def Lists (q : QueueQuery) (rows items : List QueueRow) (total : ℕ) : Prop :=
  q.check = .ok () ∧ (e.search q rows).isSome = true ∧ total = (e.found q rows).length ∧
    ∃ l, Pages.Arranges (e.Before q) (e.found q rows) l ∧
      items = (l.drop q.offset.toNat).take q.limit.toNat

variable {e} {q : QueueQuery} {rows : List QueueRow}

theorem before_total (a b : QueueRow) : e.Before q a b ∨ e.Before q b a := by
  unfold Before
  split_ifs
  · exact e.le_total _ _
  · exact e.le_total _ _

theorem before_trans (a b c : QueueRow) (hab : e.Before q a b) (hbc : e.Before q b c) :
    e.Before q a c := by
  unfold Before at *
  split_ifs at *
  · exact e.le_trans _ _ _ hbc hab
  · exact e.le_trans _ _ _ hab hbc

end Engine

/-! ### The view of the queue -/

section View

variable {e : Engine} {q : QueueQuery} {rows : List QueueRow} {n : ℕ}

/-- `Math.ceil(total / perPage)`. -/
def totalPages (total perPage : ℕ) : ℕ := (total + perPage - 1) / perPage

theorem le_totalPages {total : ℕ} (hn : 0 < n) : total ≤ totalPages total n * n := by
  have hdiv := Nat.div_add_mod (total + n - 1) n
  have hmod := Nat.mod_lt (total + n - 1) hn
  rw [Nat.mul_comm] at hdiv
  unfold totalPages
  omega

/-- The request for one page of the view. -/
def QueueQuery.atPage (q : QueueQuery) (i : ℕ) : QueueQuery :=
  { q with offset := (i * q.limit.toNat : ℕ) }

theorem inBounds_of_check (hcheck : q.check = .ok ()) :
    ¬ (q.limit < 1 ∨ 10000 < q.limit ∨ q.offset < 0) := by
  intro hbad
  rw [QueueQuery.check, if_pos hbad] at hcheck
  cases hcheck

/-- Another page is not refused. -/
theorem check_atPage (hcheck : q.check = .ok ()) (i : ℕ) : (q.atPage i).check = .ok () := by
  have hbounds := inBounds_of_check hcheck
  have hbounds' : ¬ ((q.atPage i).limit < 1 ∨ 10000 < (q.atPage i).limit ∨
      (q.atPage i).offset < 0) := by
    simp only [QueueQuery.atPage]
    omega
  rw [QueueQuery.check, if_neg hbounds] at hcheck
  rw [QueueQuery.check, if_neg hbounds']
  exact hcheck

theorem limit_pos (hcheck : q.check = .ok ()) : 0 < q.limit.toNat := by
  have hbounds := inBounds_of_check hcheck
  omega

theorem sublist_of_search {found : List QueueRow} (h : e.search q rows = some found) :
    found.Sublist rows := by
  rw [Engine.search, queueSearch] at h
  split_ifs at h
  · exact Option.some.inj h ▸ List.filter_sublist
  · rw [searchRows, Option.ite_none_right_eq_some, Option.some.injEq] at h
    exact h.2 ▸ List.filter_sublist.trans List.filter_sublist

theorem found_sublist : (e.found q rows).Sublist rows := by
  rw [Engine.found]
  cases h : e.search q rows with
  | none => exact List.nil_sublist rows
  | some found => exact sublist_of_search h

/-- What the view can show on its pages. -/
def Shows (e : Engine) (q : QueueQuery) (rows : List QueueRow) (shown : ℕ → List QueueRow) : Prop :=
  ∀ i, ∃ total, e.Lists (q.atPage i) rows (shown i) total

theorem shows_iff {shown : ℕ → List QueueRow} (hcheck : q.check = .ok ())
    (hsearch : (e.search q rows).isSome = true) :
    Shows e q rows shown ↔ ∃ arrange : ℕ → List QueueRow,
      (∀ i, Pages.Arranges (e.Before q) (e.found q rows) (arrange i)) ∧
        shown = fun i => Pages.page q.limit.toNat i (arrange i) := by
  constructor
  · intro hshows
    have hpage : ∀ i, ∃ l, Pages.Arranges (e.Before q) (e.found q rows) l ∧
        shown i = Pages.page q.limit.toNat i l := by
      intro i
      obtain ⟨_, -, -, -, l, hl, hitems⟩ := hshows i
      exact ⟨l, hl, hitems⟩
    choose arrange harrange hshown using hpage
    exact ⟨arrange, harrange, funext hshown⟩
  · rintro ⟨arrange, harrange, rfl⟩ i
    exact ⟨_, check_atPage hcheck i, hsearch, rfl, arrange i, harrange i, rfl⟩

/-- **Exactly when every title is on one page of the view**: no two rows with the same value of the
column are on either side of the end of a page. -/
theorem shown_once_iff (hcheck : q.check = .ok ()) (hids : (rows.map (·.id)).Nodup) :
    (∀ shown, Shows e q rows shown →
        ((List.range (totalPages (e.found q rows).length q.limit.toNat)).flatMap shown).Perm
          (e.found q rows)) ↔
      ∀ l, Pages.Arranges (e.Before q) (e.found q rows) l →
        ∀ i, ¬ Pages.Ties (e.Before q) l ((i + 1) * q.limit.toNat - 1) := by
  have hpos := limit_pos hcheck
  have hnodup : (e.found q rows).Nodup := (List.Nodup.of_map _ hids).sublist found_sublist
  by_cases hsearch : (e.search q rows).isSome = true
  case neg =>
    -- the statement fails: nothing is shown, and no row is found
    have hfound : e.found q rows = [] := by
      rw [Engine.found, Option.not_isSome_iff_eq_none.1 hsearch, Option.getD_none]
    refine iff_of_true (fun shown hshows => ?_) fun l hl i => ?_
    · obtain ⟨_, -, hanswered, -⟩ := hshows 0
      exact absurd hanswered hsearch
    · obtain rfl : l = [] := List.perm_nil.1 (hfound ▸ hl.perm)
      rintro ⟨x, y, hx, -⟩
      cases hx
  rw [← Pages.pages_perm_iff Engine.before_total Engine.before_trans hpos hnodup
    (le_totalPages hpos)]
  constructor
  · intro honce arrange harrange
    exact honce _ ((shows_iff hcheck hsearch).2 ⟨arrange, harrange, rfl⟩)
  · intro honce shown hshows
    obtain ⟨arrange, harrange, rfl⟩ := (shows_iff hcheck hsearch).1 hshows
    exact honce arrange harrange

/-- Where no two rows have the same value, every title is on one page. -/
theorem shown_once_of_distinct (hcheck : q.check = .ok ()) (hids : (rows.map (·.id)).Nodup)
    (hdistinct : ∀ a b, a ∈ e.found q rows → b ∈ e.found q rows → e.Before q a b →
      e.Before q b a → a = b) {shown : ℕ → List QueueRow} (hshows : Shows e q rows shown) :
    ((List.range (totalPages (e.found q rows).length q.limit.toNat)).flatMap shown).Perm
      (e.found q rows) := by
  refine (shown_once_iff hcheck hids).2 ?_ shown hshows
  rintro l hl i ⟨x, y, hx, hy, htie⟩
  obtain ⟨hlt, rfl⟩ := List.getElem?_eq_some_iff.1 hx
  obtain ⟨hlt', rfl⟩ := List.getElem?_eq_some_iff.1 hy
  have hsorted := List.pairwise_iff_getElem.1 hl.sorted _ _ hlt hlt' (Nat.lt_succ_self _)
  have hsame := hdistinct _ _ (hl.perm.mem_iff.1 (List.getElem_mem hlt))
    (hl.perm.mem_iff.1 (List.getElem_mem hlt')) hsorted htie
  have hnodup : l.Nodup := hl.perm.nodup_iff.2 ((List.Nodup.of_map _ hids).sublist found_sublist)
  have hindex := (List.Nodup.getElem_inj_iff hnodup).1 hsame
  omega

/-- Texts that are compared character by character. -/
def sampleEngine : Engine where
  dialect := sqliteLike (· == ·)
  textEq := (· == ·)
  le a b := decide (a.getD "" ≤ b.getD "")
  le_total a b := by
    simp only [decide_eq_true_eq]
    exact String.le_total _ _
  le_trans a b c hab hbc := by
    simp only [decide_eq_true_eq] at *
    exact String.le_trans hab hbc

/-- Two titles that are due at the same moment. -/
def samplePair : List QueueRow :=
  [{ id := 1, embyId := "1", title := "Alien", mediaType := "Movie", libraryId := "movies"
     libraryName := "Movies", filePath := "/movies/Alien.mkv", detectedAt := "2025-01-01T00:00:00"
     deleteAt := "2025-02-01T00:00:00" },
    { id := 2, embyId := "2", title := "Brazil", mediaType := "Movie", libraryId := "movies"
      libraryName := "Movies", filePath := "/movies/Brazil.mkv", detectedAt := "2025-01-01T00:00:00"
      deleteAt := "2025-02-01T00:00:00" }]

def sampleQuery : QueueQuery := { limit := 1 }

theorem before_samplePair {a b : QueueRow} (ha : a.deleteAt = "2025-02-01T00:00:00")
    (hb : b.deleteAt = "2025-02-01T00:00:00") : sampleEngine.Before sampleQuery a b := by
  have hdir : ¬ sampleQuery.dir.toLower = "desc" := by decide +kernel
  have hcolumn : ∀ row : QueueRow, sortColumn sampleQuery.sort row = some row.deleteAt :=
    fun _ => rfl
  rw [Engine.Before, if_neg hdir, hcolumn, hcolumn, ha, hb]
  exact (sampleEngine.le_total _ _).elim id id

/-- With one title on a page, the same one may be on both pages. -/
theorem shown_once_iff_tied :
    ¬ ∀ shown, Shows sampleEngine sampleQuery samplePair shown →
      ((List.range (totalPages (sampleEngine.found sampleQuery samplePair).length
        sampleQuery.limit.toNat)).flatMap shown).Perm
          (sampleEngine.found sampleQuery samplePair) := by
  intro honce
  have hties := (shown_once_iff rfl (by decide)).1 honce samplePair
  refine hties ⟨.refl _, ?_⟩ 0 ⟨_, _, rfl, rfl, before_samplePair rfl rfl⟩
  exact List.pairwise_pair.2 (before_samplePair rfl rfl)

end View

end Hygie
