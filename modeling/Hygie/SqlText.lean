/-
**SQL texts for MariaDB.**

The application writes its statements for SQLite.  `DbConn._q` translates them: a statement that
begins with `INSERT OR REPLACE` or `INSERT OR IGNORE` gets the words of MariaDB, percent signs are
doubled for the formatting that the driver does, and every question mark outside a literal becomes
`%s`.  A regular expression finds the literals.  In it a backslash takes any character with it
except a line break, so that a literal with a backslash before a line break is not recognised: its
own question marks are taken for placeholders, and its closing quote for an opening one.

Main definitions:

* `literalEnd`, `placeholders` — what `_Q_RE` finds;
* `rewritten`, `translate` — the translation of a statement;
* `rewriteOf` — the documented change of the beginning of a statement, and what it appends;
* `Exact` — the driver sends the text with its arguments in place;
* `Aligned` — where a literal is not recognised, no question mark is mistaken.

Main results:

* `substitute_double` — **the passes over percent signs and question marks compose**;
* `rewritten_eq` — the rewriting changes the beginning and appends a clause;
* `rewritten_insertOrReplace` — what becomes of an `INSERT OR REPLACE INTO` statement;
* `exact_iff` — **exactly when the translation is exact**;
* `aligned_of_unbroken` — in particular, where no backslash stands before a line break.
-/

import Hygie.Placeholders
import Hygie.PyText
import Mathlib.Data.Bool.AllAny

set_option relaxedAutoImplicit false
set_option autoImplicit false

namespace Hygie

open Placeholders PyText

/-! ### Literals and question marks -/

/-- How many characters `_Q_RE` takes to the end of a literal, after its opening quote: it is the
pattern `(?:[^q\\]|\\.)*q`, where the dot is any character but a line break. -/
def literalEnd (quote : Char) : List Char → Option ℕ
  | [] => none
  | [c] => if c = quote then some 1 else none
  | c :: d :: s =>
      if c = quote then some 1
      else if c = '\\' then
        if d = '\n' then none else (literalEnd quote s).map (· + 2)
      else (literalEnd quote (d :: s)).map (· + 1)

/-- The text as `_Q_RE` reads it, after the characters that a match has taken: a quote that opens
no literal is a character like any other. -/
def placeholders : ℕ → List Char → List (Option Char)
  | _, [] => []
  | taken + 1, c :: s => some c :: placeholders taken s
  | 0, c :: s =>
      if isQuote c then some c :: placeholders ((literalEnd c s).getD 0) s
      else markOf c :: placeholders 0 s

/-- `_Q_RE.sub(lambda m: "%s" if m.group(1) else m.group(0), sql)`. -/
def substitute (s : List Char) : List Char :=
  (placeholders 0 s).flatMap fun
    | none => ['%', 's']
    | some c => [c]

/-- `sql.replace("%", "%%")`. -/
def double (s : List Char) : List Char := s.flatMap fun c => if c = '%' then ['%', '%'] else [c]

/-! ### The beginning of a statement -/

section Rewriting

variable (word : Char → Bool)

/-- `\w`; which characters outside ASCII are alphanumeric is a parameter. -/
def isWord (c : Char) : Bool := c.isAlphanum || c == '_' || (127 < c.toNat && word c)

/-- A letter of a keyword, with `re.IGNORECASE`: the dotless and the dotted i, and the long s,
count as letters there. -/
def sameLetter (k c : Char) : Bool :=
  c.toUpper == k || (k == 'I' && (c.toNat == 0x130 || c.toNat == 0x131)) ||
    (k == 'S' && c.toNat == 0x17f)

/-- What follows a keyword. -/
def keyword : List Char → List Char → Option (List Char)
  | [], s => some s
  | _ :: _, [] => none
  | k :: ks, c :: s => if sameLetter k c then keyword ks s else none

/-- What follows white space, `\s+`. -/
def spaces (s : List Char) : Option (List Char) :=
  if s.head?.any isSpace then some (s.dropWhile isSpace) else none

/-- `\b` after a letter. -/
def wordEnds (s : List Char) : Bool := !s.head?.any (isWord word)

/-- What follows the keywords, with white space between them. -/
def phrase : List String → List Char → Option (List Char)
  | [], s => some s
  | [k], s => (keyword k.toList s).filter (wordEnds word)
  | k :: ks, s => (keyword k.toList s).bind fun s => (spaces s).bind fun s => phrase ks s

/-- What follows the keywords at the beginning of a statement, `^\s*…\b`. -/
def leading (ks : List String) (s : List Char) : Option (List Char) :=
  phrase word ks (s.dropWhile isSpace)

/-- `_OR_REPLACE_RE.sub("REPLACE INTO", sql)`. -/
def subOrReplace (s : List Char) : List Char :=
  match leading word ["INSERT", "OR", "REPLACE", "INTO"] s with
  | some rest => "REPLACE INTO".toList ++ rest
  | none => s

/-- `_OR_IGNORE_RE.sub("INSERT IGNORE INTO", sql)`. -/
def subOrIgnore (s : List Char) : List Char :=
  match leading word ["INSERT", "OR", "IGNORE", "INTO"] s with
  | some rest => "INSERT IGNORE INTO".toList ++ rest
  | none => s

/-- A match of `_REPLACE_INTO_RE`: the white space before the keyword, all that follows the
keyword, and the text between the parentheses. -/
structure ReplaceInto where
  space : List Char
  after : List Char
  cols : List Char

/-- An optional backtick. -/
def dropTick : List Char → List Char
  | [] => []
  | c :: s => if c = '\x60' then s else c :: s

/-- `_REPLACE_INTO_RE.match(sql)`, after the table's name. -/
def matchColumns (s : List Char) : Option (List Char) :=
  match s with
  | [] => none
  | c :: s =>
      let cols := s.takeWhile (· ≠ ')')
      -- `(`, some characters that are no `)`, `)`, `\s*VALUES\b`
      if c = '(' ∧ cols ≠ [] then
        match s.dropWhile (· ≠ ')') with
        | [] => none
        | _ :: rest => (leading word ["VALUES"] rest).map fun _ => cols
      else none

/-- `_REPLACE_INTO_RE.match(sql)`. -/
def matchReplaceInto (s : List Char) : Option ReplaceInto :=
  (keyword "REPLACE".toList (s.dropWhile isSpace)).bind fun after =>
    (spaces after).bind fun s' => (keyword "INTO".toList s').bind fun s' =>
      (spaces s').bind fun s' =>
        let name := dropTick s'
        if name.head?.any (isWord word) then
          (matchColumns word
              ((dropTick (name.dropWhile (isWord word))).dropWhile isSpace)).map fun cols =>
            { space := s.takeWhile isSpace, after := after, cols := cols }
        else none

/-- `cols_str.split(",")`, every column stripped. -/
def columnsOf (cols : List Char) : List (List Char) :=
  (cols.splitOn ',').map fun c => rstripList isSpace (c.dropWhile isSpace)

/-- `", ".join(f"{c}=VALUES({c})" for c in cols)`. -/
def updateClause (cols : List (List Char)) : List Char :=
  List.intercalate ", ".toList
    (cols.map fun c => c ++ "=VALUES(".toList ++ c ++ ")".toList)

/-- What `_replace_into_upsert` appends, if it changes the statement. -/
def clauseOf (m : ReplaceInto) : Option (List Char) :=
  let cols := columnsOf m.cols
  if cols.length < 2 then none
  else some (" ON DUPLICATE KEY UPDATE ".toList ++ updateClause cols.tail)

/-- `_replace_into_upsert`.  The groups of the match and the suffix are the statement itself, in
which the keyword is replaced. -/
def replaceIntoUpsert (s : List Char) : List Char :=
  match matchReplaceInto word s with
  | none => s
  | some m =>
      match clauseOf m with
      | none => s
      | some clause => m.space ++ "INSERT".toList ++ m.after ++ clause

/-- The statement after the three rewritings. -/
def rewritten (s : List Char) : List Char :=
  replaceIntoUpsert word (subOrIgnore word (subOrReplace word s))

/-- `DbConn._q`. -/
def translate (mariadb : Bool) (sql : String) : String :=
  if mariadb then String.ofList (substitute (double (rewritten word sql.toList))) else sql

/-! ### The documented rewriting -/

/-- A new beginning in place of some characters, and a clause at the end. -/
structure Rewrite where
  head : List Char
  dropped : ℕ
  clause : List Char

/-- The text with its new beginning and the clause. -/
def Rewrite.apply {α : Type} (r : Rewrite) (f : Char → α) (s : List α) : List α :=
  r.head.map f ++ s.drop r.dropped ++ r.clause.map f

/-- The clause that goes with a `REPLACE INTO` statement. -/
def upsertClause (s : List Char) : Option (List Char) := (matchReplaceInto word s).bind clauseOf

/-- **The documented rewriting**: `INSERT OR REPLACE INTO` and `REPLACE INTO` become an
`INSERT INTO` with an update clause where there are two columns, and `INSERT OR IGNORE INTO`
becomes `INSERT IGNORE INTO`. -/
def rewriteOf (s : List Char) : Rewrite :=
  match leading word ["INSERT", "OR", "REPLACE", "INTO"] s with
  | some rest =>
      match upsertClause word ("REPLACE INTO".toList ++ rest) with
      | some clause =>
          { head := "INSERT INTO".toList, dropped := s.length - rest.length, clause := clause }
      | none =>
          { head := "REPLACE INTO".toList, dropped := s.length - rest.length, clause := [] }
  | none =>
      match leading word ["INSERT", "OR", "IGNORE", "INTO"] s with
      | some rest =>
          { head := "INSERT IGNORE INTO".toList, dropped := s.length - rest.length, clause := [] }
      | none =>
          match upsertClause word s with
          | some clause =>
              let space := s.takeWhile isSpace
              { head := space ++ "INSERT".toList, dropped := space.length + 7, clause := clause }
          | none => { head := [], dropped := 0, clause := [] }

end Rewriting

/-! ### The passes over percent signs and question marks -/

section Scan

variable {quote c : Char} {s : List Char}

theorem literalEnd_quote (s : List Char) : literalEnd quote (quote :: s) = some 1 := by
  cases s with
  | nil => rw [literalEnd, if_pos rfl]
  | cons d s => rw [literalEnd, if_pos rfl]

theorem literalEnd_cons (hquote : c ≠ quote) (hslash : c ≠ '\\') (s : List Char) :
    literalEnd quote (c :: s) = (literalEnd quote s).map (· + 1) := by
  cases s with
  | nil =>
      unfold literalEnd
      rw [if_neg hquote]
      rfl
  | cons d s => rw [literalEnd, if_neg hquote, if_neg hslash]

theorem literalEnd_escaped (hslash : quote ≠ '\\') (hbreak : c ≠ '\n') (s : List Char) :
    literalEnd quote ('\\' :: c :: s) = (literalEnd quote s).map (· + 2) := by
  rw [literalEnd, if_neg (Ne.symm hslash), if_pos rfl, if_neg hbreak]

theorem ne_of_isQuote (h : isQuote c = true) : c ≠ '\\' ∧ c ≠ '%' ∧ c ≠ '?' := by
  refine ⟨?_, ?_, ?_⟩ <;> rintro rfl <;> exact absurd h (by decide)

theorem double_cons (c : Char) (s : List Char) :
    double (c :: s) = (if c = '%' then ['%', '%'] else [c]) ++ double s := List.flatMap_cons

theorem double_cons_of_ne (h : c ≠ '%') (s : List Char) : double (c :: s) = c :: double s := by
  rw [double_cons, if_neg h, List.singleton_append]

theorem double_percent (s : List Char) : double ('%' :: s) = '%' :: '%' :: double s := rfl

/-- A literal with doubled percent signs ends where the literal ends, so many characters later. -/
theorem literalEnd_double (hquote : isQuote quote = true) (s : List Char) :
    literalEnd quote (double s) =
      (literalEnd quote s).map fun n => n + (s.take n).count '%' := by
  obtain ⟨hslash, hpercent, -⟩ := ne_of_isQuote hquote
  -- neither a quote nor a backslash is a percent sign, so only plain characters are doubled
  fun_induction literalEnd quote s with
  | case1 => rfl
  | case2 =>
      rw [double_cons_of_ne hpercent, literalEnd_quote]
      simp [hpercent]
  | case3 c hc =>
      by_cases hp : c = '%'
      · subst hp
        rw [double_percent, literalEnd_cons hc (by decide), literalEnd_cons hc (by decide)]
        rfl
      · rw [double_cons_of_ne hp]
        change literalEnd quote [c] = none
        unfold literalEnd
        rw [if_neg hc]
  | case4 d s =>
      rw [double_cons_of_ne hpercent, literalEnd_quote]
      simp [hpercent]
  | case5 s hc =>
      rw [double_cons_of_ne (by decide), double_cons_of_ne (by decide), literalEnd,
        if_neg hc, if_pos rfl, if_pos rfl]
      rfl
  | case6 d s hd hc ih =>
      rw [double_cons_of_ne (by decide)]
      -- the backslash escapes the first of the two signs, and the second one is plain
      by_cases hp : d = '%'
      · subst hp
        rw [double_percent, literalEnd_escaped hslash (by decide),
          literalEnd_cons (Ne.symm hpercent) (by decide), ih, Option.map_map, Option.map_map,
          Option.map_map]
        congr 1
        funext n
        simp only [Function.comp_apply, List.take_succ_cons, List.count_cons]
        simp
        omega
      · rw [double_cons_of_ne hp, literalEnd_escaped hslash hd, ih, Option.map_map,
          Option.map_map]
        congr 1
        funext n
        simp only [Function.comp_apply, List.take_succ_cons, List.count_cons]
        simp [hp]
        omega
  | case7 c d s hc hcs ih =>
      by_cases hp : c = '%'
      · subst hp
        rw [double_percent, literalEnd_cons hc hcs, literalEnd_cons hc hcs, ih, Option.map_map,
          Option.map_map, Option.map_map]
        congr 1
        funext n
        simp only [Function.comp_apply, List.take_succ_cons, List.count_cons]
        simp
        omega
      · rw [double_cons_of_ne hp, literalEnd_cons hc hcs, ih, Option.map_map, Option.map_map]
        congr 1
        funext n
        simp only [Function.comp_apply, List.take_succ_cons, List.count_cons]
        simp [hp]
        omega

/-- A text with placeholders, its percent signs doubled. -/
def doubleMarks (m : List (Option Char)) : List (Option Char) :=
  m.flatMap fun o => if o = some '%' then [o, o] else [o]

theorem doubleMarks_cons (o : Option Char) (m : List (Option Char)) :
    doubleMarks (o :: m) = (if o = some '%' then [o, o] else [o]) ++ doubleMarks m :=
  List.flatMap_cons

/-- Doubling the percent signs moves no placeholder. -/
theorem placeholders_double (n : ℕ) (s : List Char) :
    placeholders (n + (s.take n).count '%') (double s) = doubleMarks (placeholders n s) := by
  induction s generalizing n with
  | nil => cases n <;> rfl
  | cons c s ih =>
      by_cases hp : c = '%'
      · subst hp
        rw [double_percent]
        cases n with
        | zero =>
            -- outside literals, and not taken by a match
            have hzero := ih 0
            rw [List.take_zero, List.count_nil, Nat.add_zero] at hzero
            have hquote : isQuote '%' = false := by decide
            have hmark : markOf '%' = some '%' := by decide
            simp only [List.take_zero, List.count_nil, Nat.add_zero, placeholders, hquote, hmark,
              Bool.false_eq_true, if_false, hzero, doubleMarks_cons, if_true]
            rfl
        | succ n =>
            have hcount : n + 1 + ((('%' :: s).take (n + 1)).count '%') =
                (n + (s.take n).count '%') + 1 + 1 := by
              rw [List.take_succ_cons, List.count_cons_self]
              omega
            rw [hcount, placeholders, placeholders, placeholders, ih, doubleMarks_cons,
              if_pos rfl]
            rfl
      · have hsome : some c ≠ some '%' := fun h => hp (Option.some.inj h)
        rw [double_cons_of_ne hp]
        cases n with
        | zero =>
            rw [List.take_zero, List.count_nil, Nat.add_zero, placeholders, placeholders]
            split
            next hquote =>
              rw [literalEnd_double hquote, doubleMarks_cons, if_neg hsome, ← ih]
              cases literalEnd c s with
              | none => simp
              | some n => rfl
            next hquote =>
              have hzero := ih 0
              rw [List.take_zero, List.count_nil, Nat.add_zero] at hzero
              have hmark : markOf c ≠ some '%' := by
                unfold markOf
                split
                · nofun
                · exact hsome
              rw [hzero, doubleMarks_cons, if_neg hmark, List.singleton_append]
        | succ n =>
            have hcount : n + 1 + (((c :: s).take (n + 1)).count '%') =
                (n + (s.take n).count '%') + 1 := by
              rw [List.take_succ_cons, List.count_cons_of_ne hp]
              omega
            rw [hcount, placeholders, placeholders, ih, doubleMarks_cons, if_neg hsome]
            rfl

/-- **The passes over percent signs and question marks compose**: they make the format of the text
with the placeholders that the pattern finds. -/
theorem substitute_double (s : List Char) :
    substitute (double s) = toFormat (placeholders 0 s) := by
  have hdouble := placeholders_double 0 s
  rw [List.take_zero, List.count_nil, Nat.add_zero] at hdouble
  rw [substitute, hdouble, doubleMarks, List.flatMap_assoc, toFormat]
  congr 1
  funext o
  cases o with
  | none => rfl
  | some c =>
      by_cases hp : c = '%'
      · subst hp
        rfl
      · rw [if_neg fun h => hp (Option.some.inj h), formatOf, if_neg hp]
        rfl

end Scan

/-! ### The rewriting -/

/-- A character that opens no literal and is no placeholder. -/
def isInert (c : Char) : Bool := !isQuote c && c != '?'

section Inert

variable {word : Char → Bool} {k c : Char} {s rest : List Char}

theorem ne_of_isInert (h : isInert c = true) : isQuote c = false ∧ c ≠ '?' := by
  simpa [isInert] using h

theorem isInert_of_isSpace (h : isSpace c = true) : isInert c = true := by
  by_contra hnot
  have hcases : c = '\x27' ∨ c = '\x22' ∨ c = '?' := by
    simpa [isInert, isQuote, or_assoc, imp_iff_not_or] using hnot
  rcases hcases with rfl | rfl | rfl <;> exact absurd h (by decide)

/-- What counts as a letter of a keyword is inert. -/
theorem isInert_of_sameLetter (hk : isInert k = true) (h : sameLetter k c = true) :
    isInert c = true := by
  by_contra hnot
  have hcases : c = '\x27' ∨ c = '\x22' ∨ c = '?' := by
    simpa [isInert, isQuote, or_assoc, imp_iff_not_or] using hnot
  have hupper : c.toUpper = k := by
    rcases hcases with rfl | rfl | rfl <;> simpa [sameLetter] using h
  rcases hcases with rfl | rfl | rfl <;> exact absurd (hupper ▸ hk) (by decide)

theorem keyword_eq_some {ks : List Char} (hks : ks.all isInert = true)
    (h : keyword ks s = some rest) :
    ∃ a, s = a ++ rest ∧ a.length = ks.length ∧ a.all isInert = true := by
  induction ks generalizing s with
  | nil => exact ⟨[], Option.some.inj h, rfl, rfl⟩
  | cons k ks ih =>
      rw [List.all_cons, Bool.and_eq_true] at hks
      cases s with
      | nil => cases h
      | cons c s =>
          rw [keyword] at h
          split at h
          next hc =>
            obtain ⟨a, rfl, hlen, ha⟩ := ih hks.2 h
            refine ⟨c :: a, rfl, by simp [hlen], ?_⟩
            rw [List.all_cons, ha, isInert_of_sameLetter hks.1 hc]
            rfl
          next => cases h

theorem all_takeWhile_isSpace (s : List Char) : (s.takeWhile isSpace).all isInert = true := by
  rw [List.all_eq_true]
  intro c hc
  exact isInert_of_isSpace (List.all_eq_true.1 (List.all_takeWhile (p := isSpace)) c hc)

theorem spaces_eq_some (h : spaces s = some rest) :
    ∃ a, s = a ++ rest ∧ a.all isInert = true := by
  unfold spaces at h
  split at h
  · cases h
    exact ⟨s.takeWhile isSpace, List.takeWhile_append_dropWhile.symm, all_takeWhile_isSpace s⟩
  · cases h

theorem phrase_eq_some {ks : List String} (hks : ∀ k ∈ ks, k.toList.all isInert = true)
    (h : phrase word ks s = some rest) : ∃ a, s = a ++ rest ∧ a.all isInert = true := by
  fun_induction phrase word ks s with
  | case1 s => exact ⟨[], Option.some.inj h, rfl⟩
  | case2 k s =>
      obtain ⟨hkey, -⟩ := Option.filter_eq_some_iff.1 h
      obtain ⟨a, hs, -, ha⟩ := keyword_eq_some (hks k (List.mem_singleton_self k)) hkey
      exact ⟨a, hs, ha⟩
  | case3 k ks hne s ih =>
      obtain ⟨s', hkey, h'⟩ := Option.bind_eq_some_iff.1 h
      obtain ⟨s'', hspaces, h''⟩ := Option.bind_eq_some_iff.1 h'
      obtain ⟨a, rfl, -, ha⟩ := keyword_eq_some (hks k List.mem_cons_self) hkey
      obtain ⟨b, rfl, hb⟩ := spaces_eq_some hspaces
      obtain ⟨d, rfl, hd⟩ := ih s'' (fun k hk => hks k (List.mem_cons_of_mem _ hk)) h''
      refine ⟨a ++ (b ++ d), by simp only [List.append_assoc], ?_⟩
      rw [List.all_append, List.all_append, ha, hb, hd]
      rfl

/-- What a match takes from the beginning of a statement opens no literal and holds no
placeholder. -/
theorem leading_eq_some {ks : List String} (hks : ∀ k ∈ ks, k.toList.all isInert = true)
    (h : leading word ks s = some rest) : ∃ a, s = a ++ rest ∧ a.all isInert = true := by
  obtain ⟨a, ha, hinert⟩ := phrase_eq_some hks h
  refine ⟨s.takeWhile isSpace ++ a, ?_, ?_⟩
  · rw [List.append_assoc, ← ha, List.takeWhile_append_dropWhile]
  · rw [List.all_append, hinert, all_takeWhile_isSpace]
    rfl

/-- A match of `_REPLACE_INTO_RE` is the white space, the keyword, and what follows it. -/
theorem matchReplaceInto_eq_some {m : ReplaceInto} (h : matchReplaceInto word s = some m) :
    m.space = s.takeWhile isSpace ∧
      ∃ a, s = m.space ++ a ++ m.after ∧ a.length = 7 ∧ a.all isInert = true := by
  obtain ⟨after, hkey, h⟩ := Option.bind_eq_some_iff.1 h
  obtain ⟨s₁, -, h⟩ := Option.bind_eq_some_iff.1 h
  obtain ⟨s₂, -, h⟩ := Option.bind_eq_some_iff.1 h
  obtain ⟨s₃, -, h⟩ := Option.bind_eq_some_iff.1 h
  simp only [Option.ite_none_right_eq_some, Option.map_eq_some_iff] at h
  obtain ⟨-, cols, -, rfl⟩ := h
  obtain ⟨a, ha, hlen, hinert⟩ := keyword_eq_some (by decide) hkey
  refine ⟨rfl, a, ?_, hlen, hinert⟩
  rw [List.append_assoc, ← ha, List.takeWhile_append_dropWhile]

theorem replaceIntoUpsert_eq (s : List Char) :
    replaceIntoUpsert word s = match upsertClause word s with
      | some clause => s.takeWhile isSpace ++ "INSERT".toList ++
          s.drop ((s.takeWhile isSpace).length + 7) ++ clause
      | none => s := by
  unfold replaceIntoUpsert upsertClause
  cases hm : matchReplaceInto word s with
  | none => rfl
  | some m =>
      obtain ⟨hspace, a, hs, hlen, -⟩ := matchReplaceInto_eq_some hm
      rw [Option.bind_some]
      change (match clauseOf m with
        | none => s
        | some clause => m.space ++ "INSERT".toList ++ m.after ++ clause) = _
      cases clauseOf m with
      | none => rfl
      | some clause =>
          have hafter : m.after = s.drop ((s.takeWhile isSpace).length + 7) := by
            rw [← hspace, ← hlen, ← List.length_append]
            conv_rhs => rw [hs]
            exact List.drop_left.symm
          simp only [hspace, hafter]

end Inert

section Rewritten

variable (word : Char → Bool)

theorem drop_of_append {a s rest : List Char} (h : s = a ++ rest) :
    s.drop (s.length - rest.length) = rest ∧ s.take (s.length - rest.length) = a := by
  subst h
  rw [List.length_append, Nat.add_sub_cancel]
  exact ⟨List.drop_left, List.take_left⟩

/-- **The rewriting changes the beginning of a statement and appends a clause.** -/
theorem rewritten_eq (s : List Char) : rewritten word s = (rewriteOf word s).apply id s := by
  unfold rewritten rewriteOf subOrReplace Rewrite.apply
  cases hreplace : leading word ["INSERT", "OR", "REPLACE", "INTO"] s with
  | some rest =>
      obtain ⟨a, hs, -⟩ := leading_eq_some (by decide) hreplace
      have hignore : subOrIgnore word ("REPLACE INTO".toList ++ rest) =
          "REPLACE INTO".toList ++ rest := rfl
      have hspace : ("REPLACE INTO".toList ++ rest).takeWhile isSpace = [] := rfl
      have hdrop : ("REPLACE INTO".toList ++ rest).drop 7 = " INTO".toList ++ rest := rfl
      simp only [hignore, replaceIntoUpsert_eq, hspace, List.length_nil, Nat.zero_add, hdrop]
      cases upsertClause word ("REPLACE INTO".toList ++ rest) with
      | some clause =>
          simp only [(drop_of_append hs).1, List.map_id]
          rfl
      | none => simp only [(drop_of_append hs).1, List.map_id, List.append_nil]
  | none =>
      unfold subOrIgnore
      cases hignore : leading word ["INSERT", "OR", "IGNORE", "INTO"] s with
      | some rest =>
          obtain ⟨a, hs, -⟩ := leading_eq_some (by decide) hignore
          have hupsert : upsertClause word ("INSERT IGNORE INTO".toList ++ rest) = none := rfl
          simp only [replaceIntoUpsert_eq, hupsert, (drop_of_append hs).1, List.map_id,
            List.append_nil]
      | none =>
          simp only [replaceIntoUpsert_eq]
          cases upsertClause word s with
          | some clause => simp only [List.map_id]
          | none => simp

/-- The new beginning, and what it stands in place of, open no literal and hold no placeholder. -/
theorem isInert_rewriteOf (s : List Char) :
    (rewriteOf word s).head.all isInert = true ∧
      (s.take (rewriteOf word s).dropped).all isInert = true := by
  unfold rewriteOf
  cases hreplace : leading word ["INSERT", "OR", "REPLACE", "INTO"] s with
  | some rest =>
      obtain ⟨a, hs, ha⟩ := leading_eq_some (by decide) hreplace
      have htake := (drop_of_append hs).2
      dsimp only
      cases upsertClause word ("REPLACE INTO".toList ++ rest) with
      | some clause =>
          refine ⟨(by decide : "INSERT INTO".toList.all isInert = true), ?_⟩
          exact htake.symm ▸ ha
      | none =>
          refine ⟨(by decide : "REPLACE INTO".toList.all isInert = true), ?_⟩
          exact htake.symm ▸ ha
  | none =>
      dsimp only
      cases hignore : leading word ["INSERT", "OR", "IGNORE", "INTO"] s with
      | some rest =>
          obtain ⟨a, hs, ha⟩ := leading_eq_some (by decide) hignore
          have htake := (drop_of_append hs).2
          refine ⟨(by decide : "INSERT IGNORE INTO".toList.all isInert = true), ?_⟩
          exact htake.symm ▸ ha
      | none =>
          dsimp only
          cases hupsert : upsertClause word s with
          | none => exact ⟨rfl, rfl⟩
          | some clause =>
              obtain ⟨m, hm, -⟩ := Option.bind_eq_some_iff.1 hupsert
              obtain ⟨hspace, a, hs, hlen, ha⟩ := matchReplaceInto_eq_some hm
              have htake : s.take ((s.takeWhile isSpace).length + 7) = m.space ++ a := by
                rw [← hspace, ← hlen, ← List.length_append]
                conv_lhs => rw [hs]
                exact List.take_left
              have hinsert : "INSERT".toList.all isInert = true := by decide
              simp only [htake, List.all_append, ha, hspace, all_takeWhile_isSpace, Bool.and_true,
                true_and, hinsert]

end Rewritten

section InsertOrReplace

variable {word : Char → Bool} {name space cols rest : List Char}

theorem dropWhile_append_of_all {p : Char → Bool} {a b : List Char} (ha : a.all p = true)
    (hb : b.head?.any p = false) : (a ++ b).dropWhile p = b := by
  rw [List.dropWhile_append_of_pos (List.all_eq_true.1 ha)]
  cases b with
  | nil => rfl
  | cons c b =>
      have hc : p c = false := hb
      rw [List.dropWhile_cons, hc]
      rfl

/-- The columns of a statement are what stands between its parentheses. -/
theorem matchColumns_eq (hne : cols ≠ []) (hcols : ∀ c ∈ cols, c ≠ ')')
    (hvalues : (leading word ["VALUES"] rest).isSome = true) :
    matchColumns word ('(' :: (cols ++ ')' :: rest)) = some cols := by
  have hall : ∀ c ∈ cols, (decide (c ≠ ')')) = true := fun c hc => decide_eq_true (hcols c hc)
  have htake : (cols ++ ')' :: rest).takeWhile (· ≠ ')') = cols := by
    rw [List.takeWhile_append_of_pos hall]
    simp
  have hdrop : (cols ++ ')' :: rest).dropWhile (· ≠ ')') = ')' :: rest := by
    rw [List.dropWhile_append_of_pos hall]
    simp
  obtain ⟨s, hs⟩ := Option.isSome_iff_exists.1 hvalues
  simp only [matchColumns, htake, hdrop, hs, Option.map_some]
  rw [if_pos ⟨trivial, hne⟩]

/-- **What becomes of an `INSERT OR REPLACE INTO` statement** with at least two columns. -/
theorem rewritten_insertOrReplace (hname : name ≠ [])
    (hword : name.all (fun c => isWord word c && !isSpace c) = true)
    (hspace : space.all (fun c => isSpace c && !isWord word c) = true)
    (hcols : ∀ c ∈ cols, c ≠ ')') (hvalues : (leading word ["VALUES"] rest).isSome = true)
    (htwo : 2 ≤ (columnsOf cols).length) :
    rewritten word ("INSERT OR REPLACE INTO ".toList ++
        (name ++ (space ++ '(' :: (cols ++ ')' :: rest)))) =
      "INSERT INTO ".toList ++ (name ++ (space ++ '(' :: (cols ++ ')' :: rest))) ++
        (" ON DUPLICATE KEY UPDATE ".toList ++ updateClause (columnsOf cols).tail) := by
  have hne : cols ≠ [] := by
    rintro rfl
    exact absurd htwo (by decide)
  have hmatch := matchColumns_eq hne hcols hvalues
  obtain ⟨n, ns, rfl⟩ := List.exists_cons_of_ne_nil hname
  simp only [List.all_eq_true, Bool.and_eq_true, Bool.not_eq_true'] at hword hspace
  obtain ⟨hn, hnSpace⟩ := hword n List.mem_cons_self
  have htick : n ≠ '\x60' := by
    rintro rfl
    exact absurd hn Bool.false_ne_true
  -- the matcher skips blanks, an optional backtick and the name; none of them stops it early
  generalize htail : '(' :: (cols ++ ')' :: rest) = tail at hmatch ⊢
  have hopen : tail.head?.any isSpace = false ∧ tail.head?.any (isWord word) = false ∧
      dropTick tail = tail := by
    subst htail
    exact ⟨rfl, rfl, rfl⟩
  have hhead : (space ++ tail).head?.any (isWord word) = false ∧
      dropTick (space ++ tail) = space ++ tail := by
    cases space with
    | nil => exact hopen.2
    | cons c space =>
        obtain ⟨hc, hcWord⟩ := hspace c List.mem_cons_self
        have hcTick : c ≠ '\x60' := by
          rintro rfl
          exact absurd hc Bool.false_ne_true
        refine ⟨hcWord, ?_⟩
        rw [List.cons_append, dropTick, if_neg hcTick]
  have hspaces : (space ++ tail).dropWhile isSpace = tail :=
    dropWhile_append_of_all (List.all_eq_true.2 fun c hc => (hspace c hc).1) hopen.1
  have hafter : (n :: ns ++ (space ++ tail)).dropWhile (isWord word) = space ++ tail :=
    dropWhile_append_of_all (List.all_eq_true.2 fun c hc => (hword c hc).1) hhead.1
  have hstart : (n :: ns ++ (space ++ tail)).dropWhile isSpace = n :: ns ++ (space ++ tail) := by
    rw [List.cons_append, List.dropWhile_cons, hnSpace]
    rfl
  have hdropTick : dropTick (n :: ns ++ (space ++ tail)) = n :: ns ++ (space ++ tail) := by
    rw [List.cons_append, dropTick, if_neg htick]
  generalize hstatement : n :: ns ++ (space ++ tail) = statement at hafter hstart hdropTick ⊢
  have hfirst : statement.head?.any (isWord word) = true := by
    subst hstatement
    exact hn
  have hspacesOf : spaces (' ' :: statement) = some statement := by
    change some (statement.dropWhile isSpace) = _
    rw [hstart]
  -- what is left after `INSERT OR` is a `REPLACE INTO` statement with the same columns
  have hreplace : matchReplaceInto word ("REPLACE INTO".toList ++ ' ' :: statement) =
      some { space := [], after := " INTO ".toList ++ statement, cols := cols } := by
    change ((spaces (' ' :: statement)).bind fun s' =>
      let name := dropTick s'
      if name.head?.any (isWord word) then
        (matchColumns word
            ((dropTick (name.dropWhile (isWord word))).dropWhile isSpace)).map fun cols =>
          ReplaceInto.mk [] (" INTO ".toList ++ statement) cols
      else none) = _
    rw [hspacesOf, Option.bind_some]
    simp only [hdropTick, hfirst, if_true, hafter, hhead.2, hspaces, hmatch, Option.map_some]
  have hclause : upsertClause word ("REPLACE INTO".toList ++ ' ' :: statement) =
      some (" ON DUPLICATE KEY UPDATE ".toList ++ updateClause (columnsOf cols).tail) := by
    rw [upsertClause, hreplace, Option.bind_some, clauseOf, if_neg (Nat.not_lt.2 htwo)]
  have hleading : leading word ["INSERT", "OR", "REPLACE", "INTO"]
      ("INSERT OR REPLACE INTO ".toList ++ statement) = some (' ' :: statement) := rfl
  have hblank : "INSERT OR REPLACE INTO ".toList ++ statement =
      "INSERT OR REPLACE INTO".toList ++ ' ' :: statement := by
    rw [List.append_cons]
    exact congrArg (· ++ statement) (by decide)
  have hdropped : ("INSERT OR REPLACE INTO ".toList ++ statement).drop
      (("INSERT OR REPLACE INTO ".toList ++ statement).length - (' ' :: statement).length) =
      ' ' :: statement := (drop_of_append hblank).1
  rw [rewritten_eq, rewriteOf, hleading]
  simp only [hclause, Rewrite.apply, hdropped, List.map_id]
  rfl

end InsertOrReplace

/-! ### Exactness -/

theorem plain_placeholders (n : ℕ) (s : List Char) : plain (placeholders n s) = s := by
  induction s generalizing n with
  | nil => cases n <;> rfl
  | cons c s ih =>
      cases n with
      | succ n =>
          rw [placeholders]
          exact congrArg (c :: ·) (ih n)
      | zero =>
          rw [placeholders]
          split
          · exact congrArg (c :: ·) (ih _)
          · have hmark : (markOf c).getD '?' = c := by
              by_cases hc : c = '?' <;> simp [markOf, hc]
            change (markOf c).getD '?' :: plain (placeholders 0 s) = _
            rw [hmark, ih]

/-- The pattern reads on after characters that mean nothing to it. -/
theorem placeholders_inert {a : List Char} (ha : a.all isInert = true) (s : List Char) :
    placeholders 0 (a ++ s) = a.map some ++ placeholders 0 s := by
  induction a with
  | nil => rfl
  | cons c a ih =>
      rw [List.all_cons, Bool.and_eq_true] at ha
      obtain ⟨hquote, hne⟩ := ne_of_isInert ha.1
      rw [List.cons_append, placeholders, hquote, if_neg Bool.false_ne_true, markOf, if_neg hne,
        ih ha.2]
      rfl

/-- The pattern reads what stands outside quotes as it is. -/
theorem placeholders_plain {a : List Char} (ha : ∀ c ∈ a, isQuote c = false) (s : List Char) :
    placeholders 0 (a ++ s) = a.map markOf ++ placeholders 0 s := by
  induction a with
  | nil => rfl
  | cons c a ih =>
      rw [List.cons_append, placeholders, ha c List.mem_cons_self, if_neg Bool.false_ne_true,
        ih fun d hd => ha d (List.mem_cons_of_mem c hd)]
      rfl

/-- A literal with a backslash before a line break. -/
def Broken (l : Literal) : Prop := Piece.escaped '\n' ∈ l.body

instance (l : Literal) : Decidable (Broken l) :=
  inferInstanceAs (Decidable (Piece.escaped '\n' ∈ l.body))

/-- The placeholders of a text in segments are the ones the pattern finds, where it recognises the
literals; from the first literal that it does not recognise on, it happens to find them. -/
def Aligned (clause : List Char) : List Segment → Prop
  | [] => placeholders 0 clause = clause.map some
  | .plain _ _ :: segments => Aligned clause segments
  | .literal l :: segments =>
      if Broken l then
        placeholders 0 (l.text ++ textOf segments ++ clause) =
          l.text.map some ++ marksOf segments ++ clause.map some
      else Aligned clause segments

/-- **The translation is exact**: with one argument for each placeholder, the driver sends the
rewritten text with the arguments in its placeholders and every other character unchanged. -/
def Exact (word : Char → Bool) (segments : List Segment) : Prop :=
  ∀ args : List (List Char), args.length = holes (marksOf segments) →
    expand (translate word true (String.ofList (textOf segments))).toList args =
      fill ((rewriteOf word (textOf segments)).apply some (marksOf segments)) args

/-- The rest of a literal without a backslash before a line break is recognised, with what
follows. -/
theorem placeholders_body {quote : Char} (hquote : isQuote quote = true) {body : List Piece}
    (hfits : ∀ p ∈ body, p.Fits quote) (hbreak : Piece.escaped '\n' ∉ body) (s : List Char) :
    ∃ n, literalEnd quote (body.flatMap (·.text quote) ++ quote :: s) = some n ∧
      placeholders n (body.flatMap (·.text quote) ++ quote :: s) =
        (body.flatMap (·.text quote) ++ [quote]).map some ++ placeholders 0 s := by
  obtain ⟨hslash, -, -⟩ := ne_of_isQuote hquote
  induction body with
  | nil => exact ⟨1, literalEnd_quote s, rfl⟩
  | cons p body ih =>
      obtain ⟨n, hend, hmarks⟩ := ih (fun p hp => hfits p (List.mem_cons_of_mem _ hp))
        fun h => hbreak (List.mem_cons_of_mem _ h)
      simp only [List.flatMap_cons, List.append_assoc]
      cases p with
      | char c =>
          obtain ⟨hne, hc⟩ := hfits _ List.mem_cons_self
          simp only [Piece.text_char, List.cons_append, List.nil_append]
          refine ⟨n + 1, ?_, ?_⟩
          · rw [literalEnd_cons hne hc, hend, Option.map_some]
          · rw [placeholders, hmarks, List.map_cons, List.cons_append]
      | escaped c =>
          have hc : c ≠ '\n' := fun h => hbreak (h ▸ List.mem_cons_self)
          simp only [Piece.text_escaped, List.cons_append, List.nil_append]
          refine ⟨n + 2, ?_, ?_⟩
          · rw [literalEnd_escaped hslash hc, hend, Option.map_some]
          · rw [placeholders, placeholders, hmarks, List.map_cons, List.map_cons,
              List.cons_append, List.cons_append]
      | doubled =>
          -- the match ends at the first of the two quotes, and the second opens the next one
          simp only [Piece.text_doubled, List.cons_append, List.nil_append]
          refine ⟨1, literalEnd_quote _, ?_⟩
          rw [placeholders, placeholders, hquote, if_pos rfl, hend, Option.getD_some, hmarks,
            List.map_cons, List.map_cons, List.cons_append, List.cons_append]

theorem placeholders_literal {l : Literal} (h : ¬ Broken l) (s : List Char) :
    placeholders 0 (l.text ++ s) = l.text.map some ++ placeholders 0 s := by
  obtain ⟨n, hend, hmarks⟩ := placeholders_body l.isQuote_quote l.fits h s
  rw [Literal.text, List.cons_append, List.append_assoc, List.singleton_append, placeholders,
    l.isQuote_quote, if_pos rfl, hend, Option.getD_some, hmarks]
  rfl

theorem placeholders_iff_aligned (clause : List Char) (segments : List Segment) :
    placeholders 0 (textOf segments ++ clause) = marksOf segments ++ clause.map some ↔
      Aligned clause segments := by
  induction segments with
  | nil => exact Iff.rfl
  | cons segment segments ih =>
      rw [textOf_cons, marksOf_cons, List.append_assoc, List.append_assoc]
      cases segment with
      | plain s h =>
          change placeholders 0 (s ++ (textOf segments ++ clause)) =
            s.map markOf ++ (marksOf segments ++ clause.map some) ↔ _
          rw [placeholders_plain h, List.append_cancel_left_eq]
          exact ih
      | literal l =>
          change placeholders 0 (l.text ++ (textOf segments ++ clause)) =
            l.text.map some ++ (marksOf segments ++ clause.map some) ↔ _
          unfold Aligned
          split
          next => rw [List.append_assoc, List.append_assoc]
          next hl =>
            rw [placeholders_literal hl, List.append_cancel_left_eq]
            exact ih

theorem eq_map_some_of_isInert {m : List (Option Char)} (h : (plain m).all isInert = true) :
    m = (plain m).map some := by
  induction m with
  | nil => rfl
  | cons o m ih =>
      simp only [plain, List.map_cons, List.all_cons, Bool.and_eq_true] at h
      cases o with
      | none => exact absurd h.1 (by decide)
      | some c =>
          conv_lhs => rw [ih h.2]
          rfl

/-- Only the literals and the clause matter: the beginning opens no literal. -/
theorem placeholders_apply_iff {r : Rewrite} {m : List (Option Char)}
    (hhead : r.head.all isInert = true) (htake : ((plain m).take r.dropped).all isInert = true) :
    placeholders 0 (r.apply id (plain m)) = r.apply some m ↔
      placeholders 0 (plain m ++ r.clause) = m ++ r.clause.map some := by
  have hplain : plain (m.take r.dropped) = (plain m).take r.dropped := by
    simp only [plain, List.map_take]
  have hm : m.take r.dropped = ((plain m).take r.dropped).map some := by
    rw [← hplain]
    exact eq_map_some_of_isInert (hplain.symm ▸ htake)
  have hleft : placeholders 0 (r.apply id (plain m)) =
      r.head.map some ++ placeholders 0 ((plain m).drop r.dropped ++ r.clause) := by
    rw [Rewrite.apply, List.map_id, List.map_id, List.append_assoc, placeholders_inert hhead]
  have hright : placeholders 0 (plain m ++ r.clause) =
      ((plain m).take r.dropped).map some ++
        placeholders 0 ((plain m).drop r.dropped ++ r.clause) := by
    rw [← placeholders_inert htake, ← List.append_assoc, List.take_append_drop]
  have hmarks : m ++ r.clause.map some =
      ((plain m).take r.dropped).map some ++ (m.drop r.dropped ++ r.clause.map some) := by
    rw [← hm, ← List.append_assoc, List.take_append_drop]
  rw [hleft, hright, hmarks, Rewrite.apply, List.append_assoc, List.append_cancel_left_eq,
    List.append_cancel_left_eq]

theorem holes_apply {r : Rewrite} {m : List (Option Char)}
    (htake : ((plain m).take r.dropped).all isInert = true) :
    holes (r.apply some m) = holes m := by
  have hplain : plain (m.take r.dropped) = (plain m).take r.dropped := by
    simp only [plain, List.map_take]
  have hm : m.take r.dropped = ((plain m).take r.dropped).map some := by
    rw [← hplain]
    exact eq_map_some_of_isInert (hplain.symm ▸ htake)
  have hsome : ∀ s : List Char, (s.map some).count none = 0 := by
    intro s
    exact List.count_eq_zero.2 (by simp)
  unfold holes Rewrite.apply
  conv_rhs => rw [← List.take_append_drop r.dropped m, hm]
  simp only [List.count_append, hsome, Nat.zero_add, Nat.add_zero]

/-- **Exactly when the translation is exact**: the pattern recognises the literals, up to the
first one with a backslash before a line break, and from there on it must happen to find the
placeholders. -/
theorem exact_iff (word : Char → Bool) (segments : List Segment) :
    Exact word segments ↔ Aligned (rewriteOf word (textOf segments)).clause segments := by
  obtain ⟨hhead, htake⟩ := isInert_rewriteOf word (textOf segments)
  have hformat : (translate word true (String.ofList (textOf segments))).toList =
      toFormat (placeholders 0
        ((rewriteOf word (textOf segments)).apply id (textOf segments))) := by
    rw [translate, if_pos rfl, String.toList_ofList, String.toList_ofList, substitute_double,
      rewritten_eq]
  simp only [Exact, hformat, expand_toFormat]
  clear hformat
  generalize rewriteOf word (textOf segments) = r at hhead htake
  have hplain : plain (placeholders 0 (r.apply id (textOf segments))) =
      plain (r.apply some (marksOf segments)) := by
    rw [plain_placeholders, Rewrite.apply, Rewrite.apply, plain_append, plain_append,
      plain_map_some, plain_map_some, List.map_id, List.map_id, ← plain_marksOf, plain, plain,
      List.map_drop]
  rw [← plain_marksOf] at htake
  rw [← holes_apply htake, forall_fill_eq_iff hplain, ← placeholders_iff_aligned,
    ← plain_marksOf]
  exact placeholders_apply_iff hhead htake

/-- An update whose first literal has a backslash before a line break, and a question mark. -/
def brokenUpdate : List Segment :=
  [.plain "UPDATE t SET a=".toList (List.all_iff_forall_prop.1 (by decide)),
    .literal { quote := '\x27', body := [.escaped '\n', .char '?'], isQuote_quote := by decide,
               fits := by decide },
    .plain " WHERE id=?".toList (List.all_iff_forall_prop.1 (by decide))]

/-- The question mark of the literal is taken for a placeholder, and the driver lacks an argument
for it. -/
theorem not_exact_brokenUpdate : ¬ ∀ segments, Exact (fun _ => false) segments := by
  intro hall
  have hone := hall brokenUpdate [['7']] (by decide)
  rw [translate, if_pos rfl, String.toList_ofList, String.toList_ofList] at hone
  exact absurd hone (by decide +kernel)

theorem placeholders_of_notMem {s : List Char} (h : '?' ∉ s) (n : ℕ) :
    placeholders n s = s.map some := by
  induction s generalizing n with
  | nil => cases n <;> rfl
  | cons c s ih =>
      have hs : '?' ∉ s := fun hmem => h (List.mem_cons_of_mem c hmem)
      have hc : c ≠ '?' := fun heq => h (heq ▸ List.mem_cons_self)
      cases n with
      | succ n => rw [placeholders, ih hs, List.map_cons]
      | zero =>
          rw [placeholders, markOf, if_neg hc, ih hs, ih hs, ite_self, List.map_cons]

/-- **Where no backslash stands before a line break the translation is exact**, if no listed
column of an upsert has a question mark in its name. -/
theorem aligned_of_unbroken {clause : List Char} {segments : List Segment} (hclause : '?' ∉ clause)
    (h : ∀ l, .literal l ∈ segments → ¬ Broken l) : Aligned clause segments := by
  induction segments with
  | nil => exact placeholders_of_notMem hclause 0
  | cons segment segments ih =>
      have hrest := ih fun l hl => h l (List.mem_cons_of_mem _ hl)
      cases segment with
      | plain s hs => exact hrest
      | literal l =>
          unfold Aligned
          rw [if_neg (h l List.mem_cons_self)]
          exact hrest

end Hygie
