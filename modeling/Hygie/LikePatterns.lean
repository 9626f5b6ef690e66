/-
**`LIKE` patterns.**

A pattern of SQL's `LIKE … ESCAPE` is a text in which `%` stands for any characters, `_` for any
one character, and every other character for itself, up to the engine's folding of letters.  The
escape character takes its meaning away from the character that follows it.

An engine may read a text up to its first NUL only, and it may refuse a long pattern, which fails
the statement.

A pattern is read into a list of tokens first; what the tokens match composes, so that a pattern
can be understood piece by piece.

Main definitions:

* `Like.Token`, `Like.tokens` — what the characters of a pattern say;
* `Like.accepts` — what a list of tokens matches;
* `Like.Dialect`, `Like.Dialect.like` — an engine, and the operator;
* `Like.Contains` — a text stands somewhere in a value, up to the folding.

Main results:

* `Like.accepts_append` — **a pattern matches piece by piece**;
* `Like.accepts_chars`, `Like.accepts_within` — characters that stand for themselves, and such
  characters between two `%`;
* `Like.Dialect.like_eq_some_iff` — the operator on texts that the engine reads as a whole.
-/

import Mathlib.Data.List.TakeWhile
import Mathlib.Tactic

set_option relaxedAutoImplicit false
set_option autoImplicit false

namespace Like

/-- What a character of a pattern says. -/
inductive Token
  | any
  | one
  | char (c : Char)
  deriving DecidableEq, Repr

/-- The tokens of a pattern.  A pattern that ends in an escape character is none. -/
def tokens (escape : Char) : List Char → Option (List Token)
  | [] => some []
  | [c] =>
      if c = escape then none
      else some [if c = '%' then .any else if c = '_' then .one else .char c]
  | c :: d :: p =>
      if c = escape then (tokens escape p).map (.char d :: ·)
      else (tokens escape (d :: p)).map
        ((if c = '%' then .any else if c = '_' then .one else .char c) :: ·)

/-- What tokens match; `same c d` says that `d` is what `c` stands for, up to the folding. -/
def accepts (same : Char → Char → Bool) : List Token → List Char → Bool
  | [], v => v.isEmpty
  | .any :: p, v => v.tails.any (accepts same p)
  | .one :: p, v => v.head?.isSome && accepts same p v.tail
  | .char c :: p, v => v.head?.any (same c) && accepts same p v.tail

/-- The character with the code zero. -/
def nul : Char := Char.ofNat 0

/-- What an engine makes of texts. -/
structure Dialect where
  /-- `same c d` says that `d` is what `c` stands for, up to the folding. -/
  same : Char → Char → Bool
  /-- A text ends at its first NUL. -/
  nulEnds : Bool := false
  /-- The bytes that a pattern may have. -/
  maxBytes : Option ℕ := none

namespace Dialect

variable (d : Dialect)

/-- What the engine reads of a text. -/
def read (text : String) : List Char :=
  if d.nulEnds then text.toList.takeWhile (· ≠ nul) else text.toList

/-- The bytes of a text. -/
def bytes (text : String) : ℕ := (text.toList.map Char.utf8Size).sum

/-- The engine takes a pattern. -/
def takes (pattern : String) : Bool := d.maxBytes.all (bytes pattern ≤ ·)

/-- What `value LIKE pattern ESCAPE escape` says of a pattern that the engine takes. -/
def holds (escape : Char) (pattern value : String) : Bool :=
  (tokens escape (d.read pattern)).any fun p => accepts d.same p (d.read value)

/-- `value LIKE pattern ESCAPE escape`; nothing where the statement fails. -/
def like (escape : Char) (pattern value : String) : Option Bool :=
  if d.takes pattern then some (d.holds escape pattern value) else none

/-- The engine reads the whole text. -/
def Whole (text : String) : Prop := d.nulEnds = true → nul ∉ text.toList

end Dialect

/-- The text stands somewhere in the value, up to the folding. -/
def Contains (same : Char → Char → Bool) (text value : String) : Prop :=
  ∃ part, part <:+: value.toList ∧ List.Forall₂ (fun c d => same c d = true) text.toList part

variable {same : Char → Char → Bool} {escape : Char}

/-! ### Tokens -/

theorem tokens_nil : tokens escape [] = some [] := rfl

/-- An escaped character stands for itself. -/
theorem tokens_escaped (d : Char) (p : List Char) :
    tokens escape (escape :: d :: p) = (tokens escape p).map (.char d :: ·) := by
  rw [tokens, if_pos rfl]

/-- A character that is not the escape character is read by itself. -/
theorem tokens_cons {c : Char} (h : c ≠ escape) (p : List Char) :
    tokens escape (c :: p) = (tokens escape p).map
      ((if c = '%' then .any else if c = '_' then .one else .char c) :: ·) := by
  cases p with
  | nil =>
      rw [tokens_nil]
      unfold tokens
      rw [if_neg h]
      rfl
  | cons d p => rw [tokens, if_neg h]

/-! ### What tokens match -/

theorem accepts_nil_iff {v : List Char} : accepts same [] v = true ↔ v = [] := by
  rw [accepts, List.isEmpty_iff]

theorem accepts_any_iff {p : List Token} {v : List Char} :
    accepts same (.any :: p) v = true ↔ ∃ a b, v = a ++ b ∧ accepts same p b = true := by
  rw [accepts, List.any_eq_true]
  constructor
  · rintro ⟨b, hb, h⟩
    obtain ⟨a, rfl⟩ := (List.mem_tails _ _).1 hb
    exact ⟨a, b, rfl, h⟩
  · rintro ⟨a, b, rfl, h⟩
    exact ⟨b, (List.mem_tails _ _).2 (List.suffix_append a b), h⟩

theorem accepts_one_iff {p : List Token} {v : List Char} :
    accepts same (.one :: p) v = true ↔ ∃ d b, v = d :: b ∧ accepts same p b = true := by
  cases v with
  | nil => simp [accepts]
  | cons d b => simp [accepts]

theorem accepts_char_iff {c : Char} {p : List Token} {v : List Char} :
    accepts same (.char c :: p) v = true ↔
      ∃ d b, v = d :: b ∧ same c d = true ∧ accepts same p b = true := by
  cases v with
  | nil => simp [accepts]
  | cons d b => simp [accepts]

/-- **A pattern matches piece by piece.** -/
theorem accepts_append {p q : List Token} {v : List Char} :
    accepts same (p ++ q) v = true ↔
      ∃ a b, v = a ++ b ∧ accepts same p a = true ∧ accepts same q b = true := by
  induction p generalizing v with
  | nil =>
      simp only [List.nil_append, accepts_nil_iff]
      constructor
      · intro h
        exact ⟨[], v, rfl, rfl, h⟩
      · rintro ⟨a, b, rfl, rfl, h⟩
        exact h
  | cons t p ih =>
      cases t with
      | any =>
          simp only [List.cons_append, accepts_any_iff, ih]
          constructor
          · rintro ⟨a, b, rfl, a', b', rfl, ha, hb⟩
            exact ⟨a ++ a', b', by rw [List.append_assoc], ⟨a, a', rfl, ha⟩, hb⟩
          · rintro ⟨a, b, rfl, ⟨c, d, rfl, hd⟩, hb⟩
            exact ⟨c, d ++ b, by rw [List.append_assoc], d, b, rfl, hd, hb⟩
      | one =>
          simp only [List.cons_append, accepts_one_iff, ih]
          constructor
          · rintro ⟨d, b, rfl, a', b', rfl, ha, hb⟩
            exact ⟨d :: a', b', rfl, ⟨d, a', rfl, ha⟩, hb⟩
          · rintro ⟨a, b, rfl, ⟨d, a', rfl, ha⟩, hb⟩
            exact ⟨d, a' ++ b, rfl, a', b, rfl, ha, hb⟩
      | char c =>
          simp only [List.cons_append, accepts_char_iff, ih]
          constructor
          · rintro ⟨d, b, rfl, hd, a', b', rfl, ha, hb⟩
            exact ⟨d :: a', b', rfl, ⟨d, a', rfl, hd, ha⟩, hb⟩
          · rintro ⟨a, b, rfl, ⟨d, a', rfl, hd, ha⟩, hb⟩
            exact ⟨d, a' ++ b, rfl, hd, a', b, rfl, ha, hb⟩

/-- Characters that stand for themselves match what they fold to. -/
theorem accepts_chars {text v : List Char} :
    accepts same (text.map .char) v = true ↔
      List.Forall₂ (fun c d => same c d = true) text v := by
  induction text generalizing v with
  | nil => rw [List.map_nil, accepts_nil_iff, List.forall₂_nil_left_iff]
  | cons c text ih =>
      simp only [List.map_cons, accepts_char_iff, ih, List.forall₂_cons_left_iff]
      constructor
      · rintro ⟨d, b, hv, hd, hb⟩
        exact ⟨d, b, hd, hb, hv⟩
      · rintro ⟨d, b, hd, hb, hv⟩
        exact ⟨d, b, hv, hd, hb⟩

/-- Between two `%` they match wherever such characters stand. -/
theorem accepts_within {text v : List Char} :
    accepts same (.any :: text.map .char ++ [.any]) v = true ↔
      ∃ part, part <:+: v ∧ List.Forall₂ (fun c d => same c d = true) text part := by
  rw [List.cons_append, accepts_any_iff]
  constructor
  · rintro ⟨a, b, rfl, h⟩
    obtain ⟨part, rest, rfl, hpart, -⟩ := accepts_append.1 h
    exact ⟨part, ⟨a, rest, by rw [List.append_assoc]⟩, accepts_chars.1 hpart⟩
  · rintro ⟨part, ⟨a, rest, rfl⟩, hpart⟩
    refine ⟨a, part ++ rest, by rw [List.append_assoc], accepts_append.2 ?_⟩
    exact ⟨part, rest, rfl, accepts_chars.2 hpart,
      accepts_any_iff.2 ⟨rest, [], (List.append_nil rest).symm, rfl⟩⟩

/-- Up to no folding at all, a text is contained if it is a part of the value. -/
theorem contains_eq_iff {text value : String} :
    Contains (fun c d => c == d) text value ↔ text.toList <:+: value.toList := by
  have heq : ∀ l l' : List Char,
      List.Forall₂ (fun c d => (c == d) = true) l l' ↔ l = l' := by
    intro l l'
    simp only [beq_iff_eq, List.forall₂_eq_eq_eq]
  constructor
  · rintro ⟨part, hpart, h⟩
    rwa [(heq _ _).1 h]
  · intro h
    exact ⟨_, h, (heq _ _).2 rfl⟩

namespace Dialect

variable {d : Dialect} {text pattern value : String}

theorem read_of_whole (h : d.Whole text) : d.read text = text.toList := by
  rw [read]
  split_ifs with hends
  · refine List.takeWhile_eq_self_iff.2 fun c hc => decide_eq_true ?_
    rintro rfl
    exact h hends hc
  · rfl

/-- The operator on texts that the engine reads as a whole. -/
theorem like_eq_some_iff (hpattern : d.Whole pattern) (hvalue : d.Whole value) {found : Bool} :
    d.like escape pattern value = some found ↔ d.takes pattern = true ∧
      (tokens escape pattern.toList).any (fun p => accepts d.same p value.toList) = found := by
  rw [like, holds, read_of_whole hpattern, read_of_whole hvalue]
  split_ifs with htakes
  · simp [htakes]
  · simp [htakes]

end Dialect

end Like
