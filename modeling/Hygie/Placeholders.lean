/-
**Texts with placeholders.**

A text with placeholders is a list of characters in which some places are marked.  The arguments
are put into the marked places, and every other character stays.  A formatting function of the
`printf` kind does that for a text in which `%s` stands for a placeholder and `%%` for a percent
sign, and it refuses a number of arguments that is not the number of its placeholders.

A text that is quoted in parts is a list of segments: what stands outside quotes, where a question
mark is a placeholder, and literals, where it is not.

Main definitions:

* `Placeholders.fill`, `Placeholders.expand` — putting arguments in, and `printf`;
* `Placeholders.toFormat` — the format of a text with placeholders;
* `Placeholders.Segment` — what stands outside quotes, and a literal;
* `Placeholders.textOf`, `Placeholders.marksOf` — a text in segments, and its placeholders.

Main results:

* `Placeholders.expand_toFormat` — **the format says what is filled in**;
* `Placeholders.forall_fill_eq_iff` — for the same text, the results for all arguments tell where
  the placeholders are.
-/

import Mathlib.Tactic

set_option relaxedAutoImplicit false
set_option autoImplicit false

namespace Placeholders

/-! ### Filling in arguments -/

/-- The characters of a text, a question mark for each placeholder. -/
def plain (m : List (Option Char)) : List Char := m.map (·.getD '?')

/-- The number of placeholders. -/
def holes (m : List (Option Char)) : ℕ := m.count none

/-- The text with the arguments in its placeholders, if there is one argument for each. -/
def fill : List (Option Char) → List (List Char) → Option (List Char)
  | [], args => if args = [] then some [] else none
  | some c :: m, args => (fill m args).map (c :: ·)
  | none :: m, args => args.head?.bind fun a => (fill m args.tail).map (a ++ ·)

/-- `format % args`, for a tuple of texts: none where `printf` raises an error. -/
def expand : List Char → List (List Char) → Option (List Char)
  | [], args => if args = [] then some [] else none
  | [c], args => if c ≠ '%' ∧ args = [] then some [c] else none
  | c :: d :: s, args =>
      if c ≠ '%' then (expand (d :: s) args).map (c :: ·)
      else if d = '%' then (expand s args).map ('%' :: ·)
      else if d = 's' then args.head?.bind fun a => (expand s args.tail).map (a ++ ·)
      else none

/-- What stands for a character or a placeholder in a format. -/
def formatOf : Option Char → List Char
  | none => ['%', 's']
  | some c => if c = '%' then ['%', '%'] else [c]

/-- The format of a text with placeholders. -/
def toFormat (m : List (Option Char)) : List Char := m.flatMap formatOf

theorem expand_cons {c : Char} (hc : c ≠ '%') (s : List Char) (args : List (List Char)) :
    expand (c :: s) args = (expand s args).map (c :: ·) := by
  cases s with
  | nil =>
      unfold expand
      by_cases hargs : args = [] <;> simp [hc, hargs]
  | cons d s => rw [expand, if_pos hc]

/-- **The format says what is filled in.** -/
theorem expand_toFormat (m : List (Option Char)) (args : List (List Char)) :
    expand (toFormat m) args = fill m args := by
  induction m generalizing args with
  | nil => rfl
  | cons o m ih =>
      rw [toFormat, List.flatMap_cons]
      change expand (formatOf o ++ toFormat m) args = _
      cases o with
      | none =>
          change expand ('%' :: 's' :: toFormat m) args = _
          rw [expand, if_neg (by decide), if_neg (by decide), if_pos rfl, fill]
          simp only [ih]
      | some c =>
          rw [formatOf, fill, ← ih args]
          split
          next hc =>
            subst hc
            change expand ('%' :: '%' :: toFormat m) args = _
            rw [expand, if_neg (by decide), if_pos rfl]
          next hc => exact expand_cons hc _ _

theorem isSome_fill {m : List (Option Char)} {args : List (List Char)}
    (h : args.length = holes m) : (fill m args).isSome = true := by
  induction m generalizing args with
  | nil =>
      rw [List.eq_nil_of_length_eq_zero (l := args) (by simpa [holes] using h)]
      rfl
  | cons o m ih =>
      cases o with
      | none =>
          cases args with
          | nil => simp [holes] at h
          | cons a args =>
              have hargs : args.length = holes m := by simpa [holes] using h
              simpa [fill] using ih hargs
      | some c =>
          have hargs : args.length = holes m := by simpa [holes] using h
          simpa [fill] using ih hargs

/-- For the same text, **the results for all arguments tell where the placeholders are**. -/
theorem forall_fill_eq_iff {m m' : List (Option Char)} (h : plain m' = plain m) :
    (∀ args : List (List Char), args.length = holes m → fill m' args = fill m args) ↔
      m' = m := by
  refine ⟨fun hall => ?_, fun heq args _ => by rw [heq]⟩
  induction m generalizing m' with
  | nil => exact List.map_eq_nil_iff.1 h
  | cons o m ih =>
      cases m' with
      | nil => simp [plain] at h
      | cons o' m' =>
          simp only [plain, List.map_cons, List.cons.injEq] at h
          obtain ⟨hhead, htail⟩ := h
          -- arguments that differ from the question mark tell the two heads apart
          have hargs : (List.replicate (holes (o :: m)) ['x']).length = holes (o :: m) :=
            List.length_replicate
          have hx := hall _ hargs
          have hsome := isSome_fill hargs
          cases o with
          | some c =>
              cases o' with
              | some d =>
                  have hcd : d = c := hhead
                  subst hcd
                  congr 1
                  refine ih htail fun args hlen => ?_
                  have hfill := hall args (by simpa [holes] using hlen)
                  exact Option.map_injective (fun _ _ => List.tail_eq_of_cons_eq) hfill
              | none =>
                  have hc : c = '?' := hhead.symm
                  subst hc
                  rw [← hx] at hsome
                  simp only [fill] at hx hsome
                  cases hn : holes (some '?' :: m) with
                  | zero => simp [hn] at hsome
                  | succ n =>
                      simp only [hn, List.replicate_succ, List.head?_cons, Option.bind_some,
                        List.tail_cons] at hx hsome
                      cases hrest : fill m' (List.replicate n ['x']) with
                      | none => simp [hrest] at hsome
                      | some r =>
                          cases hrest' : fill m (['x'] :: List.replicate n ['x']) <;>
                            simp [hrest, hrest'] at hx
          | none =>
              have hn : holes (none :: m) = holes m + 1 := by simp [holes]
              cases o' with
              | none =>
                  congr 1
                  refine ih htail fun args hlen => ?_
                  have hfill := hall ([] :: args) (by simp [hn, hlen])
                  simpa [fill] using hfill
              | some d =>
                  have hd : d = '?' := hhead
                  subst hd
                  simp only [hn, List.replicate_succ, fill, List.head?_cons, Option.bind_some,
                    List.tail_cons] at hx hsome
                  cases hrest : fill m (List.replicate (holes m) ['x']) with
                  | none => simp [hrest] at hsome
                  | some r =>
                      cases hrest' : fill m' (['x'] :: List.replicate (holes m) ['x']) <;>
                        simp [hrest, hrest'] at hx

/-! ### Quoted parts -/

/-- The characters that open and close a literal. -/
def isQuote (c : Char) : Bool := c == '\x27' || c == '\x22'

/-- What a literal is made of. -/
inductive Piece
  | char (c : Char)
  | escaped (c : Char)
  | doubled
  deriving DecidableEq, Repr

/-- The characters of a piece, in a literal with the given quotes. -/
def Piece.text (quote : Char) : Piece → List Char
  | .char c => [c]
  | .escaped c => ['\\', c]
  | .doubled => [quote, quote]

@[simp] theorem Piece.text_char (quote c : Char) : (Piece.char c).text quote = [c] := rfl

@[simp] theorem Piece.text_escaped (quote c : Char) :
    (Piece.escaped c).text quote = ['\\', c] := rfl

@[simp] theorem Piece.text_doubled (quote : Char) : Piece.doubled.text quote = [quote, quote] :=
  rfl

/-- A character that stands for itself is neither the quote nor a backslash. -/
def Piece.Fits (quote : Char) : Piece → Prop
  | .char c => c ≠ quote ∧ c ≠ '\\'
  | _ => True

instance (quote : Char) : (p : Piece) → Decidable (p.Fits quote)
  | .char c => inferInstanceAs (Decidable (c ≠ quote ∧ c ≠ '\\'))
  | .escaped _ => .isTrue trivial
  | .doubled => .isTrue trivial

/-- A literal. -/
structure Literal where
  quote : Char
  body : List Piece
  isQuote_quote : isQuote quote = true
  fits : ∀ p ∈ body, p.Fits quote

/-- The characters of a literal, with its quotes. -/
def Literal.text (l : Literal) : List Char :=
  l.quote :: (l.body.flatMap (·.text l.quote) ++ [l.quote])

/-- A part of a text: outside quotes, or a literal. -/
inductive Segment
  | plain (s : List Char) (h : ∀ c ∈ s, isQuote c = false)
  | literal (l : Literal)

/-- A character outside quotes. -/
def markOf (c : Char) : Option Char := if c = '?' then none else some c

namespace Segment

/-- The characters of a segment. -/
def text : Segment → List Char
  | .plain s _ => s
  | .literal l => l.text

/-- The placeholders of a segment. -/
def marks : Segment → List (Option Char)
  | .plain s _ => s.map markOf
  | .literal l => l.text.map some

end Segment

/-- The characters of a text in segments. -/
def textOf (segments : List Segment) : List Char := segments.flatMap (·.text)

/-- The placeholders of a text in segments. -/
def marksOf (segments : List Segment) : List (Option Char) := segments.flatMap (·.marks)

@[simp] theorem textOf_cons (s : Segment) (segments : List Segment) :
    textOf (s :: segments) = s.text ++ textOf segments := List.flatMap_cons

@[simp] theorem marksOf_cons (s : Segment) (segments : List Segment) :
    marksOf (s :: segments) = s.marks ++ marksOf segments := List.flatMap_cons

theorem plain_map_some (s : List Char) : plain (s.map some) = s := by
  rw [plain, List.map_map]
  exact List.map_id s

theorem plain_append (m m' : List (Option Char)) : plain (m ++ m') = plain m ++ plain m' :=
  List.map_append

theorem plain_map_markOf (s : List Char) : plain (s.map markOf) = s := by
  rw [plain, List.map_map]
  conv_rhs => rw [← List.map_id s]
  refine List.map_congr_left fun c _ => ?_
  by_cases hc : c = '?' <;> simp [markOf, hc]

@[simp] theorem plain_marksOf (segments : List Segment) :
    plain (marksOf segments) = textOf segments := by
  induction segments with
  | nil => rfl
  | cons s segments ih =>
      rw [marksOf_cons, plain_append, textOf_cons, ih]
      congr 1
      cases s with
      | plain s h => exact plain_map_markOf s
      | literal l => exact plain_map_some l.text

end Placeholders
