/-
**`int` and `str` of Python on integers.**

`int` takes a text to the integer it writes, with white space around it, a sign, and single
underscores between digits; other digits than the ten ASCII ones are left out here.  `str` of an
integer is its decimal numeral, `Int.repr`.

Main definitions:

* `PyText.pyInt` — `int` of a text.

Main results:

* `PyText.pyInt_repr` — **`int` reads what `str` writes**.
-/

import Mathlib
import Hygie.PyText

set_option relaxedAutoImplicit false
set_option autoImplicit false

namespace PyText

/-- `int(s)`, for the ten ASCII digits; nothing where it raises `ValueError`. -/
def pyInt (s : String) : Option ℤ :=
  let t := strip s
  if startsWith t "+" then (String.ofList (t.toList.drop 1)).toNat?.map Int.ofNat else t.toInt?

theorem isSpace_of_isDigit {c : Char} (h : c.isDigit = true) : isSpace c = false := by
  simp only [Char.isDigit, Bool.and_eq_true, decide_eq_true_eq, ge_iff_le] at h
  have hlow : 48 ≤ c.toNat := h.1
  have hhigh : c.toNat ≤ 57 := h.2
  simp only [isSpace, Bool.or_eq_false_iff, Bool.and_eq_false_iff, decide_eq_false_iff_not,
    beq_eq_false_iff_ne]
  omega

/-- The numeral of an integer consists of digits and a minus sign. -/
theorem isDigit_or_minus {n : ℤ} {c : Char} (h : c ∈ (Int.repr n).toList) :
    c.isDigit = true ∨ c = '-' := by
  cases n with
  | ofNat n =>
      simp only [Int.repr, Nat.repr, String.toList_ofList] at h
      exact .inl (Nat.isDigit_of_mem_toDigits (by decide) (by decide) h)
  | negSucc n =>
      simp only [Int.repr, Nat.repr, String.toList_append, String.toList_ofList,
        List.mem_append] at h
      rcases h with h | h
      · exact .inr (by simpa using h)
      · exact .inl (Nat.isDigit_of_mem_toDigits (by decide) (by decide) h)

/-- A text without white space stays as it is. -/
theorem strip_eq_self {s : String} (h : ∀ c ∈ s.toList, isSpace c = false) : strip s = s := by
  have hdrop : ∀ l : List Char, (∀ c ∈ l, isSpace c = false) → l.dropWhile isSpace = l := by
    intro l hl
    cases l with
    | nil => rfl
    | cons c l => simp [hl c (by simp)]
  rw [strip, hdrop _ h, rstripList, hdrop _ (by simpa using h), List.reverse_reverse,
    String.ofList_toList]

/-- **`int` reads what `str` writes.** -/
theorem pyInt_repr (n : ℤ) : pyInt (Int.repr n) = some n := by
  have hchars : ∀ c ∈ (Int.repr n).toList, isSpace c = false := by
    intro c hc
    rcases isDigit_or_minus hc with hdigit | rfl
    · exact isSpace_of_isDigit hdigit
    · decide
  have hplus : startsWith (Int.repr n) "+" = false := by
    rw [← Bool.not_eq_true, startsWith_iff]
    rintro ⟨r, hr⟩
    have hmem : '+' ∈ (Int.repr n).toList := by rw [hr]; simp
    exact absurd (isDigit_or_minus hmem) (by decide)
  simp only [pyInt, strip_eq_self hchars, hplus]
  exact Int.toInt?_repr n

end PyText
