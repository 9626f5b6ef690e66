/-
**The ways to meet a combination of requirements.**

A requirement built from tests by "all of" and "some of" is met if and only if one of finitely many
lists of tests, its *alternatives*, is met throughout.  The module gives the alternatives of a list
of requirements each of which has its own, for both connectives.

Main definitions:

* `Met` — some alternative is met throughout;
* `allAlternatives` — the alternatives of "all of these".

Main results:

* `met_allAlternatives`, `met_flatten` — **the two connectives**.
-/

import Mathlib.Tactic

set_option relaxedAutoImplicit false
set_option autoImplicit false

variable {τ : Type}

/-- Some alternative is met throughout. -/
def Met (p : τ → Prop) (alternatives : List (List τ)) : Prop :=
  ∃ tests ∈ alternatives, ∀ test ∈ tests, p test

/-- The alternatives of "all of these": one alternative of each, put together. -/
def allAlternatives : List (List (List τ)) → List (List τ)
  | [] => [[]]
  | first :: rest => first.flatMap fun tests => (allAlternatives rest).map (tests ++ ·)

variable {p : τ → Prop}

@[simp] theorem met_nil : ¬ Met p [] := fun ⟨_, h, _⟩ => nomatch h

theorem met_singleton {tests : List τ} : Met p [tests] ↔ ∀ test ∈ tests, p test := by
  simp [Met]

/-- "Some of these" is met when one of them is. -/
theorem met_flatten {choices : List (List (List τ))} :
    Met p choices.flatten ↔ ∃ alternatives ∈ choices, Met p alternatives := by
  simp only [Met, List.mem_flatten]
  constructor
  · intro ⟨tests, ⟨alternatives, halternatives, htests⟩, h⟩
    exact ⟨alternatives, halternatives, tests, htests, h⟩
  · intro ⟨alternatives, halternatives, tests, htests, h⟩
    exact ⟨tests, ⟨alternatives, halternatives, htests⟩, h⟩

/-- "All of these" is met when each of them is. -/
theorem met_allAlternatives {choices : List (List (List τ))} :
    Met p (allAlternatives choices) ↔ ∀ alternatives ∈ choices, Met p alternatives := by
  induction choices with
  | nil => simp [allAlternatives, met_singleton]
  | cons first rest ih =>
      rw [List.forall_mem_cons, ← ih]
      simp only [Met, allAlternatives, List.mem_flatMap, List.mem_map]
      constructor
      · intro ⟨tests, ⟨chosen, hchosen, others, hothers, htests⟩, h⟩
        rw [← htests, List.forall_mem_append] at h
        exact ⟨⟨chosen, hchosen, h.1⟩, ⟨others, hothers, h.2⟩⟩
      · intro ⟨⟨chosen, hchosen, h⟩, ⟨others, hothers, h'⟩⟩
        exact ⟨chosen ++ others, ⟨chosen, hchosen, others, hothers, rfl⟩,
          List.forall_mem_append.2 ⟨h, h'⟩⟩
