/-
**Results that only grow.**

A loop collects something from every element of a list: the largest of some numbers, the latest of
some dates, whether some element has a property.  Each of these is a join.  Where a result can be
read as an element of a join-semilattice in which every round takes the join with what the element
contributes, the result depends on the members of the list alone, and it grows with them.

Main definitions:

* `Aggregates` — the laws: order and repetition of the elements are irrelevant, another element only
  makes the result larger.

Main results:

* `foldl_sup_le_iff` — **what a join of a list is below**;
* `Aggregates.of_level` — **the rule**: a result that is read as a join follows the laws.
-/

import Mathlib.Data.List.Basic
import Mathlib.Order.Lattice

set_option relaxedAutoImplicit false
set_option autoImplicit false

variable {α β γ : Type}

/-- The laws of a result that collects something from every element of a list. -/
structure Aggregates (le : β → β → Prop) (agg : List α → β) : Prop where
  perm : ∀ l l', l.Perm l' → agg l = agg l'
  duplicate : ∀ l, ∀ a ∈ l, agg (a :: l) = agg l
  add : ∀ l a, le (agg l) (agg (a :: l))

section Joins

variable [SemilatticeSup γ] {f : α → γ} {l l' : List α} {b c : γ}

/-- What a join of a list is below. -/
theorem foldl_sup_le_iff :
    l.foldl (fun b a => b ⊔ f a) b ≤ c ↔ b ≤ c ∧ ∀ a ∈ l, f a ≤ c := by
  induction l generalizing b with
  | nil => simp
  | cons a l ih => rw [List.foldl_cons, ih, sup_le_iff, List.forall_mem_cons, and_assoc]

/-- A join grows with the members of the list. -/
theorem foldl_sup_le_of_subset (h : l ⊆ l') :
    l.foldl (fun b a => b ⊔ f a) b ≤ l'.foldl (fun b a => b ⊔ f a) b := by
  obtain ⟨hstart, hmem⟩ := foldl_sup_le_iff.1 (le_refl (l'.foldl (fun b a => b ⊔ f a) b))
  exact foldl_sup_le_iff.2 ⟨hstart, fun a ha => hmem a (h ha)⟩

/-- **The rule**: a result that is read as a join follows the laws. -/
theorem Aggregates.of_level {le : β → β → Prop} {agg : List α → β} {level : β → γ}
    (hinjective : Function.Injective level) (hle : ∀ r r', le r r' ↔ level r ≤ level r')
    (hlevel : ∀ l, level (agg l) = l.foldl (fun b a => b ⊔ f a) b) : Aggregates le agg := by
  have hmono : ∀ l l', l ⊆ l' → level (agg l) ≤ level (agg l') := by
    intro l l' hsubset
    rw [hlevel, hlevel]
    exact foldl_sup_le_of_subset hsubset
  -- lists with the same members have the same join
  have heq : ∀ l l', l ⊆ l' → l' ⊆ l → agg l = agg l' := fun l l' hsubset hsubset' =>
    hinjective (le_antisymm (hmono l l' hsubset) (hmono l' l hsubset'))
  constructor
  · intro l l' hperm
    exact heq l l' hperm.subset hperm.symm.subset
  · intro l a ha
    exact heq (a :: l) l (List.cons_subset.2 ⟨ha, List.Subset.refl l⟩) (List.subset_cons_self a l)
  · intro l a
    exact (hle _ _).2 (hmono l (a :: l) (List.subset_cons_self a l))

end Joins
