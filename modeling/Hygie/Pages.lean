/-
**Pages of a sorted result.**

Rows are sorted by a key and shown page by page.  Rows with the same key may come in any order, and
in another order each time a page is asked for.  Each row is then on one page exactly, whatever the
orders are, if and only if no two rows with the same key are on either side of the end of a page.

Main definitions:

* `Pages.Arranges` — an order of the rows in which the keys do not go down;
* `Pages.page` — one page;
* `Pages.Ties` — two rows with the same key on either side of a cut.

Main results:

* `Pages.take_perm` — what is before a cut without a tie is the same in all orders;
* `Pages.pages_perm_iff` — **exactly when each row is on one page**.
-/

import Mathlib.Data.List.Perm.Subperm
import Mathlib.Tactic

set_option relaxedAutoImplicit false
set_option autoImplicit false

namespace Pages

variable {ρ : Type} {le : ρ → ρ → Prop} {rows l l' : List ρ} {n k : ℕ}

/-- An order of the rows in which the keys do not go down. -/
structure Arranges (le : ρ → ρ → Prop) (rows l : List ρ) : Prop where
  perm : l.Perm rows
  sorted : l.Pairwise le

/-- Page `i`, of `n` rows. -/
def page (n i : ℕ) (l : List ρ) : List ρ := (l.drop (i * n)).take n

/-- The row at `k` and the next one may change places. -/
def Ties (le : ρ → ρ → Prop) (l : List ρ) (k : ℕ) : Prop :=
  ∃ x y, l[k]? = some x ∧ l[k + 1]? = some y ∧ le y x

theorem getElem?_page {i j : ℕ} (hj : j < n) : (page n i l)[j]? = l[i * n + j]? := by
  rw [page, List.getElem?_take_of_lt hj, List.getElem?_drop]

/-! ### What is before a cut -/

/-- Where nothing comes before something that is kept but what is kept itself. -/
theorem filter_eq_take {p : ρ → Bool} (h : l.Pairwise fun a b => p b = true → p a = true) :
    l.filter p = l.take (l.countP p) := by
  induction l with
  | nil => rfl
  | cons a l ih =>
      obtain ⟨hhead, htail⟩ := List.pairwise_cons.1 h
      by_cases ha : p a = true
      · rw [List.filter_cons_of_pos ha, List.countP_cons_of_pos ha, List.take_succ_cons, ih htail]
      · have hnone : ∀ b ∈ l, ¬ p b = true := fun b hb hpb => ha (hhead b hb hpb)
        rw [List.filter_cons_of_neg ha, List.countP_cons_of_neg ha,
          List.filter_eq_nil_iff.2 hnone, List.countP_eq_zero.2 hnone, List.take_zero]

/-- How many are kept, where the kept ones are those before the cut. -/
theorem countP_eq_of_take {p : ρ → Bool} (hk : k ≤ l.length)
    (hbefore : ∀ a ∈ l.take k, p a = true) (hafter : ∀ a ∈ l.drop k, ¬ p a = true) :
    l.countP p = k := by
  conv_lhs => rw [← List.take_append_drop k l]
  rw [List.countP_append, List.countP_eq_length.2 hbefore, List.countP_eq_zero.2 hafter,
    List.length_take]
  omega

/-- Two rows with the same key on either side of a cut may change places. -/
theorem Arranges.swap {a b : List ρ} {x y : ρ} (h : Arranges le rows (a ++ x :: y :: b))
    (htie : le y x) : Arranges le rows (a ++ y :: x :: b) where
  perm := (List.Perm.append_left a (.swap x y b)).trans h.perm
  sorted := by
    obtain ⟨ha, hxy, hab⟩ := List.pairwise_append.1 h.sorted
    obtain ⟨hx, hy, hb⟩ := (List.pairwise_cons.1 hxy).imp_right List.pairwise_cons.1
    have hb' : ∀ z ∈ b, le y z ∧ le x z := fun z hz =>
      ⟨hy z hz, hx z (List.mem_cons_of_mem _ hz)⟩
    refine List.pairwise_append.2 ⟨ha, ?_, ?_⟩
    · refine List.pairwise_cons.2 ⟨?_, List.pairwise_cons.2 ⟨fun z hz => (hb' z hz).2, hb⟩⟩
      intro z hz
      rcases List.mem_cons.1 hz with rfl | hz
      · exact htie
      · exact (hb' z hz).1
    · intro u hu z hz
      refine hab u hu z ?_
      simp only [List.mem_cons] at hz ⊢
      tauto

section Preorder

variable (htotal : ∀ a b, le a b ∨ le b a) (htrans : ∀ a b c, le a b → le b c → le a c)
include htotal htrans

/-- **What is before a cut without a tie is the same in all orders.** -/
theorem take_perm (hl : Arranges le rows l) (hl' : Arranges le rows l') (hcut : ¬ Ties le l k) :
    (l.take (k + 1)).Perm (l'.take (k + 1)) := by
  classical
  have hperm : l.Perm l' := hl.perm.trans hl'.perm.symm
  rcases Nat.lt_or_ge (k + 1) l.length with hlt | hge
  · -- the rows before the cut are those whose key is not above that of the last of them
    let p : ρ → Bool := fun a => decide (le a l[k])
    have hdown : ∀ {m : List ρ}, m.Pairwise le → m.Pairwise fun a b => p b = true → p a = true := by
      intro m hm
      refine hm.imp fun {a b} hab hb => ?_
      exact decide_eq_true (htrans a b _ hab (of_decide_eq_true hb))
    have hbefore : ∀ a ∈ l.take (k + 1), p a = true := by
      intro a ha
      obtain ⟨i, hi, rfl⟩ := List.mem_take_iff_getElem.1 ha
      refine decide_eq_true ?_
      rcases Nat.lt_or_ge i k with hik | hik
      · exact List.pairwise_iff_getElem.1 hl.sorted i k _ _ hik
      · obtain rfl : i = k := by omega
        exact (htotal _ _).elim id id
    have hafter : ∀ a ∈ l.drop (k + 1), ¬ p a = true := by
      intro a ha hpa
      obtain ⟨i, hi, rfl⟩ := List.mem_drop_iff_getElem.1 ha
      have hle := of_decide_eq_true hpa
      refine hcut ⟨l[k], l[k + 1], List.getElem?_eq_getElem _, List.getElem?_eq_getElem _, ?_⟩
      rcases Nat.eq_zero_or_pos i with rfl | hpos
      · exact hle
      · exact htrans _ _ _ (List.pairwise_iff_getElem.1 hl.sorted (k + 1) _ _ _ (by omega)) hle
    have hcount := countP_eq_of_take hlt.le hbefore hafter
    have hcount' : l'.countP p = k + 1 := (hperm.countP_eq p).symm.trans hcount
    have hfilter := filter_eq_take (hdown hl.sorted)
    have hfilter' := filter_eq_take (hdown hl'.sorted)
    rw [hcount] at hfilter
    rw [hcount'] at hfilter'
    rw [← hfilter, ← hfilter']
    exact hperm.filter p
  · rw [List.take_of_length_le hge, List.take_of_length_le (hperm.length_eq ▸ hge)]
    exact hperm

/-! ### The pages -/

/-- The first pages together are what is before the end of the last of them. -/
theorem pages_perm_take (hn : 0 < n) {arrange : ℕ → List ρ}
    (harrange : ∀ i, Arranges le rows (arrange i)) (hl : Arranges le rows l)
    (hcut : ∀ i, ¬ Ties le l ((i + 1) * n - 1)) (k : ℕ) :
    ((List.range k).flatMap fun i => page n i (arrange i)).Perm (l.take (k * n)) := by
  have htake : ∀ j i, (l.take (j * n)).Perm ((arrange i).take (j * n)) := by
    intro j i
    rcases j with _ | j
    · simp
    · have hpos : (j + 1) * n - 1 + 1 = (j + 1) * n := by
        have := Nat.mul_le_mul_right n (Nat.le_add_left 1 j)
        omega
      rw [← hpos]
      exact take_perm htotal htrans hl (harrange i) (hcut j)
  induction k with
  | zero => simp
  | succ k ih =>
      rw [List.range_succ, List.flatMap_append, List.flatMap_singleton]
      have hpage : ((arrange k).take (k * n) ++ page n k (arrange k)) =
          (arrange k).take ((k + 1) * n) := by
        rw [page, Nat.add_mul, Nat.one_mul, List.take_add]
      have hbefore := (ih.trans (htake k k)).append_right (page n k (arrange k))
      rw [hpage] at hbefore
      exact hbefore.trans (htake (k + 1) k).symm

/-- **Exactly when each row is on one page**, in whatever orders the pages are taken: no tie is at
the end of a page. -/
theorem pages_perm_iff (hn : 0 < n) (hnodup : rows.Nodup) (hk : rows.length ≤ k * n) :
    (∀ arrange : ℕ → List ρ, (∀ i, Arranges le rows (arrange i)) →
        ((List.range k).flatMap fun i => page n i (arrange i)).Perm rows) ↔
      ∀ l, Arranges le rows l → ∀ i, ¬ Ties le l ((i + 1) * n - 1) := by
  constructor
  · rintro hpages l hl i ⟨x, y, hx, hy, htie⟩
    obtain ⟨c, hc⟩ : ∃ c, c + 1 = (i + 1) * n := ⟨(i + 1) * n - 1, by
      have := Nat.mul_le_mul_right n (Nat.le_add_left 1 i)
      omega⟩
    rw [← hc, Nat.add_sub_cancel] at hx hy
    obtain ⟨hlt, hy⟩ := List.getElem?_eq_some_iff.1 hy
    obtain ⟨_, hx⟩ := List.getElem?_eq_some_iff.1 hx
    have hsplit : l = l.take c ++ x :: y :: l.drop (c + 2) := by
      rw [← hx, ← hy, ← List.drop_eq_getElem_cons hlt, ← List.drop_eq_getElem_cons,
        List.take_append_drop]
    -- in one order the row is the last of its page, in another one it is the first of the next
    have hswap : Arranges le rows (l.take c ++ y :: x :: l.drop (c + 2)) := (hsplit ▸ hl).swap htie
    have hnodup' := (hpages
      (fun j => if j = i then l else l.take c ++ y :: x :: l.drop (c + 2)) fun j => by
        split_ifs
        · exact hl
        · exact hswap).nodup_iff.2 hnodup
    have hi : i + 1 < k := by
      have hlength := hl.perm.length_eq
      exact Nat.lt_of_mul_lt_mul_right (a := n) (by omega)
    have hdisjoint := List.pairwise_iff_getElem.1 (List.nodup_flatMap.1 hnodup').2 i (i + 1)
      (by rw [List.length_range]; omega) (by rw [List.length_range]; omega) (Nat.lt_succ_self i)
    simp only [Function.onFun, List.getElem_range, if_true, Nat.succ_ne_self, if_false] at hdisjoint
    have hmem : x ∈ page n i l := by
      refine List.mem_iff_getElem?.2 ⟨n - 1, ?_⟩
      rw [getElem?_page (by omega), ← hx]
      have hindex : i * n + (n - 1) = c := by
        rw [Nat.add_mul] at hc
        omega
      rw [hindex]
      exact List.getElem?_eq_getElem _
    have hmem' : x ∈ page n (i + 1) (l.take c ++ y :: x :: l.drop (c + 2)) := by
      refine List.mem_iff_getElem?.2 ⟨0, ?_⟩
      have hlength : (l.take c).length = c := List.length_take_of_le (by omega)
      have hindex : c + 1 + 0 - c = 1 := by omega
      rw [getElem?_page hn, ← hc, List.getElem?_append_right (by omega), hlength, hindex]
      rfl
    exact hdisjoint hmem hmem'
  · intro hcut arrange harrange
    have hl := harrange 0
    refine (pages_perm_take htotal htrans hn harrange hl (hcut _ hl) k).trans ?_
    rw [List.take_of_length_le (hl.perm.length_eq.trans_le hk)]
    exact hl.perm

end Preorder

end Pages
