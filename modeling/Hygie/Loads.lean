/-
**Loading rows into a table.**

A table with unique keys holds rows that are apart: no two of them clash.  A row is loaded either in
place of those that it clashes with, or not at all if it clashes with one.  Rows that are apart are
all there when they have been loaded; of the rows that were there before, those are left that clash
with none of them.

Main definitions:

* `Loads.Apart` — no two rows clash;
* `Loads.replaceRow`, `Loads.ignoreRow` — the two ways to load a row;
* `Loads.upsertRow` — updating the row that it clashes with.

Main results:

* `Loads.Apart.foldl_replaceRow` — loaded rows are apart;
* `Loads.foldl_replaceRow` — **what replacing leaves**;
* `Loads.foldl_ignoreRow` — **what passing over leaves**;
* `Loads.upsertRow_perm_replaceRow_iff` — **when updating is replacing**;
* `Loads.Apart.of_subperm` — rows among others that are apart;
* `Loads.foldlM_update` — tables that are written one after the other.
-/

import Mathlib.Data.List.Perm.Subperm
import Mathlib.Logic.Function.Basic
import Mathlib.Tactic

set_option relaxedAutoImplicit false
set_option autoImplicit false

namespace Loads

variable {ρ : Type} {clash : ρ → ρ → Bool} {rows base l l' : List ρ} {row : ρ}

/-- No two rows clash. -/
def Apart (clash : ρ → ρ → Bool) (rows : List ρ) : Prop :=
    rows.Pairwise fun a b => clash a b = false

/-- `REPLACE INTO`: the row takes the place of those that it clashes with. -/
def replaceRow (clash : ρ → ρ → Bool) (rows : List ρ) (row : ρ) : List ρ :=
  rows.filter (fun old => !clash old row) ++ [row]

/-- `INSERT OR IGNORE`: a row that clashes with one is passed over. -/
def ignoreRow (clash : ρ → ρ → Bool) (rows : List ρ) (row : ρ) : List ρ :=
  if rows.any (clash · row) then rows else rows ++ [row]

/-- `INSERT … ON DUPLICATE KEY UPDATE`: the row that it clashes with is updated, and it is added
where it clashes with none. -/
def upsertRow (clash : ρ → ρ → Bool) (merge : ρ → ρ → ρ) (rows : List ρ) (row : ρ) : List ρ :=
  if rows.any (clash · row) then rows.map fun old => if clash old row then merge old row else old
  else rows ++ [row]

/-! ### Replacing -/

theorem Apart.replaceRow (h : Apart clash rows) : Apart clash (replaceRow clash rows row) := by
  refine List.pairwise_append.2 ⟨List.Pairwise.filter _ h, List.pairwise_singleton _ _, ?_⟩
  intro old hold new hnew
  rw [List.mem_singleton.1 hnew]
  exact Bool.not_eq_true' _ ▸ (List.mem_filter.1 hold).2

/-- Loaded rows are apart. -/
theorem Apart.foldl_replaceRow (h : Apart clash base) :
    Apart clash (rows.foldl (Loads.replaceRow clash) base) := by
  induction rows generalizing base with
  | nil => exact h
  | cons row rows ih => exact ih h.replaceRow

theorem mem_foldl_replaceRow (h : row ∈ rows.foldl (replaceRow clash) base) :
    row ∈ base ∨ row ∈ rows := by
  induction rows generalizing base with
  | nil => exact .inl h
  | cons new rows ih =>
      rcases ih h with hbase | hrows
      · rcases List.mem_append.1 hbase with hold | hnew
        · exact .inl (List.mem_filter.1 hold).1
        · exact .inr (List.mem_singleton.1 hnew ▸ List.mem_cons_self ..)
      · exact .inr (List.mem_cons_of_mem _ hrows)

/-- **What replacing leaves**: of the rows that were there those that clash with none of the others,
and all of the others if they are apart. -/
theorem foldl_replaceRow (h : Apart clash rows) :
    rows.foldl (replaceRow clash) base =
      base.filter (fun old => rows.all fun row => !clash old row) ++ rows := by
  induction rows generalizing base with
  | nil => simp
  | cons row rows ih =>
      obtain ⟨hrow, hrows⟩ := List.pairwise_cons.1 h
      have hkept : [row].filter (fun old => rows.all fun row => !clash old row) = [row] := by
        refine List.filter_eq_self.2 fun old hold => List.all_eq_true.2 fun new hnew => ?_
        rw [List.mem_singleton.1 hold, hrow new hnew]
        rfl
      rw [List.foldl_cons, ih hrows, replaceRow, List.filter_append, hkept, List.filter_filter,
        List.append_assoc, List.singleton_append]
      simp only [List.all_cons, Bool.and_comm]

/-! ### Updating in place of replacing -/

/-- **When updating is replacing**, for an engine that may take more rows for clashing than the
other one, one row at most: it takes the same row, the update makes of it what is inserted, and
where there is none, it inserts the same. -/
theorem upsertRow_perm_replaceRow_iff {clash' : ρ → ρ → Bool} {merge : ρ → ρ → ρ} {row' : ρ}
    (hle : ∀ old ∈ rows, clash old row = true → clash' old row' = true)
    (hone : rows.Pairwise fun a b => ¬(clash' a row' = true ∧ clash' b row' = true)) :
    (upsertRow clash' merge rows row').Perm (replaceRow clash rows row) ↔
      ((∀ old ∈ rows, clash' old row' = false) → row' = row) ∧
        ∀ old ∈ rows, clash' old row' = true → clash old row = true ∧ merge old row' = row := by
  unfold upsertRow replaceRow
  by_cases hany : rows.any (clash' · row') = true
  · rw [if_pos hany]
    obtain ⟨old, hold, hclash⟩ := List.any_eq_true.1 hany
    obtain ⟨a, b, rfl⟩ := List.append_of_mem hold
    have hothers : ∀ r ∈ a ++ b, clash' r row' = false := by
      intro r hr
      rw [List.pairwise_append, List.pairwise_cons] at hone
      obtain ⟨-, ⟨hafter, -⟩, hbefore⟩ := hone
      by_contra hne
      rw [Bool.not_eq_false] at hne
      rcases List.mem_append.1 hr with ha | hb
      · exact hbefore r ha old List.mem_cons_self ⟨hne, hclash⟩
      · exact hafter r hb ⟨hclash, hne⟩
    have hexact : ∀ r ∈ a ++ b, clash r row = false := by
      intro r hr
      by_contra hne
      rw [Bool.not_eq_false] at hne
      have hmem : r ∈ a ++ old :: b := by
        rcases List.mem_append.1 hr with ha | hb
        · exact List.mem_append_left _ ha
        · exact List.mem_append_right _ (List.mem_cons_of_mem _ hb)
      exact Bool.false_ne_true ((hothers r hr).symm.trans (hle r hmem hne))
    -- only the row in the middle changes
    have hmap : ∀ l : List ρ, (∀ r ∈ l, clash' r row' = false) →
        (l.map fun old => if clash' old row' then merge old row' else old) = l := by
      intro l hl
      conv_rhs => rw [← List.map_id l]
      refine List.map_congr_left fun r hr => ?_
      rw [hl r hr]
      rfl
    have hfilter : ∀ l : List ρ, (∀ r ∈ l, clash r row = false) →
        l.filter (fun old => !clash old row) = l := by
      intro l hl
      refine List.filter_eq_self.2 fun r hr => ?_
      rw [hl r hr]
      rfl
    have hcond : (∀ old' ∈ a ++ old :: b, clash' old' row' = true →
        clash old' row = true ∧ merge old' row' = row) ↔
        clash old row = true ∧ merge old row' = row := by
      constructor
      · intro h
        exact h old hold hclash
      · intro h r hr hr'
        rcases List.mem_append.1 hr with ha | hb
        · exact absurd ((hothers r (List.mem_append_left _ ha)).symm.trans hr') Bool.false_ne_true
        · rcases List.mem_cons.1 hb with rfl | hb
          · exact h
          · exact absurd ((hothers r (List.mem_append_right _ hb)).symm.trans hr')
              Bool.false_ne_true
    have hvacuous : (∀ old' ∈ a ++ old :: b, clash' old' row' = false) → row' = row := fun h =>
      absurd ((h old hold).symm.trans hclash) Bool.false_ne_true
    rw [hcond, List.map_append, List.map_cons, if_pos hclash,
      hmap a fun r hr => hothers r (List.mem_append_left _ hr),
      hmap b fun r hr => hothers r (List.mem_append_right _ hr), List.filter_append,
      List.filter_cons, hfilter a fun r hr => hexact r (List.mem_append_left _ hr),
      hfilter b fun r hr => hexact r (List.mem_append_right _ hr)]
    cases hold' : clash old row with
    | true =>
        have hright : (a ++ b ++ [row]).Perm (row :: (a ++ b)) := List.perm_append_singleton _ _
        have hleft : (a ++ merge old row' :: b).Perm (merge old row' :: (a ++ b)) :=
          List.perm_middle
        simp only [Bool.not_true, Bool.false_eq_true, if_false, true_and]
        constructor
        · intro hperm
          refine ⟨hvacuous, ?_⟩
          have hcons := hleft.symm.trans (hperm.trans hright)
          exact (Multiset.cons_inj_left (↑(a ++ b) : Multiset ρ)).1 (Multiset.coe_eq_coe.2 hcons)
        · rintro ⟨-, hmerge⟩
          rw [hmerge] at hleft ⊢
          exact hleft.trans hright.symm
    | false =>
        -- one row more on one side
        simp only [Bool.not_false, if_true, Bool.false_eq_true, false_and, and_false, iff_false]
        intro hperm
        have hlen := hperm.length_eq
        simp only [List.length_append, List.length_cons, List.length_nil] at hlen
        omega
  · have hnone : ∀ old ∈ rows, clash' old row' = false := by
      intro old hold
      by_contra hne
      exact hany (List.any_eq_true.2 ⟨old, hold, by rwa [Bool.not_eq_false] at hne⟩)
    have hfilter : rows.filter (fun old => !clash old row) = rows := by
      refine List.filter_eq_self.2 fun old hold => ?_
      by_contra hne
      have hclash : clash old row = true := by simpa using hne
      exact Bool.false_ne_true ((hnone old hold).symm.trans (hle old hold hclash))
    rw [if_neg hany, hfilter, List.perm_append_left_iff, List.perm_singleton, List.cons.injEq]
    constructor
    · rintro ⟨heq, -⟩
      exact ⟨fun _ => heq, fun old hold h =>
        absurd ((hnone old hold).symm.trans h) Bool.false_ne_true⟩
    · rintro ⟨heq, -⟩
      exact ⟨heq hnone, rfl⟩

/-! ### Passing over -/

/-- **What passing over leaves**: rows that are apart are all loaded. -/
theorem foldl_ignoreRow (h : Apart clash (base ++ rows)) :
    rows.foldl (ignoreRow clash) base = base ++ rows := by
  induction rows generalizing base with
  | nil => exact (List.append_nil _).symm
  | cons row rows ih =>
      have hfree : base.any (clash · row) = false := by
        refine List.any_eq_false.2 fun old hold hclash => ?_
        have hapart := (List.pairwise_append.1 h).2.2 old hold row (List.mem_cons_self ..)
        exact Bool.false_ne_true (hapart.symm.trans hclash)
      have happend : base ++ row :: rows = (base ++ [row]) ++ rows := by
        rw [List.append_assoc, List.singleton_append]
      rw [List.foldl_cons, ignoreRow, hfree, if_neg Bool.false_ne_true, happend]
      exact ih (happend ▸ h)

/-! ### Rows among others -/

theorem Apart.perm (hsymm : ∀ a b, clash a b = clash b a) (h : Apart clash l) (hperm : l.Perm l') :
    Apart clash l' :=
  (hperm.pairwise_iff fun hab => (hsymm _ _).trans hab).1 h

/-- Rows among others that are apart are apart. -/
theorem Apart.of_subperm (hsymm : ∀ a b, clash a b = clash b a) (h : Apart clash l)
    (hsub : l'.Subperm l) : Apart clash l' := by
  obtain ⟨l'', hperm, hsublist⟩ := hsub
  exact Apart.perm hsymm (h.sublist hsublist) hperm

theorem subperm_map {ρ' : Type} (f : ρ → ρ') (h : l'.Subperm l) : (l'.map f).Subperm (l.map f) := by
  obtain ⟨l'', hperm, hsublist⟩ := h
  exact ⟨l''.map f, hperm.map f, hsublist.map f⟩

/-! ### Tables that are loaded one after the other -/

/-- Tables that are written each for itself. -/
theorem foldlM_update {κ τ : Type} [DecidableEq κ] {write : κ → Option τ} {names : List κ}
    {out out' : κ → τ} :
    names.foldlM (fun out name => (write name).map (Function.update out name)) out = some out' ↔
      (∀ name ∈ names, (write name).isSome = true) ∧
        out' = fun name => if name ∈ names then (write name).getD (out name) else out name := by
  induction names generalizing out with
  | nil =>
      constructor
      · exact fun h => ⟨fun _ => nofun, (Option.some.inj h).symm⟩
      · exact fun h => congrArg some h.2.symm
  | cons name names ih =>
      rw [List.foldlM_cons]
      cases hwrite : write name with
      | none =>
          refine iff_of_false (Option.some_ne_none out').symm fun h => ?_
          have hsome := h.1 name (List.mem_cons_self ..)
          rw [hwrite] at hsome
          exact Bool.false_ne_true hsome
      | some table =>
          rw [Option.map_some, Option.bind_eq_bind, Option.bind_some, ih,
            List.forall_mem_cons, hwrite,
            Option.isSome_some, eq_self_iff_true, true_and]
          refine and_congr_right fun _ => Eq.congr_right (funext fun other => ?_)
          by_cases hother : other = name
          · subst hother
            by_cases hmem : other ∈ names <;> simp [hmem, hwrite]
          · simp [hother]

end Loads
