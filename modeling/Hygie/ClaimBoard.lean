/-
**Claims on a shared table.**

Several tasks work on the keys of one table.  A task that wants to work on a key first claims it, by
a write that succeeds only while the status of the key is `free` and leaves it `taken`; it works on
the key, and its last write gives the key another status and the claim up.  Other parties do not
keep to this: they *visit* a key without a claim, work on it and write the status `final` in the
end, or they set taken keys free.

`Board` is the abstract state, a status for every key and, for every task, the key it holds, the key
it visits and the key it works on.  `Board.apply` is what each kind of move does and `Board.Allows`
when it can happen.

Main definitions:

* `Board`, `Move`, `Board.apply`, `Board.Allows` — the table and its moves;
* `Board.Orderly`, `Board.Exclusive` — the moves that respect claims, and what they keep;
* `Board.Undisturbed`, `Board.Secure` — the moves that leave held keys to their holders, and what
  they keep;
* `Board.Orphan` — a taken key that nobody holds.

Main results:

* `Board.exclusive_apply` — **at most one task works on a key**;
* `Board.secure_apply`, `Board.final_apply`, `Board.taken_apply` — **a status changes only at the
  hands of the holder** or of a reset;
* `Board.orphan_of_apply` — **a key is orphaned only by a task that abandons it**.
-/

import Mathlib.Logic.Function.Basic
import Mathlib.Tactic

set_option relaxedAutoImplicit false
set_option autoImplicit false

variable {κ τ β : Type}

/-- The status of every key, and what every task holds, visits and works on. -/
structure Board (κ τ β : Type) where
  status : κ → β
  holds : τ → Option κ
  visits : τ → Option κ
  works : τ → Option κ

/-- The moves: of a task that keeps to the protocol, and of the parties that do not. -/
inductive Move (κ τ β : Type)
  | idle
  | claim (t : τ) (k : κ)
  | begin (t : τ)
  | finish (t : τ)
  | record (t : τ) (k : κ) (b : β)
  | abandon (t : τ)
  | visit (t : τ) (k : κ)
  | intrude (t : τ) (k : κ)
  | overwrite (t : τ) (k : κ)
  | withdraw (t : τ)
  | recover
  | reset (keys : κ → Bool)

namespace Board

section Moves

variable (free taken final : β)

/-- What a move does. -/
def apply [DecidableEq κ] [DecidableEq τ] [DecidableEq β] (s : Board κ τ β) :
    Move κ τ β → Board κ τ β
  | .idle => s
  | .claim t k =>
      { s with status := Function.update s.status k taken
               holds := Function.update s.holds t (some k) }
  | .begin t => { s with works := Function.update s.works t (s.holds t) }
  | .finish t => { s with works := Function.update s.works t none }
  | .record t k b =>
      { s with status := Function.update s.status k b, holds := Function.update s.holds t none }
  | .abandon t =>
      { s with holds := Function.update s.holds t none, visits := Function.update s.visits t none
               works := Function.update s.works t none }
  | .visit t k => { s with visits := Function.update s.visits t (some k) }
  | .intrude t k =>
      { s with visits := Function.update s.visits t (some k)
               works := Function.update s.works t (some k) }
  | .overwrite t k =>
      { s with status := Function.update s.status k final
               visits := Function.update s.visits t none }
  | .withdraw t => { s with visits := Function.update s.visits t none }
  | .recover => { s with status := fun k => if s.status k = taken then free else s.status k }
  | .reset keys => { s with status := fun k => if keys k then free else s.status k }

/-- When a move can happen. -/
def Allows (s : Board κ τ β) : Move κ τ β → Prop
  | .claim t k => s.status k = free ∧ s.holds t = none
  | .record t k b => s.holds t = some k ∧ s.works t = none ∧ b ≠ taken
  | .overwrite t k => s.visits t = some k
  | _ => True

end Moves

variable {free taken final : β} {s : Board κ τ β} {m : Move κ τ β}

/-! ### At most one task on a key -/

/-- The moves that respect claims: a key is claimed only while nobody works on it, somebody without
a claim starts on a key only while nobody holds it or works on it, and keys are set free only while
nobody holds them. -/
def Orderly (s : Board κ τ β) : Move κ τ β → Prop
  | .claim _ k => ∀ u, s.works u ≠ some k
  | .intrude _ k => ∀ u, s.holds u ≠ some k ∧ s.works u ≠ some k
  | .recover => ∀ u, s.holds u = none
  | .reset keys => ∀ u k, s.holds u = some k → keys k = false
  | _ => True

/-- A held key is not free and has one holder, and whoever works on a key holds it or is alone. -/
structure Exclusive (free : β) (s : Board κ τ β) : Prop where
  not_free : ∀ {t k}, s.holds t = some k → s.status k ≠ free
  holder : ∀ {t u k}, s.holds t = some k → s.holds u = some k → t = u
  worker : ∀ {t k}, s.works t = some k →
    s.holds t = some k ∨ ∀ u, u ≠ t → s.holds u ≠ some k ∧ s.works u ≠ some k

/-- **At most one task works on a key.** -/
theorem Exclusive.unique (h : Exclusive free s) {t u : τ} {k : κ} (ht : s.works t = some k)
    (hu : s.works u = some k) : t = u := by
  by_contra hne
  rcases h.worker ht with hheld | halone
  · rcases h.worker hu with hheld' | halone'
    · exact hne (h.holder hheld hheld')
    · exact (halone' t hne).1 hheld
  · exact (halone u fun hut => hne hut.symm).2 hu

section Decidable

variable [DecidableEq κ] [DecidableEq τ] [DecidableEq β]

/-- Moves that respect claims keep it so. -/
theorem exclusive_apply (hft : free ≠ taken) (hfinal : final ≠ free) (h : Exclusive free s)
    (hallows : s.Allows free taken m) (horderly : s.Orderly m) :
    Exclusive free (s.apply free taken final m) := by
  have hnot_free := @h.not_free
  have hholder := @h.holder
  have hworker := @h.worker
  cases m with
  | idle => exact h
  | claim t k =>
      -- nobody holds a free key, and by the condition nobody works on it
      have hunheld : ∀ u, s.holds u ≠ some k := fun u hu => h.not_free hu hallows.1
      have hidle : ∀ u, s.works u ≠ some k := horderly
      constructor <;> simp only [apply, Function.update_apply] <;> grind
  | begin t => constructor <;> simp only [apply, Function.update_apply] <;> grind
  | finish t => constructor <;> simp only [apply, Function.update_apply] <;> grind
  | record t k b =>
      -- the holder was the only one, so that nobody holds the key afterwards
      obtain ⟨hheld, hstopped, -⟩ := hallows
      have halone : ∀ u, u ≠ t → s.holds u ≠ some k := fun u hne hu => hne (h.holder hu hheld)
      constructor <;> simp only [apply, Function.update_apply] <;> grind
  | abandon t => constructor <;> simp only [apply, Function.update_apply] <;> grind
  | intrude t k =>
      have hidle : ∀ u, s.holds u ≠ some k ∧ s.works u ≠ some k := horderly
      constructor <;> simp only [apply, Function.update_apply] <;> grind
  | overwrite t k => constructor <;> simp only [apply, Function.update_apply] <;> grind
  | visit t k => exact ⟨hnot_free, hholder, hworker⟩
  | withdraw t => exact ⟨hnot_free, hholder, hworker⟩
  | recover =>
      have hunheld : ∀ u, s.holds u = none := horderly
      constructor <;> simp only [apply] <;> grind
  | reset keys =>
      have hspared : ∀ u k, s.holds u = some k → keys k = false := horderly
      constructor <;> simp only [apply] <;> grind

end Decidable

/-! ### Who changes a status -/

/-- The moves that leave held keys to their holders: a key is claimed only while nobody visits it, a
visit starts only while the key is neither taken nor final, and keys are set free only while nobody
holds them. -/
def Undisturbed (taken final : β) (s : Board κ τ β) : Move κ τ β → Prop
  | .claim _ k => ∀ u, s.visits u ≠ some k
  | .visit _ k | .intrude _ k => s.status k ≠ taken ∧ s.status k ≠ final
  | .recover => ∀ u, s.holds u = none
  | .reset keys => ∀ u k, s.holds u = some k → keys k = false
  | _ => True

/-- A held key is taken and has one holder, and a visited key is not taken. -/
structure Secure (taken : β) (s : Board κ τ β) : Prop where
  held_taken : ∀ {t k}, s.holds t = some k → s.status k = taken
  holder : ∀ {t u k}, s.holds t = some k → s.holds u = some k → t = u
  visited : ∀ {t k}, s.visits t = some k → s.status k ≠ taken

section Decidable

variable [DecidableEq κ] [DecidableEq τ] [DecidableEq β]

/-- Undisturbed moves keep it so. -/
theorem secure_apply (hft : free ≠ taken) (hfinal : final ≠ taken) (h : Secure taken s)
    (hallows : s.Allows free taken m) (hundisturbed : s.Undisturbed taken final m) :
    Secure taken (s.apply free taken final m) := by
  have hheld_taken := @h.held_taken
  have hholder := @h.holder
  have hvisited := @h.visited
  cases m with
  | idle => exact h
  | claim t k =>
      obtain ⟨hfree, hnone⟩ := hallows
      have hunheld : ∀ u, s.holds u ≠ some k := fun u hu => hft (hfree.symm.trans (h.held_taken hu))
      have hunvisited : ∀ u, s.visits u ≠ some k := hundisturbed
      constructor <;> simp only [apply, Function.update_apply] <;> grind
  | begin t => exact ⟨hheld_taken, hholder, hvisited⟩
  | finish t => exact ⟨hheld_taken, hholder, hvisited⟩
  | record t k b =>
      obtain ⟨hheld, -, hb⟩ := hallows
      have halone : ∀ u, u ≠ t → s.holds u ≠ some k := fun u hne hu => hne (h.holder hu hheld)
      constructor <;> simp only [apply, Function.update_apply] <;> grind
  | abandon t => constructor <;> simp only [apply, Function.update_apply] <;> grind
  | visit t k =>
      have hfree : s.status k ≠ taken := hundisturbed.1
      constructor <;> simp only [apply, Function.update_apply] <;> grind
  | intrude t k =>
      have hfree : s.status k ≠ taken := hundisturbed.1
      constructor <;> simp only [apply, Function.update_apply] <;> grind
  | overwrite t k =>
      -- a visited key is not taken, so that nobody holds it
      have hunheld : ∀ u, s.holds u ≠ some k := fun u hu => h.visited hallows (h.held_taken hu)
      constructor <;> simp only [apply, Function.update_apply] <;> grind
  | withdraw t => constructor <;> simp only [apply, Function.update_apply] <;> grind
  | recover =>
      have hunheld : ∀ u, s.holds u = none := hundisturbed
      constructor <;> simp only [apply] <;> grind
  | reset keys =>
      have hspared : ∀ u k, s.holds u = some k → keys k = false := hundisturbed
      constructor <;> simp only [apply] <;> grind

/-- **A final key** keeps its status until it is reset. -/
theorem final_apply (hfree : final ≠ free) (htaken : final ≠ taken) (h : Secure taken s)
    (hallows : s.Allows free taken m) {k : κ} (hk : s.status k = final) :
    (s.apply free taken final m).status k = final ∨
      ∃ keys, m = .reset keys ∧ keys k = true ∧ (s.apply free taken final m).status k = free := by
  cases m with
  | claim t j =>
      have hne : k ≠ j := fun hkj => hfree (hk.symm.trans (hkj ▸ hallows.1))
      simp only [apply, Function.update_apply, if_neg hne]
      exact .inl hk
  | record t j b =>
      -- a held key is taken, so that the key is not the one that is held
      have hne : k ≠ j := fun hkj => htaken (hk.symm.trans (h.held_taken (hkj ▸ hallows.1)))
      simp only [apply, Function.update_apply, if_neg hne]
      exact .inl hk
  | overwrite t j =>
      simp only [apply, Function.update_apply]
      split_ifs
      · exact .inl rfl
      · exact .inl hk
  | recover =>
      simp only [apply, hk, if_neg htaken]
      exact .inl trivial
  | reset keys =>
      cases hkeys : keys k with
      | true => exact .inr ⟨keys, rfl, hkeys, by simp [apply, hkeys]⟩
      | false => exact .inl (by simp [apply, hkeys, hk])
  | idle => exact .inl hk
  | begin t => exact .inl hk
  | finish t => exact .inl hk
  | abandon t => exact .inl hk
  | visit t j => exact .inl hk
  | intrude t j => exact .inl hk
  | withdraw t => exact .inl hk

/-- **Nobody starts to work on a final key.** -/
theorem final_idle (htaken : final ≠ taken) (h : Secure taken s)
    (hundisturbed : s.Undisturbed taken final m) {k : κ} (hk : s.status k = final) {t : τ}
    (ht : (s.apply free taken final m).works t = some k) : s.works t = some k := by
  have hunheld : ∀ u, s.holds u ≠ some k := fun u hu => htaken (hk.symm.trans (h.held_taken hu))
  cases m with
  | begin u =>
      simp only [apply, Function.update_apply] at ht
      split_ifs at ht
      · exact absurd ht (hunheld u)
      · exact ht
  | finish u =>
      simp only [apply, Function.update_apply] at ht
      split_ifs at ht
      exact ht
  | abandon u =>
      simp only [apply, Function.update_apply] at ht
      split_ifs at ht
      exact ht
  | intrude u j =>
      have hne : j ≠ k := fun hjk => hundisturbed.2 (hjk ▸ hk)
      simp only [apply, Function.update_apply] at ht
      split_ifs at ht
      · exact absurd (Option.some.inj ht) hne
      · exact ht
  | idle => exact ht
  | claim u j => exact ht
  | record u j b => exact ht
  | visit u j => exact ht
  | overwrite u j => exact ht
  | withdraw u => exact ht
  | recover => exact ht
  | reset keys => exact ht

/-- **A taken key** changes its status at the hands of its holder, or when it is set free. -/
theorem taken_apply (h : Secure taken s) (hallows : s.Allows free taken m) {k : κ}
    (hk : s.status k = taken) (hchanged : (s.apply free taken final m).status k ≠ taken) :
    (∃ t b, m = .record t k b ∧ s.holds t = some k) ∨ m = .recover ∨
      ∃ keys, m = .reset keys ∧ keys k = true := by
  cases m with
  | claim t j =>
      simp only [apply, Function.update_apply] at hchanged
      split_ifs at hchanged
      · exact absurd rfl hchanged
      · exact absurd hk hchanged
  | record t j b =>
      by_cases hkj : k = j
      · subst hkj
        exact .inl ⟨t, b, rfl, hallows.1⟩
      · simp only [apply, Function.update_apply, if_neg hkj] at hchanged
        exact absurd hk hchanged
  | overwrite t j =>
      -- a visited key is not taken
      have hne : k ≠ j := fun hkj => h.visited hallows (hkj ▸ hk)
      simp only [apply, Function.update_apply, if_neg hne] at hchanged
      exact absurd hk hchanged
  | recover => exact .inr (.inl rfl)
  | reset keys =>
      cases hkeys : keys k with
      | true => exact .inr (.inr ⟨keys, rfl, hkeys⟩)
      | false => exact absurd hk (by simpa [apply, hkeys] using hchanged)
  | idle => exact absurd hk hchanged
  | begin t => exact absurd hk hchanged
  | finish t => exact absurd hk hchanged
  | abandon t => exact absurd hk hchanged
  | visit t j => exact absurd hk hchanged
  | intrude t j => exact absurd hk hchanged
  | withdraw t => exact absurd hk hchanged

end Decidable

/-! ### Orphans -/

/-- An orphan: a taken key that nobody holds. -/
def Orphan (taken : β) (s : Board κ τ β) (k : κ) : Prop :=
  s.status k = taken ∧ ∀ t, s.holds t ≠ some k

section Decidable

variable [DecidableEq κ] [DecidableEq τ] [DecidableEq β]

/-- **A key is orphaned only by a task that abandons it.** -/
theorem orphan_of_apply (hft : free ≠ taken) (hfinal : final ≠ taken)
    (hallows : s.Allows free taken m) (hkept : ∀ t, m = .abandon t → s.holds t = none) {k : κ}
    (h : Orphan taken (s.apply free taken final m) k) : Orphan taken s k := by
  obtain ⟨hk, hunheld⟩ := h
  cases m with
  | claim t j =>
      have hne : k ≠ j := by
        rintro rfl
        exact hunheld t (by simp [apply])
      simp only [apply, Function.update_apply, if_neg hne] at hk hunheld
      refine ⟨hk, fun u hu => ?_⟩
      have hut : u ≠ t := by
        rintro rfl
        simp [hallows.2] at hu
      exact hunheld u (by rw [if_neg hut, hu])
  | record t j b =>
      -- what is recorded is no longer taken
      have hne : k ≠ j := by
        rintro rfl
        exact hallows.2.2 (by simpa [apply] using hk)
      simp only [apply, Function.update_apply, if_neg hne] at hk hunheld
      refine ⟨hk, fun u hu => ?_⟩
      have hut : u ≠ t := by
        rintro rfl
        exact hne (Option.some.inj (hu.symm.trans hallows.1))
      exact hunheld u (by rw [if_neg hut, hu])
  | abandon t =>
      refine ⟨hk, fun u hu => ?_⟩
      have hut : u ≠ t := by
        rintro rfl
        simp [hkept u rfl] at hu
      exact hunheld u (by simp [apply, hut, hu])
  | overwrite t j =>
      have hne : k ≠ j := by
        rintro rfl
        exact hfinal (by simpa [apply] using hk)
      simp only [apply, Function.update_apply, if_neg hne] at hk
      exact ⟨hk, hunheld⟩
  | recover =>
      simp only [apply] at hk
      split_ifs at hk with htaken
      · exact ⟨htaken, hunheld⟩
      · exact ⟨hk, hunheld⟩
  | reset keys =>
      simp only [apply] at hk
      split_ifs at hk
      · exact absurd hk hft
      · exact ⟨hk, hunheld⟩
  | idle => exact ⟨hk, hunheld⟩
  | begin t => exact ⟨hk, hunheld⟩
  | finish t => exact ⟨hk, hunheld⟩
  | visit t j => exact ⟨hk, hunheld⟩
  | intrude t j => exact ⟨hk, hunheld⟩
  | withdraw t => exact ⟨hk, hunheld⟩

/-- The only holder of a taken key orphans it by abandoning it. -/
theorem orphan_of_abandon {t : τ} {k : κ} (hk : s.status k = taken)
    (hholder : ∀ u, s.holds u = some k → u = t) :
    Orphan taken (s.apply free taken final (.abandon t)) k := by
  refine ⟨hk, fun u hu => ?_⟩
  simp only [apply, Function.update_apply] at hu
  split_ifs at hu with hut
  exact hut (hholder u hu)

end Decidable

end Board
