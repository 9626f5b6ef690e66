/-
**Loops that end when they are told to.**

A loop reads one answer after the other.  In its `k`-th round it looks at the state that it has
reached, and either stops with a result or goes on with another state; nothing says that it ever
stops.  With bounded fuel the loop is a function, and it stops with a result if and only if some
round stops with it after all rounds before have gone on.

Main definitions:

* `Turn`, `loop` — one round, and the rounds one after the other;
* `reached` — the state that a round begins with.

Main results:

* `loop_eq_some_iff` — **what a loop stops with**;
* `loop_unique` — it stops with one result.
-/

import Mathlib.Tactic

set_option relaxedAutoImplicit false
set_option autoImplicit false

variable {σ ρ : Type}

/-- What a round does. -/
inductive Turn (σ ρ : Type)
  | stop (result : ρ)
  | next (state : σ)

/-- The rounds from the `k`-th one on; nothing if the fuel does not last. -/
def loop (turn : ℕ → σ → Turn σ ρ) : ℕ → ℕ → σ → Option ρ
  | 0, _, _ => none
  | fuel + 1, k, s =>
      match turn k s with
      | .stop result => some result
      | .next t => loop turn fuel (k + 1) t

/-- The state after `n` rounds, if none of them has stopped. -/
def reached (turn : ℕ → σ → Turn σ ρ) (start : σ) : ℕ → Option σ
  | 0 => some start
  | n + 1 =>
      match reached turn start n with
      | none => none
      | some s =>
          match turn n s with
          | .stop _ => none
          | .next t => some t

variable {turn : ℕ → σ → Turn σ ρ} {start s t : σ} {result : ρ} {fuel n : ℕ}

theorem reached_succ :
    reached turn start (n + 1) = some t ↔
      ∃ s, reached turn start n = some s ∧ turn n s = .next t := by
  rw [reached]
  cases reached turn start n with
  | none => simp
  | some s => cases hturn : turn n s <;> simp [hturn]

/-- All rounds before one that is reached are reached. -/
theorem exists_reached_of_le {m : ℕ} (h : reached turn start n = some s) (hm : m ≤ n) :
    ∃ s', reached turn start m = some s' := by
  induction n generalizing s with
  | zero => exact ⟨s, by rwa [Nat.le_zero.1 hm]⟩
  | succ n ih =>
      rcases Nat.lt_or_eq_of_le hm with hlt | rfl
      · obtain ⟨s', hs', _⟩ := reached_succ.1 h
        exact ih hs' (by omega)
      · exact ⟨s, h⟩

theorem loop_of_reached (h : reached turn start n = some s) :
    loop turn fuel n s = some result ↔
      ∃ m, n ≤ m ∧ m < n + fuel ∧ ∃ t, reached turn start m = some t ∧ turn m t = .stop result := by
  induction fuel generalizing n s with
  | zero =>
      constructor
      · nofun
      · rintro ⟨m, hle, hlt, _⟩
        omega
  | succ fuel ih =>
      cases hturn : turn n s with
      | stop r =>
          have hnone : reached turn start (n + 1) = none := by
            rw [reached, h]
            simp only [hturn]
          simp only [loop, hturn, Option.some.injEq]
          constructor
          · rintro rfl
            exact ⟨n, le_rfl, by omega, s, h, hturn⟩
          · rintro ⟨m, hle, _, t, hreached, hstop⟩
            rcases Nat.lt_or_eq_of_le hle with hlt | rfl
            · obtain ⟨t', ht'⟩ := exists_reached_of_le hreached hlt
              rw [hnone] at ht'
              cases ht'
            · obtain rfl := Option.some.inj (h.symm.trans hreached)
              rw [hturn] at hstop
              injection hstop
      | next u =>
          simp only [loop, hturn]
          rw [ih (reached_succ.2 ⟨s, h, hturn⟩)]
          constructor
          · rintro ⟨m, hle, hlt, t, hreached, hstop⟩
            exact ⟨m, by omega, by omega, t, hreached, hstop⟩
          · rintro ⟨m, hle, hlt, t, hreached, hstop⟩
            refine ⟨m, Nat.succ_le_of_lt (lt_of_le_of_ne hle ?_), by omega, t, hreached, hstop⟩
            rintro rfl
            obtain rfl := Option.some.inj (h.symm.trans hreached)
            rw [hturn] at hstop
            cases hstop

/-- **What a loop stops with**: the result of a round that is reached. -/
theorem loop_eq_some_iff :
    loop turn fuel 0 start = some result ↔
      ∃ n < fuel, ∃ s, reached turn start n = some s ∧ turn n s = .stop result := by
  have hzero : reached turn start 0 = some start := rfl
  rw [loop_of_reached hzero]
  simp only [Nat.zero_le, true_and, Nat.zero_add]

/-- Nothing is reached after a round that stops. -/
theorem le_of_stop {m : ℕ} (h : reached turn start n = some s) (hstop : turn n s = .stop result)
    (ht : reached turn start m = some t) : m ≤ n := by
  by_contra hlt
  obtain ⟨u, hu⟩ := exists_reached_of_le ht (not_le.1 hlt)
  obtain ⟨s', hs', hnext⟩ := reached_succ.1 hu
  obtain rfl := Option.some.inj (h.symm.trans hs')
  rw [hstop] at hnext
  cases hnext

/-- A loop stops in one round only, and with one result. -/
theorem stop_unique {m : ℕ} {result' : ρ} (h : reached turn start n = some s)
    (hstop : turn n s = .stop result) (h' : reached turn start m = some t)
    (hstop' : turn m t = .stop result') : n = m ∧ result = result' := by
  obtain rfl := le_antisymm (le_of_stop h' hstop' h) (le_of_stop h hstop h')
  obtain rfl := Option.some.inj (h.symm.trans h')
  rw [hstop] at hstop'
  exact ⟨rfl, Turn.stop.inj hstop'⟩

/-- Whatever the fuel is, a loop stops with one result. -/
theorem loop_unique {fuel' : ℕ} {result' : ρ} (h : loop turn fuel 0 start = some result)
    (h' : loop turn fuel' 0 start = some result') : result = result' := by
  obtain ⟨n, _, s, hs, hstop⟩ := loop_eq_some_iff.1 h
  obtain ⟨m, _, t, ht, hstop'⟩ := loop_eq_some_iff.1 h'
  exact (stop_unique hs hstop ht hstop').2
