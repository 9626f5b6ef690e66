/-
**Runs whose steps all meet a condition.**

A system is a partial step function on states and labelled actions: `step s a` is the state after
action `a`, or nothing when `a` cannot happen in `s`.  A condition `ok` on a state and the action
taken in it singles out runs, and a property may hold along those runs only.  The invariant rule
says what one step has to preserve.  Processes that come one after the other are kept in a list; one
comes at its end, and one that makes a step is set in its place.

Main definitions:

* `GuardedRun` — the runs whose steps all meet a condition;
* `runAll` — the state after given actions.

Main results:

* `GuardedRun.invariant` — **the invariant rule**;
* `GuardedRun.of_runAll` — actions that can be taken are a run;
* `GuardedRun.exists_of_append` — a run passes through a state after any of its actions;
* `getElem?_concat_cases`, `getElem?_set_cases` — who is in a list after one has come or has made a
  step.
-/

import Mathlib.Tactic

set_option relaxedAutoImplicit false
set_option autoImplicit false

variable {σ α : Type}

/-- The runs from one state to another: each action meets `ok` in the state in which it is taken. -/
inductive GuardedRun (step : σ → α → Option σ) (ok : σ → α → Prop) (s : σ) : List α → σ → Prop
  | nil : GuardedRun step ok s [] s
  | snoc {t u : σ} {as : List α} {a : α} (hrun : GuardedRun step ok s as t) (hok : ok t a)
      (hstep : step t a = some u) : GuardedRun step ok s (as ++ [a]) u

/-- The state after the given actions, if they can be taken one after the other. -/
def runAll (step : σ → α → Option σ) : σ → List α → Option σ
  | s, [] => some s
  | s, a :: as => (step s a).bind fun t => runAll step t as

namespace GuardedRun

variable {step : σ → α → Option σ} {ok : σ → α → Prop} {s t : σ} {as : List α}

/-- **The invariant rule**: what holds at the start and is preserved by every permitted step holds
at the end of every run. -/
theorem invariant {I : σ → Prop} (hrun : GuardedRun step ok s as t) (hstart : I s)
    (hkeep : ∀ s a t, I s → ok s a → step s a = some t → I t) : I t := by
  induction hrun with
  | nil => exact hstart
  | snoc _ hok hstep ih => exact hkeep _ _ _ ih hok hstep

/-- One more action at the beginning. -/
theorem cons {u : σ} {a : α} (hok : ok s a) (hstep : step s a = some t)
    (hrun : GuardedRun step ok t as u) : GuardedRun step ok s (a :: as) u := by
  induction hrun with
  | nil => exact snoc .nil hok hstep
  | snoc _ hok' hstep' ih => exact snoc ih hok' hstep'

/-- Actions that can be taken one after the other are a run. -/
theorem of_runAll (h : runAll step s as = some t) : GuardedRun step (fun _ _ => True) s as t := by
  induction as generalizing s with
  | nil =>
      obtain rfl := Option.some.inj h
      exact .nil
  | cons a as ih =>
      obtain ⟨u, hstep, hrun⟩ := Option.bind_eq_some_iff.1 h
      exact cons trivial hstep (ih hrun)

/-- A run leads to the one state that its actions lead to. -/
theorem runAll_eq (hrun : GuardedRun step ok s as t) : runAll step s as = some t := by
  have happend : ∀ (as : List α) (a : α) (s : σ),
      runAll step s (as ++ [a]) = (runAll step s as).bind fun t => step t a := by
    intro as a
    induction as with
    | nil => exact fun s => by cases h : step s a <;> simp [runAll, h]
    | cons b as ih =>
        intro s
        cases h : step s b <;> simp [runAll, h, ih]
  induction hrun with
  | nil => rfl
  | snoc _ _ hstep ih => rw [happend, ih, Option.bind_some, hstep]

/-- The last action. -/
theorem concat_iff {u : σ} {a : α} : GuardedRun step ok s (as ++ [a]) u ↔
    ∃ t, GuardedRun step ok s as t ∧ ok t a ∧ step t a = some u := by
  constructor
  · intro hrun
    generalize hactions : as ++ [a] = actions at hrun
    cases hrun with
    | nil => simp at hactions
    | snoc hrun hok hstep =>
        obtain ⟨rfl, hlast⟩ := List.append_inj' hactions rfl
        obtain rfl := List.singleton_inj.1 hlast
        exact ⟨_, hrun, hok, hstep⟩
  · rintro ⟨t, hrun, hok, hstep⟩
    exact .snoc hrun hok hstep

/-- A run passes through a state after any of its actions. -/
theorem exists_of_append {bs : List α} {u : σ} (hrun : GuardedRun step ok s (as ++ bs) u) :
    ∃ t, GuardedRun step ok s as t ∧ GuardedRun step ok t bs u := by
  induction bs using List.reverseRecOn generalizing u with
  | nil => exact ⟨u, List.append_nil as ▸ hrun, .nil⟩
  | append_singleton bs b ih =>
      rw [← List.append_assoc] at hrun
      obtain ⟨t, hbefore, hok, hstep⟩ := concat_iff.1 hrun
      obtain ⟨r, has, hbs⟩ := ih hbefore
      exact ⟨r, has, .snoc hbs hok hstep⟩

end GuardedRun

/-! ### Processes in a list -/

section Processes

variable {l : List α} {a x : α} {i j : ℕ}

/-- After one has come, each one was there before, or is the new one. -/
theorem getElem?_concat_cases (h : (l ++ [a])[i]? = some x) :
    l[i]? = some x ∨ i = l.length ∧ a = x := by
  rcases lt_or_ge i l.length with hlt | hge
  · rw [List.getElem?_append_left hlt] at h
    exact .inl h
  · rw [List.getElem?_append_right hge, List.getElem?_singleton] at h
    split_ifs at h with hzero
    exact .inr ⟨by omega, Option.some.inj h⟩

/-- After one has made a step, each one is that one in its new state, or another one as it was. -/
theorem getElem?_set_cases (h : (l.set i a)[j]? = some x) :
    i = j ∧ a = x ∨ i ≠ j ∧ l[j]? = some x := by
  rw [List.getElem?_set] at h
  split_ifs at h with hij hlt
  · exact .inl ⟨hij, Option.some.inj h⟩
  · exact .inr ⟨hij, h⟩

/-- After one has been modified, each one is that one, or another one as it was. -/
theorem getElem?_modify_cases {f : α → α} (h : (l.modify i f)[j]? = some x) :
    ∃ y, l[j]? = some y ∧ (i = j ∧ f y = x ∨ i ≠ j ∧ y = x) := by
  rw [List.getElem?_modify, Option.map_eq_map, Option.map_eq_some_iff] at h
  obtain ⟨y, hy, hx⟩ := h
  refine ⟨y, hy, ?_⟩
  split_ifs at hx with hij
  · exact .inl ⟨hij, hx⟩
  · exact .inr ⟨hij, hx⟩

/-- How many of different ones have a property, when only one of them changes. -/
theorem countP_add_toNat (hnodup : l.Nodup) (hx : x ∈ l) {p q : α → Bool}
    (hothers : ∀ y ∈ l, y ≠ x → p y = q y) :
    l.countP p + (q x).toNat = l.countP q + (p x).toNat := by
  induction l with
  | nil => simp at hx
  | cons y l ih =>
      obtain ⟨hy, hl⟩ := List.nodup_cons.1 hnodup
      simp only [List.countP_cons]
      rcases List.mem_cons.1 hx with rfl | hx
      · have hsame : l.countP p = l.countP q := by
          refine List.countP_congr fun z hz => ?_
          rw [hothers z (List.mem_cons_of_mem _ hz) fun h => hy (h ▸ hz)]
        rw [hsame]
        cases p x <;> cases q x <;> simp
      · have hne : y ≠ x := fun h => hy (h ▸ hx)
        have ih := ih hl hx fun z hz => hothers z (List.mem_cons_of_mem _ hz)
        rw [hothers y List.mem_cons_self hne]
        omega

/-- How many have one of two properties that exclude each other. -/
theorem countP_or_of_disjoint {p q : α → Bool} (h : ∀ y ∈ l, p y = true → q y = false) :
    l.countP (fun y => p y || q y) = l.countP p + l.countP q := by
  induction l with
  | nil => rfl
  | cons y l ih =>
      have ih := ih fun z hz => h z (List.mem_cons_of_mem _ hz)
      have hy := h y List.mem_cons_self
      simp only [List.countP_cons, ih]
      cases hp : p y with
      | false =>
          simp only [Bool.false_or, Bool.false_eq_true, if_false]
          omega
      | true =>
          rw [hy hp]
          simp only [Bool.or_false, if_true, Bool.false_eq_true, if_false]
          omega

end Processes
