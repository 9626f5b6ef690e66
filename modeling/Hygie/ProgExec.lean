/-
**Programs among services that change.**

`Prog.play` confronts a program with fixed answers.  Services that do what they are asked change:
their answer to a query, and what they hold afterwards, depend on what they hold.  `Prog.exec` runs
a program against such a service and returns the outcome with the state that is left.

The rules below say what an operation does from what its parts do.  A lookup, whose queries change
nothing, is covered by its weakest precondition: `exec_of_wp`.

Main definitions:

* `Prog.exec` — a program against a service with a state;
* `Prog.lookup` — what a program that may find something finds in a state.

Main results:

* `exec_bind_ok`, `exec_tryCatch_error`, `exec_retry_ok` — **the rules**;
* `exec_firstSome` — a search through a list is a search through the list of its results;
* `exec_of_wp` — **the weakest precondition bounds what a lookup returns**, and it leaves the state.
-/

import Hygie.Prog

set_option relaxedAutoImplicit false
set_option autoImplicit false

namespace Prog

variable {Q : Type} {A : Q → Type} {ε α β σ τ : Type}

/-- The outcome of a program and the state that it leaves. -/
def exec (serve : ∀ q, σ → A q × σ) : Prog Q A ε α → σ → Except ε α × σ
  | ret a, s => (.ok a, s)
  | raise e, s => (.error e, s)
  | ask q k, s => exec serve (k (serve q s).1) (serve q s).2

/-- What a program finds, if it finds something. -/
def lookup (serve : ∀ q, σ → A q × σ) (x : Prog Q A ε (Option α)) (s : σ) : Option α :=
  match (exec serve x s).1 with
  | .ok found => found
  | .error _ => none

variable {serve : ∀ q, σ → A q × σ} {x y : Prog Q A ε α} {f : α → Prog Q A ε β} {s s' : σ} {a : α}
  {e : ε}

/-! ### The rules -/

@[simp] theorem exec_pure (a : α) (s : σ) :
    exec serve (pure a : Prog Q A ε α) s = (.ok a, s) := rfl

@[simp] theorem exec_throw (e : ε) (s : σ) :
    exec serve (throw e : Prog Q A ε α) s = (.error e, s) := rfl

@[simp] theorem exec_perform (q : Q) (s : σ) :
    exec serve (perform q : Prog Q A ε (A q)) s = (.ok (serve q s).1, (serve q s).2) := rfl

theorem exec_bind_ok (h : exec serve x s = (.ok a, s')) :
    exec serve (x >>= f) s = exec serve (f a) s' := by
  induction x generalizing s with
  | ret b =>
      cases h
      rfl
  | raise e => cases h
  | ask q k ih => exact ih _ h

theorem exec_bind_error (h : exec serve x s = (.error e, s')) :
    exec serve (x >>= f) s = (.error e, s') := by
  induction x generalizing s with
  | ret b => cases h
  | raise e =>
      cases h
      rfl
  | ask q k ih => exact ih _ h

theorem exec_map_ok {g : α → β} (h : exec serve x s = (.ok a, s')) :
    exec serve (g <$> x) s = (.ok (g a), s') := by
  rw [← bind_pure_comp, exec_bind_ok h, exec_pure]

theorem exec_map_error {g : α → β} (h : exec serve x s = (.error e, s')) :
    exec serve (g <$> x) s = (.error e, s') := by
  rw [← bind_pure_comp, exec_bind_error h]

theorem exec_tryCatch_ok {h : ε → Prog Q A ε α} (hx : exec serve x s = (.ok a, s')) :
    exec serve (tryCatch x h) s = (.ok a, s') := by
  induction x generalizing s with
  | ret b => exact hx
  | raise e => cases hx
  | ask q k ih => exact ih _ hx

theorem exec_tryCatch_error {h : ε → Prog Q A ε α} (hx : exec serve x s = (.error e, s')) :
    exec serve (tryCatch x h) s = exec serve (h e) s' := by
  induction x generalizing s with
  | ret b => cases hx
  | raise e =>
      cases hx
      rfl
  | ask q k ih => exact ih _ hx

/-- Nothing is tried again after a success. -/
theorem exec_retry_ok {transient : ε → Bool} {n : ℕ} (h : exec serve x s = (.ok a, s')) :
    exec serve (retry transient x n) s = (.ok a, s') := by
  cases n with
  | zero => exact h
  | succ n => exact exec_tryCatch_ok h

/-- An attempt that fails without a trace fails as often as it is tried. -/
theorem exec_retry_error {transient : ε → Bool} {n : ℕ} (h : exec serve x s = (.error e, s)) :
    exec serve (retry transient x n) s = (.error e, s) := by
  induction n with
  | zero => exact h
  | succ n ih =>
      rw [retry, exec_tryCatch_error h]
      split_ifs
      · exact ih
      · rfl

/-- A loop whose steps leave the state. -/
theorem exec_foldlM {f : α → τ → Prog Q A ε α} {g : α → τ → α} {l : List τ}
    (h : ∀ t ∈ l, ∀ a, exec serve (f a t) s = (.ok (g a t), s)) (a : α) :
    exec serve (l.foldlM f a) s = (.ok (l.foldl g a), s) := by
  induction l generalizing a with
  | nil => rfl
  | cons t l ih =>
      rw [List.foldlM_cons, exec_bind_ok (h t (List.mem_cons_self ..) a), List.foldl_cons]
      exact ih (fun t ht => h t (List.mem_cons_of_mem _ ht)) _

/-- A search through a list whose members are lookups. -/
theorem exec_firstSome {f : τ → Prog Q A ε (Option α)} {g : τ → Option α} {l : List τ}
    (h : ∀ t ∈ l, exec serve (f t) s = (.ok (g t), s)) :
    exec serve (firstSome f l) s = (.ok (l.findSome? g), s) := by
  induction l with
  | nil => rfl
  | cons t l ih =>
      rw [firstSome, exec_bind_ok (h t (List.mem_cons_self ..)), List.findSome?_cons]
      cases g t with
      | some b => rfl
      | none => exact ih fun t ht => h t (List.mem_cons_of_mem _ ht)

/-! ### Lookups -/

/-- A program whose queries change nothing leaves the state, and what it ends with is covered by its
weakest precondition. -/
theorem exec_of_wp {W : ∀ q, A q → Prop} {P : Q → Prop} {R : α → Prop} {E : ε → Prop}
    (hserve : ∀ q, W q (serve q s).1) (hP : ∀ q, P q → (serve q s).2 = s)
    (h : wp W P x R E) :
    (∃ a, exec serve x s = (.ok a, s) ∧ R a) ∨ ∃ e, exec serve x s = (.error e, s) ∧ E e := by
  have hrun := wp_iff.1 h
  clear h
  induction x with
  | ret a => exact .inl ⟨a, rfl, (hrun _ _ (.ret a)).2⟩
  | raise e => exact .inr ⟨e, rfl, (hrun _ _ (.raise e)).2⟩
  | ask q k ih =>
      have hq : P q := (hrun _ _ (.cancel q k)).1 q (List.mem_singleton_self q)
      have hstep : exec serve (ask q k) s = exec serve (k (serve q s).1) s := by
        rw [exec, hP q hq]
      rw [hstep]
      refine ih _ fun t o ht => ?_
      have hall := hrun _ _ (.ask (hserve q) ht)
      exact ⟨fun q' hq' => hall.1 q' (List.mem_cons_of_mem _ hq'), hall.2⟩

/-- A lookup that never raises. -/
theorem Searches.exec {W : ∀ q, A q → Prop} {P : Q → Prop} {z : Prog Q A ε (Option α)}
    {F : α → Prop} (h : Searches W P z F False) (hserve : ∀ q, W q (serve q s).1)
    (hP : ∀ q, P q → (serve q s).2 = s) :
    Prog.exec serve z s = (.ok (lookup serve z s), s) ∧ ∀ b, lookup serve z s = some b → F b := by
  have hwp : wp W P z (fun r => ∀ b, r = some b → F b) fun _ => False :=
    (h _ _).2 ⟨nofun, fun b hb _ heq => Option.some.inj heq ▸ hb, id⟩
  rcases exec_of_wp hserve hP hwp with ⟨r, hr, hfound⟩ | ⟨_, _, hfalse⟩
  · have hlookup : lookup serve z s = r := by simp only [lookup, hr]
    rw [hlookup]
    exact ⟨hr, hfound⟩
  · exact hfalse.elim

end Prog
