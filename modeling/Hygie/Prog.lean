/-
**Programs that ask their surroundings.**

A program that drives external services is a tree: it returns, raises an exception, or asks a
*query* and goes on with the answer.  `Prog Q A ε α` is the type of such programs, for queries `Q`,
answers `A q`, exceptions `ε` and values `α`.  What the surroundings may answer is a relation
`W q r`, and every behaviour of a program among surroundings `W` is one derivation of
`Prog.Run W`: the queries it asked, in order, and how it ended.  A program may be cancelled at any
query, after the query has left; no `except` clause sees that.

The module gives the operations and the weakest precondition `Prog.wp`.  It is exact: `Prog.wp_iff`
says that it holds if and only if every run is as required, and every rule below is an
equivalence.  So the same rules prove that a program is safe and compute when it is not.

Main definitions:

* `Prog`, `Prog.perform`, `Prog.firstSome`, `Prog.retry` — programs, one query, and two loops;
* `Prog.Run` — the behaviours of a program;
* `Prog.play` — the behaviour against given answers;
* `Prog.wp`, `Prog.Always` — the weakest precondition, and its case for the queries alone;
* `Prog.Searches` — a lookup that may come back with nothing or with something it can find.

Main results:

* `Prog.wp_iff` — **the weakest precondition is about all runs**;
* `Prog.wp_bind`, `Prog.wp_tryCatch`, `Prog.wp_retry` — **the rules**;
* `Prog.Searches.firstSome`, `Prog.Searches.tryCatch` — lookups over a list, and guarded lookups;
* `Prog.run_play` — playing against permitted answers is a run.
-/

import Mathlib.Tactic

set_option relaxedAutoImplicit false
set_option autoImplicit false

/-- A program: it returns, raises an exception, or asks `q` and goes on with the answer. -/
inductive Prog (Q : Type) (A : Q → Type) (ε α : Type) : Type
  | ret (a : α)
  | raise (e : ε)
  | ask (q : Q) (k : A q → Prog Q A ε α)

namespace Prog

variable {Q : Type} {A : Q → Type} {ε α β σ : Type}

/-! ### Operations -/

/-- Running `f` on the value of a program; an exception ends the sequence. -/
protected def bind : Prog Q A ε α → (α → Prog Q A ε β) → Prog Q A ε β
  | ret a, f => f a
  | raise e, _ => raise e
  | ask q k, f => ask q fun r => (k r).bind f

/-- `try: x except e: h e`. -/
def handle : Prog Q A ε α → (ε → Prog Q A ε α) → Prog Q A ε α
  | ret a, _ => ret a
  | raise e, h => h e
  | ask q k, h => ask q fun r => (k r).handle h

instance : Monad (Prog Q A ε) where
  pure := ret
  bind := Prog.bind

instance : MonadExceptOf ε (Prog Q A ε) where
  throw := raise
  tryCatch := handle

/-- Ask `q` and return the answer. -/
def perform (q : Q) : Prog Q A ε (A q) := ask q ret

/-- Try the members of a list in order and return the first result found. -/
def firstSome (f : σ → Prog Q A ε (Option β)) : List σ → Prog Q A ε (Option β)
  | [] => pure none
  | s :: l => do
      match ← f s with
      | some b => pure (some b)
      | none => firstSome f l

/-- Attempt `x`, then, while the exception is transient, attempt it up to `n` more times. -/
def retry (transient : ε → Bool) (x : Prog Q A ε α) : ℕ → Prog Q A ε α
  | 0 => x
  | n + 1 => tryCatch x fun e => if transient e then retry transient x n else throw e

instance : LawfulMonad (Prog Q A ε) := LawfulMonad.mk' (Prog Q A ε)
  (by
    intro α x
    show Prog.bind x (fun a => ret (id a)) = x
    induction x with
    | ret a => rfl
    | raise e => rfl
    | ask q k ih => exact congrArg (ask q) (funext fun r => ih r))
  (fun _ _ => rfl)
  (by
    intro α β γ x f g
    show Prog.bind (Prog.bind x f) g = Prog.bind x fun a => Prog.bind (f a) g
    induction x with
    | ret a => rfl
    | raise e => rfl
    | ask q k ih => exact congrArg (ask q) (funext fun r => ih r))

/-! ### Runs -/

/-- How a run ends. -/
inductive Outcome (ε α : Type)
  | returned (a : α)
  | raised (e : ε)
  | cancelled
  deriving DecidableEq

/-- **The behaviours of a program** among surroundings that answer as `W` permits: the queries
asked, in order, and how it ended. -/
inductive Run (W : ∀ q, A q → Prop) : Prog Q A ε α → List Q → Outcome ε α → Prop
  | ret (a : α) : Run W (.ret a) [] (.returned a)
  | raise (e : ε) : Run W (.raise e) [] (.raised e)
  | cancel (q : Q) (k : A q → Prog Q A ε α) : Run W (.ask q k) [q] .cancelled
  | ask {q : Q} {k : A q → Prog Q A ε α} {r : A q} {t : List Q} {o : Outcome ε α}
      (hr : W q r) (h : Run W (k r) t o) : Run W (.ask q k) (q :: t) o

/-- The queries and the outcome against the given answers. -/
def play (answer : ∀ q, A q) : Prog Q A ε α → List Q × Outcome ε α
  | ret a => ([], .returned a)
  | raise e => ([], .raised e)
  | ask q k =>
      let (t, o) := play answer (k (answer q))
      (q :: t, o)

/-- Playing against permitted answers is a run. -/
theorem run_play {W : ∀ q, A q → Prop} {answer : ∀ q, A q} (h : ∀ q, W q (answer q))
    (x : Prog Q A ε α) : Run W x (play answer x).1 (play answer x).2 := by
  induction x with
  | ret a => exact .ret a
  | raise e => exact .raise e
  | ask q k ih => exact .ask (h q) (ih (answer q))

/-! ### The weakest precondition -/

/-- Every query asked satisfies `P`, every value returned `R` and every exception raised `E`. -/
def wp (W : ∀ q, A q → Prop) (P : Q → Prop) :
    Prog Q A ε α → (α → Prop) → (ε → Prop) → Prop
  | ret a, R, _ => R a
  | raise e, _, E => E e
  | ask q k, R, E => P q ∧ ∀ r, W q r → wp W P (k r) R E

/-- What a run must end with: a value in `R`, or an exception in `E`, or a cancellation. -/
def Outcome.Meets (R : α → Prop) (E : ε → Prop) : Outcome ε α → Prop
  | returned a => R a
  | raised e => E e
  | cancelled => True

/-- In every run every query satisfies `P`. -/
def Always (W : ∀ q, A q → Prop) (P : Q → Prop) (x : Prog Q A ε α) : Prop :=
  ∀ t o, Run W x t o → ∀ q ∈ t, P q

variable {W : ∀ q, A q → Prop} {P : Q → Prop} {R R' : α → Prop} {E E' : ε → Prop}

/-- **The weakest precondition is about all runs.** -/
theorem wp_iff {x : Prog Q A ε α} :
    wp W P x R E ↔ ∀ t o, Run W x t o → (∀ q ∈ t, P q) ∧ o.Meets R E := by
  induction x with
  | ret a =>
      constructor
      · rintro h t o ⟨⟩
        exact ⟨by simp, h⟩
      · intro h
        exact (h _ _ (.ret a)).2
  | raise e =>
      constructor
      · rintro h t o ⟨⟩
        exact ⟨by simp, h⟩
      · intro h
        exact (h _ _ (.raise e)).2
  | ask q k ih =>
      constructor
      · rintro ⟨hq, h⟩ t o hrun
        cases hrun with
        | cancel => exact ⟨by simpa using hq, trivial⟩
        | ask hr hrun =>
            obtain ⟨ht, ho⟩ := (ih _).1 (h _ hr) _ _ hrun
            exact ⟨by simpa using ⟨hq, ht⟩, ho⟩
      · intro h
        refine ⟨(h _ _ (.cancel q k)).1 q (List.mem_cons_self ..), fun r hr => (ih r).2 ?_⟩
        intro t o hrun
        obtain ⟨ht, ho⟩ := h _ _ (.ask hr hrun)
        exact ⟨fun p hp => ht p (List.mem_cons_of_mem _ hp), ho⟩

theorem always_iff_wp {x : Prog Q A ε α} :
    Always W P x ↔ wp W P x (fun _ => True) (fun _ => True) := by
  rw [wp_iff, Always]
  refine forall₃_congr fun t o _ => ?_
  cases o <;> simp [Outcome.Meets]

theorem wp_mono {x : Prog Q A ε α} (hR : ∀ a, R a → R' a) (hE : ∀ e, E e → E' e)
    (h : wp W P x R E) : wp W P x R' E' := by
  induction x with
  | ret a => exact hR a h
  | raise e => exact hE e h
  | ask q k ih => exact ⟨h.1, fun r hr => ih r (h.2 r hr)⟩

theorem wp_congr {x : Prog Q A ε α} (hR : ∀ a, R a ↔ R' a) (hE : ∀ e, E e ↔ E' e) :
    wp W P x R E ↔ wp W P x R' E' :=
  ⟨wp_mono (fun a => (hR a).1) fun e => (hE e).1, wp_mono (fun a => (hR a).2) fun e => (hE e).2⟩

@[simp] theorem wp_pure (a : α) : wp W P (pure a : Prog Q A ε α) R E ↔ R a := Iff.rfl

@[simp] theorem wp_throw (e : ε) : wp W P (throw e : Prog Q A ε α) R E ↔ E e := Iff.rfl

@[simp] theorem wp_perform (q : Q) {R : A q → Prop} :
    wp W P (perform q) R E ↔ P q ∧ ∀ r, W q r → R r := Iff.rfl

/-- **Sequencing.** -/
@[simp] theorem wp_bind (x : Prog Q A ε α) (f : α → Prog Q A ε β) {R : β → Prop} :
    wp W P (x >>= f) R E ↔ wp W P x (fun a => wp W P (f a) R E) E := by
  show wp W P (Prog.bind x f) R E ↔ _
  induction x with
  | ret a => rfl
  | raise e => rfl
  | ask q k ih => exact and_congr_right fun _ => forall₂_congr fun r _ => ih r

@[simp] theorem wp_map (g : α → β) (x : Prog Q A ε α) {R : β → Prop} :
    wp W P (g <$> x) R E ↔ wp W P x (fun a => R (g a)) E := by
  rw [← bind_pure_comp, wp_bind]; simp

/-- **Catching.** -/
@[simp] theorem wp_tryCatch (x : Prog Q A ε α) (h : ε → Prog Q A ε α) :
    wp W P (tryCatch x h) R E ↔ wp W P x R fun e => wp W P (h e) R E := by
  show wp W P (handle x h) R E ↔ _
  induction x with
  | ret a => rfl
  | raise e => rfl
  | ask q k ih => exact and_congr_right fun _ => forall₂_congr fun r _ => ih r

@[simp] theorem wp_ite (c : Prop) [Decidable c] (x y : Prog Q A ε α) :
    wp W P (if c then x else y) R E ↔ (c → wp W P x R E) ∧ (¬ c → wp W P y R E) := by
  split_ifs with h <;> simp [h]

@[simp] theorem wp_firstSome_nil (f : σ → Prog Q A ε (Option β)) {R : Option β → Prop} :
    wp W P (firstSome f []) R E ↔ R none := Iff.rfl

theorem wp_firstSome_cons (f : σ → Prog Q A ε (Option β)) (s : σ) (l : List σ)
    {R : Option β → Prop} :
    wp W P (firstSome f (s :: l)) R E ↔
      wp W P (f s) (fun r => match r with
        | some b => R (some b)
        | none => wp W P (firstSome f l) R E) E := by
  rw [firstSome, wp_bind]
  refine wp_congr (fun r => ?_) fun _ => Iff.rfl
  cases r <;> rfl

/-! ### Programs whose queries are all as required -/

namespace Always

/-- When every query is as required, only the outcomes remain. -/
theorem wp {x : Prog Q A ε α} (h : Always W P x) (hR : ∀ a, R a) (hE : ∀ e, E e) :
    Prog.wp W P x R E :=
  wp_mono (fun a _ => hR a) (fun e _ => hE e) (always_iff_wp.1 h)

/-- Nothing at all is required of the queries. -/
protected theorem trivial (x : Prog Q A ε α) : Always W (fun _ => True) x :=
  fun _ _ _ _ _ => True.intro

protected theorem pure (a : α) : Always W P (pure a : Prog Q A ε α) :=
  always_iff_wp.2 ((wp_pure a).2 trivial)

protected theorem bind {x : Prog Q A ε α} {f : α → Prog Q A ε β} (hx : Always W P x)
    (hf : ∀ a, Always W P (f a)) : Always W P (x >>= f) :=
  always_iff_wp.2 ((wp_bind x f).2 (hx.wp (fun a => always_iff_wp.1 (hf a)) fun _ => trivial))

protected theorem tryCatch {x : Prog Q A ε α} {h : ε → Prog Q A ε α} (hx : Always W P x)
    (hh : ∀ e, Always W P (h e)) : Always W P (tryCatch x h) :=
  always_iff_wp.2 ((wp_tryCatch x h).2 (hx.wp (fun _ => trivial) fun e => always_iff_wp.1 (hh e)))

protected theorem ite {c : Prop} [Decidable c] {x y : Prog Q A ε α} (hx : c → Always W P x)
    (hy : ¬ c → Always W P y) : Always W P (if c then x else y) := by
  split_ifs with h
  · exact hx h
  · exact hy h

protected theorem firstSome {f : σ → Prog Q A ε (Option β)} {l : List σ}
    (h : ∀ s ∈ l, Always W P (f s)) : Always W P (firstSome f l) := by
  induction l with
  | nil => exact .pure none
  | cons s l ih =>
      refine .bind (h s (List.mem_cons_self ..)) fun r => ?_
      cases r with
      | some b => exact .pure _
      | none => exact ih fun t ht => h t (List.mem_cons_of_mem _ ht)

end Always

/-- Two requirements on one program are one. -/
theorem wp_and {x : Prog Q A ε α} (h : wp W P x R E) (h' : wp W P x R' E') :
    wp W P x (fun a => R a ∧ R' a) (fun e => E e ∧ E' e) := by
  rw [wp_iff] at h h' ⊢
  intro t o hrun
  refine ⟨(h t o hrun).1, ?_⟩
  have ho := (h t o hrun).2
  have ho' := (h' t o hrun).2
  cases o with
  | returned a => exact ⟨ho, ho'⟩
  | raised e => exact ⟨ho, ho'⟩
  | cancelled => trivial

/-- Among surroundings that always have an answer, a program comes to some end. -/
theorem exists_of_wp (hW : ∀ q, ∃ r, W q r) {x : Prog Q A ε α} (h : wp W P x R E) :
    (∃ a, R a) ∨ ∃ e, E e := by
  induction x with
  | ret a => exact .inl ⟨a, h⟩
  | raise e => exact .inr ⟨e, h⟩
  | ask q k ih =>
      obtain ⟨r, hr⟩ := hW q
      exact ih r (h.2 r hr)

/-- What a condition that does not depend on the exception demands, split off. -/
theorem wp_const_iff {x : Prog Q A ε α} {C : Prop} :
    wp W P x R (fun _ => C) ↔
      wp W P x R (fun _ => True) ∧ (wp W P x R (fun _ => False) ∨ C) := by
  by_cases hC : C
  · simp [hC]
  · simp only [hC, or_false]
    exact ⟨fun h => ⟨wp_mono (fun _ => id) (fun _ => False.elim) h, h⟩, And.right⟩

/-- **Retrying** demands no more than one attempt, when any exception will do. -/
theorem wp_retry {transient : ε → Bool} {x : Prog Q A ε α} {C : Prop} (n : ℕ) :
    wp W P (retry transient x n) R (fun _ => C) ↔ wp W P x R (fun _ => C) := by
  induction n with
  | zero => rfl
  | succ n ih =>
      simp only [retry, wp_tryCatch, wp_ite, wp_throw, ih]
      constructor
      · intro h
        rw [wp_const_iff]
        refine ⟨wp_mono (fun _ => id) (fun _ _ => trivial) h, ?_⟩
        by_contra hno
        rw [not_or] at hno
        refine hno.1 (wp_mono (fun _ => id) (fun e he => ?_) h)
        by_cases ht : transient e = true
        · refine hno.1 (wp_mono (fun _ => id) (fun _ hc => hno.2 hc) (he.1 ht))
        · exact hno.2 (he.2 ht)
      · intro h
        exact wp_mono (fun _ => id) (fun _ hc => ⟨fun _ => h, fun _ => hc⟩) h

/-! ### Lookups -/

/-- A lookup that may always come back with nothing, may come back with anything `Found`, and may
raise an exception when `Fails`. -/
def Searches (W : ∀ q, A q → Prop) (P : Q → Prop) (x : Prog Q A ε (Option β))
    (Found : β → Prop) (Fails : Prop) : Prop :=
  ∀ (R : Option β → Prop) (C : Prop),
    wp W P x R (fun _ => C) ↔ R none ∧ (∀ b, Found b → R (some b)) ∧ (Fails → C)

namespace Searches

variable {x : Prog Q A ε (Option β)} {F F' : β → Prop} {m m' : Prop}

theorem congr (h : Searches W P x F m) (hF : ∀ b, F b ↔ F' b) (hm : m ↔ m') :
    Searches W P x F' m' := by
  intro R C
  rw [h R C]
  simp only [hF, hm]

/-- A lookup, where coming back with nothing and an exception will both do. -/
theorem wp_of_none (h : Searches W P x F m) {R : Option β → Prop} {C : Prop} (hnone : R none)
    (hC : C) : wp W P x R (fun _ => C) ↔ ∀ b, F b → R (some b) := by
  rw [h R C]
  exact ⟨fun h => h.2.1, fun h => ⟨hnone, h, fun _ => hC⟩⟩

/-- The queries of a lookup are as required. -/
protected theorem always (h : Searches W P x F m) : Always W P x :=
  always_iff_wp.2 ((h _ True).2 ⟨trivial, fun _ _ => trivial, fun _ => trivial⟩)

/-- Coming back with nothing at once. -/
protected theorem none : Searches W P (pure none : Prog Q A ε (Option β)) (fun _ => False) False :=
  fun R C => by simp

protected theorem ite {c : Prop} [Decidable c] {y : Prog Q A ε (Option β)} {G : β → Prop}
    {n : Prop} (hx : c → Searches W P x F m) (hy : ¬ c → Searches W P y G n) :
    Searches W P (if c then x else y) (fun b => (c ∧ F b) ∨ (¬ c ∧ G b)) ((c ∧ m) ∨ (¬ c ∧ n)) := by
  intro R C
  by_cases hc : c
  · simp [hc, hx hc R C]
  · simp [hc, hy hc R C]

/-- **A guarded lookup**: an exception means that nothing was found. -/
protected theorem tryCatch (h : Searches W P x F m) :
    Searches W P (tryCatch x fun _ => pure none) F False := by
  intro R C
  simp only [wp_tryCatch, wp_pure, h R (R none), false_implies, and_true]
  exact ⟨fun h => ⟨h.1, h.2.1⟩, fun h => ⟨h.1, h.2, fun _ => h.1⟩⟩

/-- **A lookup through a list**: anything that one of its members finds may be found, since the
lookups before it may come back with nothing. -/
protected theorem firstSome {f : σ → Prog Q A ε (Option β)} {F : σ → β → Prop} {m : σ → Prop}
    {l : List σ} (h : ∀ s ∈ l, Searches W P (f s) (F s) (m s)) :
    Searches W P (Prog.firstSome f l) (fun b => ∃ s ∈ l, F s b) (∃ s ∈ l, m s) := by
  intro R C
  induction l with
  | nil => simp
  | cons s l ih =>
      rw [wp_firstSome_cons, h s (List.mem_cons_self ..) _ C,
        ih fun t ht => h t (List.mem_cons_of_mem _ ht)]
      simp only [List.mem_cons, exists_eq_or_imp, or_imp, forall_and]
      tauto

/-- A lookup, and a second one when the first has found nothing. -/
protected theorem orElse {k : Option β → Prog Q A ε (Option β)} {G : β → Prop} {n : Prop}
    (hx : Searches W P x F m) (hy : Searches W P (k none) G n)
    (hk : ∀ b, k (some b) = pure (some b)) :
    Searches W P (x >>= k) (fun b => F b ∨ G b) (m ∨ n) := by
  intro R C
  rw [wp_bind, hx]
  simp only [hk, wp_pure, hy R C, or_imp, forall_and]
  tauto

/-- A lookup followed by another that starts from what the first has found. -/
protected theorem bind {k : Option β → Prog Q A ε (Option σ)} {G : β → σ → Prop}
    {n : β → Prop} (hx : Searches W P x F m)
    (hf : ∀ b, F b → Searches W P (k (some b)) (G b) (n b)) (hk : k none = pure none) :
    Searches W P (x >>= k) (fun c => ∃ b, F b ∧ G b c) (m ∨ ∃ b, F b ∧ n b) := by
  intro R C
  rw [wp_bind, hx, hk]
  simp only [wp_pure]
  constructor
  · rintro ⟨hnone, hsome, hm⟩
    refine ⟨hnone, ?_, ?_⟩
    · rintro c ⟨b, hb, hc⟩
      exact ((hf b hb R C).1 (hsome b hb)).2.1 c hc
    · rintro (hm' | ⟨b, hb, hn⟩)
      · exact hm hm'
      · exact ((hf b hb R C).1 (hsome b hb)).2.2 hn
  · rintro ⟨hnone, hsome, hm⟩
    refine ⟨hnone, fun b hb => (hf b hb R C).2 ⟨hnone, ?_, ?_⟩, fun h => hm (.inl h)⟩
    · exact fun c hc => hsome c ⟨b, hb, hc⟩
    · exact fun hn => hm (.inr ⟨b, hb, hn⟩)

end Searches

-- From here on the weakest precondition is computed by its rules, never by unfolding a program.
attribute [irreducible] wp

end Prog
