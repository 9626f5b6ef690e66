/-
**Programs among services that may do one thing or another.**

`Prog.exec` runs a program against a service that does one thing.  Here a service is a relation:
`serve q s r t` says that in state `s` it may answer the query `q` with `r` and be in state `t`
afterwards.  A cancellation is an exception like any other one; it may be the answer to a query.

`Prog.after serve x R E s` says that every run of `x` from `s` ends as required: it returns a value
and leaves a state as `R` says, or raises an exception and leaves a state as `E` says.  Every rule
is an equivalence, except the one for loops, which asks for an invariant.

Main definitions:

* `Prog.Reaches` — the runs of a program, with the state that they leave;
* `Prog.after` — what holds after every run;
* `Prog.attempt`, `Prog.finallyDo` — `try … finally`;
* `Prog.recording` — a service whose state is the list of what was asked and answered.

Main results:

* `after_iff` — **what holds after every run**, in terms of the runs;
* `after_bind`, `after_tryCatch`, `after_finallyDo` — **the rules**;
* `after_foldlM` — **the rule for loops**;
* `reaches_exec` — a service that does one thing.
-/

import Hygie.ProgExec

set_option relaxedAutoImplicit false
set_option autoImplicit false

namespace Prog

variable {Q : Type} {A : Q → Type} {ε α β σ τ : Type}

/-! ### `try … finally` -/

/-- The outcome of a program, as a value. -/
def attempt (x : Prog Q A ε α) : Prog Q A ε (Except ε α) :=
  tryCatch (Except.ok <$> x) fun e => pure (.error e)

/-- Ending as an outcome says. -/
def resume : Except ε α → Prog Q A ε α
  | .ok a => pure a
  | .error e => throw e

/-- `try: x finally: f`. -/
def finallyDo (x : Prog Q A ε α) (f : Prog Q A ε Unit) : Prog Q A ε α := do
  let outcome ← attempt x
  f
  resume outcome

/-! ### Runs -/

/-- **The runs of a program**: how it ends, and in which state. -/
inductive Reaches (serve : ∀ q, σ → A q → σ → Prop) : Prog Q A ε α → σ → Except ε α → σ → Prop
  | ret (a : α) (s : σ) : Reaches serve (.ret a) s (.ok a) s
  | raise (e : ε) (s : σ) : Reaches serve (.raise e) s (.error e) s
  | ask {q : Q} {k : A q → Prog Q A ε α} {s t u : σ} {r : A q} {o : Except ε α}
      (hserve : serve q s r t) (hrun : Reaches serve (k r) t o u) : Reaches serve (.ask q k) s o u

/-- What an outcome and the state with it must satisfy. -/
def EndsIn (R : α → σ → Prop) (E : ε → σ → Prop) : Except ε α → σ → Prop
  | .ok a, s => R a s
  | .error e, s => E e s

/-- Every run from a state ends as required. -/
def after (serve : ∀ q, σ → A q → σ → Prop) :
    Prog Q A ε α → (α → σ → Prop) → (ε → σ → Prop) → σ → Prop
  | ret a, R, _, s => R a s
  | raise e, _, E, s => E e s
  | ask q k, R, E, s => ∀ r t, serve q s r t → after serve (k r) R E t

variable {serve : ∀ q, σ → A q → σ → Prop} {R R' : α → σ → Prop} {E E' : ε → σ → Prop} {s t : σ}

/-- **What holds after every run.** -/
theorem after_iff {x : Prog Q A ε α} :
    after serve x R E s ↔ ∀ o t, Reaches serve x s o t → EndsIn R E o t := by
  induction x generalizing s with
  | ret a =>
      constructor
      · rintro h o t ⟨⟩
        exact h
      · intro h
        exact h _ _ (.ret a s)
  | raise e =>
      constructor
      · rintro h o t ⟨⟩
        exact h
      · intro h
        exact h _ _ (.raise e s)
  | ask q k ih =>
      constructor
      · rintro h o t (_ | _ | ⟨hserve, hrun⟩)
        exact (ih _).1 (h _ _ hserve) o t hrun
      · intro h r u hserve
        exact (ih r).2 fun o t hrun => h o t (.ask hserve hrun)

/-- A service that does one thing. -/
theorem reaches_exec {act : ∀ q, σ → A q × σ} {x : Prog Q A ε α}
    (hact : ∀ q s, serve q s (act q s).1 (act q s).2) :
    Reaches serve x s (exec act x s).1 (exec act x s).2 := by
  induction x generalizing s with
  | ret a => exact .ret a s
  | raise e => exact .raise e s
  | ask q k ih => exact .ask (hact q s) (ih _)

/-! ### The rules -/

@[simp] theorem after_pure (a : α) :
    after serve (pure a : Prog Q A ε α) R E s ↔ R a s := Iff.rfl

@[simp] theorem after_throw (e : ε) :
    after serve (throw e : Prog Q A ε α) R E s ↔ E e s := Iff.rfl

@[simp] theorem after_perform (q : Q) {R : A q → σ → Prop} :
    after serve (perform q) R E s ↔ ∀ r t, serve q s r t → R r t := Iff.rfl

/-- **Sequencing.** -/
@[simp] theorem after_bind (x : Prog Q A ε α) (f : α → Prog Q A ε β) {R : β → σ → Prop} :
    after serve (x >>= f) R E s ↔ after serve x (fun a t => after serve (f a) R E t) E s := by
  show after serve (Prog.bind x f) R E s ↔ _
  induction x generalizing s with
  | ret a => rfl
  | raise e => rfl
  | ask q k ih => exact forall₃_congr fun r _ _ => ih r

@[simp] theorem after_map (g : α → β) (x : Prog Q A ε α) {R : β → σ → Prop} :
    after serve (g <$> x) R E s ↔ after serve x (fun a t => R (g a) t) E s := by
  rw [← bind_pure_comp, after_bind]; simp

/-- **Catching.** -/
@[simp] theorem after_tryCatch (x : Prog Q A ε α) (h : ε → Prog Q A ε α) :
    after serve (tryCatch x h) R E s ↔ after serve x R (fun e t => after serve (h e) R E t) s := by
  show after serve (handle x h) R E s ↔ _
  induction x generalizing s with
  | ret a => rfl
  | raise e => rfl
  | ask q k ih => exact forall₃_congr fun r _ _ => ih r

@[simp] theorem after_ite (c : Prop) [Decidable c] (x y : Prog Q A ε α) :
    after serve (if c then x else y) R E s ↔
      (c → after serve x R E s) ∧ (¬ c → after serve y R E s) := by
  split_ifs with h <;> simp [h]

@[simp] theorem after_attempt (x : Prog Q A ε α) {R : Except ε α → σ → Prop} :
    after serve (attempt x) R E s ↔
      after serve x (fun a t => R (.ok a) t) (fun e t => R (.error e) t) s := by
  simp [attempt]

/-- **Whatever happens, `f` is run**; what it raises replaces the outcome. -/
@[simp] theorem after_finallyDo (x : Prog Q A ε α) (f : Prog Q A ε Unit) :
    after serve (finallyDo x f) R E s ↔
      after serve x (fun a t => after serve f (fun _ u => R a u) E t)
        (fun e t => after serve f (fun _ u => E e u) E t) s := by
  simp [finallyDo, resume]

theorem after_mono {x : Prog Q A ε α} (hR : ∀ a t, R a t → R' a t) (hE : ∀ e t, E e t → E' e t)
    (h : after serve x R E s) : after serve x R' E' s := by
  induction x generalizing s with
  | ret a => exact hR a s h
  | raise e => exact hE e s h
  | ask q k ih => exact fun r t hserve => ih r (h r t hserve)

/-- Two requirements on one program are one. -/
theorem after_and {x : Prog Q A ε α} (h : after serve x R E s) (h' : after serve x R' E' s) :
    after serve x (fun a t => R a t ∧ R' a t) (fun e t => E e t ∧ E' e t) s := by
  induction x generalizing s with
  | ret a => exact ⟨h, h'⟩
  | raise e => exact ⟨h, h'⟩
  | ask q k ih => exact fun r t hserve => ih r (h r t hserve) (h' r t hserve)

/-- **The rule for loops**: an invariant of the members done, the value reached and the state. -/
theorem after_foldlM {f : β → τ → Prog Q A ε β} {I : List τ → β → σ → Prop} {l : List τ} {b : β}
    (hstart : I [] b s)
    (hstep : ∀ done x rest b t, l = done ++ x :: rest → I done b t →
      after serve (f b x) (fun c u => I (done ++ [x]) c u) E t) :
    after serve (l.foldlM f b) (fun c t => I l c t) E s := by
  suffices hloop : ∀ rest done b s, l = done ++ rest → I done b s →
      after serve (rest.foldlM f b) (fun c t => I l c t) E s from hloop l [] b s rfl hstart
  intro rest
  induction rest with
  | nil =>
      rintro done b s hl hI
      rw [List.append_nil] at hl
      exact hl ▸ hI
  | cons x rest ih =>
      intro done b s hl hI
      rw [List.foldlM_cons, after_bind]
      refine after_mono (fun c t hc => ?_) (fun _ _ => id) (hstep done x rest b s hl hI)
      exact ih (done ++ [x]) c t (by rw [hl, List.append_assoc]; rfl) hc

/-! ### What every query preserves -/

/-- What the queries of a program preserve holds at its end, where all of them satisfy `P`. -/
theorem after_of_always {P : Q → Prop} {I : σ → Prop} {x : Prog Q A ε α}
    (h : Always (fun _ _ => True) P x) (hkeep : ∀ q s r t, P q → I s → serve q s r t → I t)
    (hstart : I s) : after serve x (fun _ => I) (fun _ => I) s := by
  induction x generalizing s with
  | ret a => exact hstart
  | raise e => exact hstart
  | ask q k ih =>
      intro r t hserve
      have hq : P q := h _ _ (.cancel q k) q (List.mem_singleton_self q)
      refine ih r (fun l o hrun p hp => ?_) (hkeep q s r t hq hstart hserve)
      exact h _ _ (.ask trivial hrun) p (List.mem_cons_of_mem _ hp)

/-! ### Records -/

/-- A query with its answer. -/
abbrev Event (Q : Type) (A : Q → Type) : Type := Σ q, A q

/-- A service that records what it is asked and what it answers.  What it may answer depends on
what is recorded. -/
def recording (may : List (Event Q A) → ∀ q, A q → Prop) (q : Q) (s : List (Event Q A)) (r : A q)
    (t : List (Event Q A)) : Prop :=
  may s q r ∧ t = s ++ [⟨q, r⟩]

/-- From one record on, every event that is added is as `ok` demands of it after those before. -/
inductive Causal {κ : Type} (ok : List κ → κ → Prop) (s : List κ) : List κ → Prop
  | refl : Causal ok s s
  | snoc {t : List κ} {e : κ} (h : Causal ok s t) (he : ok t e) : Causal ok s (t ++ [e])

theorem Causal.trans {κ : Type} {ok : List κ → κ → Prop} {s t u : List κ} (h : Causal ok s t)
    (h' : Causal ok t u) : Causal ok s u := by
  induction h' with
  | refl => exact h
  | snoc _ he ih => exact ih.snoc he

theorem Causal.mono {κ : Type} {ok ok' : List κ → κ → Prop} {s t : List κ} (h : Causal ok s t)
    (himp : ∀ t e, ok t e → ok' t e) : Causal ok' s t := by
  induction h with
  | refl => exact .refl
  | snoc _ he ih => exact ih.snoc (himp _ _ he)

theorem Causal.exists_append {κ : Type} {ok : List κ → κ → Prop} {s t : List κ}
    (h : Causal ok s t) : ∃ l, t = s ++ l := by
  induction h with
  | refl => exact ⟨[], by simp⟩
  | @snoc t e _ _ ih =>
      obtain ⟨l, rfl⟩ := ih
      exact ⟨l ++ [e], by rw [List.append_assoc]⟩

/-- What was on record stays there. -/
theorem Causal.mem {κ : Type} {ok : List κ → κ → Prop} {s t : List κ} {e : κ} (h : Causal ok s t)
    (he : e ∈ s) : e ∈ t := by
  induction h with
  | refl => exact he
  | snoc _ _ ih => exact List.mem_append_left _ ih

/-- Every single event is as demanded. -/
theorem Causal.ok_of_split {κ : Type} {ok : List κ → κ → Prop} {s t p q : List κ} {e : κ}
    (h : Causal ok s t) (ht : t = s ++ p ++ e :: q) : ok (s ++ p) e := by
  induction h generalizing q with
  | refl =>
      have hlength := congrArg List.length ht
      simp only [List.length_append, List.length_cons] at hlength
      omega
  | @snoc t f h he ih =>
      rcases List.eq_nil_or_concat q with rfl | ⟨q, g, rfl⟩
      · obtain ⟨rfl, hlast⟩ := List.append_inj' ht rfl
        obtain rfl := List.singleton_injective hlast
        exact he
      · refine ih (q := q) ?_
        have hsplit : t ++ [f] = (s ++ p ++ e :: q) ++ [g] := by simpa using ht
        exact (List.append_inj' hsplit rfl).1

end Prog
