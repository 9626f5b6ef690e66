/-
**The circuit breaker.**

A breaker counts the failures of the calls to a service.  At the threshold it opens, and calls are
rejected until the recovery timeout has passed since the last failure; then the calls that come are
probes, one at a time, and the success of a probe closes the breaker.  The state is derived from the
clock, a call that was started while the breaker was closed may end in any state, and whoever waits
for the probe lock looks at the state again when it gets the lock.

What carries the laws is that the breaker closes through the holder of the lock alone.  While a
probe that was started half open runs, it holds the lock, so the breaker stays open; when it fails,
the last failure is its own or a later one.

The clock is a rational number that never goes back.  It is read in each step that needs it, and it
may go on between the reading and the start of the wrapped call.

Main definitions:

* `CircuitBreaker`, `CircuitBreaker.state`, `CircuitBreaker.onSuccess`, `CircuitBreaker.onFailure`;
* `BreakerState.step` — the steps of the calls, of which there are any number at a time;
* `BreakerState.Safe` — the laws.

Main results:

* `BreakerState.invariant_step`, `BreakerState.recovering_step` — what one step preserves;
* `BreakerState.safe_of_run` — **the laws hold in every state that is reached**.
-/

import Hygie.GuardedRuns

set_option relaxedAutoImplicit false
set_option autoImplicit false

namespace Hygie

/-! ### The breaker -/

inductive Circuit
  | closed | opened | halfOpen
  deriving DecidableEq, Repr

structure BreakerConfig where
  failureThreshold : ℤ
  recoveryTimeout : ℚ

/-- The fields that change; `storedState` is `_state`. -/
structure CircuitBreaker where
  storedState : Circuit
  failureCount : ℕ
  lastFailureTs : ℚ

namespace CircuitBreaker

variable (cfg : BreakerConfig)

def init : CircuitBreaker where
  storedState := .closed
  failureCount := 0
  lastFailureTs := 0

/-- The property `state`, when the clock shows `now`. -/
def state (breaker : CircuitBreaker) (now : ℚ) : Circuit :=
  if breaker.storedState = .opened then
    if cfg.recoveryTimeout ≤ now - breaker.lastFailureTs then .halfOpen else breaker.storedState
  else breaker.storedState

def onSuccess (breaker : CircuitBreaker) : CircuitBreaker :=
  { breaker with storedState := .closed, failureCount := 0 }

def onFailure (breaker : CircuitBreaker) (now : ℚ) : CircuitBreaker where
  storedState :=
    if cfg.failureThreshold ≤ (breaker.failureCount + 1 : ℕ) then .opened else breaker.storedState
  failureCount := breaker.failureCount + 1
  lastFailureTs := now

/-- A success on the normal path takes one failure back. -/
def decay (breaker : CircuitBreaker) : CircuitBreaker :=
  if 0 < breaker.failureCount then { breaker with failureCount := max 0 (breaker.failureCount - 1) }
  else breaker

end CircuitBreaker

/-! ### The calls -/

/-- How far a call has come. -/
inductive CallStage
  /-- For the probe lock. -/
  | waiting
  /-- The wrapped call is in flight, with the probe lock or without; `seen` is the state of the
  breaker when it was started. -/
  | started (probe : Bool) (seen : Circuit)
  | ended
  deriving DecidableEq, Repr

/-- The breaker, the last reading of the clock, who holds the probe lock, and the calls, in the
order in which they have come. -/
structure BreakerState where
  breaker : CircuitBreaker
  clock : ℚ
  probeLock : Option ℕ
  calls : List CallStage

inductive BreakerAction
  /-- A call comes, and reads the clock at `now`; its wrapped call starts at `start`, if it does. -/
  | call (now start : ℚ)
  /-- A call gets the probe lock, and looks at the state again. -/
  | acquire (i : ℕ) (now start : ℚ)
  | succeed (i : ℕ)
  | fail (i : ℕ) (now : ℚ)
  /-- A call is cancelled, wherever it is. -/
  | cancel (i : ℕ)
  deriving DecidableEq, Repr

namespace BreakerState

variable (cfg : BreakerConfig)

/-- A call leaves, and gives the probe lock back if it has it. -/
def leave (s : BreakerState) (i : ℕ) (breaker : CircuitBreaker) : BreakerState :=
  { s with
    breaker := breaker
    probeLock := if s.probeLock = some i then none else s.probeLock
    calls := s.calls.set i .ended }

/-- What becomes of a call that has read the state; the wrapped call would see `seen`. -/
def admitted (current seen : Circuit) : CallStage :=
  match current with
  | .opened => .ended
  | .halfOpen => .waiting
  | .closed => .started false seen

/-- The step function. -/
def step (s : BreakerState) : BreakerAction → Option BreakerState
  | .call now start =>
      some { s with
        clock := start
        calls := s.calls ++ [admitted (s.breaker.state cfg now) (s.breaker.state cfg start)] }
  | .acquire i now start =>
      match s.calls[i]?, s.probeLock with
      | some .waiting, none =>
          if s.breaker.state cfg now = .opened then
            some { s with clock := start, calls := s.calls.set i .ended }
          else
            some { s with
              clock := start
              probeLock := some i
              calls := s.calls.set i (.started true (s.breaker.state cfg start)) }
      | _, _ => none
  | .succeed i =>
      match s.calls[i]? with
      | some (.started true _) => some (s.leave i s.breaker.onSuccess)
      | some (.started false _) => some (s.leave i s.breaker.decay)
      | _ => none
  | .fail i now =>
      match s.calls[i]? with
      | some (.started _ _) => some { s.leave i (s.breaker.onFailure cfg now) with clock := now }
      | _ => none
  | .cancel i =>
      match s.calls[i]? with
      | some .waiting | some (.started _ _) => some (s.leave i s.breaker)
      | _ => none

/-- No call yet. -/
def start (clock : ℚ) : BreakerState where
  breaker := .init
  clock := clock
  probeLock := none
  calls := []

/-! ### The laws -/

/-- The clock does not go back. -/
def InTime (s : BreakerState) : BreakerAction → Prop
  | .call now start | .acquire _ now start => s.clock ≤ now ∧ now ≤ start
  | .fail _ now => s.clock ≤ now
  | _ => True

/-- Between two states a wrapped call is started. -/
def Starts (s t : BreakerState) : Prop :=
  ∃ (i : ℕ) (probe : Bool) (seen : Circuit), t.calls[i]? = some (CallStage.started probe seen) ∧
    s.calls[i]? ≠ some (CallStage.started probe seen)

/-- The laws of the breaker in a state. -/
structure Safe (s : BreakerState) : Prop where
  /-- No wrapped call is started while the breaker is open. -/
  closedStart : ∀ action t, s.InTime action → s.step cfg action = some t → s.Starts t →
    s.breaker.state cfg t.clock ≠ .opened
  /-- One wrapped call at a time is in flight that was started half open. -/
  oneProbe : ∀ (i j : ℕ) (probe probe' : Bool),
    s.calls[i]? = some (CallStage.started probe .halfOpen) →
    s.calls[j]? = some (CallStage.started probe' .halfOpen) → i = j
  /-- After such a call has failed, none is started for a full recovery timeout. -/
  recovery : ∀ i probe now t actions u action v,
    s.calls[i]? = some (CallStage.started probe .halfOpen) →
    s.InTime (.fail i now) → s.step cfg (.fail i now) = some t →
      GuardedRun (step cfg) InTime t actions u → u.InTime action → u.step cfg action = some v →
        u.Starts v → now + cfg.recoveryTimeout ≤ v.clock
  /-- The breaker closes through the success of a call that has the probe lock. -/
  closes : ∀ action t, s.step cfg action = some t → s.breaker.storedState = .opened →
    t.breaker.storedState = .closed → ∃ i seen, action = .succeed i ∧
      s.calls[i]? = some (CallStage.started true seen)

/-! ### What the clock derives -/

section Derived

variable {cfg} {breaker : CircuitBreaker} {now later failedAt : ℚ}

/-- Whoever did not see the breaker open does not see it open later. -/
theorem state_ne_opened_of_le (hle : now ≤ later) (hstate : breaker.state cfg now ≠ .opened) :
    breaker.state cfg later ≠ .opened := by
  unfold CircuitBreaker.state at hstate ⊢
  by_cases hopened : breaker.storedState = .opened
  · -- the time that has passed since the failure only grows
    have hmore : now - breaker.lastFailureTs ≤ later - breaker.lastFailureTs := by gcongr
    have htimeout : cfg.recoveryTimeout ≤ now - breaker.lastFailureTs := by
      by_contra hearly
      simp [hopened, hearly] at hstate
    simp [hopened, htimeout.trans hmore]
  · simp [hopened]

/-- Until the timeout has passed since a failure, the breaker is open. -/
theorem state_opened (hstored : breaker.storedState = .opened)
    (hlast : failedAt ≤ breaker.lastFailureTs)
    (hnow : now < failedAt + cfg.recoveryTimeout) : breaker.state cfg now = .opened := by
  have hearly : ¬ cfg.recoveryTimeout ≤ now - breaker.lastFailureTs := by
    intro htimeout
    linarith
  simp [CircuitBreaker.state, hstored, hearly]

/-- Closed now, closed at any time. -/
theorem state_closed (hstate : breaker.state cfg now = .closed) :
    breaker.state cfg later = .closed := by
  unfold CircuitBreaker.state at hstate ⊢
  split_ifs at hstate with hopened
  · rw [hopened] at hstate
    cases hstate
  · rw [if_neg hopened]
    exact hstate

/-- Half open is derived from open. -/
theorem storedState_of_halfOpen (hstored : breaker.storedState ≠ .halfOpen)
    (hstate : breaker.state cfg now = .halfOpen) : breaker.storedState = .opened := by
  unfold CircuitBreaker.state at hstate
  split_ifs at hstate with hopened
  · exact hopened
  · exact absurd hstate hstored
  · exact absurd hstate hstored

@[simp] theorem decay_storedState : breaker.decay.storedState = breaker.storedState := by
  unfold CircuitBreaker.decay
  split_ifs <;> rfl

@[simp] theorem decay_lastFailureTs : breaker.decay.lastFailureTs = breaker.lastFailureTs := by
  unfold CircuitBreaker.decay
  split_ifs <;> rfl

/-- A failure leaves an open breaker open. -/
theorem onFailure_opened (hstored : breaker.storedState = .opened) :
    (breaker.onFailure cfg now).storedState = .opened := by
  simp [CircuitBreaker.onFailure, hstored]

end Derived

/-! ### The invariant -/

/-- What holds in every run: who has passed the probe lock holds it, the other calls have been
started while the breaker was closed, and it stays open while a call is in flight that was started
half open. -/
structure Invariant (s : BreakerState) : Prop where
  stored : s.breaker.storedState ≠ .halfOpen
  holder : ∀ (i : ℕ) (seen : Circuit), s.calls[i]? = some (CallStage.started true seen) →
    s.probeLock = some i
  normal : ∀ (i : ℕ) (seen : Circuit), s.calls[i]? = some (CallStage.started false seen) →
    seen = .closed
  probing : ∀ i : ℕ, s.calls[i]? = some (CallStage.started true .halfOpen) →
    s.breaker.storedState = .opened

/-- The breaker is open since `failedAt` or later, and nobody has passed the probe lock. -/
structure Tripped (s : BreakerState) (failedAt : ℚ) : Prop where
  stored : s.breaker.storedState = .opened
  last : failedAt ≤ s.breaker.lastFailureTs
  quiet : ∀ (i : ℕ) (seen : Circuit), s.calls[i]? ≠ some (CallStage.started true seen)

/-- A probe has failed at `failedAt`; until the timeout has passed the breaker is tripped. -/
structure Recovering (s : BreakerState) (failedAt : ℚ) : Prop where
  after : failedAt ≤ s.clock
  tripped : s.clock < failedAt + cfg.recoveryTimeout → s.Tripped failedAt

/-! ### What a step does -/

section Steps

variable {cfg} {s t : BreakerState} {action : BreakerAction} {i j : ℕ} {stage stage' : CallStage}
  {failedAt : ℚ}

/-- What is in flight after a call has ended was in flight before, and is another one. -/
theorem get_ended {probe : Bool} {seen : Circuit}
    (h : (s.calls.set i .ended)[j]? = some (.started probe seen)) :
    i ≠ j ∧ s.calls[j]? = some (.started probe seen) := by
  rcases getElem?_set_cases h with ⟨_, hended⟩ | hold
  · cases hended
  · exact hold

theorem clock_le (hok : s.InTime action) (hstep : s.step cfg action = some t) :
    s.clock ≤ t.clock := by
  cases action with
  | call now start =>
      obtain rfl := Option.some.inj hstep
      exact hok.1.trans hok.2
  | acquire i now start =>
      simp only [step] at hstep
      split at hstep
      · split_ifs at hstep <;> cases hstep <;> exact hok.1.trans hok.2
      · cases hstep
  | succeed i =>
      simp only [step] at hstep
      split at hstep <;> cases hstep <;> exact le_rfl
  | fail i now =>
      simp only [step] at hstep
      split at hstep
      · cases hstep
        exact hok
      · cases hstep
  | cancel i =>
      simp only [step] at hstep
      split at hstep <;> cases hstep <;> exact le_rfl

/-- A step that starts a wrapped call has not seen the breaker open. -/
theorem Starts.reading (h : s.Starts t) (hok : s.InTime action)
    (hstep : s.step cfg action = some t) :
    ∃ now, s.clock ≤ now ∧ now ≤ t.clock ∧ s.breaker.state cfg now ≠ .opened := by
  obtain ⟨j, probe, seen, hnew, hold⟩ := h
  cases action with
  | call now start =>
      obtain rfl := Option.some.inj hstep
      rcases getElem?_concat_cases hnew with hsame | ⟨_, hstage⟩
      · exact absurd hsame hold
      · refine ⟨now, hok.1, hok.2, fun hopened => ?_⟩
        rw [hopened] at hstage
        cases hstage
  | acquire i now start =>
      simp only [step] at hstep
      split at hstep
      · split_ifs at hstep with hopened
        · cases hstep
          rcases getElem?_set_cases hnew with ⟨_, hended⟩ | ⟨_, hsame⟩
          · cases hended
          · exact absurd hsame hold
        · cases hstep
          exact ⟨now, hok.1, hok.2, hopened⟩
      · cases hstep
  | succeed i | fail i now | cancel i =>
      simp only [step] at hstep
      split at hstep <;> cases hstep <;> exact absurd (get_ended hnew).2 hold

/-! ### The steps keep the invariant -/

/-- After a call has left, if the breaker has not closed while another one was probing. -/
theorem Invariant.leave {breaker : CircuitBreaker} (h : s.Invariant)
    (hstored : breaker.storedState ≠ .halfOpen)
    (hkeep : s.breaker.storedState = .opened → breaker.storedState = .opened ∨
      s.probeLock = some i) :
    (s.leave i breaker).Invariant := by
  refine ⟨hstored, fun j seen hj => ?_, fun j seen hj => ?_, fun j hj => ?_⟩
  · obtain ⟨hne, hold⟩ := get_ended hj
    have hheld := h.holder j seen hold
    simp only [BreakerState.leave, hheld]
    rw [if_neg fun heq => hne (Option.some.inj heq).symm]
  · exact h.normal j seen (get_ended hj).2
  · obtain ⟨hne, hold⟩ := get_ended hj
    rcases hkeep (h.probing j hold) with hopened | hheld
    · exact hopened
    · exact absurd (Option.some.inj (hheld.symm.trans (h.holder j _ hold))) hne

/-- A call that comes and is let through is not a probe. -/
theorem admitted_eq_started {current seen seen' : Circuit} {probe : Bool}
    (h : admitted current seen' = .started probe seen) :
    probe = false ∧ current = .closed ∧ seen = seen' := by
  cases current <;> cases h
  exact ⟨rfl, rfl, rfl⟩

/-- **What one step preserves.** -/
theorem invariant_step (h : s.Invariant) (hstep : s.step cfg action = some t) : t.Invariant := by
  cases action with
  | call now start =>
      obtain rfl := Option.some.inj hstep
      refine ⟨h.stored, fun j seen hj => ?_, fun j seen hj => ?_, fun j hj => ?_⟩
      · rcases getElem?_concat_cases hj with hj | ⟨_, hnew⟩
        · exact h.holder j seen hj
        · cases (admitted_eq_started hnew).1
      · rcases getElem?_concat_cases hj with hj | ⟨_, hnew⟩
        · exact h.normal j seen hj
        · obtain ⟨_, hclosed, rfl⟩ := admitted_eq_started hnew
          exact state_closed hclosed
      · rcases getElem?_concat_cases hj with hj | ⟨_, hnew⟩
        · exact h.probing j hj
        · cases (admitted_eq_started hnew).1
  | acquire i now start =>
      simp only [step] at hstep
      split at hstep
      · next hget hfree =>
          -- nobody else has passed the lock
          have hnone : ∀ (j : ℕ) (seen : Circuit),
              s.calls[j]? ≠ some (CallStage.started true seen) := by
            intro j seen hj
            rw [h.holder j seen hj] at hfree
            cases hfree
          split_ifs at hstep
          · cases hstep
            refine ⟨h.stored, fun j seen hj => ?_, fun j seen hj => ?_, fun j hj => ?_⟩
            · exact absurd (get_ended hj).2 (hnone j seen)
            · exact h.normal j seen (get_ended hj).2
            · exact absurd (get_ended hj).2 (hnone j _)
          · cases hstep
            refine ⟨h.stored, fun j seen hj => ?_, fun j seen hj => ?_, fun j hj => ?_⟩
            · rcases getElem?_set_cases hj with ⟨rfl, _⟩ | ⟨_, hj⟩
              · rfl
              · exact absurd hj (hnone j seen)
            · rcases getElem?_set_cases hj with ⟨_, hnew⟩ | ⟨_, hj⟩
              · cases hnew
              · exact h.normal j seen hj
            · rcases getElem?_set_cases hj with ⟨_, hnew⟩ | ⟨_, hj⟩
              · injection hnew with _ hseen
                exact storedState_of_halfOpen h.stored hseen
              · exact absurd hj (hnone j _)
      · cases hstep
  | succeed i =>
      simp only [step] at hstep
      split at hstep
      · next seen hget =>
          cases hstep
          exact h.leave nofun fun _ => .inr (h.holder i seen hget)
      · cases hstep
        exact h.leave (by simpa using h.stored) fun hopened => .inl (by simpa using hopened)
      · cases hstep
  | fail i now =>
      simp only [step] at hstep
      split at hstep
      · cases hstep
        have hstored : (s.breaker.onFailure cfg now).storedState ≠ .halfOpen := by
          simp only [CircuitBreaker.onFailure]
          split_ifs
          · nofun
          · exact h.stored
        have hleft := h.leave hstored (i := i) fun hopened => .inl (onFailure_opened hopened)
        exact ⟨hleft.stored, hleft.holder, hleft.normal, hleft.probing⟩
      · cases hstep
  | cancel i =>
      simp only [step] at hstep
      split at hstep <;> cases hstep <;> exact h.leave h.stored fun hopened => .inl hopened

/-! ### After a failed probe -/

/-- A step after a probe has failed leaves the breaker tripped, until the timeout has passed. -/
theorem Tripped.step (h : s.Tripped failedAt) (hafter : failedAt ≤ s.clock) (hok : s.InTime action)
    (hstep : s.step cfg action = some t) (hearly : t.clock < failedAt + cfg.recoveryTimeout) :
    t.Tripped failedAt := by
  obtain ⟨hstored, hlast, hquiet⟩ := h
  have hended : ∀ (i j : ℕ) (seen : Circuit),
      (s.calls.set i .ended)[j]? ≠ some (CallStage.started true seen) :=
    fun i j seen hj => hquiet j seen (get_ended hj).2
  cases action with
  | call now start =>
      obtain rfl := Option.some.inj hstep
      refine ⟨hstored, hlast, fun j seen hj => ?_⟩
      rcases getElem?_concat_cases hj with hj | ⟨_, hnew⟩
      · exact hquiet j seen hj
      · cases (admitted_eq_started hnew).1
  | acquire i now start =>
      simp only [BreakerState.step] at hstep
      split at hstep
      · split_ifs at hstep with hopened
        · cases hstep
          exact ⟨hstored, hlast, hended i⟩
        · -- who gets the lock sees that the breaker is open
          cases hstep
          exact absurd (state_opened hstored hlast (hok.2.trans_lt hearly)) hopened
      · cases hstep
  | succeed i =>
      simp only [BreakerState.step] at hstep
      split at hstep
      · next seen hget => exact absurd hget (hquiet i seen)
      · cases hstep
        exact ⟨by simpa [leave] using hstored, by simpa [leave] using hlast, hended i⟩
      · cases hstep
  | fail i now =>
      simp only [BreakerState.step] at hstep
      split at hstep
      · cases hstep
        exact ⟨onFailure_opened hstored, hafter.trans hok, hended i⟩
      · cases hstep
  | cancel i =>
      simp only [BreakerState.step] at hstep
      split at hstep <;> cases hstep <;> exact ⟨hstored, hlast, hended i⟩

theorem recovering_step (h : s.Recovering cfg failedAt) (hok : s.InTime action)
    (hstep : s.step cfg action = some t) : t.Recovering cfg failedAt := by
  have hle := clock_le hok hstep
  refine ⟨h.after.trans hle, fun hearly => ?_⟩
  exact (h.tripped (hle.trans_lt hearly)).step h.after hok hstep hearly

/-- The failure of a call that was started half open trips the breaker. -/
theorem Invariant.recovering {probe : Bool} {now : ℚ} (h : s.Invariant)
    (hget : s.calls[i]? = some (.started probe .halfOpen))
    (hstep : s.step cfg (.fail i now) = some t) : t.Recovering cfg now := by
  cases probe with
  | false => cases h.normal i _ hget
  | true =>
      simp only [BreakerState.step, hget] at hstep
      obtain rfl := Option.some.inj hstep
      refine ⟨le_rfl, fun _ => ⟨onFailure_opened (h.probing i hget), le_rfl, fun j seen hj => ?_⟩⟩
      -- another one would hold the lock, too
      obtain ⟨hne, hold⟩ := get_ended hj
      exact hne (Option.some.inj ((h.holder i _ hget).symm.trans (h.holder j seen hold)))

/-- Who closes the breaker is a call that has passed the lock. -/
theorem closes_of_step (hstep : s.step cfg action = some t)
    (hopened : s.breaker.storedState = .opened)
    (hclosed : t.breaker.storedState = .closed) :
    ∃ (i : ℕ) (seen : Circuit), action = .succeed i ∧
      s.calls[i]? = some (CallStage.started true seen) := by
  have hsame : s.breaker.storedState ≠ .closed := by
    rw [hopened]
    nofun
  cases action with
  | call now start =>
      obtain rfl := Option.some.inj hstep
      exact absurd hclosed hsame
  | acquire i now start =>
      simp only [step] at hstep
      split at hstep
      · split_ifs at hstep <;> cases hstep <;> exact absurd hclosed hsame
      · cases hstep
  | succeed i =>
      simp only [step] at hstep
      split at hstep
      · next seen hget => exact ⟨i, seen, rfl, hget⟩
      · cases hstep
        exact absurd (by simpa [leave] using hclosed) hsame
      · cases hstep
  | fail i now =>
      simp only [step] at hstep
      split at hstep
      · cases hstep
        have hstill : (s.breaker.onFailure cfg now).storedState = .closed := hclosed
        rw [onFailure_opened hopened] at hstill
        cases hstill
      · cases hstep
  | cancel i =>
      simp only [step] at hstep
      split at hstep <;> cases hstep <;> exact absurd hclosed hsame

/-- **The laws hold in every state that is reached**, whatever the threshold and the timeout are,
and however the steps of the calls interleave. -/
theorem safe_of_run {clock : ℚ} {actions : List BreakerAction}
    (hrun : GuardedRun (step cfg) InTime (start clock) actions s) : s.Safe cfg := by
  have hinv : s.Invariant := by
    have hstart : (start clock).Invariant :=
      ⟨nofun, fun _ _ h => (nomatch h), fun _ _ h => (nomatch h), fun _ h => (nomatch h)⟩
    exact hrun.invariant hstart fun _ _ _ h _ hstep => invariant_step h hstep
  refine ⟨fun action t hok hstep hstarts => ?_, fun i j probe probe' hi hj => ?_, ?_, ?_⟩
  · obtain ⟨now, _, hle, hreading⟩ := hstarts.reading hok hstep
    exact state_ne_opened_of_le hle hreading
  · -- both have passed the lock
    have hlock : ∀ (k : ℕ) (probe : Bool), s.calls[k]? = some (.started probe .halfOpen) →
        s.probeLock = some k := by
      intro k probe hk
      cases probe with
      | true => exact hinv.holder k _ hk
      | false => cases hinv.normal k _ hk
    exact Option.some.inj ((hlock i probe hi).symm.trans (hlock j probe' hj))
  · intro i probe now t actions u action v hi _ hstep hrun hoku hstepu hstarts
    have hrecovering : u.Recovering cfg now :=
      hrun.invariant (hinv.recovering hi hstep) fun _ _ _ h hok hstep => recovering_step h hok hstep
    obtain ⟨reading, hclock, hle, hreading⟩ := hstarts.reading hoku hstepu
    by_contra hearly
    have hlt : reading < now + cfg.recoveryTimeout := hle.trans_lt (not_le.1 hearly)
    have htripped := hrecovering.tripped (hclock.trans_lt hlt)
    exact hreading (state_opened htripped.stored htripped.last hlt)
  · exact fun action t hstep hopened hclosed => closes_of_step hstep hopened hclosed

/-- One failure opens the breaker, and a call that comes in the timeout is rejected. -/
theorem safe_of_run_rejected : ∃ s : BreakerState, GuardedRun (step ⟨1, 60⟩) InTime (start 0)
    [.call 0 0, .fail 0 1, .call 2 2] s ∧ s.calls = [.ended, .ended] ∧ s.Safe ⟨1, 60⟩ := by
  have hrun : ∃ s : BreakerState, GuardedRun (step ⟨1, 60⟩) InTime (start 0)
      [.call 0 0, .fail 0 1, .call 2 2] s ∧ s.calls = [.ended, .ended] := by
    refine ⟨_, .cons ⟨le_rfl, le_rfl⟩ rfl (.cons ?_ rfl (.cons ⟨?_, le_rfl⟩ rfl .nil)), ?_⟩
    · exact zero_le_one
    · exact one_le_two
    · decide +kernel
  obtain ⟨s, hrun, hcalls⟩ := hrun
  exact ⟨s, hrun, hcalls, safe_of_run hrun⟩

end Steps

end BreakerState

end Hygie
