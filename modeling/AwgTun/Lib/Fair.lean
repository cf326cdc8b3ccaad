import Mathlib

/-!
# Runs of several actors, and fairness

A system in which one of several actors takes each step, or none does.  A run goes on forever.

* `Run` — the states of a run and who takes its steps.
* `Run.keeps` — an invariant.
* `Run.Fair` — strong fairness: who is ready again and again takes a step again and again.
* `Run.ends` — what makes a rank fall as long as it lasts comes to an end.
* `Run.Fair.acts` — the rule of progress: a condition that only one actor can end, and under which
  it is ready again and again, makes this actor take a step.
* `Run.lasso` — a run that comes back to one of its states, and when it is fair.
-/

open Filter

namespace Actors

variable {σ ι : Type} {step : σ → ι → σ → Prop}

/-- A run: at each time an actor takes a step, or nothing happens. -/
structure Run (step : σ → ι → σ → Prop) where
  state : ℕ → σ
  actor : ℕ → Option ι
  next : ∀ n, (∃ i, actor n = some i ∧ step (state n) i (state (n + 1))) ∨
    (actor n = none ∧ state (n + 1) = state n)

namespace Run

variable {r : Run step} {n : ℕ} {P : σ → Prop} {m : ℕ} {i : ι}

/-- The step of an actor. -/
theorem step_of_actor (h : r.actor n = some i) :
    step (r.state n) i (r.state (n + 1)) := by
  rcases r.next n with ⟨j, hj, hstep⟩ | ⟨hnone, -⟩
  · rw [h] at hj
    cases hj
    exact hstep
  · rw [h] at hnone
    cases hnone

/-- What holds at one time and is kept from then on. -/
theorem holds_from {P : ℕ → Prop} (hstart : P n) (hkeep : ∀ m, n ≤ m → P m → P (m + 1))
    (hm : n ≤ m) : P m := by
  induction m, hm using Nat.le_induction with
  | base => exact hstart
  | succ m hm ih => exact hkeep m hm ih

/-- What holds at one time and is kept by the steps from then on. -/
theorem keeps_from (hstart : P (r.state n))
    (hstep : ∀ m i, n ≤ m → r.actor m = some i → P (r.state m) → P (r.state (m + 1))) (hm : n ≤ m) :
    P (r.state m) := by
  refine holds_from (P := fun m => P (r.state m)) hstart ?_ hm
  intro k hk hP
  rcases r.next k with ⟨i, hact, -⟩ | ⟨-, hsame⟩
  · exact hstep k i hk hact hP
  · rw [hsame]
    exact hP

/-- An invariant of the steps is one of the run. -/
theorem keeps (hstart : P (r.state 0)) (hstep : ∀ s i s', P s → step s i s' → P s') (n : ℕ) :
    P (r.state n) :=
  keeps_from hstart (fun _ _ _ hact hP => hstep _ _ _ hP (step_of_actor hact)) (Nat.zero_le n)

/-- Its states are reached from the first. -/
theorem reaches (r : Run step) (n : ℕ) :
    Relation.ReflTransGen (fun s s' => ∃ i, step s i s') (r.state 0) (r.state n) := by
  induction n with
  | zero => exact .refl
  | succ n ih =>
    rcases r.next n with ⟨i, -, hstep⟩ | ⟨-, hsame⟩
    · exact ih.tail ⟨i, hstep⟩
    · rw [hsame]
      exact ih

/-- What held and holds no more was ended by a step. -/
theorem ended {n m : ℕ} (hm : n ≤ m) (hstart : P (r.state n)) (hend : ¬P (r.state m)) :
    ∃ k i, n ≤ k ∧ r.actor k = some i ∧ P (r.state k) ∧ ¬P (r.state (k + 1)) := by
  by_contra hnever
  push Not at hnever
  exact hend (keeps_from hstart (fun k i hk hact hP => hnever k i hk hact hP) hm)

/-- What makes a rank fall as long as it lasts comes to an end. -/
theorem ends {P : ℕ → Prop} {rank : ℕ → ℕ}
    (hfall : ∀ m, n ≤ m → P m → ∃ k, m ≤ k ∧ rank k < rank m) : ∃ m, n ≤ m ∧ ¬P m := by
  -- on the rank at the time from which the end is looked for
  suffices h : ∀ m, n ≤ m → ∃ k, m ≤ k ∧ ¬P k from h n le_rfl
  intro m
  induction hrank : rank m using Nat.strong_induction_on generalizing m with
  | h x ih =>
    intro hm
    by_cases hP : P m
    · obtain ⟨k, hk, hlt⟩ := hfall m hm hP
      obtain ⟨l, hl, hend⟩ := ih _ (hrank ▸ hlt) k rfl (hm.trans hk)
      exact ⟨l, hk.trans hl, hend⟩
    · exact ⟨m, le_rfl, hP⟩

/-- Strong fairness. -/
def Fair (r : Run step) (ready : σ → ι → Prop) : Prop :=
  ∀ i, (∃ᶠ n in atTop, ready (r.state n) i) → ∃ᶠ n in atTop, r.actor n = some i

/-- **Progress.**  `Q` is kept as long as the actor takes no step, and it is ready again and again
while `Q` lasts.  Then it takes a step out of `Q`. -/
theorem Fair.acts {ready : σ → ι → Prop} (hfair : r.Fair ready) {Q : σ → Prop}
    (hkeep : ∀ m, n ≤ m → Q (r.state m) → r.actor m ≠ some i → Q (r.state (m + 1)))
    (hready : (∀ m, n ≤ m → Q (r.state m)) → ∀ m, n ≤ m → ∃ k, m ≤ k ∧ ready (r.state k) i)
    (hstart : Q (r.state n)) : ∃ m, n ≤ m ∧ r.actor m = some i ∧ Q (r.state m) := by
  by_contra hnever
  push Not at hnever
  have hforever (m : ℕ) (hm : n ≤ m) : Q (r.state m) :=
    holds_from (P := fun m => Q (r.state m)) hstart
      (fun k hk hQ => hkeep k hk hQ fun hact => hnever k hk hact hQ) hm
  have hoften : ∃ᶠ m in atTop, ready (r.state m) i := by
    rw [frequently_atTop]
    intro a
    obtain ⟨k, hk, hk'⟩ := hready hforever (max a n) (le_max_right a n)
    exact ⟨k, (le_max_left a n).trans hk, hk'⟩
  obtain ⟨m, hm, hact⟩ := frequently_atTop.mp (hfair i hoften) n
  exact hnever m hm hact (hforever m hm)

/-! ## A run that comes back to one of its states -/

/-- Where a run is that goes through the times before `len` and then from `back` on again. -/
def turn (back len : ℕ) : ℕ → ℕ
  | 0 => 0
  | n + 1 => if turn back len n + 1 = len then back else turn back len n + 1

section Lasso

variable {back len : ℕ}

theorem turn_lt (h : back < len) (n : ℕ) : turn back len n < len := by
  induction n with
  | zero => exact Nat.zero_lt_of_lt h
  | succ n ih =>
    rw [turn]
    split
    · exact h
    · omega

/-- The run goes on to the times it has not been at yet. -/
theorem turn_add {n k : ℕ} (h : turn back len n + k < len) :
    turn back len (n + k) = turn back len n + k := by
  induction k with
  | zero => rfl
  | succ k ih =>
    have hk := ih (by omega)
    rw [← Nat.add_assoc, turn, if_neg (by omega), hk, Nat.add_assoc]

/-- It comes back again and again. -/
theorem turn_back (h : back < len) (n : ℕ) : ∃ m, n ≤ m ∧ turn back len m = back := by
  have hlt := turn_lt h n
  have hlast : turn back len (n + (len - 1 - turn back len n)) = _ := turn_add (by omega)
  refine ⟨n + (len - 1 - turn back len n) + 1, by omega, ?_⟩
  rw [turn, if_pos (by omega)]

/-- From then on it stays between `back` and `len`. -/
theorem back_le_turn {n m : ℕ} (h : back ≤ turn back len n) (hm : n ≤ m) :
    back ≤ turn back len m := by
  refine holds_from (P := fun m => back ≤ turn back len m) h ?_ hm
  intro k _ hk
  rw [turn]
  split
  · exact le_rfl
  · omega

/-- A run that comes back: after the state before `len` the one at `back` follows. -/
def lasso (state : ℕ → σ) (actor : ℕ → Option ι) (back len : ℕ) (h : back < len)
    (hwrap : state len = state back)
    (hnext : ∀ k < len, (∃ i, actor k = some i ∧ step (state k) i (state (k + 1))) ∨
      (actor k = none ∧ state (k + 1) = state k)) : Run step where
  state n := state (turn back len n)
  actor n := actor (turn back len n)
  next n := by
    have hsucc : state (turn back len (n + 1)) = state (turn back len n + 1) := by
      rw [turn]
      split
      case isTrue hlast => rw [hlast, hwrap]
      case isFalse => rfl
    rw [hsucc]
    exact hnext _ (turn_lt h n)

/-- It is fair if each actor takes a step before it comes back, or is never ready. -/
theorem lasso_fair {state : ℕ → σ} {actor : ℕ → Option ι} {h : back < len}
    {hwrap : state len = state back} {hnext} {ready : σ → ι → Prop}
    (hactors : ∀ i, (∃ k, back ≤ k ∧ k < len ∧ actor k = some i) ∨
      ∀ k, back ≤ k → k < len → ¬ready (state k) i) :
    Fair (lasso state actor back len h hwrap hnext : Run step) ready := by
  intro i hready
  rw [frequently_atTop] at hready ⊢
  intro a
  obtain ⟨n, hn, hback⟩ := turn_back h a
  rcases hactors i with ⟨k, hk, hlen, hact⟩ | hnever
  · refine ⟨n + (k - back), by omega, ?_⟩
    show actor (turn back len (n + (k - back))) = some i
    rw [turn_add (by omega), hback, Nat.add_sub_cancel' hk]
    exact hact
  · obtain ⟨m, hm, hready⟩ := hready n
    exact absurd hready (hnever _ (back_le_turn hback.ge hm) (turn_lt h m))

end Lasso

end Run

end Actors
