import Mathlib

/-!
# Runs of a step function

A system that takes one step for each event of a list.  `AllStates` says something of
every state a run passes through, the first and the last included; `AllSteps` says
something of every step it takes, in terms of the state before it and the event.

`allStates_iff_allSteps` is the rule that finds out which runs are good: it is enough
to know, for one step out of a state that satisfies an invariant, when the state after
it is good, and that a step of this kind keeps the invariant.
-/

namespace Trace

variable {σ α : Type}

/-- Every state of the run satisfies `P`. -/
def AllStates (step : σ → α → σ) (P : σ → Prop) : σ → List α → Prop
  | s, [] => P s
  | s, a :: as => P s ∧ AllStates step P (step s a) as

/-- Every step of the run satisfies `Q`. -/
def AllSteps (step : σ → α → σ) (Q : σ → α → Prop) : σ → List α → Prop
  | _, [] => True
  | s, a :: as => Q s a ∧ AllSteps step Q (step s a) as

variable {step : σ → α → σ}

theorem AllStates.head {P : σ → Prop} {s : σ} {as : List α} (h : AllStates step P s as) : P s := by
  cases as with
  | nil => exact h
  | cons a as => exact h.1

/-- **Good runs by good steps.**  Where a step out of a state with the invariant ends in a
good state exactly if it is admissible, and an admissible step keeps the invariant, the
runs through good states are the runs of admissible steps. -/
theorem allStates_iff_allSteps (inv : σ → Prop) {good : σ → Prop} {admissible : σ → α → Prop}
    (hgood : ∀ s a, inv s → (good (step s a) ↔ admissible s a))
    (hinv : ∀ s a, inv s → admissible s a → inv (step s a)) :
    ∀ (as : List α) (s : σ), inv s → good s →
      (AllStates step good s as ↔ AllSteps step admissible s as) := by
  intro as
  induction as with
  | nil =>
    intro s _ hs
    exact iff_of_true hs trivial
  | cons a as ih =>
    intro s hs hgs
    by_cases ha : admissible s a
    · have hrest := ih (step s a) (hinv s a hs ha) ((hgood s a hs).mpr ha)
      exact ⟨fun h => ⟨ha, hrest.mp h.2⟩, fun h => ⟨hgs, hrest.mpr h.2⟩⟩
    · refine iff_of_false (fun h => ?_) (fun h => ha h.1)
      exact ha ((hgood s a hs).mp h.2.head)

/-- Admissible steps out of states with the invariant keep it, and have every property that follows
from the two. -/
theorem AllSteps.imp (inv : σ → Prop) {admissible Q : σ → α → Prop}
    (hinv : ∀ s a, inv s → admissible s a → inv (step s a))
    (hQ : ∀ s a, inv s → admissible s a → Q s a) :
    ∀ (as : List α) (s : σ), inv s → AllSteps step admissible s as → AllSteps step Q s as := by
  intro as
  induction as with
  | nil => exact fun _ _ _ => trivial
  | cons a as ih => exact fun s hs h => ⟨hQ s a hs h.1, ih _ (hinv s a hs h.1) h.2⟩

end Trace
