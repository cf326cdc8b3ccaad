import Mathlib

/-!
# Material that is used once

Holders draw from streams.  A stream has a name, and its items are numbered; a holder knows the
name of its stream and the number of the next item.  A ledger writes down who holds what, what
was taken, and which names were ever given out.

`Ledger.Step` has the two things that may happen: a holder is given a stream of a new name, or it
takes the next item of its own.  `Steps.sound`: whatever happens, no item is taken twice.
-/

namespace Pads

variable {ι K : Type} [DecidableEq ι]

/-- Who holds which stream from which item on, what was taken, and the names given out. -/
structure Ledger (ι K : Type) where
  holds : ι → Option (K × Nat)
  taken : List (K × Nat)
  known : Set K

namespace Ledger

variable {l l' : Ledger ι K} {k : K}

/-- No item was taken twice, and none can be: a stream has one holder, who is past what was
taken of it. -/
structure Sound (l : Ledger ι K) : Prop where
  nodup : l.taken.Nodup
  ahead : ∀ {i k n m}, l.holds i = some (k, n) → (k, m) ∈ l.taken → m < n
  apart : ∀ {i j k n m}, l.holds i = some (k, n) → l.holds j = some (k, m) → i = j
  knownHeld : ∀ {i k n}, l.holds i = some (k, n) → k ∈ l.known
  knownTaken : ∀ {k n}, (k, n) ∈ l.taken → k ∈ l.known

/-- What may happen. -/
inductive Step : Ledger ι K → Ledger ι K → Prop
  /-- A holder is given a stream of a new name, in place of the one it had. -/
  | opens {l : Ledger ι K} (i : ι) {k : K} (hfresh : k ∉ l.known) :
      Step l { holds := Function.update l.holds i (some (k, 0))
               taken := l.taken
               known := insert k l.known }
  /-- A holder takes the next item. -/
  | takes {l : Ledger ι K} {i : ι} {k : K} {n : Nat} (hholds : l.holds i = some (k, n)) :
      Step l { l with holds := Function.update l.holds i (some (k, n + 1))
                      taken := l.taken ++ [(k, n)] }

/-- Any number of steps. -/
abbrev Steps : Ledger ι K → Ledger ι K → Prop := Relation.ReflTransGen Step

/-- Who holds what once one holder was written down anew. -/
theorem update_eq_some {holds : ι → Option (K × Nat)} {i j : ι} {x y : K × Nat}
    (h : Function.update holds i (some x) j = some y) :
    (j = i ∧ x = y) ∨ (j ≠ i ∧ holds j = some y) := by
  by_cases hij : j = i
  · subst hij
    rw [Function.update_self] at h
    exact .inl ⟨rfl, Option.some.inj h⟩
  · rw [Function.update_of_ne hij] at h
    exact .inr ⟨hij, h⟩

theorem sound_opens (h : l.Sound) (i : ι) (hfresh : k ∉ l.known) :
    Sound { holds := Function.update l.holds i (some (k, 0))
            taken := l.taken
            known := insert k l.known } where
  nodup := h.nodup
  ahead {j k' n m} hj htaken := by
    rcases update_eq_some hj with ⟨-, hx⟩ | ⟨-, hheld⟩
    · cases hx
      exact absurd (h.knownTaken htaken) hfresh
    · exact h.ahead hheld htaken
  apart {j j' k' n m} hj hj' := by
    rcases update_eq_some hj with ⟨hij, hx⟩ | ⟨-, hheld⟩ <;>
      rcases update_eq_some hj' with ⟨hij', hx'⟩ | ⟨-, hheld'⟩
    · rw [hij, hij']
    · cases hx
      exact absurd (h.knownHeld hheld') hfresh
    · cases hx'
      exact absurd (h.knownHeld hheld) hfresh
    · exact h.apart hheld hheld'
  knownHeld {j k' n} hj := by
    rcases update_eq_some hj with ⟨-, hx⟩ | ⟨-, hheld⟩
    · cases hx
      exact .inl rfl
    · exact .inr (h.knownHeld hheld)
  knownTaken htaken := .inr (h.knownTaken htaken)

theorem sound_takes (h : l.Sound) {i : ι} {n : Nat} (hholds : l.holds i = some (k, n)) :
    Sound { l with holds := Function.update l.holds i (some (k, n + 1))
                   taken := l.taken ++ [(k, n)] } where
  nodup := by
    refine List.nodup_append.mpr ⟨h.nodup, List.nodup_singleton _, ?_⟩
    rintro a ha b hb rfl
    rw [List.mem_singleton] at hb
    subst hb
    exact lt_irrefl n (h.ahead hholds ha)
  ahead {j k' m m'} hj htaken := by
    rcases List.mem_append.mp htaken with hold | hone
    · rcases update_eq_some hj with ⟨-, hx⟩ | ⟨-, hheld⟩
      · cases hx
        exact Nat.lt_succ_of_lt (h.ahead hholds hold)
      · exact h.ahead hheld hold
    · -- the item that was just taken: only the one who took it holds its stream
      cases List.mem_singleton.mp hone
      rcases update_eq_some hj with ⟨-, hx⟩ | ⟨hother, hheld⟩
      · cases hx
        exact Nat.lt_succ_self _
      · exact absurd (h.apart hheld hholds) hother
  apart {j j' k' m m'} hj hj' := by
    rcases update_eq_some hj with ⟨hij, hx⟩ | ⟨-, hheld⟩ <;>
      rcases update_eq_some hj' with ⟨hij', hx'⟩ | ⟨-, hheld'⟩
    · rw [hij, hij']
    · cases hx
      rw [hij]
      exact h.apart hholds hheld'
    · cases hx'
      rw [hij']
      exact h.apart hheld hholds
    · exact h.apart hheld hheld'
  knownHeld {j k' m} hj := by
    rcases update_eq_some hj with ⟨-, hx⟩ | ⟨-, hheld⟩
    · cases hx
      exact h.knownHeld hholds
    · exact h.knownHeld hheld
  knownTaken {k' m} htaken := by
    rcases List.mem_append.mp htaken with hold | hone
    · exact h.knownTaken hold
    · cases List.mem_singleton.mp hone
      exact h.knownHeld hholds

theorem Step.sound (hstep : Step l l') (h : l.Sound) : l'.Sound := by
  cases hstep with
  | opens i hfresh => exact sound_opens h i hfresh
  | takes hholds => exact sound_takes h hholds

/-- **Nothing is taken twice**, along any number of steps. -/
theorem Steps.sound (hsteps : Steps l l') (h : l.Sound) : l'.Sound := by
  induction hsteps with
  | refl => exact h
  | tail _ hstep ih => exact hstep.sound ih

end Ledger

end Pads
