import Mathlib

/-!
# Outcomes and bounded loops

Two pieces of vocabulary for embedding imperative code as pure functions.

* `Outcome` — a computation that either returns a value or stops for good.  A
  recoverable error is a *value* of the computation; an `Outcome` failure is the
  thing no caller can look at.  `bind_eq_ok` takes a successful computation of
  either kind apart.  `Outcome.Meets` says how a computation may end, with the rules of
  sequence and consequence.
* `Fallible` — an outcome whose value may be a recoverable error.
* `whileLoop` — a loop with an explicit bound on the number of rounds.
  `whileLoop_spec` is the invariant rule: an invariant together with a measure
  that goes down in every round and starts within the bound gives a final state
  that satisfies the invariant and on which the guard is false.
* `checkedAdd`, `whileLoopM` — a sum that panics where a word is too small for it, and a
  loop whose guard and body may panic.  `whileLoopM_eq` is the rule that takes the checks
  out of a loop.
-/

namespace Control

variable {α β σ ε ε' : Type} {x : Except ε α} {b : β}

/-! ## Fallible computations -/

/-- A successful sequence is two successful computations. -/
theorem bind_eq_ok {f : α → Except ε β} :
    x >>= f = .ok b ↔ ∃ a, x = .ok a ∧ f a = .ok b := by
  cases x with
  | error p =>
    constructor
    · intro h
      cases h
    · rintro ⟨a, ha, -⟩
      cases ha
  | ok a =>
    constructor
    · intro h
      exact ⟨a, rfl, h⟩
    · rintro ⟨a', ha, h⟩
      cases ha
      exact h

/-- A check that passes, and what comes after it. -/
theorem check_bind_eq_ok {x : Except ε Unit} {f : Unit → Except ε β} :
    x >>= f = .ok b ↔ x = .ok () ∧ f () = .ok b := by
  rw [bind_eq_ok]
  constructor
  · rintro ⟨⟨⟩, hx, hf⟩
    exact ⟨hx, hf⟩
  · rintro ⟨hx, hf⟩
    exact ⟨(), hx, hf⟩

@[simp] theorem ok_bind (a : α) (f : α → Except ε β) : ((.ok a : Except ε α) >>= f) = f a := rfl

/-- Two continuations that agree on what the first computation returns. -/
theorem bind_congr_ok {f g : α → Except ε β} (h : ∀ a, x = .ok a → f a = g a) :
    x >>= f = x >>= g := by
  cases x with
  | error p => rfl
  | ok a => exact h a rfl

/-- Renaming errors does not touch a success. -/
theorem mapError_eq_ok {f : ε → ε'} {a : α} :
    x.mapError f = .ok a ↔ x = .ok a := by
  cases x <;> simp [Except.mapError]

/-- Mapping the value of a success. -/
theorem map_eq_ok {f : α → β} :
    x.map f = .ok b ↔ ∃ a, x = .ok a ∧ f a = b := by
  cases x <;> simp [Except.map]

/-! ## Outcomes -/

/-- Why a computation was abandoned. -/
structure Panic where
  /-- The text shown to the operator. -/
  message : String
  deriving DecidableEq, Repr

/-- A computation that returns a value or panics. -/
abbrev Outcome (α : Type) := Except Panic α

namespace Outcome

/-- Stop with a message. -/
def panic (message : String) : Outcome α := .error ⟨message⟩

/-- The computation came back with a value. -/
def Returns (x : Outcome α) : Prop := ∃ a, x = .ok a

@[simp] theorem panic_ne_ok (message : String) (a : α) : (panic message : Outcome α) ≠ .ok a := by
  intro h
  cases h

@[simp] theorem returns_ok (a : α) : Returns (.ok a : Outcome α) := ⟨a, rfl⟩

@[simp] theorem not_returns_error (p : Panic) : ¬ Returns (.error p : Outcome α) := by
  rintro ⟨a, ha⟩
  cases ha

@[simp] theorem not_returns_panic (message : String) : ¬ Returns (panic message : Outcome α) :=
  not_returns_error ⟨message⟩

/-- The computation came back with a value that passes a test. -/
def test (x : Outcome α) (p : α → Bool) : Bool :=
  match x with
  | .ok a => p a
  | .error _ => false

theorem test_eq_true_iff {x : Outcome α} {p : α → Bool} :
    test x p = true ↔ ∃ a, x = .ok a ∧ p a = true := by
  cases x <;> simp [test]

theorem eq_ok_of_test [DecidableEq α] {x : Outcome α} {a : α}
    (h : test x (fun b => decide (b = a)) = true) : x = .ok a := by
  obtain ⟨b, rfl, hb⟩ := test_eq_true_iff.mp h
  rw [of_decide_eq_true hb]

/-- Every way a computation can end is accounted for: a value it returns satisfies `post`,
and a message it panics with is `allowed`. -/
def Meets (allowed : String → Prop) (post : α → Prop) : Outcome α → Prop
  | .ok a => post a
  | .error p => allowed p.message

namespace Meets

variable {allowed : String → Prop} {post : α → Prop} {x : Outcome α} {message : String}

/-- **The rule of sequence.** -/
theorem bind {f : α → Outcome β} {final : β → Prop} (hx : Meets allowed post x)
    (hf : ∀ a, x = .ok a → post a → Meets allowed final (f a)) : Meets allowed final (x >>= f) := by
  cases x with
  | error p => exact hx
  | ok a => exact hf a rfl hx

/-- **The rule of consequence.** -/
theorem mono {weaker : α → Prop} (hx : Meets allowed post x) (hpost : ∀ a, post a → weaker a) :
    Meets allowed weaker x := by
  cases x with
  | error p => exact hx
  | ok a => exact hpost a hx

theorem panic (h : allowed message) :
    Meets allowed post (Outcome.panic message : Outcome α) := h

/-- With no panic allowed, the computation comes back. -/
theorem returns (hx : Meets (fun _ => False) post x) : x.Returns := by
  cases x with
  | error p => exact hx.elim
  | ok a => exact ⟨a, rfl⟩

theorem ne_panic (hx : Meets allowed post x) (hmessage : ¬ allowed message) :
    x ≠ Outcome.panic message := by
  rintro rfl
  exact hmessage hx

end Meets

end Outcome

/-- A search whose tests do not panic. -/
theorem findSomeM?_ok {f : α → Outcome (Option β)} {g : α → Option β}
    (h : ∀ a, f a = .ok (g a)) (as : List α) : as.findSomeM? f = .ok (as.findSome? g) := by
  induction as with
  | nil => rfl
  | cons a as ih =>
    rw [List.findSomeM?_cons, List.findSome?_cons, h a, ok_bind]
    cases g a with
    | none => exact ih
    | some b => rfl

/-! ## Outcomes with recoverable errors -/

/-- A computation that returns a value, reports an error or panics. -/
abbrev Fallible (ε α : Type) := ExceptT ε Outcome α

namespace Fallible

/-- A computation that cannot panic. -/
def ofExcept (x : Except ε α) : Fallible ε α := ExceptT.mk (.ok x)

/-- A computation that cannot report an error. -/
def ofOutcome (x : Outcome α) : Fallible ε α := ExceptT.lift x

/-- A successful sequence is two successful computations. -/
theorem bind_eq_ok {x : Fallible ε α} {f : α → Fallible ε β} {b : β} :
    (x >>= f).run = .ok (.ok b) ↔ ∃ a, x.run = .ok (.ok a) ∧ (f a).run = .ok (.ok b) := by
  rw [ExceptT.run_bind, Control.bind_eq_ok]
  constructor
  · rintro ⟨r, hr, h⟩
    cases r with
    | error e => cases h
    | ok a => exact ⟨a, hr, h⟩
  · rintro ⟨a, ha, h⟩
    exact ⟨.ok a, ha, h⟩

/-- What comes back in any case does not matter to whether a sequence does. -/
theorem returns_bind_iff {x : Fallible ε α} {f : α → Fallible ε β}
    (hf : ∀ a, (f a).run.Returns) : (x >>= f).run.Returns ↔ x.run.Returns := by
  rw [ExceptT.run_bind]
  rcases x.run with p | (err | a)
  · exact iff_of_false (Outcome.not_returns_error p) (Outcome.not_returns_error p)
  · exact iff_of_true ⟨_, rfl⟩ ⟨_, rfl⟩
  · exact iff_of_true (hf a) ⟨_, rfl⟩

theorem ofExcept_eq_ok {x : Except ε α} {a : α} :
    (ofExcept x).run = .ok (.ok a) ↔ x = .ok a := by
  constructor
  · intro h
    cases h
    rfl
  · rintro rfl
    rfl

/-- A loop over a list whose body keeps an invariant keeps it. -/
theorem foldlM_inv {step : σ → α → Fallible ε σ} (inv : σ → Prop)
    (hstep : ∀ s a s', inv s → (step s a).run = .ok (.ok s') → inv s') :
    ∀ (as : List α) (s s' : σ), inv s → (as.foldlM step s).run = .ok (.ok s') → inv s' := by
  intro as
  induction as with
  | nil =>
    intro s s' hs h
    cases h
    exact hs
  | cons a as ih =>
    intro s s' hs h
    rw [List.foldlM_cons, bind_eq_ok] at h
    obtain ⟨mid, hmid, hrest⟩ := h
    exact ih mid s' (hstep s a mid hs hmid) hrest

end Fallible

/-! ## Bounded loops -/

/-- `while cond { body }`, stopped after `n` rounds at the latest. -/
def whileLoop (cond : σ → Bool) (body : σ → σ) : Nat → σ → σ
  | 0, s => s
  | n + 1, s => if cond s then whileLoop cond body n (body s) else s

/-- **The loop rule.**  The invariant survives the loop, and with enough rounds
the loop really ends: its guard is false. -/
theorem whileLoop_spec (cond : σ → Bool) (body : σ → σ) (inv : σ → Prop) (measure : σ → Nat)
    (hstep : ∀ s, inv s → cond s = true → inv (body s) ∧ measure (body s) < measure s) :
    ∀ (n : Nat) (s : σ), inv s → measure s ≤ n →
      inv (whileLoop cond body n s) ∧ cond (whileLoop cond body n s) = false := by
  intro n
  induction n with
  | zero =>
    intro s hs hm
    refine ⟨hs, ?_⟩
    by_contra hc
    have hlt := (hstep s hs (by simpa [whileLoop] using hc)).2
    omega
  | succ n ih =>
    intro s hs hm
    by_cases hc : cond s = true
    · obtain ⟨hs', hm'⟩ := hstep s hs hc
      rw [whileLoop, if_pos hc]
      exact ih (body s) hs' (by omega)
    · rw [whileLoop, if_neg hc]
      exact ⟨hs, by simpa using hc⟩

/-! ## Checked arithmetic -/

/-- `a + b` in a build that checks for overflow. -/
def checkedAdd (a b : UInt64) : Outcome UInt64 :=
  if a.toNat + b.toNat < 2 ^ 64 then .ok (a + b) else .panic "attempt to add with overflow"

theorem checkedAdd_of_lt {a b : UInt64} (h : a.toNat + b.toNat < 2 ^ 64) :
    checkedAdd a b = .ok (a + b) := if_pos h

theorem checkedAdd_returns_iff {a b : UInt64} :
    (checkedAdd a b).Returns ↔ a.toNat + b.toNat < 2 ^ 64 := by
  unfold checkedAdd
  split_ifs with h
  · exact iff_of_true (Outcome.returns_ok _) h
  · exact iff_of_false (Outcome.not_returns_panic _) h

/-- `while cond { body }` where the guard and the body may panic. -/
def whileLoopM (cond : σ → Outcome Bool) (body : σ → Outcome σ) : Nat → σ → Outcome σ
  | 0, s => .ok s
  | n + 1, s => do
      let go ← cond s
      if go then do
        let s ← body s
        whileLoopM cond body n s
      else return s

/-- **The rule of a loop that does not panic.**  Where the invariant keeps guard and body
from panicking, the loop is the plain one. -/
theorem whileLoopM_eq {cond : σ → Outcome Bool} {body : σ → Outcome σ} {c : σ → Bool} {b : σ → σ}
    (inv : σ → Prop) (hcond : ∀ s, inv s → cond s = .ok (c s))
    (hbody : ∀ s, inv s → c s = true → body s = .ok (b s) ∧ inv (b s)) :
    ∀ (n : Nat) (s : σ), inv s →
      whileLoopM cond body n s = .ok (whileLoop c b n s) ∧ inv (whileLoop c b n s) := by
  intro n
  induction n with
  | zero => exact fun s hs => ⟨rfl, hs⟩
  | succ n ih =>
    intro s hs
    rw [whileLoopM, whileLoop, hcond s hs, ok_bind]
    by_cases hc : c s = true
    · obtain ⟨hrun, hinv⟩ := hbody s hs hc
      rw [if_pos hc, if_pos hc, hrun, ok_bind]
      exact ih (b s) hinv
    · rw [if_neg hc, if_neg hc]
      exact ⟨rfl, hs⟩

end Control
