import AwgTun.Lib.TextWrite

/-!
# The numbers that texts denote

A numeral is read without regard to any width, and the parsers of machine integers are compared with
that: they return what the text denotes, if it fits.

* `numeral` — digits in a base; `afterPlus`, `unsignedValue`, `integerValue` — with a sign.
* `fromStrRadix_eq_ok_iff`, `parseI64_eq_some_iff` — what the parsers return.
-/

namespace Text

variable {s : Text} {radix : Nat} {c : Char} {max n : Nat}

/-- The number that the digits of a text write in a base. -/
def numeral (radix : Nat) (s : Text) : Option Nat :=
  if s = [] then none
  else (s.mapM (toDigit radix)).map fun digits => Nat.ofDigits radix digits.reverse

/-- A numeral with a plus sign. -/
def afterPlus (radix : Nat) : Text → Option Nat
  | '+' :: s => numeral radix s
  | _ => none

/-- A numeral, perhaps with a plus sign. -/
def unsignedValue (radix : Nat) : Text → Option Nat
  | '+' :: s => numeral radix s
  | s => numeral radix s

/-- A decimal numeral, perhaps with a sign. -/
def integerValue : Text → Option Int
  | '-' :: s => (numeral 10 s).map fun n : Nat => -(n : Int)
  | s => (unsignedValue 10 s).map fun n : Nat => (n : Int)

/-- `str::parse::<i64>`, without the kind of its error. -/
def parseI64 : Text → Option Int
  | [] => none
  | ['+'] => none
  | ['-'] => none
  | '-' :: s => (digitLoop 10 (2 ^ 63) 0 s).toOption.map fun n : Nat => -(n : Int)
  | '+' :: s => (digitLoop 10 (2 ^ 63 - 1) 0 s).toOption.map fun n : Nat => (n : Int)
  | s => (digitLoop 10 (2 ^ 63 - 1) 0 s).toOption.map fun n : Nat => (n : Int)

/-- What stands before the digits only grows. -/
theorem le_digits (hradix : 0 < radix) (acc : Nat) (digits : List Nat) :
    acc ≤ acc * radix ^ digits.length + Nat.ofDigits radix digits.reverse :=
  (Nat.le_mul_of_pos_right acc (Nat.pow_pos hradix)).trans (Nat.le_add_right _ _)

theorem ofDigits_cons_digit (radix acc d : Nat) (digits : List Nat) :
    acc * radix ^ (d :: digits).length + Nat.ofDigits radix (d :: digits).reverse =
      (acc * radix + d) * radix ^ digits.length + Nat.ofDigits radix digits.reverse := by
  rw [List.reverse_cons, Nat.ofDigits_append, Nat.ofDigits_singleton, List.length_reverse,
    List.length_cons]
  ring

/-- The digit loop, from what it has read so far. -/
theorem digitLoop_eq_ok_iff {radix max acc n : Nat} (hradix : 0 < radix) (hacc : acc ≤ max) :
    digitLoop radix max acc s = .ok n ↔ ∃ digits, s.mapM (toDigit radix) = some digits ∧
      acc * radix ^ digits.length + Nat.ofDigits radix digits.reverse = n ∧ n ≤ max := by
  induction s generalizing acc with
  | nil =>
    simp only [digitLoop, List.mapM_nil]
    constructor
    · intro h
      cases h
      exact ⟨[], rfl, by simp, hacc⟩
    · rintro ⟨digits, hdigits, rfl, -⟩
      cases hdigits
      simp
  | cons c s ih =>
    rw [digitLoop, List.mapM_cons]
    cases hc : toDigit radix c with
    | none => exact iff_of_false (by simp) (by rintro ⟨digits, ⟨⟩, -⟩)
    | some d =>
      simp only [Option.bind_eq_bind, Option.bind_some]
      constructor
      · intro h
        split_ifs at h with hle
        obtain ⟨digits, hdigits, hvalue, hmax⟩ := (ih hle).mp h
        refine ⟨d :: digits, by rw [hdigits]; rfl, ?_, hmax⟩
        rw [ofDigits_cons_digit, hvalue]
      · rintro ⟨digits', hdigits', hvalue, hmax⟩
        obtain ⟨digits, hdigits, heq⟩ := Option.bind_eq_some_iff.mp hdigits'
        cases heq
        rw [ofDigits_cons_digit] at hvalue
        have hle : acc * radix + d ≤ max :=
          (le_digits hradix (acc * radix + d) digits).trans (hvalue.le.trans hmax)
        rw [if_pos hle]
        exact (ih hle).mpr ⟨digits, hdigits, hvalue, hmax⟩

theorem digitLoop_eq_ok_iff_numeral (hradix : 0 < radix) (hs : s ≠ []) :
    digitLoop radix max 0 s = .ok n ↔ numeral radix s = some n ∧ n ≤ max := by
  rw [digitLoop_eq_ok_iff hradix (Nat.zero_le max), numeral, if_neg hs]
  simp only [Nat.zero_mul, Nat.zero_add, Option.map_eq_some_iff]
  constructor
  · rintro ⟨digits, hdigits, hvalue, hmax⟩
    exact ⟨⟨digits, hdigits, hvalue⟩, hmax⟩
  · rintro ⟨⟨digits, hdigits, hvalue⟩, hmax⟩
    exact ⟨digits, hdigits, hvalue, hmax⟩

/-- A sign is not a digit. -/
theorem numeral_sign (hc : toDigit radix c = none) (s : Text) :
    numeral radix (c :: s) = none := by
  rw [numeral, if_neg (List.cons_ne_nil c s), List.mapM_cons, hc]
  rfl

theorem toDigit_sign (hc : c = '+' ∨ c = '-') : toDigit radix c = none := by
  rcases hc with rfl | rfl <;> rfl

theorem unsignedValue_of_ne (hc : c ≠ '+') (s : Text) :
    unsignedValue radix (c :: s) = numeral radix (c :: s) := by
  unfold unsignedValue
  split
  · next heq => exact absurd (List.cons.inj heq).1 hc
  · rfl

theorem unsignedValue_eq_or (radix : Nat) (s : Text) :
    unsignedValue radix s = (numeral radix s).or (afterPlus radix s) := by
  unfold unsignedValue afterPlus
  split
  · rw [numeral_sign (toDigit_sign (.inl rfl)), Option.none_or]
  · rw [Option.or_none]

/-- A numeral does not begin with a sign. -/
theorem numeral_eq_none_of_afterPlus {radix n : Nat} (h : afterPlus radix s = some n) :
    numeral radix s = none := by
  unfold afterPlus at h
  split at h
  · exact numeral_sign (toDigit_sign (.inl rfl)) _
  · cases h

/-- **What the parser of an unsigned integer returns**: what the text denotes, if it fits. -/
theorem fromStrRadix_eq_ok_iff (hradix : 0 < radix) :
    fromStrRadix radix max s = .ok n ↔ unsignedValue radix s = some n ∧ n ≤ max := by
  rcases s with - | ⟨c, s⟩
  · exact iff_of_false (by simp [fromStrRadix]) (by simp [unsignedValue, numeral])
  by_cases hplus : c = '+'
  · subst hplus
    rcases s with - | ⟨d, s⟩
    · exact iff_of_false (by simp [fromStrRadix]) (by simp [unsignedValue, numeral])
    · exact digitLoop_eq_ok_iff_numeral hradix (List.cons_ne_nil d s)
  rw [unsignedValue_of_ne hplus]
  by_cases hminus : c = '-'
  · subst hminus
    rw [numeral_sign (toDigit_sign (.inr rfl))]
    rcases s with - | ⟨d, s⟩
    · exact iff_of_false (by simp [fromStrRadix]) (by simp)
    · refine iff_of_false ?_ (by simp)
      change ¬ digitLoop radix max 0 ('-' :: d :: s) = .ok n
      rw [digitLoop, toDigit_sign (.inr rfl)]
      simp
  · rw [fromStrRadix_of_digit hplus hminus]
    exact digitLoop_eq_ok_iff_numeral hradix (List.cons_ne_nil c s)

theorem toOption_eq_some_iff {ε α : Type} {x : Except ε α} {a : α} :
    x.toOption = some a ↔ x = .ok a := by
  cases x <;> simp [Except.toOption]

/-- **What the parser of a signed integer returns.** -/
theorem parseI64_eq_some_iff {z : Int} :
    parseI64 s = some z ↔ integerValue s = some z ∧ -2 ^ 63 ≤ z ∧ z < 2 ^ 63 := by
  have hten : 0 < 10 := by decide
  have hpositive : ∀ t : Text, t ≠ [] →
      ((digitLoop 10 (2 ^ 63 - 1) 0 t).toOption.map (fun n : Nat => (n : Int)) = some z ↔
        (numeral 10 t).map (fun n : Nat => (n : Int)) = some z ∧ -2 ^ 63 ≤ z ∧ z < 2 ^ 63) := by
    intro t ht
    simp only [Option.map_eq_some_iff, toOption_eq_some_iff, digitLoop_eq_ok_iff_numeral hten ht]
    constructor
    · rintro ⟨n, ⟨hn, hmax⟩, rfl⟩
      exact ⟨⟨n, hn, rfl⟩, by omega, by omega⟩
    · rintro ⟨⟨n, hn, rfl⟩, -, hlt⟩
      exact ⟨n, ⟨hn, by omega⟩, rfl⟩
  rcases s with - | ⟨c, s⟩
  · exact iff_of_false (by simp [parseI64]) (by simp [integerValue, unsignedValue, numeral])
  by_cases hminus : c = '-'
  · subst hminus
    rcases s with - | ⟨d, s⟩
    · exact iff_of_false (by simp [parseI64]) (by simp [integerValue, numeral])
    · change (digitLoop 10 (2 ^ 63) 0 (d :: s)).toOption.map (fun n : Nat => -(n : Int)) = some z ↔
        (numeral 10 (d :: s)).map (fun n : Nat => -(n : Int)) = some z ∧ _
      simp only [Option.map_eq_some_iff, toOption_eq_some_iff,
        digitLoop_eq_ok_iff_numeral hten (List.cons_ne_nil d s)]
      constructor
      · rintro ⟨n, ⟨hn, hmax⟩, rfl⟩
        exact ⟨⟨n, hn, rfl⟩, by omega, by omega⟩
      · rintro ⟨⟨n, hn, rfl⟩, hge, -⟩
        exact ⟨n, ⟨hn, by omega⟩, rfl⟩
  by_cases hplus : c = '+'
  · subst hplus
    rcases s with - | ⟨d, s⟩
    · exact iff_of_false (by simp [parseI64]) (by simp [integerValue, unsignedValue, numeral])
    · exact hpositive (d :: s) (List.cons_ne_nil d s)
  · have hparse : parseI64 (c :: s) =
        (digitLoop 10 (2 ^ 63 - 1) 0 (c :: s)).toOption.map fun n : Nat => (n : Int) := by
      unfold parseI64
      split <;> simp_all
    have hvalue : integerValue (c :: s) = (numeral 10 (c :: s)).map fun n : Nat => (n : Int) := by
      rw [← unsignedValue_of_ne hplus]
      unfold integerValue
      split
      · next heq => exact absurd (List.cons.inj heq).1 hminus
      · rfl
    rw [hparse, hvalue]
    exact hpositive (c :: s) (List.cons_ne_nil c s)

end Text
