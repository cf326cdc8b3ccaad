import Mathlib

/-!
# Shift registers with taps

A register of `w` bits in Galois form: a step shifts it down by one place, and where a one falls out
at the low end the taps are added.  Addition is XOR, so a step is additive, and two things follow.

A checksum that takes in its data bit by bit can take in a whole word at once: what is above the
word is only shifted, and the rest can be looked up in a table (`feed_word`).

A map that is additive and commutes with the step is known from its value on the top bit, as a
polynomial in the step (`Commutes.apply_eq`).  So powers of such maps can be computed by squaring,
and the period of the register is found without going through its states (`minimalPeriod_step`).

* `step`, `feed` — the register on its own, and with a bit of data.
* `Commutes` — maps that respect the register.
* `times`, `power` — how these maps compose, on their values.
-/

namespace Galois

variable {w : Nat} {f : BitVec w → BitVec w} {x : BitVec w} {k n : Nat}

/-- One step of the register. -/
def step (taps x : BitVec w) : BitVec w :=
  if x.getLsbD 0 then (x >>> 1) ^^^ taps else x >>> 1

/-- One step with a bit of data. -/
def feed (taps x : BitVec w) (bit : Bool) : BitVec w :=
  if x.getLsbD 0 ^^ bit then (x >>> 1) ^^^ taps else x >>> 1

variable {taps : BitVec w}

theorem step_xor (x y : BitVec w) : step taps (x ^^^ y) = step taps x ^^^ step taps y := by
  have hshift : (x ^^^ y) >>> 1 = (x >>> 1) ^^^ (y >>> 1) := BitVec.ushiftRight_xor_distrib x y 1
  simp only [step, BitVec.getLsbD_xor, hshift]
  cases x.getLsbD 0 <;> cases y.getLsbD 0
  · rfl
  · exact BitVec.xor_assoc _ _ _
  · simp only [Bool.xor_false, if_true, Bool.false_eq_true, if_false]
    rw [BitVec.xor_assoc, BitVec.xor_assoc, BitVec.xor_comm taps]
  · -- the taps come in twice
    simp only [Bool.xor_true, Bool.not_true, Bool.false_eq_true, if_false, if_true]
    rw [BitVec.xor_assoc, BitVec.xor_comm taps, BitVec.xor_assoc, BitVec.xor_self, BitVec.xor_zero]

theorem step_of_even (hx : x.getLsbD 0 = false) : step taps x = x >>> 1 := by
  simp [step, hx]

/-- The test for the low bit. -/
theorem and_one_ne_zero (hw : 0 < w) (x : BitVec w) : x &&& 1#w ≠ 0#w ↔ x.getLsbD 0 = true := by
  rw [BitVec.and_one_eq_setWidth_ofBool_getLsbD]
  cases x.getLsbD 0
  · simp
  · simp [BitVec.toNat_eq, Nat.mod_eq_of_lt (Nat.one_lt_two_pow hw.ne')]

/-! ## Maps that respect the register -/

/-- An additive map that commutes with the step. -/
structure Commutes (taps : BitVec w) (f : BitVec w → BitVec w) : Prop where
  xor : ∀ x y, f (x ^^^ y) = f x ^^^ f y
  step : Function.Commute f (step taps)

namespace Commutes

variable {f g : BitVec w → BitVec w}

theorem zero (hf : Commutes taps f) : f 0 = 0 := by
  have h := hf.xor 0 0
  rwa [BitVec.xor_self, BitVec.xor_self] at h

theorem of_step : Commutes taps (Galois.step taps) := ⟨step_xor, .refl _⟩

theorem iterate (hf : Commutes taps f) (n : Nat) : Commutes taps f^[n] where
  xor x y := by
    induction n generalizing x y with
    | zero => rfl
    | succ n ih => simp only [Function.iterate_succ_apply, hf.xor, ih]
  step := hf.step.iterate_left n

theorem add (hf : Commutes taps f) (hg : Commutes taps g) : Commutes taps fun x => f x ^^^ g x where
  xor x y := by
    rw [hf.xor, hg.xor, BitVec.xor_assoc, BitVec.xor_assoc, ← BitVec.xor_assoc (f y),
      BitVec.xor_comm (f y), BitVec.xor_assoc (g x)]
  step x := by
    change f _ ^^^ g _ = _
    rw [hf.step x, hg.step x, ← step_xor]

theorem id : Commutes taps fun x => x := ⟨fun _ _ => rfl, fun _ => rfl⟩

end Commutes

/-! ## Taking in a word -/

/-- The bits of a word, the lowest first. -/
def wordBits {n : Nat} (b : BitVec n) : List Bool := (List.range n).map b.getLsbD

/-- Bits in their places. -/
def pack : List Bool → BitVec w
  | [] => 0
  | bit :: bits => (pack bits <<< 1) ^^^ (BitVec.ofBool bit).setWidth w

theorem getLsbD_pack (bits : List Bool) {i : Nat} (hi : i < w) :
    (pack bits : BitVec w).getLsbD i = bits.getD i false := by
  induction bits generalizing i with
  | nil => simp [pack]
  | cons bit bits ih =>
    cases i with
    | zero => simp [pack, hi]
    | succ i =>
      have hlater := ih (show i < w by omega)
      rw [pack, BitVec.getLsbD_xor, BitVec.getLsbD_shiftLeft, Nat.add_sub_cancel, hlater]
      simp [hi]

theorem pack_wordBits (b : BitVec n) : (pack (wordBits b) : BitVec w) = b.setWidth w := by
  apply BitVec.eq_of_getLsbD_eq
  intro i hi
  rw [getLsbD_pack _ hi, BitVec.getLsbD_setWidth, wordBits]
  by_cases hin : i < n
  · simp [hi, hin]
  · simp [hin, BitVec.getLsbD_of_ge b i (Nat.not_lt.mp hin)]

/-- A bit of data is added at the low end. -/
theorem feed_eq (hw : 0 < w) (x : BitVec w) (bit : Bool) :
    feed taps x bit = step taps (x ^^^ (BitVec.ofBool bit).setWidth w) := by
  have hshift : (x ^^^ (BitVec.ofBool bit).setWidth w) >>> 1 = x >>> 1 := by
    apply BitVec.eq_of_getLsbD_eq
    intro i hi
    simp
  have hbit : (x ^^^ (BitVec.ofBool bit).setWidth w).getLsbD 0 = (x.getLsbD 0 ^^ bit) := by
    simp [hw]
  rw [feed, step, hshift, hbit]

/-- Bits that are fed one after the other can all be added first. -/
theorem foldl_feed (bits : List Bool) (hbits : bits.length ≤ w) (x : BitVec w) :
    bits.foldl (feed taps) x = (step taps)^[bits.length] (x ^^^ pack bits) := by
  induction bits generalizing x with
  | nil => simp [pack]
  | cons bit bits ih =>
    rw [List.length_cons] at hbits
    -- the bits that are not due yet are only shifted
    have hlater : step taps (pack bits <<< 1) = pack bits := by
      rw [step_of_even (by simp)]
      apply BitVec.eq_of_getLsbD_eq
      intro i hi
      rw [BitVec.getLsbD_ushiftRight, BitVec.getLsbD_shiftLeft, Nat.add_sub_cancel_left]
      by_cases hlast : 1 + i < w
      · simp [hlast]
      · rw [getLsbD_pack _ hi]
        simp [hlast, List.getElem?_eq_none (show bits.length ≤ i by omega)]
    have hfirst : x ^^^ pack (bit :: bits) =
        (x ^^^ (BitVec.ofBool bit).setWidth w) ^^^ (pack bits <<< 1) := by
      rw [pack, BitVec.xor_comm (pack bits <<< 1), ← BitVec.xor_assoc]
    rw [List.foldl_cons, ih (by omega), feed_eq (by omega), List.length_cons,
      Function.iterate_succ_apply, hfirst, step_xor _ (pack bits <<< 1), hlater]

/-- Steps that find only zeros are shifts. -/
theorem iterate_step_of_low (n : Nat) (hx : ∀ i < n, x.getLsbD i = false) :
    (step taps)^[n] x = x >>> n := by
  induction n generalizing x with
  | zero => simp
  | succ n ih =>
    have hlow : ∀ i < n, (x >>> 1).getLsbD i = false := by
      intro i hi
      rw [BitVec.getLsbD_ushiftRight]
      exact hx (1 + i) (by omega)
    rw [Function.iterate_succ_apply, step_of_even (hx 0 (by omega)), ih hlow,
      ← BitVec.shiftRight_add, Nat.add_comm 1 n]

/-- **A whole word at once**: the low end of the register goes through a table, and what is above it
is shifted. -/
theorem feed_word (hn : n ≤ w) (x : BitVec w) (b : BitVec n) :
    (wordBits b).foldl (feed taps) x =
      (step taps)^[n] ((x.setWidth n ^^^ b).setWidth w) ^^^ (x >>> n) := by
  have hlen : (wordBits b).length = n := by simp [wordBits]
  have hsplit : x ^^^ b.setWidth w =
      (x.setWidth n ^^^ b).setWidth w ^^^ ((x >>> n) <<< n) := by
    apply BitVec.eq_of_getLsbD_eq
    intro i hi
    by_cases hin : i < n
    · simp [hi, hin]
    · have hsum : n + (i - n) = i := by omega
      simp [hi, hin, hsum, BitVec.getLsbD_of_ge b i (Nat.not_lt.mp hin)]
  have hhigh : (step taps)^[n] ((x >>> n) <<< n) = x >>> n := by
    rw [iterate_step_of_low n (fun i hi => by simp [hi])]
    apply BitVec.eq_of_getLsbD_eq
    intro i hi
    by_cases hin : n + i < w
    · simp [hin]
    · simp [hin, BitVec.getLsbD_of_ge x (n + i) (Nat.not_lt.mp hin)]
  rw [foldl_feed _ (by omega), hlen, pack_wordBits, hsplit, (Commutes.of_step.iterate n).xor, hhigh]

/-! ## Powers -/

/-- The top bit. -/
def top (w : Nat) : BitVec w := BitVec.twoPow w (w - 1)

/-- The value at `x` of the map whose value at the top bit is `v`, from the `k` lowest bits of
`x`. -/
def times (taps v x : BitVec w) : Nat → BitVec w
  | 0 => 0
  | k + 1 => step taps (times taps v x k) ^^^ if x.getLsbD k then v else 0

theorem Commutes.times (hf : Commutes taps f) (v x : BitVec w) (k : Nat) :
    f (times taps v x k) = Galois.times taps (f v) x k := by
  induction k with
  | zero => exact hf.zero
  | succ k ih =>
    rw [Galois.times, Galois.times, hf.xor, hf.step, ih, apply_ite f, hf.zero]

/-- The bits of `x` enter at the top and move down to their places. -/
theorem times_top (x : BitVec w) {k : Nat} (hk : k ≤ w) :
    times taps (top w) x k = x <<< (w - k) := by
  induction k with
  | zero =>
    apply BitVec.eq_of_getLsbD_eq
    intro i hi
    simp [times, hi]
  | succ k ih =>
    have heven : (x <<< (w - k)).getLsbD 0 = false := by
      simp [show 0 < w - k by omega]
    rw [times, ih (by omega), step_of_even heven]
    apply BitVec.eq_of_getLsbD_eq
    intro i hi
    rw [BitVec.getLsbD_xor, BitVec.getLsbD_ushiftRight, BitVec.getLsbD_shiftLeft,
      BitVec.getLsbD_shiftLeft]
    by_cases hlast : i = w - 1
    · subst hlast
      have hat : w - 1 - (w - (k + 1)) = k := by omega
      have hout : ¬ 1 + (w - 1) < w := by omega
      have hin : ¬ w - 1 < w - (k + 1) := by omega
      cases hbit : x.getLsbD k <;> simp [top, hat, hbit, hout, hin, hi]
    · have hat : 1 + i - (w - k) = i - (w - (k + 1)) := by omega
      have hzero : (if x.getLsbD k then top w else 0).getLsbD i = false := by
        split_ifs
        · simp [top, BitVec.getLsbD_twoPow]
          omega
        · simp
      rw [hzero, hat]
      have hlow : 1 + i < w - k ↔ i < w - (k + 1) := by omega
      simp [hlow, show 1 + i < w by omega, hi]

/-- **A map that respects the register is known from its value on the top bit.** -/
theorem Commutes.apply_eq (hf : Commutes taps f) (x : BitVec w) :
    f x = Galois.times taps (f (top w)) x w := by
  rw [← hf.times, times_top x le_rfl, Nat.sub_self, BitVec.shiftLeft_zero]

/-- `k x`, with `x` brought to a numeral first.  In an evaluation `x` is then computed once, and
before `k` is entered. -/
def forced {α : Type} (x : BitVec w) (k : BitVec w → α) : α :=
  match x.toNat with
  | 0 => k 0
  | n + 1 => k (BitVec.ofNat w (n + 1))

theorem forced_eq {α : Type} (x : BitVec w) (k : BitVec w → α) : forced x k = k x := by
  have hx : BitVec.ofNat w x.toNat = x := by rw [BitVec.ofNat_toNat, BitVec.setWidth_eq]
  unfold forced
  cases hn : x.toNat with
  | zero =>
    rw [hn] at hx
    exact congrArg k hx
  | succ n =>
    rw [hn] at hx
    exact congrArg k hx

/-- Squaring and multiplying, for the `k` lowest bits of `n`: all on values at the top bit. -/
def power (taps v : BitVec w) : Nat → Nat → BitVec w → BitVec w
  | 0, _, x => x
  | k + 1, n, x =>
    forced (times taps x x w) fun square =>
      forced (if n.testBit k then times taps v square w else square) (power taps v k n)

/-- What has been done is the power by the higher bits. -/
theorem Commutes.power_eq (hf : Commutes taps f) (k n : Nat) :
    power taps (f (top w)) k n (f^[n >>> k] (top w)) = f^[n] (top w) := by
  induction k with
  | zero => rfl
  | succ k ih =>
    have hsquare : Galois.times taps (f^[n >>> (k + 1)] (top w)) (f^[n >>> (k + 1)] (top w)) w =
        f^[n >>> (k + 1) + n >>> (k + 1)] (top w) := by
      rw [← (hf.iterate _).apply_eq, Function.iterate_add_apply]
    have hbit : n >>> k = n >>> (k + 1) + n >>> (k + 1) + (n.testBit k).toNat := by
      rw [Nat.shiftRight_succ, Nat.testBit_eq_decide_div_mod_eq, Nat.shiftRight_eq_div_pow]
      rcases Nat.mod_two_eq_zero_or_one (n / 2 ^ k) with h | h
      · rw [h]
        change _ = _ + 0
        omega
      · rw [h]
        change _ = _ + 1
        omega
    rw [power, forced_eq, forced_eq, hsquare, ← ih, hbit]
    cases n.testBit k
    · rfl
    · rw [if_pos rfl, ← hf.apply_eq, ← Function.iterate_succ_apply' f]
      rfl

theorem Commutes.iterate_top (hf : Commutes taps f) (hn : n < 2 ^ k) :
    f^[n] (top w) = power taps (f (top w)) k n (top w) := by
  have h := hf.power_eq k n
  rw [Nat.shiftRight_eq_div_pow, Nat.div_eq_of_lt hn] at h
  exact h.symm

/-! ## The period -/

/-- A power of such a map that keeps the top bit keeps everything. -/
theorem Commutes.iterate_eq_self (hf : Commutes taps f) (hn : n < 2 ^ k)
    (htop : power taps (f (top w)) k n (top w) = top w) (x : BitVec w) : f^[n] x = x := by
  rw [(hf.iterate n).apply_eq, hf.iterate_top hn, htop, times_top x le_rfl, Nat.sub_self,
    BitVec.shiftLeft_zero]

/-- **The period of the register**, for every state but zero: after `n` steps it is back, and for
every prime of `n` the register moves by an invertible map in the `p`-th part of the way. -/
theorem minimalPeriod_step (hpos : 0 < n) (hn : n < 2 ^ k)
    (hback : power taps (step taps (top w)) k n (top w) = top w) (haway : ∀ p, p.Prime → p ∣ n →
      power taps (power taps (step taps (top w)) k (n / p) (top w) ^^^ top w) k n (top w) = top w)
    (hx : x ≠ 0) : Function.minimalPeriod (step taps) x = n := by
  have hstep : Commutes taps (step taps) := .of_step
  have hperiod : Function.IsPeriodicPt (step taps) n x := hstep.iterate_eq_self hn hback x
  obtain ⟨m, hm⟩ := hperiod.minimalPeriod_dvd
  by_contra hne
  obtain ⟨p, hp, hpm⟩ := Nat.exists_prime_and_dvd (n := m) (by rintro rfl; exact hne (by omega))
  have hpn : p ∣ n := hm ▸ hpm.mul_left _
  -- the register would be back after `n / p` steps
  have hearly : (step taps)^[n / p] x = x := by
    apply Function.isPeriodicPt_iff_minimalPeriod_dvd.mpr
    obtain ⟨q, rfl⟩ := hpm
    rw [hm, Nat.mul_comm p q, ← Nat.mul_assoc, Nat.mul_div_cancel _ hp.pos]
    exact Nat.dvd_mul_right _ _
  have haway' : Commutes taps fun y => (step taps)^[n / p] y ^^^ y := (hstep.iterate _).add .id
  have hvalue : (step taps)^[n / p] (top w) = power taps (step taps (top w)) k (n / p) (top w) :=
    hstep.iterate_top ((Nat.div_le_self n p).trans_lt hn)
  have hkeeps : (fun y => (step taps)^[n / p] y ^^^ y)^[n] x = x :=
    haway'.iterate_eq_self hn (by simp only [hvalue]; exact haway p hp hpn) x
  obtain ⟨n, rfl⟩ : ∃ n', n = n' + 1 := ⟨n - 1, by omega⟩
  rw [Function.iterate_succ_apply, hearly, BitVec.xor_self] at hkeeps
  exact hx (hkeeps.symm.trans (haway'.iterate n).zero)

end Galois
