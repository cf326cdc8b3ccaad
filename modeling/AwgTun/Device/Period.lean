import AwgTun.Device.Register
import AwgTun.Lib.Galois

/-!
# The period of the register of indices

`IndexLfsr` is a shift register of 24 bits in words of 32.  The polynomial of its taps is primitive,
so the register goes through all values but zero before it is back at its seed.  The primes of
`2 ^ 24 - 1` are 3, 5, 7, 13, 17 and 241, and what has to be computed for each of them is two
powers.

* `IndexLfsr.minimalPeriod_advance` — the period, from every state.
* `IndexLfsr.indices_distinct` — how many indices there are before the assertion fires.
-/

open Control Galois

namespace IndexLfsr

/-- `LFSR_POLY`, in the width of the register. -/
def taps : BitVec 24 := 0xd80000#24

/-- A value of the register, in the word that holds it. -/
def word (y : BitVec 24) : UInt32 := UInt32.ofNat y.toNat

theorem word_toNat (y : BitVec 24) : (word y).toNat = y.toNat :=
  UInt32.toNat_ofNat_of_lt' (y.isLt.trans (by decide))

theorem word_injective : Function.Injective word := by
  intro y z h
  have hnat := congrArg UInt32.toNat h
  rw [word_toNat, word_toNat] at hnat
  exact BitVec.eq_of_toNat_eq hnat

/-- A shift of the word is a step of the register. -/
theorem word_step : Function.Semiconj word (step taps) advance := by
  intro y
  apply UInt32.toNat_inj.mp
  have hlow : y.getLsbD 0 = true ↔ y.toNat % 2 = 1 := by
    rw [BitVec.getLsbD, Nat.testBit_zero, decide_eq_true_eq]
  rw [advance_toNat, word_toNat, word_toNat, step]
  split_ifs with h h' h'
  · rw [BitVec.toNat_xor, BitVec.toNat_ushiftRight, Nat.shiftRight_eq_div_pow]
    rfl
  · exact absurd (hlow.mp h) h'
  · exact absurd (hlow.mpr h') h
  · rw [BitVec.toNat_ushiftRight, Nat.shiftRight_eq_div_pow, Nat.xor_zero]

/-- The primes of `2 ^ 24 - 1`. -/
theorem prime_of_period {p : Nat} (hp : p.Prime) (hdvd : p ∣ 16777215) :
    p ∈ [3, 5, 7, 13, 17, 241] := by
  have hfactors : 16777215 = 3 * 3 * 5 * 7 * 13 * 17 * 241 := rfl
  rw [hfactors] at hdvd
  simp only [hp.dvd_mul] at hdvd
  have heq : ∀ q, q.Prime → p ∣ q → p = q := fun q hq => (Nat.prime_dvd_prime_iff_eq hp hq).mp
  rcases hdvd with (((((h | h) | h) | h) | h) | h) | h
  · simp [heq 3 (by norm_num) h]
  · simp [heq 3 (by norm_num) h]
  · simp [heq 5 (by norm_num) h]
  · simp [heq 7 (by norm_num) h]
  · simp [heq 13 (by norm_num) h]
  · simp [heq 17 (by norm_num) h]
  · simp [heq 241 (by norm_num) h]

theorem power_back : power taps (step taps (top 24)) 24 16777215 (top 24) = top 24 := by
  decide +kernel

theorem power_away : ∀ p ∈ [3, 5, 7, 13, 17, 241],
    power taps (power taps (step taps (top 24)) 24 (16777215 / p) (top 24) ^^^ top 24) 24 16777215
      (top 24) = top 24 := by
  decide +kernel

/-- **The period is maximal**: the register comes back to a value after `2 ^ 24 - 1` shifts, and not
before. -/
theorem minimalPeriod_advance {x : UInt32} (hx : x ∈ States) :
    Function.minimalPeriod advance x = 2 ^ 24 - 1 := by
  change _ = 16777215
  obtain ⟨hne, hlt⟩ := hx
  have hword : word (BitVec.ofNat 24 x.toNat) = x := by
    apply UInt32.toNat_inj.mp
    rw [word_toNat, BitVec.toNat_ofNat, Nat.mod_eq_of_lt hlt]
  have hzero : BitVec.ofNat 24 x.toNat ≠ 0 := by
    intro h
    rw [h] at hword
    exact hne hword.symm
  have hperiod : Function.minimalPeriod (step taps) (BitVec.ofNat 24 x.toNat) = 16777215 :=
    minimalPeriod_step (by decide) (by decide) power_back
      (fun p hp hdvd => power_away p (prime_of_period hp hdvd)) hzero
  rw [← hword, ← hperiod]
  apply Function.minimalPeriod_eq_minimalPeriod_iff.mpr
  intro n
  unfold Function.IsPeriodicPt Function.IsFixedPt
  rw [← word_step.iterate_right n, word_injective.eq_iff]

/-! ## The indices -/

theorem skip_eq (r : IndexLfsr) (n : Nat) : r.skip n = { r with lfsr := advance^[n] r.lfsr } := by
  induction n generalizing r with
  | zero => rfl
  | succ n ih =>
    have hnext : r.next.2 = { r with lfsr := advance r.lfsr } := by
      simp only [next]
      split_ifs <;> rfl
    rw [skip, hnext, ih]
    rfl

variable {r : IndexLfsr}

/-- The register was not back at its seed before the end of its period. -/
theorem At.skip (h : r.At 0) {n : Nat} (hn : n < 2 ^ 24 - 1) : (r.skip n).At n := by
  rw [skip_eq]
  refine ⟨h.initial, h.mask, congrArg _ h.lfsr, ?_⟩
  intro k hpos hle hback
  have hdvd := Function.IsPeriodicPt.minimalPeriod_dvd hback
  rw [minimalPeriod_advance h.initial] at hdvd
  exact absurd (Nat.le_of_dvd hpos hdvd) (by omega)

/-- What a call returns after `n` others. -/
theorem next_skip_eq (r : IndexLfsr) (n : Nat) :
    (r.skip n).next.1 = if advance^[n + 1] r.lfsr ≠ r.initial then
      .ok ((advance^[n] r.lfsr - 1) ^^^ r.mask) else .panic "Too many peers created" := by
  rw [skip_eq, Function.iterate_succ_apply']
  simp only [next]
  split_ifs with h h' h'
  · rfl
  · exact absurd h h'
  · exact absurd h' h
  · rfl

theorem index_skip (r : IndexLfsr) (n i : Nat) : (r.skip n).index i = r.index i := by
  rw [skip_eq]
  rfl

theorem At.next_skip (h : r.At 0) (n : Nat) (hn : n < 2 ^ 24 - 2) :
    (r.skip n).next.1 = .ok (r.index n) := by
  have hlfsr : r.lfsr = r.initial := h.lfsr
  have haway := (h.skip (show n + 1 < 2 ^ 24 - 1 by omega)).back (n + 1) (by omega) le_rfl
  rw [skip_eq] at haway
  rw [next_skip_eq, hlfsr, if_pos haway]
  rfl

/-- **Indices do not repeat before they are used up.**  From every seed and under every mask, the
register never holds zero, its first `2 ^ 24 - 2` calls return different indices of 24 bits, and
on the next call the assertion fires. -/
theorem indices_distinct (hinitial : r.initial ∈ States) (hlfsr : r.lfsr = r.initial)
    (hmask : r.mask.toNat < 2 ^ 24) :
    (∀ n, (r.skip n).lfsr ∈ States) ∧
      (∀ n < 2 ^ 24 - 2, ∃ i, (r.skip n).next.1 = .ok i ∧ i.toNat < 2 ^ 24) ∧
      (∀ m n, m < n → n < 2 ^ 24 - 2 → (r.skip m).next.1 ≠ (r.skip n).next.1) ∧
      (r.skip (2 ^ 24 - 2)).next.1 = .panic "Too many peers created" := by
  have hseed : r.At 0 := ⟨hinitial, hmask, hlfsr, by omega⟩
  have hindex : ∀ n < 2 ^ 24 - 2, (r.skip n).next.1 = .ok (r.index n) := hseed.next_skip
  refine ⟨?_, ?_, ?_, ?_⟩
  · intro n
    rw [skip_eq, hlfsr]
    exact advance_mapsTo.iterate n hinitial
  · intro n hn
    exact ⟨r.index n, hindex n hn, hseed.index_lt n⟩
  · intro m n hmn hn heq
    rw [hindex m (by omega), hindex n hn] at heq
    have hne := (hseed.skip (show n < 2 ^ 24 - 1 by omega)).index_ne hmn le_rfl
    rw [index_skip, index_skip] at hne
    exact hne (Except.ok.inj heq)
  · have hback : Function.IsPeriodicPt advance (2 ^ 24 - 1) r.initial :=
      Function.isPeriodicPt_iff_minimalPeriod_dvd.mpr (minimalPeriod_advance hinitial).dvd
    rw [next_skip_eq, hlfsr]
    exact if_neg (not_not.mpr hback)

/-- The register that begins at 1, under no mask. -/
theorem indices_distinct_one :
    (IndexLfsr.skip (2 ^ 24 - 2) ⟨1, 1, 0⟩).next.1 = .panic "Too many peers created" :=
  (indices_distinct (r := ⟨1, 1, 0⟩) ⟨by decide, by decide⟩ rfl (by decide)).2.2.2

end IndexLfsr
