import AwgTun.Device.Device

/-!
# The register of indices

`IndexLfsr` hands out the indices of peers: 24 bits, shifted by one place for each index.  A shift
can be undone, so the register does not come to a value for the second time before it comes back
to the first one, and there its assertion fires.

* `IndexLfsr.advance_injOn` — a shift can be undone, as long as 24 bits are used.
* `IndexLfsr.At.next` — what the next index is, if there is one.
* `IndexLfsr.At.index_ne` — no index is handed out twice.
-/

open Control

namespace IndexLfsr

variable {r : IndexLfsr}

/-! ## Shifts -/

/-- One shift. -/
def advance (x : UInt32) : UInt32 := (x >>> 1) ^^^ ((0 - (x &&& 1)) &&& 0xd80000)

/-- The bit that is shifted out says whether the polynomial comes in. -/
theorem advance_toNat (x : UInt32) :
    (advance x).toNat = x.toNat / 2 ^^^ if x.toNat % 2 = 1 then 0xd80000 else 0 := by
  have hbit : (x &&& 1).toNat = x.toNat % 2 := by simp [UInt32.toNat_and]
  have hshift : (x >>> 1).toNat = x.toNat / 2 := by
    simp [UInt32.toNat_shiftRight, Nat.shiftRight_eq_div_pow]
  rw [advance, UInt32.toNat_xor, hshift]
  split_ifs with hodd
  · have hone : x &&& 1 = 1 := UInt32.toNat_inj.mp (by rw [hbit, hodd]; rfl)
    rw [hone]
    rfl
  · have hzero : x &&& 1 = 0 := UInt32.toNat_inj.mp (by rw [hbit]; simpa using hodd)
    rw [hzero]
    rfl

/-- What the register can hold: 24 bits, not all of them zero. -/
def States : Set UInt32 := {x | x ≠ 0 ∧ x.toNat < 2 ^ 24}

/-- The polynomial has the highest bit, which a shift leaves empty. -/
theorem testBit_advance {x : UInt32} (hx : x.toNat < 2 ^ 24) :
    (advance x).toNat.testBit 23 = decide (x.toNat % 2 = 1) := by
  have hlow : (x.toNat / 2).testBit 23 = false := Nat.testBit_lt_two_pow (by omega)
  rw [advance_toNat, Nat.testBit_xor, hlow, Bool.false_xor]
  split_ifs with hodd
  · simp only [hodd]
    decide
  · simp only [hodd]
    decide

theorem advance_mapsTo : Set.MapsTo advance States States := by
  rintro x ⟨hne, hlt⟩
  constructor
  · intro hzero
    have hbit := testBit_advance hlt
    have hnat := advance_toNat x
    rw [hzero] at hbit hnat
    -- nothing was shifted out, and nothing was left
    have heven : ¬ x.toNat % 2 = 1 := by simpa using hbit.symm
    rw [if_neg heven, Nat.xor_zero] at hnat
    refine hne (UInt32.toNat_inj.mp ?_)
    have hhalf : x.toNat / 2 = 0 := hnat.symm
    show x.toNat = 0
    omega
  · rw [advance_toNat]
    refine Nat.xor_lt_two_pow (by omega) ?_
    split_ifs <;> decide

/-- **A shift can be undone.** -/
theorem advance_injOn : Set.InjOn advance States := by
  rintro x ⟨-, hx⟩ y ⟨-, hy⟩ heq
  have hparity : x.toNat % 2 = 1 ↔ y.toNat % 2 = 1 := by
    have hbit := testBit_advance hx
    rw [heq, testBit_advance hy] at hbit
    simpa using hbit.symm
  have hhalf : x.toNat / 2 = y.toNat / 2 := by
    have hnat := congrArg UInt32.toNat heq
    rw [advance_toNat, advance_toNat, if_congr hparity rfl rfl] at hnat
    exact Nat.xor_left_injective hnat
  exact UInt32.toNat_inj.mp (by omega)

/-! ## Indices -/

/-- The `n`-th index. -/
def index (r : IndexLfsr) (n : Nat) : UInt32 := (advance^[n] r.initial - 1) ^^^ r.mask

/-- The register has handed out `n` indices since it was seeded, and was not back at its seed
since. -/
structure At (r : IndexLfsr) (n : Nat) : Prop where
  initial : r.initial ∈ States
  mask : r.mask.toNat < 2 ^ 24
  lfsr : r.lfsr = advance^[n] r.initial
  back : ∀ k, 0 < k → k ≤ n → advance^[k] r.initial ≠ r.initial

/-- What `random_index` can return: the loop leaves the low bits of a random number, once one of
them is set. -/
def IsRandomIndex (i : UInt32) : Prop := 0 < i ∧ ∃ random : UInt32, i = random &&& 0xffffff

/-- A register as `IndexLfsr::default` makes it. -/
structure Seeded (r : IndexLfsr) : Prop where
  initial : IsRandomIndex r.initial
  lfsr : r.lfsr = r.initial
  mask : IsRandomIndex r.mask

theorem IsRandomIndex.toNat_lt {i : UInt32} (h : IsRandomIndex i) : i.toNat < 2 ^ 24 := by
  obtain ⟨-, random, rfl⟩ := h
  rw [UInt32.toNat_and]
  exact lt_of_le_of_lt Nat.and_le_right (by decide)

theorem Seeded.at_zero (h : r.Seeded) : r.At 0 where
  initial := ⟨(UInt32.pos_iff_ne_zero.mp h.initial.1), h.initial.toNat_lt⟩
  mask := h.mask.toNat_lt
  lfsr := h.lfsr
  back := by
    intro k hpos hle
    omega

section Draws

variable {r : IndexLfsr} {n : Nat} {i j : Nat}

/-- **The next index**, if the assertion does not fire. -/
theorem At.next (h : r.At n) (hreturns : r.next.1.Returns) :
    r.next = (.ok (r.index n), { r with lfsr := advance r.lfsr }) ∧
      IndexLfsr.At { r with lfsr := advance r.lfsr } (n + 1) := by
  have hshift : advance r.lfsr = advance^[n + 1] r.initial := by
    rw [h.lfsr, Function.iterate_succ_apply']
  by_cases hfires : advance r.lfsr = r.initial
  · obtain ⟨value, hvalue⟩ := hreturns
    have hpanic : r.next.1 = .panic "Too many peers created" := congrArg Prod.fst
      (if_neg (not_not.mpr hfires))
    rw [hpanic] at hvalue
    cases hvalue
  · refine ⟨?_, h.initial, h.mask, hshift, ?_⟩
    · rw [index, ← h.lfsr]
      exact if_pos hfires
    · intro k hpos hle
      rcases Nat.le_succ_iff.mp hle with hle | rfl
      · exact h.back k hpos hle
      · exact hshift ▸ hfires

/-- **No index is handed out twice.** -/
theorem At.index_ne (h : r.At n) (hij : i < j) (hj : j ≤ n) :
    r.index i ≠ r.index j := by
  intro heq
  have hstate : advance^[i] r.initial = advance^[j] r.initial := by
    rw [index, index, UInt32.xor_left_inj] at heq
    exact (UInt32.sub_left_inj 1).mp heq
  -- undo the first shifts: the register was back at its seed
  have hback : advance^[j - i] r.initial = r.initial := by
    refine advance_injOn.iterate advance_mapsTo i ?_ h.initial ?_
    · exact advance_mapsTo.iterate _ h.initial
    · rw [← Function.iterate_add_apply, Nat.add_sub_cancel' hij.le, hstate]
  exact h.back (j - i) (by omega) (by omega) hback

theorem At.index_inj (h : r.At n) (hi : i ≤ n) (hj : j ≤ n) (heq : r.index i = r.index j) :
    i = j := by
  rcases Nat.lt_trichotomy i j with hlt | hsame | hgt
  · exact absurd heq (h.index_ne hlt hj)
  · exact hsame
  · exact absurd heq.symm (h.index_ne hgt hi)

/-- An index has 24 bits. -/
theorem At.index_lt (h : r.At n) (i : Nat) : (r.index i).toNat < 2 ^ 24 := by
  obtain ⟨hne, hlt⟩ := advance_mapsTo.iterate i h.initial
  have hpos : 1 ≤ advance^[i] r.initial :=
    UInt32.le_iff_toNat_le.mpr (UInt32.lt_iff_toNat_lt.mp (UInt32.pos_iff_ne_zero.mpr hne))
  rw [index, UInt32.toNat_xor]
  refine Nat.xor_lt_two_pow ?_ h.mask
  rw [UInt32.toNat_sub_of_le _ _ hpos]
  exact lt_of_le_of_lt (Nat.sub_le _ _) hlt

end Draws

/-! ## How many are left -/

/-- The register has another `n` indices before its assertion fires. -/
def Supplies : Nat → IndexLfsr → Prop
  | 0, _ => True
  | n + 1, r => r.next.1.Returns ∧ Supplies n r.next.2

/-- The register after some indices. -/
def skip : Nat → IndexLfsr → IndexLfsr
  | 0, r => r
  | n + 1, r => skip n r.next.2

theorem Supplies.of_succ {n : Nat} (h : Supplies (n + 1) r) :
    Supplies n r := by
  induction n generalizing r with
  | zero => trivial
  | succ n ih => exact ⟨h.1, ih h.2⟩

theorem next_cases (r : IndexLfsr) :
    r.next.1.Returns ∨ r.next.1 = .panic "Too many peers created" := by
  simp only [next]
  split_ifs
  · exact .inl ⟨_, rfl⟩
  · exact .inr rfl

end IndexLfsr
