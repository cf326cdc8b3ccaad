import AwgTun.Lib.Bytes

/-!
# A ring of bits over a growing set of numbers

A set `S` of natural numbers grows over time.  Remembering all of it is too much;
a ring of `N` bits remembers, for each of the last `N` numbers below `next`,
whether it is in the set.  Number `c` has the bit `slot N c`, its residue.

* `Tracks` — the ring agrees with the set on the window of `N` numbers below
  `next`.
* `Tracks.mark` — putting a number of the window into the set.
* `Tracks.advance` — moving `next` past a new number `c`, after the bits of the
  numbers skipped have been cleared (`Cleared`).
* `Cleared.refl`, `Cleared.trans`, `Cleared.single`, `Cleared.all` — how a range of
  numbers is cleared piece by piece, or all at once.
* `nextAfter` — one more than the largest member of a list, zero for the empty one.
-/

namespace RingBits

variable (N : Nat) [NeZero N] {d : Nat}

/-- The bit of number `c`. -/
def slot (c : Nat) : Fin N := Fin.ofNat N c

/-- The ring agrees with the set on the `N` numbers below `next`. -/
def Tracks (bit : Fin N → Bool) (next : Nat) (S : Set Nat) : Prop :=
  ∀ c, c < next → next ≤ c + N → (bit (slot N c) = true ↔ c ∈ S)

/-- The bits of `lo..hi` have been cleared, and no other bit has changed. -/
structure Cleared (bit bit' : Fin N → Bool) (lo hi : Nat) : Prop where
  inside : ∀ k, lo ≤ k → k < hi → bit' (slot N k) = false
  outside : ∀ n, (∀ k, lo ≤ k → k < hi → slot N k ≠ n) → bit' n = bit n

variable {N}

/-! ## Slots -/

theorem slot_eq_iff : slot N c = slot N d ↔ c % N = d % N := by
  simp [slot, Fin.ext_iff]

theorem slot_val (c : Nat) : (slot N c).val = c % N := rfl

/-- Numbers less than `N` apart have different slots. -/
theorem eq_of_slot_eq (hcd : c < d + N) (hdc : d < c + N) (h : slot N c = slot N d) : c = d := by
  rw [slot_eq_iff] at h
  rcases Nat.le_total c d with hle | hle
  · have hmod := Nat.sub_mod_eq_zero_of_mod_eq h.symm
    rw [Nat.mod_eq_of_lt (by omega)] at hmod
    omega
  · have hmod := Nat.sub_mod_eq_zero_of_mod_eq h
    rw [Nat.mod_eq_of_lt (by omega)] at hmod
    omega

/-! ## Clearing -/

variable {bit bit' bit'' : Fin N → Bool} {lo mid hi : Nat}

theorem Cleared.refl (h : hi ≤ lo) : Cleared N bit bit lo hi where
  inside := fun k hlo hhi => absurd (Nat.lt_of_le_of_lt hlo hhi) (by omega)
  outside := fun _ _ => rfl

theorem Cleared.trans (h : Cleared N bit bit' lo mid) (h' : Cleared N bit' bit'' mid hi)
    (hlo : lo ≤ mid) (hhi : mid ≤ hi) : Cleared N bit bit'' lo hi where
  inside := by
    intro k hk hk'
    by_cases hhit : ∀ j, mid ≤ j → j < hi → slot N j ≠ slot N k
    · rw [h'.outside _ hhit]
      refine h.inside k hk ?_
      by_contra hmid
      exact hhit k (by omega) hk' rfl
    · push Not at hhit
      obtain ⟨j, hj, hj', heq⟩ := hhit
      rw [← heq]
      exact h'.inside j hj hj'
  outside := by
    intro n hn
    rw [h'.outside n fun k hk hk' => hn k (by omega) hk',
      h.outside n fun k hk hk' => hn k hk (by omega)]

/-- Clearing the bit of one number. -/
theorem Cleared.single (lo : Nat) :
    Cleared N bit (Function.update bit (slot N lo) false) lo (lo + 1) where
  inside := by
    intro k hk hk'
    obtain rfl : k = lo := by omega
    simp
  outside := by
    intro n hn
    rw [Function.update_of_ne]
    exact (hn lo le_rfl (by omega)).symm

/-- A range as long as the ring covers every bit. -/
theorem Cleared.all (h : lo + N ≤ hi) : Cleared N bit (fun _ => false) lo hi where
  inside := fun _ _ _ => rfl
  outside := by
    intro n hn
    -- the number of `lo..lo + N` with the residue of `n`
    have hN : 0 < N := Nat.pos_of_neZero N
    have hlt := Nat.mod_lt (n.val + N - lo % N) hN
    refine absurd ?_ (hn (lo + (n.val + N - lo % N) % N) (by omega) (by omega))
    have hle : lo % N ≤ n.val + N := by
      have := Nat.mod_lt lo hN
      omega
    have hsum : (lo + (n.val + N - lo % N) % N) % N = n.val := by
      calc (lo + (n.val + N - lo % N) % N) % N
          = (lo % N + (n.val + N - lo % N)) % N := by simp [Nat.add_mod]
        _ = (n.val + N) % N := by rw [Nat.add_sub_of_le hle]
        _ = n.val := by simp [Nat.mod_eq_of_lt n.isLt]
    exact Fin.ext hsum

/-! ## Tracking -/

variable {S : Set Nat} {next c : Nat}

theorem Tracks.zero : Tracks N bit 0 S := fun _ h => absurd h (Nat.not_lt_zero _)

/-- A number of the window joins the set: its bit is set. -/
theorem Tracks.mark (h : Tracks N bit next S) (hlt : c < next) (hwin : next ≤ c + N) :
    Tracks N (Function.update bit (slot N c) true) next (insert c S) := by
  intro d hd hdwin
  by_cases hdc : d = c
  · subst hdc
    simp
  · have hslot : slot N d ≠ slot N c := fun heq =>
      hdc (eq_of_slot_eq (by omega) (by omega) heq)
    rw [Function.update_of_ne hslot, h d hd hdwin, Set.mem_insert_iff]
    simp [hdc]

/-- A number at or past `next` joins the set: the numbers skipped are cleared, its
own bit is set, and the window moves up. -/
theorem Tracks.advance (h : Tracks N bit next S) (hS : ∀ d ∈ S, d < next) (hle : next ≤ c)
    (hclear : Cleared N bit bit' next c) :
    Tracks N (Function.update bit' (slot N c) true) (c + 1) (insert c S) := by
  intro d hd hdwin
  by_cases hdc : d = c
  · subst hdc
    simp
  · have hslot : slot N d ≠ slot N c := fun heq =>
      hdc (eq_of_slot_eq (by omega) (by omega) heq)
    rw [Function.update_of_ne hslot, Set.mem_insert_iff]
    by_cases hnew : next ≤ d
    · have hnot : d ∉ S := fun hmem => absurd (hS d hmem) (by omega)
      simp [hclear.inside d hnew (by omega), hdc, hnot]
    · -- an old number: no number skipped shares its bit
      have hkeep : bit' (slot N d) = bit (slot N d) := by
        refine hclear.outside _ fun k hk hk' heq => ?_
        have hkd := eq_of_slot_eq (by omega) (by omega) heq
        omega
      rw [hkeep, h d (by omega) (by omega)]
      simp [hdc]

/-- A number below `next` but within the window is missing from the ring exactly
when it is missing from the set. -/
theorem Tracks.bit_eq_false_iff (h : Tracks N bit next S) (hlt : c < next) (hwin : next ≤ c + N) :
    bit (slot N c) = false ↔ c ∉ S := by
  rw [← h c hlt hwin, Bool.not_eq_true]

/-! ## Bits of a 64-bit word -/

section Word

variable {w b : UInt64} {j : Nat}

/-- Reading bit `b` by a shift and a mask. -/
theorem word_testBit (h : b.toNat < 64) :
    (((w >>> b) &&& 1) == 1) = w.toBitVec.getLsbD b.toNat := by
  have hshift : (w >>> b).toBitVec.getLsbD 0 = w.toBitVec.getLsbD b.toNat := by
    simp [UInt64.toBitVec_shiftRight, Nat.mod_eq_of_lt h]
  rw [← hshift, Bool.eq_iff_iff, beq_iff_eq, ← UInt64.toBitVec_inj, UInt64.toBitVec_and]
  show (w >>> b).toBitVec &&& 1#64 = 1#64 ↔ _
  rw [BitVec.and_one_eq_setWidth_ofBool_getLsbD]
  cases (w >>> b).toBitVec.getLsbD 0 <;> decide

theorem word_oneBit (h : b.toNat < 64) :
    (1 <<< b : UInt64).toBitVec.getLsbD j = decide (j = b.toNat) := by
  have hone : (1 : UInt64).toBitVec = 1#64 := rfl
  have hmod : (b.toBitVec % 64).toNat = b.toNat := by simp [Nat.mod_eq_of_lt h]
  rw [UInt64.toBitVec_shiftLeft, BitVec.getLsbD_shiftLeft', hone, BitVec.getLsbD_one, hmod,
    Bool.eq_iff_iff]
  simp
  omega

theorem word_setBit (h : b.toNat < 64) :
    (w ||| 1 <<< b).toBitVec.getLsbD j = (w.toBitVec.getLsbD j || decide (j = b.toNat)) := by
  rw [UInt64.toBitVec_or, BitVec.getLsbD_or, word_oneBit h]

theorem word_clearBit (h : b.toNat < 64) (hj : j < 64) :
    (w &&& ~~~(1 <<< b)).toBitVec.getLsbD j = (w.toBitVec.getLsbD j && !decide (j = b.toNat)) := by
  rw [UInt64.toBitVec_and, UInt64.toBitVec_not, BitVec.getLsbD_and, BitVec.getLsbD_not,
    word_oneBit h]
  simp [hj]

/-- Rounding an aligned number down to a multiple of 64 leaves it alone. -/
theorem word_roundDown (h : w.toNat % 64 = 0) : w &&& (0 - 64) = w := by
  apply UInt64.toNat_inj.mp
  have hmask : (0 - 64 : UInt64).toNat = 2 ^ 64 - 2 ^ 6 := by decide
  rw [UInt64.toNat_and, hmask, Bytes.and_roundDown w.toNat_lt (by decide)]
  omega

end Word

/-! ## The end of the window -/

/-- One more than the largest member, zero for the empty list. -/
def nextAfter (cs : List Nat) : Nat := cs.foldr (fun c n => max (c + 1) n) 0

@[simp] theorem nextAfter_nil : nextAfter [] = 0 := rfl

@[simp] theorem nextAfter_cons (c : Nat) (cs : List Nat) :
    nextAfter (c :: cs) = max (c + 1) (nextAfter cs) := rfl

theorem lt_nextAfter {c : Nat} {cs : List Nat} (h : c ∈ cs) : c < nextAfter cs := by
  induction cs with
  | nil => cases h
  | cons d cs ih =>
    rw [nextAfter_cons]
    rcases List.mem_cons.mp h with rfl | h
    · omega
    · have := ih h
      omega

end RingBits
