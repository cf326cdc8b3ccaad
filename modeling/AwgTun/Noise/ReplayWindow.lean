import AwgTun.Lib.RingBits
import AwgTun.Noise.Session

/-!
# The replay window is exact

`ReceivingKeyCounterValidator` is a ring of 1024 bits in the sense of `RingBits`,
kept in sixteen words.  The file first reads the word operations as operations on
single bits, then shows that the three clearing loops of `mark_did_receive` clear
exactly the counters they skip, and from that that one call refines one step of the
abstract window: a counter is accepted when it is new and not more than 1024 behind.

Everything is about counters below `2 ^ 64 - 1024`, where no `u64` sum wraps.
-/

open Control RingBits

namespace ReceivingKeyCounterValidator

/-! ## Words as bits -/

/-- The word of the ring that holds bit `i`. -/
def wordAt (i : Fin 1024) : Fin 16 := ⟨i.val / 64, by omega⟩

/-- Bit `i` of the ring. -/
def bit (v : ReceivingKeyCounterValidator) (i : Fin 1024) : Bool :=
  (v.bitmap (wordAt i)).toBitVec.getLsbD (i.val % 64)

theorem wordOf_val (idx : UInt64) : (wordOf idx).val = idx.toNat % 1024 / 64 := by
  simp only [wordOf, UInt64.toNat_div, UInt64.toNat_mod]
  rfl

theorem bitOf_toNat (idx : UInt64) : (bitOf idx).toNat = idx.toNat % 64 := by
  simp only [bitOf, UInt64.toNat_mod]
  show idx.toNat % 1024 % 64 = idx.toNat % 64
  omega

theorem bitOf_lt (idx : UInt64) : (bitOf idx).toNat < 64 := by
  rw [bitOf_toNat]
  omega

/-- The word and the position inside it are the two digits of the slot. -/
theorem eq_slot_iff {i : Fin 1024} {idx : UInt64} :
    i = slot 1024 idx.toNat ↔ wordAt i = wordOf idx ∧ i.val % 64 = (bitOf idx).toNat := by
  have hword : wordAt i = wordOf idx ↔ i.val / 64 = idx.toNat % 1024 / 64 := by
    rw [Fin.ext_iff, wordOf_val, wordAt]
  rw [hword, Fin.ext_iff, bitOf_toNat, slot_val]
  omega

theorem checkBit_eq (v : ReceivingKeyCounterValidator) (idx : UInt64) :
    v.checkBit idx = v.bit (slot 1024 idx.toNat) := by
  obtain ⟨hword, hbit⟩ := eq_slot_iff.mp (rfl : slot 1024 idx.toNat = _)
  rw [checkBit, word_testBit (bitOf_lt idx), bit, hbit, hword]

/-- A word rewritten at the position of one counter is the ring rewritten at the
slot of that counter. -/
theorem bit_updateWord (v : ReceivingKeyCounterValidator) (idx word : UInt64) {b : Bool}
    (hself : word.toBitVec.getLsbD (bitOf idx).toNat = b)
    (hother : ∀ j < 64, j ≠ (bitOf idx).toNat →
      word.toBitVec.getLsbD j = (v.bitmap (wordOf idx)).toBitVec.getLsbD j) :
    ({ v with bitmap := Function.update v.bitmap (wordOf idx) word } :
      ReceivingKeyCounterValidator).bit = Function.update v.bit (slot 1024 idx.toNat) b := by
  funext i
  by_cases hi : i = slot 1024 idx.toNat
  · obtain ⟨hword, hbit⟩ := eq_slot_iff.mp hi
    rw [hi, Function.update_self, ← hi]
    simp only [bit, hword, hbit, Function.update_self, hself]
  · rw [Function.update_of_ne hi]
    simp only [bit]
    by_cases hword : wordAt i = wordOf idx
    · rw [hword, Function.update_self]
      exact hother _ (Nat.mod_lt _ (by decide)) fun hbit => hi (eq_slot_iff.mpr ⟨hword, hbit⟩)
    · rw [Function.update_of_ne hword]

theorem setBit_bit (v : ReceivingKeyCounterValidator) (idx : UInt64) :
    (v.setBit idx).bit = Function.update v.bit (slot 1024 idx.toNat) true := by
  refine bit_updateWord v idx _ ?_ fun j _ hne => ?_
  · rw [word_setBit (bitOf_lt idx), decide_eq_true rfl, Bool.or_true]
  · rw [word_setBit (bitOf_lt idx), decide_eq_false hne, Bool.or_false]

theorem clearBit_bit (v : ReceivingKeyCounterValidator) (idx : UInt64) :
    (v.clearBit idx).bit = Function.update v.bit (slot 1024 idx.toNat) false := by
  refine bit_updateWord v idx _ ?_ fun j hj hne => ?_
  · rw [word_clearBit (bitOf_lt idx) (bitOf_lt idx), decide_eq_true rfl, Bool.not_true,
      Bool.and_false]
  · rw [word_clearBit (bitOf_lt idx) hj, decide_eq_false hne, Bool.not_false, Bool.and_true]

/-- Clearing the word of an aligned counter clears the 64 counters from it on. -/
theorem clearWord_cleared (v : ReceivingKeyCounterValidator) {idx : UInt64}
    (halign : idx.toNat % 64 = 0) :
    Cleared 1024 v.bit (v.clearWord idx).bit idx.toNat (idx.toNat + 64) where
  inside := by
    intro k hk hk'
    have hword : wordAt (slot 1024 k) = wordOf idx := by
      rw [Fin.ext_iff, wordOf_val]
      show k % 1024 / 64 = _
      omega
    simp [bit, clearWord, hword]
  outside := by
    intro i hi
    have hword : wordAt i ≠ wordOf idx := by
      intro h
      have h' : i.val / 64 = idx.toNat % 1024 / 64 := by
        rw [← wordOf_val, ← h]
        rfl
      refine hi (idx.toNat + i.val % 64) (by omega) (by omega) ?_
      rw [Fin.ext_iff, slot_val]
      omega
    simp [bit, clearWord, Function.update_of_ne hword]

/-! ## The clearing loops -/

/-- The counters from `lo` up to the loop variable are cleared; nothing else has
been touched. -/
structure Clearing (v : ReceivingKeyCounterValidator) (lo hi : Nat)
    (s : ReceivingKeyCounterValidator × UInt64) : Prop where
  lo_le : lo ≤ s.2.toNat
  le_hi : s.2.toNat ≤ hi
  cleared : Cleared 1024 v.bit s.1.bit lo s.2.toNat
  next_eq : s.1.next = v.next

variable {v : ReceivingKeyCounterValidator} {lo : Nat} {counter : UInt64}
  {s : ReceivingKeyCounterValidator × UInt64}

/-- One round that clears a single bit. -/
theorem Clearing.clearBit (h : Clearing v lo counter.toNat s) (hlt : s.2 < counter) :
    Clearing v lo counter.toNat (s.1.clearBit s.2, s.2 + 1) ∧
      counter.toNat - (s.2 + 1).toNat < counter.toNat - s.2.toNat := by
  have hlt' : s.2.toNat < counter.toNat := UInt64.lt_iff_toNat_lt.mp hlt
  have hnext : (s.2 + 1).toNat = s.2.toNat + 1 := by
    have hcounter := counter.toNat_lt
    rw [UInt64.toNat_add]
    exact Nat.mod_eq_of_lt (show s.2.toNat + 1 < 2 ^ 64 by omega)
  refine ⟨⟨?_, ?_, ?_, h.next_eq⟩, ?_⟩
  · show lo ≤ (s.2 + 1).toNat
    have := h.lo_le
    omega
  · show (s.2 + 1).toNat ≤ counter.toNat
    omega
  · show Cleared 1024 v.bit (s.1.clearBit s.2).bit lo (s.2 + 1).toNat
    rw [clearBit_bit, hnext]
    exact h.cleared.trans (Cleared.single _) h.lo_le (Nat.le_succ _)
  · omega

/-- The first loop stops at a word boundary or at the counter. -/
theorem clearHead_spec (h : Clearing v lo counter.toNat s) :
    Clearing v lo counter.toNat (clearHead counter s) ∧
      ((clearHead counter s).2.toNat % 64 = 0 ∨
        (clearHead counter s).2.toNat = counter.toNat) := by
  have hfuel : counter.toNat - s.2.toNat ≤ loopBound := by
    have hcounter := counter.toNat_lt
    show _ ≤ 2 ^ 64
    omega
  obtain ⟨hinv, hexit⟩ := whileLoop_spec
    (fun s => s.2 % wordSize != 0 && decide (s.2 < counter))
    (fun s => (s.1.clearBit s.2, s.2 + 1))
    (Clearing v lo counter.toNat) (fun s => counter.toNat - s.2.toNat)
    (fun s hs hc => hs.clearBit (by simpa using (Bool.and_eq_true_iff.mp hc).2)) loopBound s h hfuel
  refine ⟨hinv, ?_⟩
  by_cases halign : (clearHead counter s).2.toNat % 64 = 0
  · exact .inl halign
  · right
    have hge : ¬ (clearHead counter s).2 < counter := by
      intro hlt
      have hne : (clearHead counter s).2 % wordSize ≠ 0 := by
        intro hz
        have := congrArg UInt64.toNat hz
        rw [UInt64.toNat_mod] at this
        exact halign this
      have htrue : ((clearHead counter s).2 % wordSize != 0 &&
          decide ((clearHead counter s).2 < counter)) = true := by
        simp [hne, hlt]
      exact absurd (htrue.symm.trans hexit) (by decide)
    have hle := hinv.le_hi
    have hge' : counter.toNat ≤ (clearHead counter s).2.toNat :=
      UInt64.le_iff_toNat_le.mp (UInt64.not_lt.mp hge)
    exact Nat.le_antisymm hle hge'

/-- One round that clears a whole word. -/
theorem Clearing.clearWord (h : Clearing v lo counter.toNat s) (halign : s.2.toNat % 64 = 0)
    (hsmall : counter.toNat < 2 ^ 64 - 1024) (hlt : s.2 + wordSize < counter) :
    Clearing v lo counter.toNat (s.1.clearWord s.2, (s.2 + wordSize) &&& (0 - wordSize)) ∧
      ((s.2 + wordSize) &&& (0 - wordSize)).toNat = s.2.toNat + 64 ∧
      s.2.toNat + 64 < counter.toNat := by
  have hsum : (s.2 + wordSize).toNat = s.2.toNat + 64 := by
    have hle := h.le_hi
    rw [UInt64.toNat_add]
    exact Nat.mod_eq_of_lt (show s.2.toNat + 64 < 2 ^ 64 by omega)
  have hround : ((s.2 + wordSize) &&& (0 - wordSize)).toNat = s.2.toNat + 64 := by
    rw [← hsum]
    exact congrArg UInt64.toNat (word_roundDown (w := s.2 + wordSize) (by omega))
  have hlt' : s.2.toNat + 64 < counter.toNat := hsum ▸ UInt64.lt_iff_toNat_lt.mp hlt
  refine ⟨⟨?_, ?_, ?_, h.next_eq⟩, hround, hlt'⟩
  · show lo ≤ ((s.2 + wordSize) &&& (0 - wordSize)).toNat
    have := h.lo_le
    omega
  · show ((s.2 + wordSize) &&& (0 - wordSize)).toNat ≤ counter.toNat
    omega
  · show Cleared 1024 v.bit (s.1.clearWord s.2).bit lo ((s.2 + wordSize) &&& (0 - wordSize)).toNat
    rw [hround]
    exact h.cleared.trans (clearWord_cleared s.1 halign) h.lo_le (Nat.le_add_right _ _)

theorem clearWords_spec (h : Clearing v lo counter.toNat s) (hsmall : counter.toNat < 2 ^ 64 - 1024)
    (hstart : s.2.toNat % 64 = 0 ∨ s.2.toNat = counter.toNat) :
    Clearing v lo counter.toNat (clearWords counter s) := by
  -- alignment is kept until the loop variable reaches the counter
  have hfuel : counter.toNat - s.2.toNat ≤ loopBound := by
    show _ ≤ 2 ^ 64
    omega
  refine (whileLoop_spec
    (fun s => decide (s.2 + wordSize < counter))
    (fun s => (s.1.clearWord s.2, (s.2 + wordSize) &&& (0 - wordSize)))
    (fun s => Clearing v lo counter.toNat s ∧ (s.2.toNat % 64 = 0 ∨ s.2.toNat = counter.toNat))
    (fun s => counter.toNat - s.2.toNat)
    ?_ loopBound s ⟨h, hstart⟩ hfuel).1.1
  rintro s ⟨hs, halign⟩ hc
  have hlt : s.2 + wordSize < counter := of_decide_eq_true hc
  have haligned : s.2.toNat % 64 = 0 := by
    rcases halign with halign | heq
    · exact halign
    · have hcounter : s.2 = counter := UInt64.toNat_inj.mp heq
      rw [hcounter] at hlt
      have hlt' := UInt64.lt_iff_toNat_lt.mp hlt
      rw [UInt64.toNat_add] at hlt'
      have hword : wordSize.toNat = 64 := rfl
      omega
  obtain ⟨hclear, hround, hbound⟩ := hs.clearWord haligned hsmall hlt
  refine ⟨⟨hclear, .inl ?_⟩, ?_⟩
  · rw [hround]
    omega
  · rw [hround]
    omega

theorem clearTail_spec (h : Clearing v lo counter.toNat s) :
    Clearing v lo counter.toNat (clearTail counter s) ∧
      (clearTail counter s).2.toNat = counter.toNat := by
  have hfuel : counter.toNat - s.2.toNat ≤ loopBound := by
    have hcounter := counter.toNat_lt
    show _ ≤ 2 ^ 64
    omega
  obtain ⟨hinv, hexit⟩ := whileLoop_spec
    (fun s => decide (s.2 < counter)) (fun s => (s.1.clearBit s.2, s.2 + 1))
    (Clearing v lo counter.toNat) (fun s => counter.toNat - s.2.toNat)
    (fun s hs hc => hs.clearBit (of_decide_eq_true hc)) loopBound s h hfuel
  have hge : counter.toNat ≤ (clearTail counter s).2.toNat :=
    UInt64.le_iff_toNat_le.mp (UInt64.not_lt.mp (of_decide_eq_false hexit))
  exact ⟨hinv, Nat.le_antisymm hinv.le_hi hge⟩

/-- **The skip clears exactly what it skips.** -/
theorem skipTo_spec (hlt : v.next < counter) (hsmall : counter.toNat < 2 ^ 64 - 1024) :
    Cleared 1024 v.bit (v.skipTo counter).bit v.next.toNat counter.toNat ∧
      (v.skipTo counter).next = v.next := by
  have hlt' : v.next.toNat < counter.toNat := UInt64.lt_iff_toNat_lt.mp hlt
  unfold skipTo
  split_ifs with hfar
  · have hsub : (counter - v.next).toNat = counter.toNat - v.next.toNat :=
      UInt64.toNat_sub_of_le _ _ (UInt64.le_iff_toNat_le.mpr hlt'.le)
    have hfar' : 1024 ≤ counter.toNat - v.next.toNat := hsub ▸ UInt64.le_iff_toNat_le.mp hfar
    have hzero : ({ v with bitmap := fun _ => 0 } : ReceivingKeyCounterValidator).bit
        = fun _ => false := by
      funext i
      simp [bit]
    rw [hzero]
    exact ⟨Cleared.all (by omega), rfl⟩
  · have hstart : Clearing v v.next.toNat counter.toNat (v, v.next) :=
      ⟨le_rfl, hlt'.le, Cleared.refl le_rfl, rfl⟩
    obtain ⟨hhead, halign⟩ := clearHead_spec hstart
    obtain ⟨htail, hend⟩ := clearTail_spec (clearWords_spec hhead hsmall halign)
    exact ⟨hend ▸ htail.cleared, htail.next_eq⟩

/-! ## One call -/

/-- The validator stands for the list of counters accepted so far. -/
structure Refines (v : ReceivingKeyCounterValidator) (accepted : List UInt64) : Prop where
  next_eq : v.next.toNat = nextAfter (accepted.map UInt64.toNat)
  tracks : Tracks 1024 v.bit v.next.toNat {n | n ∈ accepted.map UInt64.toNat}
  small : ∀ c ∈ accepted, c.toNat < 2 ^ 64 - 1024

/-- What the abstract window accepts: a new counter, not more than 1024 behind the
end of the window. -/
def Accepts (accepted : List UInt64) (counter : UInt64) : Prop :=
  counter ∉ accepted ∧ nextAfter (accepted.map UInt64.toNat) ≤ counter.toNat + 1024

theorem Refines.fresh : Refines {} [] := ⟨rfl, Tracks.zero, by simp⟩

theorem mem_map_toNat {c : UInt64} {cs : List UInt64} :
    c.toNat ∈ cs.map UInt64.toNat ↔ c ∈ cs := by
  simp [UInt64.toNat_inj]

variable {accepted : List UInt64}

theorem toNat_add_nBits (hsmall : counter.toNat < 2 ^ 64 - 1024) :
    (counter + nBits).toNat = counter.toNat + 1024 := by
  rw [UInt64.toNat_add]
  exact Nat.mod_eq_of_lt (show counter.toNat + 1024 < 2 ^ 64 by omega)

/-- Every accepted counter is below the end of the window. -/
theorem Refines.lt_next (h : Refines v accepted) :
    ∀ n ∈ {n | n ∈ accepted.map UInt64.toNat}, n < v.next.toNat := by
  intro n hn
  rw [h.next_eq]
  exact lt_nextAfter hn

/-- A counter at or past the end of the window is new. -/
theorem Refines.not_mem (h : Refines v accepted) (hle : v.next.toNat ≤ counter.toNat) :
    counter ∉ accepted := by
  intro hmem
  have := h.lt_next counter.toNat (mem_map_toNat.mpr hmem)
  omega

/-- The ring that results from accepting a counter stands for the longer list. -/
theorem Refines.accept {v' : ReceivingKeyCounterValidator}
    (hsmall : counter.toNat < 2 ^ 64 - 1024) (h : Refines v accepted)
    (hnext : v'.next.toNat = max (counter.toNat + 1) v.next.toNat)
    (htracks : Tracks 1024 v'.bit v'.next.toNat
      (insert counter.toNat {n | n ∈ accepted.map UInt64.toNat})) :
    Refines v' (counter :: accepted) := by
  refine ⟨?_, ?_, ?_⟩
  · rw [hnext, h.next_eq, List.map_cons, nextAfter_cons]
  · have hset : {n | n ∈ (counter :: accepted).map UInt64.toNat}
        = insert counter.toNat {n | n ∈ accepted.map UInt64.toNat} := by
      ext n
      simp [eq_comm]
    rw [hset]
    exact htracks
  · intro c hc
    rcases List.mem_cons.mp hc with rfl | hc
    · exact hsmall
    · exact h.small c hc

/-- **One call refines one step of the abstract window.** -/
theorem markDidReceive_spec (h : Refines v accepted) (hsmall : counter.toNat < 2 ^ 64 - 1024) :
    (Accepts accepted counter ∧ ∃ v', v.markDidReceive counter = (.ok (), v') ∧
      Refines v' (counter :: accepted)) ∨
    (¬ Accepts accepted counter ∧ v.markDidReceive counter = (.error .invalidCounter, v)) := by
  have hadd := toNat_add_nBits hsmall
  have hnext_eq := h.next_eq
  unfold markDidReceive
  split_ifs with hback heq hlt hbit
  · -- too far back
    right
    have hback' := UInt64.lt_iff_toNat_lt.mp hback
    exact ⟨fun hacc => absurd hacc.2 (by omega), rfl⟩
  · -- in order
    left
    subst heq
    have hsucc : (v.next + 1).toNat = v.next.toNat + 1 := by
      rw [UInt64.toNat_add]
      exact Nat.mod_eq_of_lt (show v.next.toNat + 1 < 2 ^ 64 by omega)
    refine ⟨⟨h.not_mem le_rfl, by omega⟩, _, rfl, h.accept hsmall ?_ ?_⟩
    · show (v.next + 1).toNat = _
      omega
    · show Tracks 1024 (v.setBit v.next).bit (v.next + 1).toNat _
      rw [setBit_bit, hsucc]
      exact h.tracks.advance h.lt_next le_rfl (Cleared.refl le_rfl)
  · -- late, and seen before
    right
    have hlt' := UInt64.lt_iff_toNat_lt.mp hlt
    have hwin : v.next.toNat ≤ counter.toNat + 1024 :=
      hadd ▸ UInt64.le_iff_toNat_le.mp (UInt64.not_lt.mp hback)
    rw [checkBit_eq, h.tracks _ hlt' hwin] at hbit
    exact ⟨fun hacc => hacc.1 (mem_map_toNat.mp hbit), rfl⟩
  · -- late, and new
    left
    have hlt' := UInt64.lt_iff_toNat_lt.mp hlt
    have hwin : v.next.toNat ≤ counter.toNat + 1024 :=
      hadd ▸ UInt64.le_iff_toNat_le.mp (UInt64.not_lt.mp hback)
    rw [checkBit_eq, h.tracks _ hlt' hwin] at hbit
    refine ⟨⟨fun hmem => hbit (mem_map_toNat.mpr hmem), by omega⟩, _, rfl, h.accept hsmall ?_ ?_⟩
    · show v.next.toNat = _
      omega
    · rw [setBit_bit]
      exact h.tracks.mark hlt' hwin
  · -- ahead: the counters in between are skipped
    left
    have hgt : v.next < counter := by
      rcases UInt64.lt_or_lt_of_ne heq with hlt' | hgt
      · exact absurd hlt' hlt
      · exact hgt
    have hgt' := UInt64.lt_iff_toNat_lt.mp hgt
    have hsucc : (counter + 1).toNat = counter.toNat + 1 := by
      rw [UInt64.toNat_add]
      exact Nat.mod_eq_of_lt (show counter.toNat + 1 < 2 ^ 64 by omega)
    obtain ⟨hcleared, -⟩ := skipTo_spec hgt hsmall
    refine ⟨⟨h.not_mem hgt'.le, by omega⟩, _, rfl, h.accept hsmall ?_ ?_⟩
    · show (counter + 1).toNat = _
      omega
    · show Tracks 1024 ((v.skipTo counter).setBit counter).bit (counter + 1).toNat _
      rw [setBit_bit, hsucc]
      exact h.tracks.advance h.lt_next hgt'.le hcleared

/-- The check made before decryption agrees with the abstract window too. -/
theorem willAccept_spec (h : Refines v accepted) (hsmall : counter.toNat < 2 ^ 64 - 1024) :
    v.willAccept counter = .ok () ↔ Accepts accepted counter := by
  have hadd := toNat_add_nBits hsmall
  have hnext_eq := h.next_eq
  unfold willAccept
  split_ifs with hge hback hbit
  · have hge' := UInt64.le_iff_toNat_le.mp hge
    exact iff_of_true rfl ⟨h.not_mem hge', by omega⟩
  · have hback' := UInt64.lt_iff_toNat_lt.mp hback
    exact iff_of_false (by simp) fun hacc => absurd hacc.2 (by omega)
  all_goals
    have hlt' := UInt64.lt_iff_toNat_lt.mp (UInt64.not_le.mp hge)
    have hwin : v.next.toNat ≤ counter.toNat + 1024 :=
      hadd ▸ UInt64.le_iff_toNat_le.mp (UInt64.not_lt.mp hback)
    rw [checkBit_eq] at hbit
  · have hnew := (h.tracks.bit_eq_false_iff hlt' hwin).mp (by simpa using hbit)
    exact iff_of_true rfl ⟨fun hmem => hnew (mem_map_toNat.mpr hmem), by omega⟩
  · have hold := (h.tracks _ hlt' hwin).mp (by simpa using hbit)
    exact iff_of_false (by simp) fun hacc => hacc.1 (mem_map_toNat.mp hold)

/-! ## Whole sequences -/

/-- Present one counter; the list collects those accepted, newest first. -/
def present (s : ReceivingKeyCounterValidator × List UInt64) (counter : UInt64) :
    ReceivingKeyCounterValidator × List UInt64 :=
  match s.1.markDidReceive counter with
  | (.ok (), v) => (v, counter :: s.2)
  | (.error _, v) => (v, s.2)

/-- Present a sequence of counters to a fresh validator. -/
def presentAll (counters : List UInt64) : ReceivingKeyCounterValidator × List UInt64 :=
  counters.foldl present ({}, [])

theorem present_refines {s : ReceivingKeyCounterValidator × List UInt64}
    (h : Refines s.1 s.2 ∧ s.2.Nodup) (hsmall : counter.toNat < 2 ^ 64 - 1024) :
    Refines (present s counter).1 (present s counter).2 ∧ (present s counter).2.Nodup := by
  rcases markDidReceive_spec h.1 hsmall with ⟨hacc, v', hmark, href⟩ | ⟨-, hmark⟩
  · rw [present, hmark]
    exact ⟨href, List.nodup_cons.mpr ⟨hacc.1, h.2⟩⟩
  · rw [present, hmark]
    exact h

theorem presentAll_refines {counters : List UInt64}
    (hsmall : ∀ c ∈ counters, c.toNat < 2 ^ 64 - 1024) :
    Refines (presentAll counters).1 (presentAll counters).2 ∧ (presentAll counters).2.Nodup :=
  List.foldlRecOn counters present (motive := fun s => Refines s.1 s.2 ∧ s.2.Nodup)
    ⟨Refines.fresh, List.nodup_nil⟩ fun _ hs c hc => present_refines hs (hsmall c hc)

/-- **The replay window is exact.**  After any sequence of counters, the next one is
accepted exactly when it is new and not more than 1024 behind the end of the window;
a refusal changes nothing; the check before decryption gives the same answer as the
marking after it; and no counter has been accepted twice. -/
theorem replayWindow_exact (counters : List UInt64)
    (hcounters : ∀ c ∈ counters, c.toNat < 2 ^ 64 - 1024) (counter : UInt64)
    (hcounter : counter.toNat < 2 ^ 64 - 1024) :
    (((presentAll counters).1.markDidReceive counter).1 = .ok () ↔
      counter ∉ (presentAll counters).2 ∧
        nextAfter ((presentAll counters).2.map UInt64.toNat) ≤ counter.toNat + 1024) ∧
    (((presentAll counters).1.markDidReceive counter).1 ≠ .ok () →
      ((presentAll counters).1.markDidReceive counter).2 = (presentAll counters).1) ∧
    ((presentAll counters).1.willAccept counter = .ok () ↔
      ((presentAll counters).1.markDidReceive counter).1 = .ok ()) ∧
    (presentAll counters).2.Nodup := by
  obtain ⟨href, hnodup⟩ := presentAll_refines hcounters
  have hwill := willAccept_spec href hcounter
  rcases markDidReceive_spec href hcounter with ⟨hacc, v', hmark, -⟩ | ⟨hrej, hmark⟩
  · rw [hmark]
    exact ⟨iff_of_true rfl hacc, fun hne =>
      absurd rfl hne, iff_of_true (hwill.mpr hacc) rfl, hnodup⟩
  · rw [hmark]
    exact ⟨iff_of_false (by simp) hrej, fun _ => rfl,
      iff_of_false (fun hok => hrej (hwill.mp hok)) (by simp), hnodup⟩

/-- A gap, a late counter that fills it, and the gap's other counter still to come. -/
theorem replayWindow_exact_gap :
    (presentAll [5, 3]).2 = [3, 5] ∧
      ((presentAll [5, 3]).1.markDidReceive 4).1 = .ok () ∧
      ((presentAll [5, 3]).1.markDidReceive 3).1 ≠ .ok () := by
  have hacc : (presentAll [5, 3]).2 = [3, 5] := by decide
  refine ⟨hacc, ?_, ?_⟩
  · refine (replayWindow_exact [5, 3] (by simp) 4 (by simp)).1.mpr ?_
    rw [hacc]
    decide
  · intro hok
    have hnew := (replayWindow_exact [5, 3] (by simp) 3 (by simp)).1.mp hok
    rw [hacc] at hnew
    exact absurd hnew (by decide)

end ReceivingKeyCounterValidator
