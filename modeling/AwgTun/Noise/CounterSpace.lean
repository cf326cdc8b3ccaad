import AwgTun.Lib.Trace
import AwgTun.Noise.ReplayWindow

/-!
# The end of the counter space

The sums of the replay window are formed on a counter that the peer chooses.  A build that
checks for overflow panics where one of them does not fit into a word; a release build goes
on with the wrapped sum.  The first part embeds the two functions of the window once more,
with every sum checked, and finds out when none of them overflows.

* `markDidReceiveChecked_of_lt`, `markDidReceiveChecked_returns_iff` — marking a counter
  overflows exactly if the counter is one of the last 1024.
* `Safe` — what a presented counter should do: no overflow, the end of the window does not
  move back, and every counter accepted so far is refused from then on.
* `counters_safe_iff` — all counters of a sequence are safe exactly if none is among the
  last 1024.
* `counter_accepted_again` — the last counter of all sets the window back to its start, and
  a counter accepted before is accepted a second time.
-/

open Control RingBits

namespace ReceivingKeyCounterValidator

/-! ## The functions of the window, with checked sums -/

/-- `will_accept`. -/
def willAcceptChecked (v : ReceivingKeyCounterValidator) (counter : UInt64) :
    Outcome (Except WireGuardError Unit) :=
  if counter ≥ v.next then .ok (.ok ())
  else do
    let sum ← checkedAdd counter nBits
    if sum < v.next then return .error .invalidCounter
    else if !v.checkBit counter then return .ok ()
    else return .error .duplicateCounter

/-- The first clearing loop. -/
def clearHeadChecked (counter : UInt64) (s : ReceivingKeyCounterValidator × UInt64) :
    Outcome (ReceivingKeyCounterValidator × UInt64) :=
  whileLoopM (fun s => .ok (s.2 % wordSize != 0 && decide (s.2 < counter)))
    (fun s => do
      let i ← checkedAdd s.2 1
      return (s.1.clearBit s.2, i)) loopBound s

/-- The second clearing loop. -/
def clearWordsChecked (counter : UInt64) (s : ReceivingKeyCounterValidator × UInt64) :
    Outcome (ReceivingKeyCounterValidator × UInt64) :=
  whileLoopM
    (fun s => do
      let sum ← checkedAdd s.2 wordSize
      return decide (sum < counter))
    (fun s => do
      let sum ← checkedAdd s.2 wordSize
      return (s.1.clearWord s.2, sum &&& (0 - wordSize))) loopBound s

/-- The third clearing loop. -/
def clearTailChecked (counter : UInt64) (s : ReceivingKeyCounterValidator × UInt64) :
    Outcome (ReceivingKeyCounterValidator × UInt64) :=
  whileLoopM (fun s => .ok (decide (s.2 < counter)))
    (fun s => do
      let i ← checkedAdd s.2 1
      return (s.1.clearBit s.2, i)) loopBound s

/-- Mark the counters from `next` up to `counter` as not received. -/
def skipToChecked (v : ReceivingKeyCounterValidator) (counter : UInt64) :
    Outcome ReceivingKeyCounterValidator :=
  if counter - v.next ≥ nBits then .ok { v with bitmap := fun _ => 0 }
  else do
    let s ← clearHeadChecked counter (v, v.next)
    let s ← clearWordsChecked counter s
    let s ← clearTailChecked counter s
    return s.1

/-- `mark_did_receive`. -/
def markDidReceiveChecked (v : ReceivingKeyCounterValidator) (counter : UInt64) :
    Outcome (Except WireGuardError Unit × ReceivingKeyCounterValidator) := do
  let sum ← checkedAdd counter nBits
  if sum < v.next then return (.error .invalidCounter, v)
  else if counter = v.next then do
    let v := v.setBit counter
    let next ← checkedAdd v.next 1
    return (.ok (), { v with next })
  else if counter < v.next then
    if v.checkBit counter then return (.error .invalidCounter, v)
    else return (.ok (), v.setBit counter)
  else do
    let v ← v.skipToChecked counter
    let v := v.setBit counter
    let next ← checkedAdd counter 1
    return (.ok (), { v with next })

/-! ## When no sum overflows -/

variable {v : ReceivingKeyCounterValidator} {counter : UInt64}
  {s : ReceivingKeyCounterValidator × UInt64}

theorem checkedAdd_nBits (hsmall : counter.toNat < 2 ^ 64 - 1024) :
    checkedAdd counter nBits = .ok (counter + nBits) :=
  checkedAdd_of_lt (show counter.toNat + 1024 < 2 ^ 64 by omega)

theorem checkedAdd_one {i : UInt64} (h : i < counter) : checkedAdd i 1 = .ok (i + 1) := by
  have hlt := UInt64.lt_iff_toNat_lt.mp h
  have hcounter := counter.toNat_lt
  exact checkedAdd_of_lt (show i.toNat + 1 < 2 ^ 64 by omega)

/-- The loop variable has not passed the counter. -/
def UpTo (counter : UInt64) (s : ReceivingKeyCounterValidator × UInt64) : Prop :=
  s.2.toNat ≤ counter.toNat

theorem UpTo.succ (h : s.2 < counter) :
    UpTo counter (s.1.clearBit s.2, s.2 + 1) := by
  have hlt := UInt64.lt_iff_toNat_lt.mp h
  have hcounter := counter.toNat_lt
  have hsucc : (s.2 + 1).toNat = s.2.toNat + 1 := by
    rw [UInt64.toNat_add]
    exact Nat.mod_eq_of_lt (show s.2.toNat + 1 < 2 ^ 64 by omega)
  show (s.2 + 1).toNat ≤ counter.toNat
  omega

theorem clearHeadChecked_eq (h : UpTo counter s) :
    clearHeadChecked counter s = .ok (clearHead counter s) ∧
      UpTo counter (clearHead counter s) := by
  refine whileLoopM_eq (UpTo counter) (fun _ _ => rfl) (fun s _ hgo => ?_) loopBound s h
  have hlt : s.2 < counter := by simpa using (Bool.and_eq_true_iff.mp hgo).2
  exact ⟨by rw [checkedAdd_one hlt]; rfl, .succ hlt⟩

theorem clearTailChecked_eq (h : UpTo counter s) :
    clearTailChecked counter s = .ok (clearTail counter s) := by
  refine (whileLoopM_eq (UpTo counter) (fun _ _ => rfl) (fun s _ hgo => ?_) loopBound s h).1
  have hlt : s.2 < counter := of_decide_eq_true hgo
  exact ⟨by rw [checkedAdd_one hlt]; rfl, .succ hlt⟩

theorem clearWordsChecked_eq (h : UpTo counter s) (hsmall : counter.toNat < 2 ^ 64 - 1024) :
    clearWordsChecked counter s = .ok (clearWords counter s) ∧
      UpTo counter (clearWords counter s) := by
  have hadd (s : ReceivingKeyCounterValidator × UInt64) (hs : UpTo counter s) :
      checkedAdd s.2 wordSize = .ok (s.2 + wordSize) := by
    unfold UpTo at hs
    exact checkedAdd_of_lt (show s.2.toNat + 64 < 2 ^ 64 by omega)
  refine whileLoopM_eq (UpTo counter) (fun s hs => by rw [hadd s hs]; rfl) (fun s hs hgo => ?_)
    loopBound s h
  refine ⟨by rw [hadd s hs]; rfl, ?_⟩
  -- rounding down to a word boundary does not pass the counter either
  have hlt := UInt64.lt_iff_toNat_lt.mp (of_decide_eq_true hgo)
  show ((s.2 + wordSize) &&& (0 - wordSize)).toNat ≤ counter.toNat
  rw [UInt64.toNat_and]
  exact Nat.and_le_left.trans hlt.le

theorem skipToChecked_eq (hlt : v.next < counter) (hsmall : counter.toNat < 2 ^ 64 - 1024) :
    v.skipToChecked counter = .ok (v.skipTo counter) := by
  unfold skipToChecked skipTo
  split_ifs
  · rfl
  · have hstart : UpTo counter (v, v.next) := (UInt64.lt_iff_toNat_lt.mp hlt).le
    obtain ⟨hhead, hinv⟩ := clearHeadChecked_eq hstart
    obtain ⟨hwords, hinv⟩ := clearWordsChecked_eq hinv hsmall
    rw [hhead, ok_bind, hwords, ok_bind, clearTailChecked_eq hinv, ok_bind]
    rfl

theorem willAcceptChecked_of_lt (hsmall : counter.toNat < 2 ^ 64 - 1024) :
    v.willAcceptChecked counter = .ok (v.willAccept counter) := by
  unfold willAcceptChecked willAccept
  rw [checkedAdd_nBits hsmall, ok_bind]
  split_ifs <;> rfl

/-- Below the last 1024 counters the checks find nothing. -/
theorem markDidReceiveChecked_of_lt (hsmall : counter.toNat < 2 ^ 64 - 1024) :
    v.markDidReceiveChecked counter = .ok (v.markDidReceive counter) := by
  unfold markDidReceiveChecked markDidReceive
  rw [checkedAdd_nBits hsmall, ok_bind]
  have hone : checkedAdd counter 1 = .ok (counter + 1) :=
    checkedAdd_of_lt (show counter.toNat + 1 < 2 ^ 64 by omega)
  split_ifs with hback heq hlt hbit
  · rfl
  · -- in order: the end of the window is the counter
    subst heq
    have hnext : checkedAdd (v.setBit v.next).next 1 = .ok ((v.setBit v.next).next + 1) := hone
    simp only [hnext, ok_bind]
    rfl
  · rfl
  · rfl
  · have hgt : v.next < counter :=
      (UInt64.lt_or_lt_of_ne heq).resolve_left hlt
    rw [skipToChecked_eq hgt hsmall, ok_bind]
    simp only [hone, ok_bind]
    rfl

/-- **Marking a counter overflows exactly at the end of the counter space**, whatever the
state of the window. -/
theorem markDidReceiveChecked_returns_iff :
    (v.markDidReceiveChecked counter).Returns ↔ counter.toNat < 2 ^ 64 - 1024 := by
  constructor
  · rintro ⟨r, hr⟩
    obtain ⟨sum, hsum, -⟩ := bind_eq_ok.mp hr
    have hfits : counter.toNat + 1024 < 2 ^ 64 := checkedAdd_returns_iff.mp ⟨sum, hsum⟩
    omega
  · intro hsmall
    exact ⟨_, markDidReceiveChecked_of_lt hsmall⟩

/-! ## Whole sequences -/

/-- The end of the window does not move back. -/
theorem next_le_markDidReceive (hsmall : counter.toNat < 2 ^ 64 - 1024) :
    v.next ≤ (v.markDidReceive counter).2.next := by
  have hone : (counter + 1).toNat = counter.toNat + 1 := by
    rw [UInt64.toNat_add]
    exact Nat.mod_eq_of_lt (show counter.toNat + 1 < 2 ^ 64 by omega)
  unfold markDidReceive
  split_ifs with hback heq hlt hbit
  · exact UInt64.le_refl _
  · subst heq
    exact UInt64.le_iff_toNat_le.mpr (show v.next.toNat ≤ (v.next + 1).toNat by omega)
  · exact UInt64.le_refl _
  · exact UInt64.le_refl _
  · have hle := UInt64.le_iff_toNat_le.mp (UInt64.not_lt.mp hlt)
    exact UInt64.le_iff_toNat_le.mpr (show v.next.toNat ≤ (counter + 1).toNat by omega)

/-- What a counter should do that is presented to a window with the counters it has
accepted. -/
structure Safe (s : ReceivingKeyCounterValidator × List UInt64) (counter : UInt64) : Prop where
  willAccept : (s.1.willAcceptChecked counter).Returns
  markDidReceive : (s.1.markDidReceiveChecked counter).Returns
  next_le : s.1.next ≤ (present s counter).1.next
  /-- Every counter accepted so far, this one included, is refused from now on. -/
  refused : ∀ c ∈ (present s counter).2,
    (present s counter).1.willAccept c ≠ .ok () ∧
      ((present s counter).1.markDidReceive c).1 ≠ .ok ()

theorem present_next (s : ReceivingKeyCounterValidator × List UInt64) (counter : UInt64) :
    (present s counter).1 = (s.1.markDidReceive counter).2 := by
  unfold present
  split <;> rename_i h <;> rw [h]

/-- A counter the window stands for is refused. -/
theorem Refines.refused {accepted : List UInt64} (h : Refines v accepted) {c : UInt64}
    (hc : c ∈ accepted) : v.willAccept c ≠ .ok () ∧ (v.markDidReceive c).1 ≠ .ok () := by
  have hsmall := h.small c hc
  have hnot : ¬ Accepts accepted c := fun hacc => hacc.1 hc
  refine ⟨fun hok => hnot ((willAccept_spec h hsmall).mp hok), ?_⟩
  rcases markDidReceive_spec h hsmall with ⟨hacc, -⟩ | ⟨-, hmark⟩
  · exact absurd hacc hnot
  · simp [hmark]

theorem safe_of_lt {s : ReceivingKeyCounterValidator × List UInt64}
    (h : Refines s.1 s.2 ∧ s.2.Nodup) (hsmall : counter.toNat < 2 ^ 64 - 1024) :
    Safe s counter where
  willAccept := ⟨_, willAcceptChecked_of_lt hsmall⟩
  markDidReceive := markDidReceiveChecked_returns_iff.mpr hsmall
  next_le := by
    rw [present_next]
    exact next_le_markDidReceive hsmall
  refused := fun _ hc => (present_refines h hsmall).1.refused hc

/-- **The end of the counter space.**  A sequence of counters is presented to a fresh window.
No step overflows, none moves the end of the window back and none makes an accepted counter
acceptable again, exactly if none of the counters is among the last 1024. -/
theorem counters_safe_iff (counters : List UInt64) :
    Trace.AllSteps present Safe ({}, []) counters ↔ ∀ c ∈ counters, c.toNat < 2 ^ 64 - 1024 := by
  suffices hgen : ∀ s : ReceivingKeyCounterValidator × List UInt64, Refines s.1 s.2 ∧ s.2.Nodup →
      (Trace.AllSteps present Safe s counters ↔ ∀ c ∈ counters, c.toNat < 2 ^ 64 - 1024) from
    hgen _ ⟨Refines.fresh, List.nodup_nil⟩
  induction counters with
  | nil =>
    intro s _
    exact iff_of_true trivial (by simp)
  | cons c counters ih =>
    intro s hs
    rw [List.forall_mem_cons]
    by_cases hsmall : c.toNat < 2 ^ 64 - 1024
    · have hrest := ih (present s c) (present_refines hs hsmall)
      exact ⟨fun h => ⟨hsmall, hrest.mp h.2⟩, fun h => ⟨safe_of_lt hs hsmall, hrest.mpr h.2⟩⟩
    · refine iff_of_false (fun h => ?_) fun h => hsmall h.1
      exact hsmall (markDidReceiveChecked_returns_iff.mp h.1.markDidReceive)

/-- **A counter accepted twice.**  The last counter of all overflows; where nothing checks, it
is accepted and the end of the window is back at zero, and a counter that was accepted before
it passes both the check and the marking a second time. -/
theorem counter_accepted_again :
    (presentAll [5]).2 = [5] ∧
      ¬ ((presentAll [5]).1.markDidReceiveChecked 18446744073709551615).Returns ∧
      (presentAll [5, 18446744073709551615]).2 = [18446744073709551615, 5] ∧
      (presentAll [5, 18446744073709551615]).1.next = 0 ∧
      (presentAll [5, 18446744073709551615]).1.willAccept 5 = .ok () ∧
      ((presentAll [5, 18446744073709551615]).1.markDidReceive 5).1 = .ok () := by
  refine ⟨by decide, ?_, by decide, by decide, by decide, by decide⟩
  rw [markDidReceiveChecked_returns_iff]
  decide

end ReceivingKeyCounterValidator
