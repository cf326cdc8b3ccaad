import Mathlib.Data.List.Nodup

/-!
# Requests in flight, two at a time

A requester keeps the request it sent last and the one before that, and takes an answer to
either.  Requests are numbered in the order they are sent, so that two of them are told apart
even if they are equal.

* `InFlight.Sound` — no request is held twice, and none that was answered is held.
* `InFlight.Sound.send`, `.shift`, `.answer`, `.clear` — every operation keeps it so.
* `InFlight.Sound.answer_current`, `.answer_older` — an answer empties the slot of its request.
-/

/-- The requests sent so far, the numbers of the two that are held, and the answers taken, each
with the number of its request. -/
structure InFlight (α β : Type*) where
  sent : List α := []
  current : Option Nat := none
  older : Option Nat := none
  answered : List (Nat × β) := []

namespace InFlight

variable {α β : Type*}

/-- The numbers of the requests that can still be answered. -/
def pending (w : InFlight α β) : List Nat := w.current.toList ++ w.older.toList

/-- The numbers of those that have been. -/
def done (w : InFlight α β) : List Nat := w.answered.map Prod.fst

/-- A new request: the one sent last becomes the older one. -/
def send (w : InFlight α β) (a : α) : InFlight α β :=
  { w with sent := w.sent ++ [a], current := some w.sent.length, older := w.current }

/-- Something else takes the place of the request sent last. -/
def shift (w : InFlight α β) : InFlight α β := { w with current := none, older := w.current }

/-- Request `n` is answered, and not held any more. -/
def answer (w : InFlight α β) (n : Nat) (b : β) : InFlight α β :=
  { w with
    current := w.current.filter (· ≠ n)
    older := w.older.filter (· ≠ n)
    answered := w.answered ++ [(n, b)] }

/-- Both requests are given up. -/
def clear (w : InFlight α β) : InFlight α β := { w with current := none, older := none }

section Pending

variable (w : InFlight α β)

theorem pending_length_le : w.pending.length ≤ 2 := by
  rw [pending, List.length_append]
  have hcurrent := Option.length_toList_le (o := w.current)
  have holder := Option.length_toList_le (o := w.older)
  omega

variable {w} in
theorem mem_pending {n : Nat} : n ∈ w.pending ↔ w.current = some n ∨ w.older = some n := by
  simp [pending]

theorem pending_send (a : α) : (w.send a).pending = w.sent.length :: w.current.toList := rfl

theorem pending_answer (n : Nat) (b : β) :
    (w.answer n b).pending = w.pending.filter (· ≠ n) := by
  rw [pending, pending, List.filter_append, ← Option.toList_filter, ← Option.toList_filter]
  rfl

theorem pending_shift_sublist : w.shift.pending.Sublist w.pending := List.sublist_append_left _ _

theorem done_answer (n : Nat) (b : β) : (w.answer n b).done = w.done ++ [n] := by
  simp [done, answer]

end Pending

/-- No request is held twice, none is answered twice, and none that was answered is held. -/
structure Sound (w : InFlight α β) : Prop where
  pending_nodup : w.pending.Nodup
  pending_lt : ∀ n ∈ w.pending, n < w.sent.length
  open_of_pending : ∀ n ∈ w.pending, n ∉ w.done
  done_nodup : w.done.Nodup
  done_lt : ∀ n ∈ w.done, n < w.sent.length

theorem sound_empty : Sound ({} : InFlight α β) := by
  constructor <;> simp [pending, done]

namespace Sound

variable {w : InFlight α β} {n : Nat}

theorem send (h : w.Sound) (a : α) : (w.send a).Sound := by
  have hlength : (w.send a).sent.length = w.sent.length + 1 := by simp [InFlight.send]
  have hcurrent : ∀ n ∈ w.current.toList, n ∈ w.pending := fun n => List.mem_append_left _
  constructor
  · -- the new number is larger than those held
    rw [pending_send, List.nodup_cons]
    refine ⟨fun hmem => ?_, h.pending_nodup.sublist (List.sublist_append_left _ _)⟩
    exact absurd (h.pending_lt _ (hcurrent _ hmem)) (Nat.lt_irrefl _)
  · intro n hn
    rw [pending_send, List.mem_cons] at hn
    rw [hlength]
    rcases hn with rfl | hn
    · exact Nat.lt_succ_self _
    · exact Nat.lt_succ_of_lt (h.pending_lt n (hcurrent n hn))
  · intro n hn
    rw [pending_send, List.mem_cons] at hn
    rcases hn with rfl | hn
    · exact fun hdone => absurd (h.done_lt _ hdone) (Nat.lt_irrefl _)
    · exact h.open_of_pending n (hcurrent n hn)
  · exact h.done_nodup
  · intro n hn
    rw [hlength]
    exact Nat.lt_succ_of_lt (h.done_lt n hn)

/-- Holding fewer requests does no harm. -/
theorem of_sublist (h : w.Sound) {w' : InFlight α β} (hsub : w'.pending.Sublist w.pending)
    (hsent : w'.sent = w.sent) (hanswered : w'.answered = w.answered) : w'.Sound := by
  have hdone : w'.done = w.done := by rw [done, done, hanswered]
  constructor
  · exact h.pending_nodup.sublist hsub
  · intro n hn
    rw [hsent]
    exact h.pending_lt n (hsub.subset hn)
  · intro n hn
    rw [hdone]
    exact h.open_of_pending n (hsub.subset hn)
  · rw [hdone]
    exact h.done_nodup
  · rw [hdone, hsent]
    exact h.done_lt

theorem shift (h : w.Sound) : w.shift.Sound := h.of_sublist w.pending_shift_sublist rfl rfl

theorem clear (h : w.Sound) : w.clear.Sound := h.of_sublist (List.nil_sublist _) rfl rfl

theorem answer (h : w.Sound) (hn : n ∈ w.pending) (b : β) : (w.answer n b).Sound := by
  constructor
  · rw [pending_answer]
    exact h.pending_nodup.filter _
  · intro m hm
    rw [pending_answer, List.mem_filter] at hm
    exact h.pending_lt m hm.1
  · intro m hm hdone
    rw [pending_answer, List.mem_filter, decide_eq_true_iff] at hm
    rw [done_answer, List.mem_append, List.mem_singleton] at hdone
    exact hdone.elim (h.open_of_pending m hm.1) hm.2
  · rw [done_answer, List.nodup_append]
    refine ⟨h.done_nodup, List.nodup_singleton n, ?_⟩
    intro m hm k hk heq
    obtain rfl := List.mem_singleton.mp hk
    exact h.open_of_pending _ hn (heq ▸ hm)
  · intro m hm
    rw [done_answer, List.mem_append, List.mem_singleton] at hm
    rcases hm with hm | rfl
    · exact h.done_lt m hm
    · exact h.pending_lt m hn

/-- The request in one slot is not the one in the other. -/
theorem current_ne_older (h : w.Sound) {n m : Nat} (hcurrent : w.current = some n)
    (holder : w.older = some m) : n ≠ m := by
  have hnodup := h.pending_nodup
  rw [pending, hcurrent, holder] at hnodup
  intro heq
  simp [heq] at hnodup

/-- So an answer empties one slot, and leaves the other alone. -/
theorem answer_current (h : w.Sound) (hn : w.current = some n) (b : β) :
    (w.answer n b).current = none ∧ (w.answer n b).older = w.older := by
  refine ⟨by simp [InFlight.answer, hn], ?_⟩
  cases holder : w.older with
  | none => simp [InFlight.answer, holder]
  | some m => simp [InFlight.answer, holder, (h.current_ne_older hn holder).symm]

theorem answer_older (h : w.Sound) (hn : w.older = some n) (b : β) :
    (w.answer n b).older = none ∧ (w.answer n b).current = w.current := by
  refine ⟨by simp [InFlight.answer, hn], ?_⟩
  cases hcurrent : w.current with
  | none => simp [InFlight.answer, hcurrent]
  | some m => simp [InFlight.answer, hcurrent, h.current_ne_older hcurrent hn]

end Sound

end InFlight
