import Mathlib

/-!
# Tables in which one item follows another

A table of slots.  An item is stored in a slot, is used there any number of times, and goes when
the slot is emptied or another item takes its place.  An item that is stored gets the next number,
so that the uses of an item can be told from those of the items before and after it.

* `Changes` — how a table changes: items are stored and used, and slots are emptied.
* `History` — the numbers of the items in the slots, and what was done with which item.
* `Tracks.changes` — the induction rule: a relation between an item and its uses that holds of new
  items and survives every use holds of every item there ever was and of its uses in the history.
-/

namespace Epochs

variable {ι α β : Type} {i : ι}

/-- What happens to a table. -/
inductive Change (ι α β : Type)
  /-- An item is stored in a slot. -/
  | stored (i : ι) (a : α)
  /-- The item in a slot is used. -/
  | used (i : ι) (b : β)

variable [DecidableEq ι]

/-- How a table changes, given which items are new and what a use makes of an item. -/
inductive Changes (fresh : α → Prop) (use : α → β → α → Prop) :
    (ι → Option α) → List (Change ι α β) → (ι → Option α) → Prop
  | nil (T : ι → Option α) : Changes fresh use T [] T
  /-- Slots are emptied. -/
  | drops {T T' T'' : ι → Option α} {changes : List (Change ι α β)}
      (h : ∀ i, T' i = T i ∨ T' i = none) (rest : Changes fresh use T' changes T'') :
      Changes fresh use T changes T''
  | stores {T T'' : ι → Option α} {changes : List (Change ι α β)} {i : ι} {a : α} (h : fresh a)
      (rest : Changes fresh use (Function.update T i (some a)) changes T'') :
      Changes fresh use T (.stored i a :: changes) T''
  | uses {T T'' : ι → Option α} {changes : List (Change ι α β)} {i : ι} {a a' : α} {b : β}
      (hi : T i = some a) (h : use a b a')
      (rest : Changes fresh use (Function.update T i (some a')) changes T'') :
      Changes fresh use T (.used i b :: changes) T''

/-- The items so far, and what was done with them. -/
structure History (ι β : Type) where
  /-- How many items were stored. -/
  stored : ℕ
  /-- The number of the item stored last in each slot. -/
  number : ι → ℕ
  /-- The uses, newest first, with the number of the item. -/
  log : List (ℕ × β)

namespace History

omit [DecidableEq ι] in
/-- Nothing was stored yet. -/
def empty : History ι β := ⟨0, fun _ => 0, []⟩

/-- The history after a change. -/
def after (h : History ι β) : Change ι α β → History ι β
  | .stored i _ => { h with stored := h.stored + 1, number := Function.update h.number i h.stored }
  | .used i b => { h with log := (h.number i, b) :: h.log }

omit [DecidableEq ι] in
/-- The uses of one item, newest first. -/
def usesOf (h : History ι β) (n : ℕ) : List β := (h.log.filter (·.1 = n)).map (·.2)

omit [DecidableEq ι] in
theorem mem_usesOf {h : History ι β} {n : ℕ} {b : β} : b ∈ h.usesOf n ↔ (n, b) ∈ h.log := by
  simp [usesOf]

omit [DecidableEq ι] in
/-- Marks that are not repeated among the uses of one item are not repeated at all, next to the
number of the item. -/
theorem nodup_filterMap {γ : Type} (h : History ι β) (f : β → Option γ)
    (hnodup : ∀ n, ((h.usesOf n).filterMap f).Nodup) :
    (h.log.filterMap fun x => (f x.2).map (x.1, ·)).Nodup := by
  obtain ⟨stored, number, log⟩ := h
  simp only [usesOf] at hnodup ⊢
  induction log with
  | nil => exact List.nodup_nil
  | cons x log ih =>
    obtain ⟨n, b⟩ := x
    have htail : ∀ m, (((log.filter (·.1 = m)).map (·.2)).filterMap f).Nodup := by
      intro m
      have hm := hnodup m
      by_cases hn : n = m
      · rw [List.filter_cons_of_pos (by simpa using hn), List.map_cons] at hm
        exact hm.sublist ((List.sublist_cons_self _ _).filterMap f)
      · rwa [List.filter_cons_of_neg (by simpa using hn)] at hm
    rcases hb : f b with _ | c
    · rw [List.filterMap_cons_none (by simp [hb])]
      exact ih htail
    · rw [List.filterMap_cons_some (by simp [hb]; rfl), List.nodup_cons]
      refine ⟨?_, ih htail⟩
      intro hmem
      have hself := hnodup n
      rw [List.filter_cons_of_pos (by simp), List.map_cons, List.filterMap_cons_some hb,
        List.nodup_cons] at hself
      apply hself.1
      simp only [List.mem_filterMap, Option.map_eq_some_iff, Prod.mk.injEq] at hmem
      obtain ⟨⟨m, b'⟩, hlog, c', hc', rfl, rfl⟩ := hmem
      exact List.mem_filterMap.mpr ⟨b', List.mem_map.mpr ⟨(m, b'), by simpa using hlog, rfl⟩, hc'⟩

theorem usesOf_used (h : History ι β) (i : ι) (b : β) (n : ℕ) :
    (h.after (.used i b : Change ι α β)).usesOf n =
      if h.number i = n then b :: h.usesOf n else h.usesOf n := by
  by_cases hn : h.number i = n <;> simp [after, usesOf, hn]

end History

variable {fresh : α → Prop} {use : α → β → α → Prop} {P : α → List β → Prop}
  {T T' : ι → Option α} {h : History ι β}

omit [DecidableEq ι] in
/-- `P` relates every item, also those that are gone, to its uses. -/
structure Tracks (P : α → List β → Prop) (T : ι → Option α) (h : History ι β) : Prop where
  number_lt : ∀ i, (T i).isSome → h.number i < h.stored
  /-- Two slots hold two items. -/
  number_inj : ∀ i j, (T i).isSome → (T j).isSome → h.number i = h.number j → i = j
  log_lt : ∀ x ∈ h.log, x.1 < h.stored
  live : ∀ i a, T i = some a → P a (h.usesOf (h.number i))
  every : ∀ n < h.stored, ∃ a, P a (h.usesOf n)

omit [DecidableEq ι] in
theorem Tracks.empty : Tracks P (fun _ : ι => none) (History.empty : History ι β) where
  number_lt := by simp
  number_inj := by simp
  log_lt := by simp [History.empty]
  live := by simp
  every := by simp [History.empty]

omit [DecidableEq ι] in
/-- An item that was not stored yet was not used either. -/
theorem Tracks.usesOf_stored (ht : Tracks P T h) : h.usesOf h.stored = [] := by
  rw [List.eq_nil_iff_forall_not_mem]
  intro b hb
  exact absurd (ht.log_lt _ (History.mem_usesOf.mp hb)) (lt_irrefl _)

omit [DecidableEq ι] in
theorem Tracks.drops (ht : Tracks P T h) (hdrops : ∀ i, T' i = T i ∨ T' i = none) :
    Tracks P T' h := by
  have hsome (i : ι) (hi : (T' i).isSome) : T' i = T i := by
    refine (hdrops i).resolve_right fun hnone => ?_
    rw [hnone] at hi
    cases hi
  refine ⟨?_, ?_, ht.log_lt, ?_, ht.every⟩
  · intro i hi
    exact ht.number_lt i (hsome i hi ▸ hi)
  · intro i j hi hj
    exact ht.number_inj i j (hsome i hi ▸ hi) (hsome j hj ▸ hj)
  · intro i a ha
    exact ht.live i a (hsome i (by simp [ha]) ▸ ha)

theorem Tracks.stores (hfresh : ∀ a, fresh a → P a []) (ht : Tracks P T h) {a : α} (ha : fresh a) :
    Tracks P (Function.update T i (some a)) (h.after (.stored i a : Change ι α β)) := by
  have huses (n : ℕ) : (h.after (.stored i a : Change ι α β)).usesOf n = h.usesOf n := rfl
  -- the new number is none of the old ones
  have hother {j : ι} (hj : j ≠ i) (hsome : (Function.update T i (some a) j).isSome) :
      (h.after (.stored i a : Change ι α β)).number j = h.number j ∧ h.number j < h.stored := by
    rw [Function.update_of_ne hj] at hsome
    exact ⟨Function.update_of_ne hj _ _, ht.number_lt j hsome⟩
  have hself : (h.after (.stored i a : Change ι α β)).number i = h.stored := Function.update_self ..
  refine ⟨?_, ?_, ?_, ?_, ?_⟩
  · intro j hj
    show _ < h.stored + 1
    by_cases hji : j = i
    · rw [hji, hself]
      omega
    · obtain ⟨hnumber, hlt⟩ := hother hji hj
      omega
  · intro j k hj hk heq
    by_cases hji : j = i <;> by_cases hki : k = i
    · rw [hji, hki]
    · obtain ⟨hnumber, hlt⟩ := hother hki hk
      rw [hji, hself] at heq
      omega
    · obtain ⟨hnumber, hlt⟩ := hother hji hj
      rw [hki, hself] at heq
      omega
    · rw [(hother hji hj).1, (hother hki hk).1] at heq
      rw [Function.update_of_ne hji] at hj
      rw [Function.update_of_ne hki] at hk
      exact ht.number_inj j k hj hk heq
  · intro x hx
    exact Nat.lt_succ_of_lt (ht.log_lt x hx)
  · intro j b hb
    by_cases hji : j = i
    · subst hji
      rw [Function.update_self] at hb
      cases hb
      rw [hself, huses, ht.usesOf_stored]
      exact hfresh a ha
    · rw [(hother hji (by simp [hb])).1, huses]
      rw [Function.update_of_ne hji] at hb
      exact ht.live j b hb
  · intro n hn
    rw [huses]
    rcases Nat.lt_succ_iff_lt_or_eq.mp hn with hlt | rfl
    · exact ht.every n hlt
    · exact ⟨a, ht.usesOf_stored ▸ hfresh a ha⟩

theorem Tracks.uses (huse : ∀ a b a' bs, P a bs → use a b a' → P a' (b :: bs)) (ht : Tracks P T h)
    {a a' : α} {b : β} (hi : T i = some a) (hb : use a b a') :
    Tracks P (Function.update T i (some a')) (h.after (.used i b : Change ι α β)) := by
  have hsome (j : ι) : (Function.update T i (some a') j).isSome ↔ (T j).isSome := by
    by_cases hji : j = i
    · subst hji
      simp [hi]
    · rw [Function.update_of_ne hji]
  have hlive : P a' (b :: h.usesOf (h.number i)) := huse a b a' _ (ht.live i a hi) hb
  have hlt := ht.number_lt i (by simp [hi])
  refine ⟨?_, ?_, ?_, ?_, ?_⟩
  · intro j hj
    exact ht.number_lt j ((hsome j).mp hj)
  · intro j k hj hk
    exact ht.number_inj j k ((hsome j).mp hj) ((hsome k).mp hk)
  · intro x hx
    rcases List.mem_cons.mp hx with rfl | hx
    · exact hlt
    · exact ht.log_lt x hx
  · intro j c hc
    show P c ((h.after (.used i b : Change ι α β)).usesOf (h.number j))
    rw [History.usesOf_used]
    by_cases hji : j = i
    · subst hji
      rw [Function.update_self] at hc
      cases hc
      rw [if_pos rfl]
      exact hlive
    · rw [Function.update_of_ne hji] at hc
      rw [if_neg]
      · exact ht.live j c hc
      · intro heq
        exact hji (ht.number_inj i j (by simp [hi]) (by simp [hc]) heq).symm
  · intro n hn
    rw [History.usesOf_used]
    split_ifs with heq
    · exact ⟨a', heq ▸ hlive⟩
    · exact ht.every n hn

/-- **The rule.**  What holds of new items and survives every use holds of all items and their
uses. -/
theorem Tracks.changes (hfresh : ∀ a, fresh a → P a [])
    (huse : ∀ a b a' bs, P a bs → use a b a' → P a' (b :: bs)) {changes : List (Change ι α β)}
    (hchanges : Changes fresh use T changes T') (ht : Tracks P T h) :
    Tracks P T' (changes.foldl History.after h) := by
  induction hchanges generalizing h with
  | nil => exact ht
  | drops hdrops _ ih => exact ih (ht.drops hdrops)
  | stores ha _ ih => exact ih (ht.stores hfresh ha)
  | uses hi hb _ ih => exact ih (ht.uses huse hi hb)

end Epochs
