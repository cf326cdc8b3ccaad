import Mathlib.Data.List.AList
import Mathlib.Data.List.Nodup

/-!
# A directory of named places

The places of a list carry names, no two of them the same, and some places are listed.  A table
leads from the name of a listed place to the place, and from no other name to any.

* `Directs.add`, `.remove`, `.rename` — how the table has to follow when a place is added, when
  one is no longer listed, and when one gets another name.
-/

namespace AList

variable {κ ρ : Type*} [DecidableEq κ] (table : AList fun _ : κ => ρ) {k k' : κ}

theorem lookup_erase_eq_some_iff {r : ρ} :
    (table.erase k).lookup k' = some r ↔ k' ≠ k ∧ table.lookup k' = some r := by
  by_cases h : k' = k
  · subst h
    simp [AList.lookup_erase]
  · simp [AList.lookup_erase_ne h, h]

theorem lookup_insert_eq_some_iff {r r' : ρ} :
    (table.insert k r).lookup k' = some r' ↔
      (k' = k ∧ r' = r) ∨ (k' ≠ k ∧ table.lookup k' = some r') := by
  by_cases h : k' = k
  · subst h
    simp [AList.lookup_insert, eq_comm]
  · simp [AList.lookup_insert_ne h, h]

end AList

/-- A name leads to a place exactly if the place is listed and has the name. -/
def Directs {κ : Type*} [DecidableEq κ] (table : AList fun _ : κ => Nat) (listed : Nat → Prop)
    (names : List κ) : Prop :=
  ∀ name place, table.lookup name = some place ↔ listed place ∧ names[place]? = some name

namespace Directs

variable {κ : Type*} [DecidableEq κ] {table : AList fun _ : κ => Nat} {listed listed' : Nat → Prop}
  {names : List κ} {name : κ} {place : Nat}

theorem empty (names : List κ) (hnone : ∀ place, ¬ listed place) :
    Directs (∅ : AList fun _ : κ => Nat) listed names := by
  intro name place
  refine iff_of_false ?_ fun h => hnone place h.1
  rw [AList.lookup_empty]
  exact Option.some_ne_none place ∘ Eq.symm

theorem congr (h : Directs table listed names) (hlisted : ∀ place, listed' place ↔ listed place) :
    Directs table listed' names := by
  intro name place
  rw [h, hlisted]

/-- A place is not listed any more. -/
theorem remove (h : Directs table listed names) (hnodup : names.Nodup)
    (hname : names[place]? = some name) :
    Directs (table.erase name) (fun place' => listed place' ∧ place' ≠ place) names := by
  intro name' place'
  rw [AList.lookup_erase_eq_some_iff, h]
  constructor
  · rintro ⟨hother, hlisted, hname'⟩
    refine ⟨⟨hlisted, ?_⟩, hname'⟩
    rintro rfl
    rw [hname, Option.some.injEq] at hname'
    exact hother hname'.symm
  · rintro ⟨⟨hlisted, hother⟩, hname'⟩
    refine ⟨?_, hlisted, hname'⟩
    rintro rfl
    have hlt : place' < names.length := (List.getElem?_eq_some_iff.mp hname').1
    exact hother ((List.getElem?_inj hlt hnodup).mp (hname'.trans hname.symm))

/-- A place is added, with a new name. -/
theorem add (h : Directs table listed names)
    (hlisted : ∀ place, listed place → place < names.length) (hnew : name ∉ names) :
    Directs (table.insert name names.length) (fun place => place = names.length ∨ listed place)
      (names ++ [name]) := by
  intro name' place
  rw [AList.lookup_insert_eq_some_iff, h]
  constructor
  · rintro (⟨rfl, rfl⟩ | ⟨-, hold, hname⟩)
    · exact ⟨.inl rfl, List.getElem?_concat_length ..⟩
    · exact ⟨.inr hold, (List.getElem?_append_left (hlisted place hold)).trans hname⟩
  · rintro ⟨rfl | hold, hname⟩
    · rw [List.getElem?_concat_length, Option.some.injEq] at hname
      exact .inl ⟨hname.symm, rfl⟩
    · rw [List.getElem?_append_left (hlisted place hold)] at hname
      refine .inr ⟨?_, hold, hname⟩
      rintro rfl
      exact hnew (List.mem_of_getElem? hname)

/-- A listed place gets a new name. -/
theorem rename (h : Directs table listed names) (hnodup : names.Nodup) (hlisted : listed place)
    (hname : names[place]? = some name) {name' : κ} (hnew : name' ∉ names) :
    Directs ((table.erase name).insert name' place) listed (names.set place name') := by
  have hlt : place < names.length := (List.getElem?_eq_some_iff.mp hname).1
  have hold := h.remove hnodup hname
  intro k place'
  rw [AList.lookup_insert_eq_some_iff, hold]
  by_cases hsame : place' = place
  · subst hsame
    simp [List.getElem?_set_self hlt, hlisted, eq_comm]
  · rw [List.getElem?_set_ne (Ne.symm hsame)]
    constructor
    · rintro (⟨-, rfl⟩ | ⟨-, ⟨hother, -⟩, hk⟩)
      · exact absurd rfl hsame
      · exact ⟨hother, hk⟩
    · rintro ⟨hother, hk⟩
      refine .inr ⟨?_, ⟨hother, hsame⟩, hk⟩
      rintro rfl
      exact hnew (List.mem_of_getElem? hk)

end Directs
