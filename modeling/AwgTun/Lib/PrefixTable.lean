import Mathlib

/-!
# Tables of prefixes

Addresses are bit strings of a fixed width, and a *network* is what all addresses with
the same first bits have in common.  A table gives some networks a value; looking an
address up finds the value of the longest network of the table around it.

* `Prefixed` — addresses that can be cut to their first bits.
* `Network` — an address with no bits behind its length; `ofAddr` cuts an address, and
  the networks around an address are its cuts (`contains_iff`).
* `PrefixTable` — a table with one value for each network; `insert` replaces.
* `longestMatch` — the search, from the longest cut of an address to the shortest, and
  `longestMatch_eq_some_iff`, that it is longest-prefix match.
-/

/-- Addresses that can be cut to their first `n` bits. -/
class Prefixed (α : Type) where
  /-- The number of bits of an address. -/
  width : α → Nat
  /-- The first `n` bits, followed by zeros. -/
  truncate : α → Nat → α
  width_truncate : ∀ a n, width (truncate a n) = width a
  truncate_truncate : ∀ a m n, truncate (truncate a m) n = truncate a (min m n)
  truncate_width : ∀ a, truncate a (width a) = a

attribute [simp] Prefixed.width_truncate

open Prefixed

/-- The addresses that agree with `addr` on the first `len` bits. -/
structure Network (α : Type) [Prefixed α] where
  addr : α
  len : Nat
  len_le : len ≤ width addr
  /-- There are no bits behind the length. -/
  truncated : truncate addr len = addr
  deriving DecidableEq

namespace Network

variable {α : Type} [Prefixed α]

/-- The network of the first `n` bits of an address. -/
def ofAddr (a : α) (n : Nat) (h : n ≤ width a) : Network α where
  addr := truncate a n
  len := n
  len_le := by rwa [width_truncate]
  truncated := by rw [truncate_truncate, Nat.min_self]

/-- The address lies in the network. -/
def Contains (net : Network α) (a : α) : Prop := truncate a net.len = net.addr

instance [DecidableEq α] (net : Network α) (a : α) : Decidable (net.Contains a) :=
  inferInstanceAs (Decidable (_ = _))

theorem contains_addr (net : Network α) : net.Contains net.addr := net.truncated

theorem contains_ofAddr (a : α) (n : Nat) (h : n ≤ width a) : (ofAddr a n h).Contains a := rfl

theorem Contains.len_le {net : Network α} {a : α} (h : net.Contains a) : net.len ≤ width a := by
  have hlen := net.len_le
  rwa [← h, width_truncate] at hlen

/-- The networks around an address are its cuts. -/
theorem Contains.eq_ofAddr {net : Network α} {a : α} (h : net.Contains a) :
    net = ofAddr a net.len h.len_le := by
  obtain ⟨addr, len, _, _⟩ := net
  obtain rfl : truncate a len = addr := h
  rfl

end Network

/-- A table that gives networks a value, at most one each. -/
structure PrefixTable (α D : Type) [Prefixed α] where
  entries : AList fun _ : Network α => D

namespace PrefixTable

variable {α D : Type} [Prefixed α]

/-- The table without entries. -/
def empty : PrefixTable α D := ⟨∅⟩

/-- Keep the entries whose value satisfies `p`. -/
def retain (t : PrefixTable α D) (p : D → Bool) : PrefixTable α D where
  entries :=
    { entries := t.entries.entries.filter fun entry => p entry.2
      nodupKeys := t.entries.nodupKeys.sublist List.filter_sublist }

variable [DecidableEq α]

/-- The value of a network. -/
def lookup (t : PrefixTable α D) (net : Network α) : Option D := t.entries.lookup net

/-- Give a network a value, in place of the one it had. -/
def insert (t : PrefixTable α D) (net : Network α) (d : D) : PrefixTable α D :=
  ⟨t.entries.insert net d⟩

/-- The first entry among the cuts of `a` to `n` bits, `n - 1` bits, and so on. -/
def matchFrom (t : PrefixTable α D) (a : α) : (n : Nat) → n ≤ width a → Option (Network α × D)
  | 0, h => (t.lookup (.ofAddr a 0 h)).map fun d => (.ofAddr a 0 h, d)
  | n + 1, h =>
      match t.lookup (.ofAddr a (n + 1) h) with
      | some d => some (.ofAddr a (n + 1) h, d)
      | none => t.matchFrom a n (Nat.le_of_succ_le h)

/-- The longest network of the table around an address, with its value. -/
def longestMatch (t : PrefixTable α D) (a : α) : Option (Network α × D) :=
  t.matchFrom a (width a) le_rfl

/-! ## Entries -/

@[simp] theorem lookup_empty (net : Network α) : (empty : PrefixTable α D).lookup net = none := rfl

theorem lookup_insert (t : PrefixTable α D) (net net' : Network α) (d : D) :
    (t.insert net d).lookup net' = if net' = net then some d else t.lookup net' := by
  split_ifs with h
  · rw [h]
    exact AList.lookup_insert t.entries
  · exact AList.lookup_insert_ne h

theorem lookup_retain (t : PrefixTable α D) (p : D → Bool) (net : Network α) :
    (t.retain p).lookup net = (t.lookup net).filter p := by
  apply Option.ext
  intro d
  have hretain : (t.retain p).lookup net = some d ↔
      ⟨net, d⟩ ∈ t.entries.entries.filter fun entry => p entry.2 :=
    AList.mem_lookup_iff
  have hlookup : t.lookup net = some d ↔ ⟨net, d⟩ ∈ t.entries.entries := AList.mem_lookup_iff
  rw [hretain, List.mem_filter, Option.filter_eq_some_iff, hlookup]

/-! ## Longest-prefix match -/

theorem matchFrom_some {t : PrefixTable α D} {a : α} {net : Network α} {d : D} {n : Nat}
    {hn : n ≤ width a} (h : t.matchFrom a n hn = some (net, d)) :
    net.Contains a ∧ t.lookup net = some d ∧
      ∀ other : Network α, other.Contains a → other.len ≤ n → t.lookup other ≠ none →
        other.len ≤ net.len := by
  induction n with
  | zero =>
    obtain ⟨d', hd, heq⟩ := Option.map_eq_some_iff.mp h
    cases heq
    exact ⟨Network.contains_ofAddr .., hd, fun other _ hlen _ => hlen⟩
  | succ n ih =>
    rw [matchFrom] at h
    cases hcut : t.lookup (.ofAddr a (n + 1) hn) with
    | some d' =>
      rw [hcut] at h
      cases h
      exact ⟨Network.contains_ofAddr .., hcut, fun other _ hlen _ => hlen⟩
    | none =>
      rw [hcut] at h
      obtain ⟨hcontains, hd, hlongest⟩ := ih h
      refine ⟨hcontains, hd, fun other hother hlen hsome => ?_⟩
      -- the cut to `n + 1` bits has no entry, so `other` is a shorter one
      have hne : other.len ≠ n + 1 := by
        intro heq
        rw [hother.eq_ofAddr] at hsome
        simp only [heq] at hsome
        exact hsome hcut
      exact hlongest other hother (by omega) hsome

theorem matchFrom_ne_none {t : PrefixTable α D} {a : α} {net : Network α} {n : Nat}
    {hn : n ≤ width a} (hcontains : net.Contains a) (hlen : net.len ≤ n)
    (hsome : t.lookup net ≠ none) : t.matchFrom a n hn ≠ none := by
  rw [hcontains.eq_ofAddr] at hsome
  induction n with
  | zero =>
    obtain hzero : net.len = 0 := by omega
    simp only [hzero] at hsome
    rwa [matchFrom, Ne, Option.map_eq_none_iff]
  | succ n ih =>
    rw [matchFrom]
    cases hcut : t.lookup (.ofAddr a (n + 1) hn) with
    | some d => simp
    | none =>
      have hne : net.len ≠ n + 1 := by
        intro heq
        simp only [heq] at hsome
        exact hsome hcut
      exact ih (by omega)

/-- **Longest-prefix match.**  The search finds the network of the table that lies around
the address and is the longest that does. -/
theorem longestMatch_eq_some_iff {t : PrefixTable α D} {a : α} {net : Network α} {d : D} :
    t.longestMatch a = some (net, d) ↔
      net.Contains a ∧ t.lookup net = some d ∧
        ∀ other : Network α, other.Contains a → t.lookup other ≠ none → other.len ≤ net.len := by
  constructor
  · intro h
    obtain ⟨hcontains, hd, hlongest⟩ := matchFrom_some h
    exact ⟨hcontains, hd, fun other hother => hlongest other hother hother.len_le⟩
  · rintro ⟨hcontains, hd, hlongest⟩
    have hsome : t.lookup net ≠ none := by simp [hd]
    obtain ⟨⟨net', d'⟩, hfound⟩ :=
      Option.ne_none_iff_exists'.mp (matchFrom_ne_none hcontains hcontains.len_le hsome)
    obtain ⟨hcontains', hd', hlongest'⟩ := matchFrom_some hfound
    have hle := hlongest net' hcontains' (by simp [hd'])
    have hge := hlongest' net hcontains hcontains.len_le hsome
    obtain rfl : net' = net := by
      rw [hcontains.eq_ofAddr, hcontains'.eq_ofAddr]
      simp only [Nat.le_antisymm hle hge]
    obtain rfl : d' = d := by rwa [hd', Option.some.injEq] at hd
    exact hfound

/-- An address is found if some network of the table lies around it. -/
theorem longestMatch_isSome_iff {t : PrefixTable α D} {a : α} :
    (t.longestMatch a).isSome ↔ ∃ net : Network α, net.Contains a ∧ t.lookup net ≠ none := by
  constructor
  · intro h
    obtain ⟨⟨net, d⟩, hfound⟩ := Option.isSome_iff_exists.mp h
    obtain ⟨hcontains, hd, -⟩ := longestMatch_eq_some_iff.mp hfound
    exact ⟨net, hcontains, by simp [hd]⟩
  · rintro ⟨net, hcontains, hsome⟩
    exact Option.isSome_iff_ne_none.mpr (matchFrom_ne_none hcontains hcontains.len_le hsome)

end PrefixTable
