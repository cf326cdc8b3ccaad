import AwgTun.Lib.Control
import AwgTun.Lib.NetAddr

/-!
# Allowed addresses

`AllowedIP` of `device/peer.rs` and the table `AllowedIps` of `device/allowed_ips.rs`.
The table of the `ip_network_table` crate is a parameter, `IpTable`, with what is assumed
of it: longest-prefix match, with an insertion that replaces the value of an equal prefix.
`PrefixTable` is such a table.

`lookup_insertAll` says what the loops that fill a table from a list leave in it.
-/

open Control Text

/-- An address with the number of bits that count. -/
structure AllowedIP where
  addr : IpAddr
  cidr : UInt8
  deriving DecidableEq, Repr

/-- `IpNetwork` of the `ip_network` crate. -/
abbrev IpNetwork := Network IpAddr

/-- The crates `ip_network` and `ip_network_table`, and what is assumed of them. -/
class IpTable where
  /-- `IpNetwork::new_truncate`. -/
  newTruncate : IpAddr → UInt8 → Option IpNetwork
  newTruncate_eq (addr : IpAddr) (netmask : UInt8) : newTruncate addr netmask =
    if h : netmask.toNat ≤ Prefixed.width addr then some (.ofAddr addr netmask.toNat h) else none
  /-- The tables of values in `D`. -/
  Table (D : Type) : Type
  new {D : Type} : Table D
  lookup {D : Type} : Table D → IpNetwork → Option D
  insert {D : Type} : Table D → IpNetwork → D → Table D
  retain {D : Type} : Table D → (D → Bool) → Table D
  longestMatch {D : Type} : Table D → IpAddr → Option (IpNetwork × D)
  lookup_new {D : Type} (net : IpNetwork) : lookup (new : Table D) net = none
  lookup_insert {D : Type} (t : Table D) (net net' : IpNetwork) (d : D) :
    lookup (insert t net d) net' = if net' = net then some d else lookup t net'
  lookup_retain {D : Type} (t : Table D) (p : D → Bool) (net : IpNetwork) :
    lookup (retain t p) net = (lookup t net).filter p
  longestMatch_eq_some_iff {D : Type} {t : Table D} {a : IpAddr} {net : IpNetwork} {d : D} :
    longestMatch t a = some (net, d) ↔ net.Contains a ∧ lookup t net = some d ∧
      ∀ other : IpNetwork, other.Contains a → lookup t other ≠ none → other.len ≤ net.len
  longestMatch_isSome_iff {D : Type} {t : Table D} {a : IpAddr} :
    (longestMatch t a).isSome ↔ ∃ net : IpNetwork, net.Contains a ∧ lookup t net ≠ none

instance : IpTable where
  newTruncate addr netmask :=
    if h : netmask.toNat ≤ Prefixed.width addr then some (.ofAddr addr netmask.toNat h) else none
  newTruncate_eq _ _ := rfl
  Table D := PrefixTable IpAddr D
  new := .empty
  lookup := PrefixTable.lookup
  insert := PrefixTable.insert
  retain := PrefixTable.retain
  longestMatch := PrefixTable.longestMatch
  lookup_new _ := rfl
  lookup_insert := PrefixTable.lookup_insert
  lookup_retain := PrefixTable.lookup_retain
  longestMatch_eq_some_iff := PrefixTable.longestMatch_eq_some_iff
  longestMatch_isSome_iff := PrefixTable.longestMatch_isSome_iff

open IpTable

variable [IpTable]

namespace AllowedIP

/-- `AllowedIP::from_str`. -/
def fromStr (s : Text) : Except String AllowedIP :=
  match splitChar '/' s with
  | [addr, cidr] =>
      match IpAddr.parse addr, parseU8 cidr with
      | some (.v4 addr), .ok cidr =>
          if cidr ≤ 32 then .ok ⟨.v4 addr, cidr⟩ else .error "Invalid IP format"
      | some (.v6 addr), .ok cidr =>
          if cidr ≤ 128 then .ok ⟨.v6 addr, cidr⟩ else .error "Invalid IP format"
      | _, _ => .error "Invalid IP format"
  | _ => .error "Invalid IP format"

/-- The network of an allowed address, if there are that many bits. -/
def network (ip : AllowedIP) : Option IpNetwork := newTruncate ip.addr ip.cidr

/-- The address is one of those allowed. -/
def Covers (ip : AllowedIP) (a : IpAddr) : Prop := ∃ net, ip.network = some net ∧ net.Contains a

/-- What is read from text has no more bits than its address. -/
theorem network_isSome_of_fromStr {s : Text} {ip : AllowedIP} (h : fromStr s = .ok ip) :
    ip.network.isSome := by
  have hnet (addr : IpAddr) (cidr : UInt8) (hle : cidr.toNat ≤ Prefixed.width addr) :
      (network ⟨addr, cidr⟩).isSome := by
    simp [network, newTruncate_eq, hle]
  unfold fromStr at h
  split at h
  · split at h
    · split_ifs at h with hle
      cases h
      exact hnet _ _ hle
    · split_ifs at h with hle
      cases h
      exact hnet _ _ hle
    · cases h
  · cases h

end AllowedIP

/-- A table of networks. -/
structure AllowedIps (D : Type) where
  ips : Table D

namespace AllowedIps

variable {D : Type} {t : AllowedIps D} {ips : List AllowedIP} {a : IpAddr}

/-- `AllowedIps::new`. -/
def new : AllowedIps D := ⟨IpTable.new⟩

/-- The value of a network. -/
def lookup (t : AllowedIps D) (net : IpNetwork) : Option D := IpTable.lookup t.ips net

/-- `AllowedIps::insert`: the value that was replaced, and the table. -/
def insert (t : AllowedIps D) (key : IpAddr) (cidr : UInt32) (data : D) :
    Outcome (Option D × AllowedIps D) :=
  match newTruncate key cidr.toUInt8 with
  | none => .panic "cidr is valid length"
  | some net => .ok (t.lookup net, ⟨IpTable.insert t.ips net data⟩)

/-- `AllowedIps::find`. -/
def find (t : AllowedIps D) (key : IpAddr) : Option D := (longestMatch t.ips key).map (·.2)

/-- `AllowedIps::remove`. -/
def remove (t : AllowedIps D) (predicate : D → Bool) : AllowedIps D :=
  ⟨retain t.ips fun v => !predicate v⟩

/-- Insert one entry after the other, up to the first that panics. -/
def insertAll (t : AllowedIps D) : List (AllowedIP × D) → Outcome Unit × AllowedIps D
  | [] => (.ok (), t)
  | (ip, data) :: entries =>
      match t.insert ip.addr ip.cidr.toUInt32 data with
      | .error p => (.error p, t)
      | .ok (_, t) => t.insertAll entries

/-- `AllowedIps::from_iter`. -/
def fromIter (entries : List (AllowedIP × D)) : Outcome (AllowedIps D) := do
  let (result, t) := new.insertAll entries
  result
  return t

/-! ## What a table finds -/

@[simp] theorem lookup_new (net : IpNetwork) : (new : AllowedIps D).lookup net = none :=
  IpTable.lookup_new net

theorem lookup_insert (t : AllowedIps D) (net net' : IpNetwork) (data : D) :
    lookup ⟨IpTable.insert t.ips net data⟩ net' =
      if net' = net then some data else t.lookup net' :=
  IpTable.lookup_insert ..

theorem lookup_remove (p : D → Bool) (net : IpNetwork) :
    (t.remove p).lookup net = (t.lookup net).filter fun v => !p v :=
  lookup_retain ..

theorem find_isSome_iff :
    (t.find a).isSome ↔ ∃ net : IpNetwork, net.Contains a ∧ t.lookup net ≠ none := by
  rw [find, Option.isSome_map]
  exact longestMatch_isSome_iff

/-- What is found is the value of a network around the address. -/
theorem exists_of_find {d : D} (h : t.find a = some d) :
    ∃ net : IpNetwork, net.Contains a ∧ t.lookup net = some d := by
  obtain ⟨⟨net, d'⟩, hfound, rfl⟩ := Option.map_eq_some_iff.mp h
  obtain ⟨hcontains, hd, -⟩ := longestMatch_eq_some_iff.mp hfound
  exact ⟨net, hcontains, hd⟩

theorem insert_eq {ip : AllowedIP} {net : IpNetwork} (h : ip.network = some net) (data : D) :
    t.insert ip.addr ip.cidr.toUInt32 data =
      .ok (t.lookup net, ⟨IpTable.insert t.ips net data⟩) := by
  have hcidr : ip.cidr.toUInt32.toUInt8 = ip.cidr := by simp
  rw [insert, hcidr]
  rw [AllowedIP.network] at h
  rw [h]

/-- Filling a table with one value: the networks of the list have it, the others keep
theirs. -/
theorem lookup_insertAll (hips : ∀ ip ∈ ips, ip.network.isSome) (t : AllowedIps D) (data : D) :
    ∃ t' : AllowedIps D, t.insertAll (ips.map (·, data)) = (.ok (), t') ∧
      ∀ net, t'.lookup net =
        if ∃ ip ∈ ips, ip.network = some net then some data else t.lookup net := by
  induction ips generalizing t with
  | nil => exact ⟨t, rfl, fun net => by simp⟩
  | cons ip ips ih =>
    rw [List.forall_mem_cons] at hips
    obtain ⟨net₀, hnet₀⟩ := Option.isSome_iff_exists.mp hips.1
    obtain ⟨t', hrun, hlookup⟩ := ih hips.2 ⟨IpTable.insert t.ips net₀ data⟩
    refine ⟨t', ?_, fun net => ?_⟩
    · rw [List.map_cons, insertAll, insert_eq hnet₀]
      exact hrun
    · rw [hlookup, lookup_insert]
      by_cases hrest : ∃ ip ∈ ips, ip.network = some net
      · obtain ⟨ip', hip', heq⟩ := hrest
        rw [if_pos ⟨ip', hip', heq⟩, if_pos ⟨ip', List.mem_cons_of_mem _ hip', heq⟩]
      · rw [if_neg hrest]
        by_cases hfirst : net = net₀
        · subst hfirst
          rw [if_pos rfl, if_pos ⟨ip, List.mem_cons_self, hnet₀⟩]
        · rw [if_neg hfirst, if_neg]
          rintro ⟨ip', hip', heq⟩
          rcases List.mem_cons.mp hip' with rfl | hmem
          · rw [hnet₀] at heq
            exact hfirst (Option.some.inj heq).symm
          · exact hrest ⟨ip', hmem, heq⟩

/-- An entry with too many bits ends the filling. -/
theorem insertAll_panics (hips : ∃ ip ∈ ips, ip.network = none) (t : AllowedIps D) (data : D) :
    (t.insertAll (ips.map (·, data))).1 = .panic "cidr is valid length" := by
  induction ips generalizing t with
  | nil =>
    obtain ⟨ip, hip, -⟩ := hips
    cases hip
  | cons ip ips ih =>
    rw [List.map_cons, insertAll]
    cases hnet : ip.network with
    | none =>
      have hcidr : ip.cidr.toUInt32.toUInt8 = ip.cidr := by simp
      rw [AllowedIP.network] at hnet
      simp only [insert, hcidr, hnet]
      rfl
    | some net =>
      rw [insert_eq hnet]
      obtain ⟨ip', hip', hnone⟩ := hips
      rcases List.mem_cons.mp hip' with rfl | hmem
      · rw [hnet] at hnone
        cases hnone
      · exact ih ⟨ip', hmem, hnone⟩ _

end AllowedIps
