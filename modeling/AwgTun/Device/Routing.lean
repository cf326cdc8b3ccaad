import AwgTun.Device.Device
import AwgTun.Lib.Directory
import AwgTun.Lib.Trace

/-!
# Cryptokey routing

Which addresses belong to a peer is stored twice.  The table of the peer decides which
source addresses a packet from it may have (`is_allowed_ip`); the table of the device
decides where a packet to an address goes (`peers_by_ip.find`).  The two agree as long
as no two peers share an address.

* `RoutesAgree` — what a device should satisfy in every state.
* `Mirrored` — the invariant behind it: the device's table is the union of the tables of
  its peers, and these have no address in common.
* `routes_agree_iff` — a run keeps the tables in agreement exactly if no step adds a peer
  that shares an address with one that is there.
* `nested_prefixes_disagree` — two peers with nested prefixes.
-/

open Control

namespace Device

variable [IpTable] {C : Crypto} {ε : Type} [Env ε] {d : Device C} {d' : Device C}
  {f : Peer C → Peer C} {s : Device C × ε} {new ref : PeerRef} {pubKey : Key} {ev : Event}

/-- The pointer is in the device. -/
def InDevice (d : Device C) (ref : PeerRef) : Prop := ∃ pubKey, d.peers.lookup pubKey = some ref

/-- The source check of the peer behind a pointer. -/
def isAllowedIp (d : Device C) (ref : PeerRef) (a : IpAddr) : Bool :=
  d.arcs[ref]?.any fun p => p.isAllowedIp a

/-- For every peer and every address, the source check and the route agree. -/
def RoutesAgree (d : Device C) : Prop :=
  ∀ ref, d.InDevice ref → ∀ a, d.isAllowedIp ref a = true ↔ d.peersByIp.find a = some ref

/-! ## Networks of a peer -/

/-- The network is in the table of the peer behind a pointer. -/
def Allows (d : Device C) (ref : PeerRef) (net : IpNetwork) : Prop :=
  ∃ table ∈ (d.arcs.map Peer.allowedIps)[ref]?, table.lookup net ≠ none

theorem isAllowedIp_iff {ref : PeerRef} {a : IpAddr} :
    d.isAllowedIp ref a = true ↔ ∃ net : IpNetwork, net.Contains a ∧ d.Allows ref net := by
  simp only [isAllowedIp, Option.any_eq_true, Peer.isAllowedIp, AllowedIps.find_isSome_iff, Allows,
    List.getElem?_map]
  constructor
  · rintro ⟨p, hp, net, hcontains, hnet⟩
    exact ⟨net, hcontains, p.allowedIps, by rw [hp]; rfl, hnet⟩
  · rintro ⟨net, hcontains, table, htable, hnet⟩
    obtain ⟨p, hp, rfl⟩ := Option.map_eq_some_iff.mp htable
    exact ⟨p, hp, net, hcontains, hnet⟩

/-- The device's table is the union of its peers', which have no address in common. -/
structure Mirrored (d : Device C) : Prop where
  ref_lt : ∀ ref, d.InDevice ref → ref < d.arcs.length
  key_inj : ∀ k k' ref, d.peers.lookup k = some ref → d.peers.lookup k' = some ref → k = k'
  table : ∀ net ref, d.peersByIp.lookup net = some ref ↔ d.InDevice ref ∧ d.Allows ref net
  disjoint : ∀ ref ref' a, d.InDevice ref → d.InDevice ref' → d.isAllowedIp ref a = true →
    d.isAllowedIp ref' a = true → ref = ref'

/-- Under the invariant the two directions agree. -/
theorem Mirrored.routesAgree (h : d.Mirrored) : d.RoutesAgree := by
  intro ref href a
  constructor
  · intro hallowed
    obtain ⟨net, hcontains, hnet⟩ := isAllowedIp_iff.mp hallowed
    have hentry := (h.table net ref).mpr ⟨href, hnet⟩
    have hsome : (d.peersByIp.find a).isSome :=
      AllowedIps.find_isSome_iff.mpr ⟨net, hcontains, by simp [hentry]⟩
    obtain ⟨ref', hfind⟩ := Option.isSome_iff_exists.mp hsome
    obtain ⟨net', hcontains', hentry'⟩ := AllowedIps.exists_of_find hfind
    obtain ⟨href', hnet'⟩ := (h.table net' ref').mp hentry'
    have hallowed' := isAllowedIp_iff.mpr ⟨net', hcontains', hnet'⟩
    rw [hfind, h.disjoint ref ref' a href href' hallowed hallowed']
  · intro hfind
    obtain ⟨net, hcontains, hentry⟩ := AllowedIps.exists_of_find hfind
    exact isAllowedIp_iff.mpr ⟨net, hcontains, ((h.table net ref).mp hentry).2⟩

/-- The invariant survives when peers leave, as long as their entries leave with them. -/
theorem Mirrored.restrict (h : d.Mirrored)
    (hips : d'.arcs.map Peer.allowedIps = d.arcs.map Peer.allowedIps)
    (hpeers : ∀ k ref, d'.peers.lookup k = some ref → d.peers.lookup k = some ref)
    (htable : ∀ net ref, d'.peersByIp.lookup net = some ref ↔
      d.peersByIp.lookup net = some ref ∧ d'.InDevice ref) :
    d'.Mirrored := by
  have hin {ref : PeerRef} : d'.InDevice ref → d.InDevice ref := fun ⟨k, hk⟩ => ⟨k, hpeers k ref hk⟩
  have hallows (ref : PeerRef) (net : IpNetwork) : d'.Allows ref net ↔ d.Allows ref net := by
    rw [Allows, Allows, hips]
  have hallowed (ref : PeerRef) (a : IpAddr) :
      d'.isAllowedIp ref a = true ↔ d.isAllowedIp ref a = true := by
    simp only [isAllowedIp_iff, hallows]
  have hlen : d'.arcs.length = d.arcs.length := by
    rw [← List.length_map Peer.allowedIps, hips, List.length_map]
  refine ⟨fun ref href => ?_, fun k k' ref hk hk' => ?_, fun net ref => ?_, fun ref ref' a => ?_⟩
  · rw [hlen]
    exact h.ref_lt ref (hin href)
  · exact h.key_inj k k' ref (hpeers k ref hk) (hpeers k' ref hk')
  · rw [htable, h.table, hallows]
    exact ⟨fun ⟨⟨_, hnet⟩, href⟩ => ⟨href, hnet⟩, fun ⟨href, hnet⟩ => ⟨⟨hin href, hnet⟩, href⟩⟩
  · intro href href'
    rw [hallowed, hallowed]
    exact h.disjoint ref ref' a (hin href) (hin href')

/-! ## Steps that leave the routes alone -/

/-- The two devices have the same peers with the same tables. -/
structure SameRoutes (d d' : Device C) : Prop where
  peers : d'.peers = d.peers
  peersByIp : d'.peersByIp = d.peersByIp
  allowedIps : d'.arcs.map Peer.allowedIps = d.arcs.map Peer.allowedIps

theorem Mirrored.congr (h : d.Mirrored) (hsame : SameRoutes d d') :
    d'.Mirrored := by
  refine h.restrict hsame.allowedIps (fun k ref hk => by rwa [hsame.peers] at hk) fun net ref => ?_
  rw [hsame.peersByIp, InDevice, hsame.peers]
  exact ⟨fun hentry => ⟨hentry, ((h.table net ref).mp hentry).1⟩, fun h => h.1⟩

/-- Changing a peer but not its table changes no table. -/
theorem map_allowedIps_modify (arcs : List (Peer C)) (ref : PeerRef)
    (hf : ∀ p, (f p).allowedIps = p.allowedIps) :
    (arcs.modify ref f).map Peer.allowedIps = arcs.map Peer.allowedIps := by
  apply List.ext_getElem?
  intro i
  rw [List.getElem?_map, List.getElem?_map, List.getElem?_modify]
  split_ifs with hi
  · cases arcs[i]? <;> simp [hf]
  · cases arcs[i]? <;> simp

theorem sameRoutes_forPeers (d : Device C) (hf : ∀ p, (f p).allowedIps = p.allowedIps) :
    SameRoutes d (d.forPeers f) := by
  refine ⟨rfl, rfl, ?_⟩
  have hfold (refs : List PeerRef) (arcs : List (Peer C)) :
      (refs.foldl (fun arcs peer => arcs.modify peer f) arcs).map Peer.allowedIps =
        arcs.map Peer.allowedIps := by
    induction refs generalizing arcs with
    | nil => rfl
    | cons ref refs ih => rw [List.foldl_cons, ih, map_allowedIps_modify arcs ref hf]
  exact hfold _ _

theorem sameRoutes_monitorHandler (d : Device C) (pathExists readable : Bool) :
    SameRoutes d (d.monitorHandler pathExists readable).2 := by
  unfold monitorHandler
  split_ifs
  · exact ⟨rfl, rfl, rfl⟩
  · split <;> exact ⟨rfl, rfl, rfl⟩

theorem sameRoutes_pollMtu (d : Device C) (readable : Bool) :
    SameRoutes d (d.pollMtu readable) := by
  cases readable with
  | false => exact ⟨rfl, rfl, rfl⟩
  | true =>
    rw [pollMtu_true]
    split_ifs
    · obtain ⟨hpeers, hips, hallowed⟩ := sameRoutes_forPeers { d with mtu := d.iface.currentMtu }
        (f := Peer.setMtu (UInt32.ofNat d.iface.currentMtu)) fun _ => rfl
      exact ⟨hpeers, hips, hallowed⟩
    · exact ⟨rfl, rfl, rfl⟩

theorem sameRoutes_resetRateLimiter (d : Device C) (e : ε) :
    SameRoutes d (d.resetRateLimiter e).1 := by
  unfold resetRateLimiter
  split <;> exact ⟨rfl, rfl, rfl⟩

/-! ## Steps that change the routes -/

theorem mirrored_clearPeers (d : Device C) : d.clearPeers.Mirrored := by
  have hnone (ref : PeerRef) : ¬ d.clearPeers.InDevice ref := by
    rintro ⟨k, hk⟩
    cases hk
  refine ⟨fun ref href => absurd href (hnone ref), fun k k' ref hk => absurd ⟨k, hk⟩ (hnone ref),
    fun net ref => ?_, fun ref ref' a href => absurd href (hnone ref)⟩
  refine iff_of_false (fun h => ?_) fun h => hnone ref h.1
  cases (AllowedIps.lookup_new net).symm.trans h

/-- The keys that are left when a peer leaves, as no other key leads to it. -/
theorem lookup_erase_iff {peer : PeerRef}
    (hinj : ∀ k k' ref, d.peers.lookup k = some ref → d.peers.lookup k' = some ref → k = k')
    (hkey : d.peers.lookup pubKey = some peer) (k : Key) (ref : PeerRef) :
    (d.peers.erase pubKey).lookup k = some ref ↔ d.peers.lookup k = some ref ∧ ref ≠ peer := by
  rw [AList.lookup_erase_eq_some_iff, and_comm]
  refine and_congr_right fun href => not_congr ⟨?_, ?_⟩
  · rintro rfl
    exact Option.some.inj (href.symm.trans hkey)
  · rintro rfl
    exact hinj k pubKey ref href hkey

/-- The routes that are left. -/
theorem lookup_remove_iff (table : AllowedIps PeerRef) (peer : PeerRef) (net : IpNetwork)
    (ref : PeerRef) :
    (table.remove (peer == ·)).lookup net = some ref ↔
      table.lookup net = some ref ∧ ref ≠ peer := by
  rw [AllowedIps.lookup_remove, Option.filter_eq_some_iff, Bool.not_eq_true', beq_eq_false_iff_ne,
    ne_comm]

theorem Mirrored.removePeer (h : d.Mirrored) (pubKey : Key) :
    (d.removePeer pubKey).Mirrored := by
  unfold Device.removePeer
  cases hkey : d.peers.lookup pubKey with
  | none => exact h
  | some peer =>
    have hpeers := lookup_erase_iff h.key_inj hkey
    refine h.restrict (map_allowedIps_modify d.arcs peer fun _ => rfl)
      (fun k ref hk => ((hpeers k ref).mp hk).1) fun net ref => ?_
    have hin : (∃ k, (d.peers.erase pubKey).lookup k = some ref) ↔ d.InDevice ref ∧ ref ≠ peer := by
      simp only [hpeers, InDevice, exists_and_right]
    have hentry := lookup_remove_iff d.peersByIp peer net ref
    change (d.peersByIp.remove (peer == ·)).lookup net = some ref ↔
      _ ∧ ∃ k, (d.peers.erase pubKey).lookup k = some ref
    rw [hentry, hin]
    exact ⟨fun ⟨hnet, hne⟩ => ⟨hnet, ((h.table net ref).mp hnet).1, hne⟩,
      fun ⟨hnet, _, hne⟩ => ⟨hnet, hne⟩⟩

/-- What an added peer changes: it is in the device under its pointer, and the others are as
they were. -/
theorem inDevice_insert (hkey : d.peers.lookup pubKey = none) :
    (∃ k, (d.peers.insert pubKey new).lookup k = some ref) ↔ ref = new ∨ d.InDevice ref := by
  constructor
  · rintro ⟨k, hk⟩
    by_cases hne : k = pubKey
    · subst hne
      rw [AList.lookup_insert] at hk
      exact .inl (Option.some.inj hk).symm
    · rw [AList.lookup_insert_ne hne] at hk
      exact .inr ⟨k, hk⟩
  · rintro (rfl | ⟨k, hk⟩)
    · exact ⟨pubKey, AList.lookup_insert _⟩
    · refine ⟨k, ?_⟩
      rwa [AList.lookup_insert_ne]
      rintro rfl
      rw [hkey] at hk
      cases hk

/-- A new pointer is under one key. -/
theorem key_inj_insert {pubKey k k' : Key}
    (hinj : ∀ k k' ref, d.peers.lookup k = some ref → d.peers.lookup k' = some ref → k = k')
    (hfresh : ∀ k, d.peers.lookup k ≠ some new)
    (hk : (d.peers.insert pubKey new).lookup k = some ref)
    (hk' : (d.peers.insert pubKey new).lookup k' = some ref) : k = k' := by
  by_cases hne : k = pubKey <;> by_cases hne' : k' = pubKey
  · rw [hne, hne']
  · rw [hne, AList.lookup_insert] at hk
    rw [AList.lookup_insert_ne hne', ← hk] at hk'
    exact absurd hk' (hfresh k')
  · rw [hne', AList.lookup_insert] at hk'
    rw [AList.lookup_insert_ne hne, ← hk'] at hk
    exact absurd hk (hfresh k)
  · rw [AList.lookup_insert_ne hne] at hk
    rw [AList.lookup_insert_ne hne'] at hk'
    exact hinj k k' ref hk hk'

section Added

variable {d d' : Device C} {u : PeerUpdate} {peer : Peer C}

/-- The tables of the peers after one was added. -/
theorem allows_added (harcs : d'.arcs = d.arcs ++ [peer])
    (hallowed : HasAllowedIps peer u.allowedIps) (net : IpNetwork) :
    (∀ ref, ref < d.arcs.length → (d'.Allows ref net ↔ d.Allows ref net)) ∧
      (d'.Allows d.arcs.length net ↔ ∃ ip ∈ u.allowedIps, ip.network = some net) := by
  constructor
  · intro ref href
    rw [Allows, Allows, harcs, List.map_append, List.getElem?_append_left (by simpa using href)]
  · rw [Allows, harcs, List.map_append, List.getElem?_append_right (by simp)]
    simp [hallowed net]

theorem isAllowedIp_old (harcs : d'.arcs = d.arcs ++ [peer])
    (hallowed : HasAllowedIps peer u.allowedIps) {ref : PeerRef} (href : ref < d.arcs.length)
    (a : IpAddr) : d'.isAllowedIp ref a = true ↔ d.isAllowedIp ref a = true := by
  simp only [isAllowedIp_iff, (allows_added harcs hallowed _).1 ref href]

theorem isAllowedIp_new (harcs : d'.arcs = d.arcs ++ [peer])
    (hallowed : HasAllowedIps peer u.allowedIps) (a : IpAddr) :
    d'.isAllowedIp d.arcs.length a = true ↔ ∃ ip ∈ u.allowedIps, ip.Covers a := by
  simp only [isAllowedIp_iff, (allows_added harcs hallowed _).2, AllowedIP.Covers]
  constructor
  · rintro ⟨net, hcontains, ip, hip, hnet⟩
    exact ⟨ip, hip, net, hnet, hcontains⟩
  · rintro ⟨ip, hip, net, hnet, hcontains⟩
    exact ⟨net, hcontains, ip, hip, hnet⟩

/-- The peer of the update shares no address with one in the device. -/
def SharesNothing (d : Device C) (u : PeerUpdate) : Prop :=
  ∀ ip ∈ u.allowedIps, ∀ a, ip.Covers a → ∀ ref, d.InDevice ref → d.isAllowedIp ref a = false

variable (h : d.Mirrored) (hkey : d.peers.lookup u.publicKey = none)
  (harcs : d'.arcs = d.arcs ++ [peer])
  (hpeers : d'.peers = d.peers.insert u.publicKey d.arcs.length)
  (hallowed : HasAllowedIps peer u.allowedIps)

include h hkey harcs hpeers hallowed

/-- A peer that shares nothing keeps the invariant. -/
theorem Mirrored.added
    (htable : ∀ net, d'.peersByIp.lookup net =
      if ∃ ip ∈ u.allowedIps, ip.network = some net then some d.arcs.length
      else d.peersByIp.lookup net)
    (hsep : d.SharesNothing u) : d'.Mirrored := by
  have hin (ref : PeerRef) : d'.InDevice ref ↔ ref = d.arcs.length ∨ d.InDevice ref := by
    rw [InDevice, hpeers, inDevice_insert hkey]
  have hapart {ref : PeerRef} {a : IpAddr} (href : d.InDevice ref)
      (hnew : d'.isAllowedIp d.arcs.length a = true) (hold : d'.isAllowedIp ref a = true) :
      False := by
    obtain ⟨ip, hip, hcovers⟩ := (isAllowedIp_new harcs hallowed a).mp hnew
    rw [isAllowedIp_old harcs hallowed (h.ref_lt ref href), hsep ip hip a hcovers ref href] at hold
    cases hold
  refine ⟨fun ref href => ?_, fun k k' ref hk hk' => ?_, fun net ref => ?_,
    fun ref ref' a href href' ha ha' => ?_⟩
  · rw [harcs, List.length_append, List.length_singleton]
    rcases (hin ref).mp href with rfl | href
    · exact Nat.lt_succ_self _
    · exact Nat.lt_succ_of_lt (h.ref_lt ref href)
  · rw [hpeers] at hk hk'
    exact key_inj_insert h.key_inj (fun k hk => Nat.lt_irrefl _ (h.ref_lt _ ⟨k, hk⟩)) hk hk'
  · obtain ⟨hold, hnew⟩ := allows_added harcs hallowed net
    rw [htable, hin]
    split_ifs with hnet
    · constructor
      · intro heq
        cases heq
        exact ⟨.inl rfl, hnew.mpr hnet⟩
      · rintro ⟨rfl | href, hallows⟩
        · rfl
        · -- the network would belong to both, and so would its own address
          exact (hapart href (isAllowedIp_iff.mpr ⟨net, net.contains_addr, hnew.mpr hnet⟩)
            (isAllowedIp_iff.mpr ⟨net, net.contains_addr, hallows⟩)).elim
    · rw [h.table]
      constructor
      · rintro ⟨href, hallows⟩
        exact ⟨.inr href, (hold ref (h.ref_lt ref href)).mpr hallows⟩
      · rintro ⟨rfl | href, hallows⟩
        · exact absurd (hnew.mp hallows) hnet
        · exact ⟨href, (hold ref (h.ref_lt ref href)).mp hallows⟩
  · rcases (hin ref).mp href with rfl | href <;> rcases (hin ref').mp href' with rfl | href'
    · rfl
    · exact (hapart href' ha ha').elim
    · exact (hapart href ha' ha).elim
    · rw [isAllowedIp_old harcs hallowed (h.ref_lt _ ‹_›)] at ha ha'
      exact h.disjoint ref ref' a href href' ha ha'

/-- A peer that shares an address takes it from one of the two tables but not from the
other. -/
theorem sharesNothing_of_routesAgree (hagree : d'.RoutesAgree) : d.SharesNothing u := by
  intro ip hip a hcovers ref href
  by_contra hshared
  rw [Bool.not_eq_false] at hshared
  have hin (ref : PeerRef) : d'.InDevice ref ↔ ref = d.arcs.length ∨ d.InDevice ref := by
    rw [InDevice, hpeers, inDevice_insert hkey]
  have hlt := h.ref_lt ref href
  have hnew := (hagree d.arcs.length ((hin _).mpr (.inl rfl)) a).mp
    ((isAllowedIp_new harcs hallowed a).mpr ⟨ip, hip, hcovers⟩)
  have hold := (hagree ref ((hin ref).mpr (.inr href)) a).mp
    ((isAllowedIp_old harcs hallowed hlt a).mpr hshared)
  rw [hnew, Option.some.injEq] at hold
  exact Nat.lt_irrefl _ (hold ▸ hlt)

end Added

/-! ## Runs -/

/-- A step that adds a peer adds one that shares nothing. -/
def Separate (s : Device C × ε) : Event → Prop
  | .updatePeer u => s.1.Admits u → s.1.SharesNothing u
  | _ => True

/-- An update that adds no peer, or one that shares nothing, keeps the invariant. -/
theorem Mirrored.updated {u : PeerUpdate} (h : d.Mirrored) (hupdated : Updated d u d')
    (hsep : d.Admits u → d.SharesNothing u) : d'.Mirrored := by
  cases hupdated with
  | removed hremove => exact h.removePeer u.publicKey
  | refused hremove hno nextIndex => exact h.congr ⟨rfl, rfl, rfl⟩
  | added hadmits hallowed hmtu htable =>
    exact h.added hadmits.publicKey rfl rfl hallowed htable (hsep hadmits)

theorem Mirrored.step (h : s.1.Mirrored) (hsep : Separate s ev) :
    (step s ev).1.Mirrored := by
  obtain ⟨d, e⟩ := s
  cases ev with
  | updatePeer u => exact h.updated (updatePeer_updated d u e) hsep
  | removePeer pubKey => exact h.removePeer pubKey
  | clearPeers => exact mirrored_clearPeers d
  | ifaceMtu mtu => exact h.congr ⟨rfl, rfl, rfl⟩
  | monitor pathExists readable => exact h.congr (sameRoutes_monitorHandler d pathExists readable)
  | timers readable =>
    exact (h.congr (sameRoutes_resetRateLimiter d e)).congr (sameRoutes_pollMtu _ readable)

/-- A step that ends in agreement was one that keeps the invariant. -/
theorem separate_of_routesAgree (h : s.1.Mirrored) (hagree : (Device.step s ev).1.RoutesAgree) :
    Separate s ev := by
  obtain ⟨d, e⟩ := s
  cases ev with
  | updatePeer u =>
    intro hadmits
    have hupdated := updatePeer_updated d u e
    have hagree' : (d.updatePeer u e).2.1.RoutesAgree := hagree
    generalize (d.updatePeer u e).2.1 = d' at hupdated hagree'
    cases hupdated with
    | removed hremove => simp [hadmits.remove] at hremove
    | refused hremove hno nextIndex => exact absurd hadmits hno
    | added _ hallowed hmtu htable =>
      exact sharesNothing_of_routesAgree h hadmits.publicKey rfl rfl hallowed hagree'
  | removePeer | clearPeers | ifaceMtu | monitor | timers => trivial

/-- **Cryptokey routing agrees in both directions** along a run that starts without peers
exactly if every peer it adds shares no address with the peers that are there. -/
theorem routes_agree_iff (d : Device C) (e : ε) (events : List Event) :
    Trace.AllStates step (fun s => s.1.RoutesAgree) (d.clearPeers, e) events ↔
      Trace.AllSteps step Separate (d.clearPeers, e) events :=
  have hstart := mirrored_clearPeers d
  Trace.allStates_iff_allSteps (fun s : Device C × ε => s.1.Mirrored)
    (fun _ _ hs => ⟨separate_of_routesAgree hs, fun hsep => (hs.step hsep).routesAgree⟩)
    (fun _ _ hs hsep => hs.step hsep) events (d.clearPeers, e) hstart hstart.routesAgree

end Device

namespace Device

/-- Two peers are added, one for `10.0.0.0/8` and one for `10.1.0.0/16`.  The first may send
from `10.1.2.3`, but packets to this address go to the second. -/
theorem nested_prefixes_disagree :
    let wide : PeerUpdate :=
      { publicKey := zeroKey, allowedIps := [⟨.v4 0x0A000000, 8⟩] }
    let narrow : PeerUpdate :=
      { publicKey := ⟨List.replicate 32 1, rfl⟩, allowedIps := [⟨.v4 0x0A010000, 16⟩] }
    let start : Device .transparent :=
      { Device.new 1420 ⟨1, 1, 1⟩ with keyPair := some (zeroKey, zeroKey) }
    let d := ([Event.updatePeer wide, .updatePeer narrow].foldl step (start, ({} : StillMachine))).1
    d.peers.lookup zeroKey = some 0 ∧ d.isAllowedIp 0 (.v4 0x0A010203) = true ∧
      d.peersByIp.find (.v4 0x0A010203) = some 1 ∧ ¬ d.RoutesAgree := by
  intro wide narrow start d
  have hpeer : d.peers.lookup zeroKey = some 0 := by decide +kernel
  have hallowed : d.isAllowedIp 0 (.v4 0x0A010203) = true := by decide +kernel
  have hfind : d.peersByIp.find (.v4 0x0A010203) = some 1 := by decide +kernel
  refine ⟨hpeer, hallowed, hfind, fun hagree => ?_⟩
  have hroute := (hagree 0 ⟨zeroKey, hpeer⟩ _).mp hallowed
  rw [hfind] at hroute
  cases hroute

end Device
