import AwgTun.Device.Overlay
import AwgTun.Device.WireFormat

/-!
# What a request may run into

Whether a change of a device comes back depends on little of it: the keys that have a peer, whether
there is a private key, and the indices that are left.  This is its ledger.

* `Device.Regular` — what holds of every device in use: its configuration passes, and there are
  peers behind its keys.
* `Ledger.setAmneziaConfig_spec`, `Ledger.updatePeer_spec` — the two changes that can panic do so
  exactly if the ledger does not allow them, and what they leave in it.
* `Ledger.replay_spec` — a list of updates comes back exactly if the ledger allows each in turn.
* `EventLoop.ParsedRun.regular` — every device that the event loop leads to is regular.
-/

open Control

variable [IpTable] {C : Crypto} {ε : Type} [Env ε]

/-! ## How many indices a change takes -/

namespace Device

variable {d d' : Device C} {c : Amnezia3Config}

/-- What holds of every device that was set up by requests: its configuration was parsed, and
behind its keys there are peers. -/
structure Regular (d : Device C) : Prop where
  valid : d.amnezia.Valid
  passes : d.amnezia.validate = .ok ()
  ref_lt : ∀ ref, d.InDevice ref → ref < d.arcs.length

/-- What a change of the tunnels leaves alone. -/
structure SameTables (d d' : Device C) : Prop where
  peers : d'.peers = d.peers
  keyPair : d'.keyPair = d.keyPair
  amnezia : d'.amnezia = d.amnezia
  arcs : d'.arcs.length = d.arcs.length

theorem SameTables.trans {d'' : Device C} (h : SameTables d d') (h' : SameTables d' d'') :
    SameTables d d'' :=
  ⟨h'.peers.trans h.peers, h'.keyPair.trans h.keyPair, h'.amnezia.trans h.amnezia,
    h'.arcs.trans h.arcs⟩

theorem Regular.of_sameTables (hd : d.Regular) (h : SameTables d d') : d'.Regular where
  valid := h.amnezia ▸ hd.valid
  passes := h.amnezia ▸ hd.passes
  ref_lt := by
    intro ref href
    rw [InDevice, h.peers] at href
    rw [h.arcs]
    exact hd.ref_lt ref href

theorem Regular.added {pubKey : Key} (hd : d.Regular)
    (hpeers : d'.peers = d.peers.insert pubKey d.arcs.length)
    (harcs : d'.arcs.length = d.arcs.length + 1) (hamnezia : d'.amnezia = d.amnezia) :
    d'.Regular where
  valid := hamnezia ▸ hd.valid
  passes := hamnezia ▸ hd.passes
  ref_lt := by
    rintro ref ⟨k, hk⟩
    rw [hpeers, AList.lookup_insert_eq_some_iff] at hk
    rw [harcs]
    rcases hk with ⟨-, rfl⟩ | ⟨-, hk⟩
    · exact Nat.lt_succ_self _
    · exact Nat.lt_succ_of_lt (hd.ref_lt ref ⟨k, hk⟩)

theorem sameTables_rebuildPeer (d : Device C) (privateKey pubKey : Key) (ref : PeerRef) (e : ε) :
    SameTables d (d.rebuildPeer privateKey pubKey ref e).2.1 := by
  rcases d.rebuildPeer_cases privateKey pubKey ref e with ⟨_, h⟩ | ⟨_, _, _, _, -, h⟩
  · rw [h]
    exact ⟨rfl, rfl, rfl, rfl⟩
  · rw [h]
    exact ⟨rfl, rfl, rfl, List.length_set⟩

theorem sameTables_rebuildPeers (privateKey : Key)
    (entries : List (Sigma fun _ : Key => PeerRef)) :
    ∀ (d : Device C) (e : ε), SameTables d (rebuildPeers privateKey entries d e).2.1 := by
  induction entries with
  | nil => exact fun d e => ⟨rfl, rfl, rfl, rfl⟩
  | cons entry entries ih =>
    intro d e
    have hfirst := d.sameTables_rebuildPeer privateKey entry.1 entry.2 e
    rw [rebuildPeers]
    rcases hrun : d.rebuildPeer privateKey entry.1 entry.2 e with ⟨p | _, d', e'⟩
    · rw [hrun] at hfirst
      exact hfirst
    · rw [hrun] at hfirst
      exact hfirst.trans (ih d' e')

/-- One peer's turn: it comes back if there is an index. -/
theorem rebuildPeer_returns {ref : PeerRef} (href : ref < d.arcs.length) (privateKey pubKey : Key)
    (e : ε) :
    (d.nextIndex.next.1.Returns ∧ (d.rebuildPeer privateKey pubKey ref e).1 = .ok () ∧
        (d.rebuildPeer privateKey pubKey ref e).2.1.nextIndex = d.nextIndex.next.2) ∨
      (¬ d.nextIndex.next.1.Returns ∧ ¬ (d.rebuildPeer privateKey pubKey ref e).1.Returns) := by
  have hp : d.arcs[ref]? = some d.arcs[ref] := List.getElem?_eq_getElem href
  by_cases hreturns : d.nextIndex.next.1.Returns
  · obtain ⟨d', e', hrun, hrebuilds⟩ := rebuildPeer_rebuildsTo hp hreturns privateKey pubKey e
    rw [hrun]
    cases hrebuilds with
    | refused => exact .inl ⟨hreturns, rfl, rfl⟩
    | made => exact .inl ⟨hreturns, rfl, rfl⟩
  · refine .inr ⟨hreturns, ?_⟩
    unfold rebuildPeer
    simp only [hp]
    rcases hnext : d.nextIndex.next with ⟨p | index, next⟩
    · exact Outcome.not_returns_error p
    · rw [hnext] at hreturns
      exact absurd ⟨index, rfl⟩ hreturns

/-- All peers' turns: each takes an index. -/
theorem rebuildPeers_returns (privateKey : Key) (entries : List (Sigma fun _ : Key => PeerRef)) :
    ∀ (d : Device C) (e : ε), (∀ entry ∈ entries, entry.2 < d.arcs.length) →
      (d.nextIndex.Supplies entries.length ∧ (rebuildPeers privateKey entries d e).1 = .ok () ∧
          (rebuildPeers privateKey entries d e).2.1.nextIndex = d.nextIndex.skip entries.length) ∨
        (¬ d.nextIndex.Supplies entries.length ∧
          ¬ (rebuildPeers privateKey entries d e).1.Returns) := by
  induction entries with
  | nil => exact fun d e _ => .inl ⟨trivial, rfl, rfl⟩
  | cons entry entries ih =>
    intro d e hrefs
    have htables := d.sameTables_rebuildPeer privateKey entry.1 entry.2 e
    have hturn := rebuildPeer_returns (hrefs entry (by simp)) privateKey entry.1 e
    rw [rebuildPeers]
    rcases hrun : d.rebuildPeer privateKey entry.1 entry.2 e with ⟨result, d', e'⟩
    rw [hrun] at htables hturn
    rcases hturn with ⟨hreturns, rfl, hnext⟩ | ⟨hstops, hpanics⟩
    · have hrest := ih d' e' fun x hx => by
        rw [htables.arcs]
        exact hrefs x (by simp [hx])
      rw [hnext] at hrest
      exact hrest.imp (fun h => ⟨⟨hreturns, h.1⟩, h.2⟩) fun h => ⟨fun h' => h.1 h'.2, h.2⟩
    · refine .inr ⟨fun h => hstops h.1, ?_⟩
      rcases result with p | _
      · exact hpanics
      · exact absurd ⟨(), rfl⟩ hpanics

theorem sameTables_setAmneziaConfig (d : Device C) (c : Amnezia3Config) (e : ε) :
    SameTables { d with amnezia := c } (d.setAmneziaConfig c e).2.1 := by
  unfold setAmneziaConfig
  split_ifs with hsame
  · exact ⟨rfl, rfl, hsame, rfl⟩
  · simp only
    split
    · exact ⟨rfl, rfl, rfl, rfl⟩
    · exact sameTables_rebuildPeers _ _ _ _

/-- `set_amnezia_config` with a key: the tunnels are made anew. -/
theorem setAmneziaConfig_keyed (hne : d.amnezia ≠ c) {pair : Key × Key}
    (hpair : d.keyPair = some pair) (e : ε) :
    d.setAmneziaConfig c e =
      rebuildPeers pair.1 (Env.walk e d.peers.entries) { d with amnezia := c } e := by
  obtain ⟨keyPair, _, _, _, _, _, _, _, _, _⟩ := d
  cases hpair
  exact if_neg hne

theorem setAmneziaConfig_keyless (hne : d.amnezia ≠ c) (hpair : d.keyPair = none) (e : ε) :
    d.setAmneziaConfig c e = (.ok (), { d with amnezia := c }, e) := by
  obtain ⟨keyPair, _, _, _, _, _, _, _, _, _⟩ := d
  cases hpair
  exact if_neg hne

end Device

/-! ## The ledger of a device -/

/-- What a request may run into: the keys that have a peer, whether there is a private key, and
the indices that are left. -/
structure Ledger where
  peers : Finset Key
  keyed : Prop
  register : IndexLfsr

namespace Ledger

variable {d d' : Device C} {u : PeerUpdate}

/-- The ledger of a device. -/
def of (d : Device C) : Ledger where
  peers := d.peers.keys.toFinset
  keyed := d.keyPair.isSome
  register := d.nextIndex

theorem mem_of {key : Key} : key ∈ (of d).peers ↔ key ∈ d.peers := by
  rw [of, List.mem_toFinset, AList.mem_keys]

theorem card_of : (of d).peers.card = d.peers.entries.length := by
  rw [of, List.toFinset_card_of_nodup d.peers.keys_nodup, AList.keys, List.keys, List.length_map]

/-! ### A configuration -/

/-- The configuration can be installed in place of another: there is an index for every peer that
gets its tunnel anew. -/
def Installs (l : Ledger) (c c' : Amnezia3Config) : Prop :=
  c ≠ c' → l.keyed → l.register.Supplies l.peers.card

open scoped Classical in
/-- The ledger afterwards. -/
noncomputable def install (l : Ledger) (c c' : Amnezia3Config) : Ledger :=
  if c ≠ c' ∧ l.keyed then { l with register := l.register.skip l.peers.card } else l

/-- **`set_amnezia_config`** comes back exactly if the ledger allows it. -/
theorem setAmneziaConfig_spec (hd : d.Regular) (c : Amnezia3Config) (e : ε) :
    ((of d).Installs d.amnezia c ∧ ∃ d' e', d.setAmneziaConfig c e = (.ok (), d', e') ∧
        Device.SameTables { d with amnezia := c } d' ∧ of d' = (of d).install d.amnezia c) ∨
      (¬ (of d).Installs d.amnezia c ∧ ¬ (d.setAmneziaConfig c e).1.Returns) := by
  by_cases hne : d.amnezia = c
  · subst hne
    refine .inl ⟨fun h => absurd rfl h, d, e, if_pos rfl, ⟨rfl, rfl, rfl, rfl⟩, ?_⟩
    rw [install, if_neg (by simp)]
  rcases Option.eq_none_or_eq_some d.keyPair with hpair | ⟨pair, hpair⟩
  · have hkeyed : ¬ (of d).keyed := by simp [of, hpair]
    refine .inl ⟨fun _ h => absurd h hkeyed, _, e, Device.setAmneziaConfig_keyless hne hpair e,
      ⟨rfl, rfl, rfl, rfl⟩, ?_⟩
    rw [install, if_neg (fun h => hkeyed h.2)]
    rfl
  · have hkeyed : (of d).keyed := by simp [of, hpair]
    rw [Device.setAmneziaConfig_keyed hne hpair]
    generalize hwalk : Env.walk e d.peers.entries = entries
    have hlength : entries.length = d.peers.entries.length := by rw [← hwalk, Env.length_walk]
    have hrefs (entry) (hentry : entry ∈ entries) : entry.2 < d.arcs.length := by
      rw [← hwalk, Env.mem_walk] at hentry
      exact hd.ref_lt entry.2 ⟨entry.1, AList.mem_lookup_iff.mpr hentry⟩
    have htables := Device.sameTables_rebuildPeers pair.1 entries { d with amnezia := c } e
    have hturns := Device.rebuildPeers_returns pair.1 entries { d with amnezia := c } e hrefs
    rcases hrun : Device.rebuildPeers pair.1 entries { d with amnezia := c } e with ⟨result, d', e'⟩
    rw [hrun, hlength] at hturns
    rw [hrun] at htables
    rcases hturns with ⟨hsupplies, rfl, hskip⟩ | ⟨hshort, hpanics⟩
    · refine .inl ⟨fun _ _ => by rw [card_of]; exact hsupplies, d', e', rfl, htables, ?_⟩
      rw [install, if_pos ⟨hne, hkeyed⟩, card_of, of, of, htables.peers, htables.keyPair, hskip]
    · refine .inr ⟨fun h => hshort ?_, hpanics⟩
      have hsupplies := h hne hkeyed
      rwa [card_of] at hsupplies

/-! ### Peers -/

/-- An update comes back: it removes a peer, or its key has none yet, there is a private key, and
there is an index. -/
def Accepts (l : Ledger) (u : PeerUpdate) : Prop :=
  u.remove = true ∨ (u.publicKey ∉ l.peers ∧ l.keyed ∧ l.register.next.1.Returns)

open scoped Classical in
/-- The ledger afterwards.  A range that does not pass its check costs an index and makes no
peer. -/
noncomputable def update (l : Ledger) (u : PeerUpdate) : Ledger :=
  if u.remove then { l with peers := l.peers.erase u.publicKey }
  else
    { l with
      peers := if Device.ValidRange u.keepaliveRange then insert u.publicKey l.peers else l.peers
      register := l.register.next.2 }

/-- A list of updates comes back. -/
def Takes : Ledger → List PeerUpdate → Prop
  | _, [] => True
  | l, u :: us => l.Accepts u ∧ (l.update u).Takes us

theorem removePeer_spec (hd : d.Regular) (pubKey : Key) :
    (d.removePeer pubKey).Regular ∧
      of (d.removePeer pubKey) = { of d with peers := (of d).peers.erase pubKey } := by
  unfold Device.removePeer
  cases hkey : d.peers.lookup pubKey with
  | none =>
    refine ⟨hd, ?_⟩
    have hnot : pubKey ∉ (of d).peers := by
      rw [mem_of, ← AList.lookup_isSome, hkey]
      exact Bool.false_ne_true
    rw [Finset.erase_eq_of_notMem hnot]
  | some peer =>
    refine ⟨⟨hd.valid, hd.passes, ?_⟩, ?_⟩
    · rintro ref ⟨k, hk⟩
      rw [AList.lookup_erase_eq_some_iff] at hk
      rw [List.length_modify]
      exact hd.ref_lt ref ⟨k, hk.2⟩
    · simp only [of, Ledger.mk.injEq, and_true]
      ext k
      simp [d.peers.keys_nodup.mem_erase_iff]

/-- A peer that can be made is entered under its key. -/
theorem addPeer_valid (hconfig : (d.configFor u.keepaliveRange).validate = .ok ())
    (hips : ∀ ip ∈ u.allowedIps, ip.network.isSome) (index : UInt32) (privateKey : Key) (e : ε) :
    ∃ d' e', d.addPeer u index privateKey e = (.ok (), d', e') ∧
      d'.peers = d.peers.insert u.publicKey d.arcs.length ∧ d'.arcs.length = d.arcs.length + 1 ∧
      d'.amnezia = d.amnezia ∧ d'.keyPair = d.keyPair ∧ d'.nextIndex = d.nextIndex := by
  obtain ⟨table, hrun, -⟩ := AllowedIps.lookup_insertAll hips d.peersByIp d.arcs.length
  obtain ⟨peer, hnew, -, -⟩ := Device.new_of_valid hips
    (Tunn.ofConfig (C := C) privateKey u.publicKey u.presharedKey u.keepalive index none
      (d.configFor u.keepaliveRange) e).1 index u.endpoint u.presharedKey u.keepaliveRange
  simp only [Device.addPeer, Tunn.newWithAmnezia3, hconfig, hnew, Device.enterPeer, hrun]
  exact ⟨_, _, rfl, rfl, by simp, rfl, rfl, rfl⟩

/-- One whose range does not pass is not made. -/
theorem addPeer_invalid (hconfig : (d.configFor u.keepaliveRange).validate ≠ .ok ())
    (index : UInt32) (privateKey : Key) (e : ε) :
    ∃ e', d.addPeer u index privateKey e = (.ok (), d, e') := by
  cases hvalid : (d.configFor u.keepaliveRange).validate with
  | error err =>
    simp only [Device.addPeer, Tunn.newWithAmnezia3, hvalid]
    exact ⟨_, rfl⟩
  | ok => exact absurd hvalid hconfig

/-- An update that is no removal and comes back. -/
theorem addPeer_spec (hd : d.Regular) (hips : ∀ ip ∈ u.allowedIps, ip.network.isSome)
    (hremove : u.remove = false) (index : UInt32) (privateKey : Key) (e : ε) :
    ∃ d' e', ({ d with nextIndex := d.nextIndex.next.2 } : Device C).addPeer u index privateKey e =
        (.ok (), d', e') ∧ d'.Regular ∧ d'.amnezia = d.amnezia ∧ of d' = (of d).update u := by
  have hgo : ¬ u.remove = true := by simp [hremove]
  set d₁ : Device C := { d with nextIndex := d.nextIndex.next.2 } with hd₁
  by_cases hrange : Device.ValidRange u.keepaliveRange
  · have hconfig : (d₁.configFor u.keepaliveRange).validate = .ok () :=
      (Device.configFor_validate hd.passes).mpr hrange
    obtain ⟨d', e', hrun, hpeers, harcs, hamnezia, hpair, hnext⟩ :=
      addPeer_valid hconfig hips index privateKey e
    refine ⟨d', e', hrun, hd.added hpeers harcs hamnezia, hamnezia, ?_⟩
    · rw [update, if_neg hgo, if_pos hrange, of, hpair, hnext]
      simp only [of, Ledger.mk.injEq, and_true, hd₁]
      ext k
      by_cases hk : k = u.publicKey <;> simp [hpeers, d.peers.keys_nodup.mem_erase_iff, hd₁, hk]
  · have hconfig : (d₁.configFor u.keepaliveRange).validate ≠ .ok () := fun h =>
      hrange ((Device.configFor_validate hd.passes).mp h)
    obtain ⟨e', hrun⟩ := addPeer_invalid hconfig index privateKey e
    refine ⟨d₁, e', hrun, ⟨hd.valid, hd.passes, hd.ref_lt⟩, rfl, ?_⟩
    rw [update, if_neg hgo, if_neg hrange]
    rfl

/-- **`update_peer`** comes back exactly if the ledger allows it. -/
theorem updatePeer_spec (hd : d.Regular) (hips : ∀ ip ∈ u.allowedIps, ip.network.isSome) (e : ε) :
    ((of d).Accepts u ∧ ∃ d' e', d.updatePeer u e = (.ok (), d', e') ∧ d'.Regular ∧
        d'.amnezia = d.amnezia ∧ of d' = (of d).update u) ∨
      (¬ (of d).Accepts u ∧ ¬ (d.updatePeer u e).1.Returns) := by
  unfold Device.updatePeer
  split_ifs with hremove hkey
  · obtain ⟨hregular, hof⟩ := removePeer_spec hd u.publicKey
    refine .inl ⟨.inl hremove, _, e, rfl, hregular, ?_, ?_⟩
    · unfold Device.removePeer
      split <;> rfl
    · rw [hof, update, if_pos hremove]
  · refine .inr ⟨?_, Outcome.not_returns_panic _⟩
    rintro (hyes | ⟨hnew, -⟩)
    · exact hremove hyes
    · exact hnew (mem_of.mpr (AList.lookup_isSome.mp hkey))
  · have hgo : u.remove = false := by simpa using hremove
    have hnew : u.publicKey ∉ (of d).peers :=
      fun hmem => hkey (AList.lookup_isSome.mpr (mem_of.mp hmem))
    simp only
    split
    · rename_i p hindex
      refine .inr ⟨?_, Outcome.not_returns_error p⟩
      rintro (hyes | ⟨-, -, index, hreturns⟩)
      · exact hremove hyes
      · rw [show (of d).register = d.nextIndex from rfl, hindex] at hreturns
        cases hreturns
    · rename_i hpair
      refine .inr ⟨?_, Outcome.not_returns_panic _⟩
      rintro (hyes | ⟨-, hkeyed, -⟩)
      · exact hremove hyes
      · have hnone : d.keyPair = none := hpair
        rw [show (of d).keyed = (d.keyPair.isSome = true) from rfl, hnone] at hkeyed
        cases hkeyed
    · rename_i index privateKey publicKey hindex hpair
      obtain ⟨d', e', hrun, hspec⟩ := addPeer_spec hd hips hgo index privateKey e
      have hsome : d.keyPair = some (privateKey, publicKey) := hpair
      refine .inl ⟨.inr ⟨hnew, ?_, index, hindex⟩, d', e', hrun, hspec⟩
      rw [show (of d).keyed = (d.keyPair.isSome = true) from rfl, hsome]
      rfl

/-- **A list of updates** comes back exactly if the ledger allows it. -/
theorem replay_spec {us : List PeerUpdate}
    (hips : ∀ u ∈ us, ∀ ip ∈ u.allowedIps, ip.network.isSome) :
    ∀ {d : Device C}, d.Regular → ∀ e : ε,
      (Api.replay (fun (s : Device C × ε) u => s.1.updatePeer u s.2) us (d, e)).1.Returns ↔
        (of d).Takes us := by
  induction us with
  | nil => exact fun _ _ => iff_of_true ⟨_, rfl⟩ trivial
  | cons u us ih =>
    intro d hd e
    rw [Api.replay, Takes]
    rcases updatePeer_spec hd (hips u (by simp)) e with
      ⟨haccepts, d', e', hrun, hregular, -, hof⟩ | ⟨hrefuses, hpanics⟩
    · simp only [hrun, ← hof, haccepts, true_and]
      exact ih (fun u hu => hips u (by simp [hu])) hregular e'
    · refine iff_of_false ?_ fun h => hrefuses h.1
      rcases hrun : d.updatePeer u e with ⟨p | _, d', e'⟩
      · exact Outcome.not_returns_error p
      · rw [hrun] at hpanics
        exact absurd ⟨(), rfl⟩ hpanics

/-! ### What else a request does -/

/-- What leaves the tables alone. -/
theorem of_carried (h : Device.Carried ε d d') (hd : d.Regular) :
    d'.Regular ∧ of d' = { of d with keyed := (of d').keyed } := by
  refine ⟨⟨h.amnezia ▸ hd.valid, h.amnezia ▸ hd.passes, ?_⟩, ?_⟩
  · intro ref href
    rw [Device.InDevice, h.peers] at href
    rw [← h.arcs.length_eq]
    exact hd.ref_lt ref href
  · simp only [of, h.peers, h.nextIndex]

theorem setKey_spec (hd : d.Regular) (key : Key) (e : ε) :
    (d.setKey key e).1.Regular ∧ (d.setKey key e).1.amnezia = d.amnezia ∧
      of (d.setKey key e).1 = { of d with keyed := True } := by
  have hcarried := Device.carried_setKey d key e
  obtain ⟨hregular, hof⟩ := of_carried hcarried hd
  have hkeyed : (of (d.setKey key e).1).keyed = True := by
    refine eq_true ?_
    unfold Device.setKey
    simp only
    split_ifs with hsame
    · cases hpair : d.keyPair with
      | none =>
        rw [hpair] at hsame
        cases hsame
      | some pair => simp [of, hpair]
    · rfl
  exact ⟨hregular, hcarried.amnezia, by rw [hof, hkeyed]⟩

theorem openListenSocket_spec (ε : Type) [Env ε] (hd : d.Regular) :
    d.openListenSocket.Regular ∧ of d.openListenSocket = of d :=
  of_carried ((Device.served_openListenSocket (ε := ε) d).carried rfl id) hd

theorem clearPeers_spec (hd : d.Regular) :
    d.clearPeers.Regular ∧ of d.clearPeers = { of d with peers := ∅ } := by
  refine ⟨⟨hd.valid, hd.passes, ?_⟩, rfl⟩
  rintro ref ⟨k, hk⟩
  cases hk

end Ledger

/-! ## Devices in use -/

namespace Device

variable {d d' : Device C}

theorem regular_new (mtu : Nat) (nextIndex : IndexLfsr) :
    (Device.new mtu nextIndex : Device C).Regular := by
  have hparsed : (Amnezia3Config.parse []).run = .ok (.ok .default) := by decide +kernel
  obtain ⟨hpasses, hvalid⟩ := Amnezia3Config.parse_valid hparsed
  refine ⟨hvalid, hpasses, ?_⟩
  rintro ref ⟨k, hk⟩
  cases hk

/-- What happens to a device keeps it regular, if only parsed configurations are installed. -/
theorem Regular.change (hd : d.Regular) {input : EventLoop.Input} (h : Change ε d input d')
    (hparsed : ∀ c, input = .setAmneziaConfig c → c.validate = .ok () ∧ c.Valid) : d'.Regular := by
  cases h with
  | carried h => exact (Ledger.of_carried h hd).1
  | removed pubKey => exact (Ledger.removePeer_spec hd pubKey).1
  | cleared => exact (Ledger.clearPeers_spec hd).1
  | configured c e =>
    obtain ⟨hpasses, hvalid⟩ := hparsed c rfl
    have hinstalled : ({ d with amnezia := c } : Device C).Regular := ⟨hvalid, hpasses, hd.ref_lt⟩
    exact hinstalled.of_sameTables (d.sameTables_setAmneziaConfig c e)
  | updated u e =>
    have hupdates := d.updatePeer_updatesTo u e
    generalize (d.updatePeer u e).2.1 = d' at hupdates
    cases hupdates with
    | removed => exact (Ledger.removePeer_spec hd u.publicKey).1
    | present => exact hd
    | refused => exact ⟨hd.valid, hd.passes, hd.ref_lt⟩
    | added => exact hd.added rfl (by simp) rfl

end Device

namespace EventLoop

variable {s s' : EventLoop C}

/-- A run in which every configuration that is installed was parsed, as by
`apply_amnezia_block`. -/
def ParsedRun (ε : Type) [Env ε] : EventLoop C → EventLoop C → Prop :=
  Relation.ReflTransGen fun s s' => ∃ input effects, Step ε s input effects s' ∧
    ∀ c, input = .setAmneziaConfig c → ∃ text, (Amnezia3Config.parse text).run = .ok (.ok c)

theorem ParsedRun.regular (h : ParsedRun ε s s') (hs : s.device.Regular) : s'.device.Regular := by
  induction h with
  | refl => exact hs
  | tail _ hstep ih =>
    obtain ⟨input, effects, hstep, hparsed⟩ := hstep
    refine ih.change hstep.change fun c hc => ?_
    obtain ⟨text, htext⟩ := hparsed c hc
    exact Amnezia3Config.parse_valid htext

end EventLoop
