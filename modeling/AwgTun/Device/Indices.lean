import AwgTun.Device.Register
import AwgTun.Device.Replay
import AwgTun.Lib.Directory

/-!
# Dispatch by index

A response, a cookie reply or a transport packet names a local index of 32 bits.  Its upper 24 are
the index of a peer, given out by the register of the device; the lower 8 count the handshakes of
the tunnel.  `peers_by_idx` leads from the index to the peer.  A peer gets an index when it is
added, and another one whenever the configuration changes.

* `Tunn.Turn.takesNext` — a step gives a tunnel no local index but the next one.
* `Device.Indexed` — the invariant, with the number of indices used up: the table is the inverse
  of the indices, which are different, and local indices begin with the index of their peer.
* `Device.Indexed.change` — one step keeps it, as long as the register supplies the indices.
* `EventLoop.index_dispatch` — so packets get to the peer they are for.
-/

open Control Bytes

variable {C : Crypto} {ε : Type} [Env ε]

/-! ## The local indices of a tunnel -/

namespace Handshake

variable {h h' : Handshake C} {session : Session}

/-- The local index is that of an initiation in flight, or of the last message, for which a
cookie reply may come. -/
inductive Owns (h : Handshake C) : UInt32 → Prop
  | current {s : HandshakeInitSentState} (hs : h.state = .initSent s) : Owns h s.localIndex
  | previous {s : HandshakeInitSentState} (hs : h.previous = .initSent s) : Owns h s.localIndex
  | message (hm : h.cookies.lastMac1.isSome) : Owns h h.cookies.index

/-- No local index but the next one is taken. -/
structure TakesNext (h h' : Handshake C) : Prop where
  next : h'.nextIndex = h.nextIndex ∨ h'.nextIndex = succIndex h.nextIndex
  owns : ∀ idx, h'.Owns idx → h.Owns idx ∨ idx = succIndex h.nextIndex

theorem TakesNext.refl (h : Handshake C) : TakesNext h h := ⟨.inl rfl, fun _ => .inl⟩

/-- An operation that gives out no index. -/
theorem TakesNext.of_owns (hnext : h'.nextIndex = h.nextIndex)
    (howns : ∀ idx, h'.Owns idx → h.Owns idx) : TakesNext h h' :=
  ⟨.inl hnext, fun idx hidx => .inl (howns idx hidx)⟩

/-- A cookie that is dropped or replaced makes no difference. -/
theorem owns_withCookie (h : Handshake C) (cookie : Option (ByteArr 16)) {idx : UInt32}
    (howns : Owns { h with cookies := { h.cookies with writeCookie := cookie } } idx) :
    h.Owns idx := by
  cases howns with
  | current hs => exact .current hs
  | previous hs => exact .previous hs
  | message hm => exact .message hm

theorem TakesNext.cleared {h₀ : Handshake C} (hcleared : Cleared h h₀) (htakes : TakesNext h₀ h') :
    TakesNext h h' := by
  rcases hcleared with rfl | rfl
  · exact htakes
  · exact ⟨htakes.next, fun idx hidx => (htakes.owns idx hidx).imp_left (h.owns_withCookie none)⟩

theorem Sends.takesNext (hsends : Sends ε h h') : TakesNext h h' := by
  cases hsends with
  | nothing => exact .refl h
  | initiation hr =>
    cases formatHandshakeInitiation_ok hr
    refine ⟨.inr rfl, ?_⟩
    intro idx howns
    cases howns with
    | current hs =>
      cases hs
      exact .inr rfl
    | previous hs => exact .inl (.current hs)
    | message => exact .inr rfl

theorem setExpired_takesNext (h : Handshake C) : TakesNext h h.setExpired := by
  refine .of_owns rfl ?_
  intro idx howns
  cases howns with
  | current hs => cases hs
  | previous hs => cases hs
  | message hm => exact .message hm

theorem setStaticPrivate_takesNext {staticPrivate staticPublic : Key}
    (hr : h.setStaticPrivate staticPrivate staticPublic = .ok h') : TakesNext h h' := by
  obtain ⟨params, rfl⟩ := setStaticPrivate_ok hr
  refine .of_owns rfl ?_
  intro idx howns
  cases howns with
  | current hs => exact .current hs
  | previous hs => exact .previous hs
  | message hm => exact .message hm

theorem receiveCookieReply_takesNext {packet : PacketCookieReply}
    (hr : h.receiveCookieReply packet = (.ok (), h')) : TakesNext h h' := by
  obtain ⟨cookie, rfl⟩ := receiveCookieReply_ok hr
  exact .of_owns rfl fun idx => h.owns_withCookie (some cookie)

/-- The answer to an initiation takes the next one. -/
theorem Answered.takesNext (hanswered : Answered h h' session) :
    TakesNext h h' := by
  refine ⟨.inr hanswered.nextIndex, ?_⟩
  intro idx howns
  cases howns with
  | current hs =>
    rw [hanswered.state] at hs
    cases hs
  | previous hs =>
    rw [hanswered.previous] at hs
    exact .inl (.current hs)
  | message => exact .inr hanswered.index

/-- A response that is accepted ends an initiation. -/
theorem receiveHandshakeResponse_takesNext {packet : HandshakeResponse} {e e' : ε}
    (hr : h.receiveHandshakeResponse packet e = (.ok session, h', e')) :
    TakesNext h h' ∧ h.Owns session.receivingIndex := by
  obtain ⟨s, isPrevious, now, hawait, hsession, rfl⟩ := receiveHandshakeResponse_ok hr
  rcases awaiting_cases hawait with ⟨rfl, hstate⟩ | ⟨rfl, hprevious⟩
  · refine ⟨⟨.inl rfl, ?_⟩, hsession ▸ .current hstate⟩
    intro idx howns
    cases howns with
    | current hs => cases hs
    | previous hs => exact .inl (.previous hs)
    | message hm => exact .inl (.message hm)
  · refine ⟨⟨.inl rfl, ?_⟩, hsession ▸ .previous hprevious⟩
    intro idx howns
    cases howns with
    | current hs => exact .inl (.current hs)
    | previous hs => cases hs
    | message hm => exact .inl (.message hm)

end Handshake

namespace Tunn

variable {t t' : Tunn C} {index : UInt32}

/-- The local index is that of a session, or of the handshake. -/
def Owns (t : Tunn C) (idx : UInt32) : Prop :=
  t.handshake.Owns idx ∨ ∃ i session, t.sessions i = some session ∧ session.receivingIndex = idx

theorem Keeps.owns (hkeeps : Keeps t t') {i : Fin nSessions} {session : Session}
    (hsession : t'.sessions i = some session) : t.Owns session.receivingIndex := by
  obtain ⟨s, hs, hcontinues⟩ := hkeeps.sessions i session hsession
  exact .inr ⟨i, s, hs, hcontinues.receivingIndex.symm⟩

/-- The sessions after one was stored. -/
theorem Stores.owns {session s : Session} {i : Fin nSessions} (hstores : Stores t t' session)
    (hs : t'.sessions i = some s) :
    s.receivingIndex = session.receivingIndex ∨ t.Owns s.receivingIndex := by
  obtain ⟨s', hcontinues, hsessions⟩ := hstores.sessions
  rw [hsessions] at hs
  by_cases hslot : i = slotOf session.localIndex
  · rw [hslot, Function.update_self, Option.some.injEq] at hs
    exact .inl (hs ▸ hcontinues.receivingIndex)
  · rw [Function.update_of_ne hslot] at hs
    exact .inr (.inr ⟨i, s, hs, rfl⟩)

/-- No local index but the next one is taken. -/
structure TakesNext (t t' : Tunn C) : Prop where
  next : t'.handshake.nextIndex = t.handshake.nextIndex ∨
    t'.handshake.nextIndex = Handshake.succIndex t.handshake.nextIndex
  owns : ∀ idx, t'.Owns idx → t.Owns idx ∨ idx = Handshake.succIndex t.handshake.nextIndex

/-- Neither by the handshake nor by a session. -/
theorem TakesNext.of_handshake (htakes : t.handshake.TakesNext t'.handshake)
    (hsessions : ∀ i session, t'.sessions i = some session → t.Owns session.receivingIndex ∨
      session.receivingIndex = Handshake.succIndex t.handshake.nextIndex) : TakesNext t t' := by
  refine ⟨htakes.next, ?_⟩
  rintro idx (howns | ⟨i, session, hs, rfl⟩)
  · exact (htakes.owns idx howns).imp_left .inl
  · exact hsessions i session hs

theorem TakesNext.of_keeps (htakes : t.handshake.TakesNext t'.handshake) (hkeeps : Keeps t t') :
    TakesNext t t' :=
  .of_handshake htakes fun _ _ hs => .inl (hkeeps.owns hs)

/-- **One step** gives a tunnel no local index but the next one. -/
theorem Turn.takesNext {event : Event} (hturn : Turn ε t event t') : TakesNext t t' := by
  cases hturn with
  | sends _ hcleared hsent =>
    exact .of_keeps (hsent.handshake.takesNext.cleared hcleared) hsent.keeps
  | expires _ hcleared hexpired hnone hranges =>
    refine .of_keeps ?_ (.of_none hnone hranges)
    rw [hexpired]
    exact (Handshake.setExpired_takesNext _).cleared hcleared
  | rekeys _ hr hnone hranges =>
    exact .of_keeps (Handshake.setStaticPrivate_takesNext hr) (.of_none hnone hranges)
  | takesCookie hr hkeeps => exact .of_keeps (Handshake.receiveCookieReply_takesNext hr) hkeeps
  | answers hr hstores =>
    have hanswered := Handshake.receiveHandshakeInitialization_ok hr
    refine .of_handshake hanswered.takesNext ?_
    intro i s hs
    rcases hstores.owns hs with hnew | hold
    · exact .inr (hnew.trans hanswered.session)
    · exact .inl hold
  | finishes hr hstores =>
    obtain ⟨htakes, howns⟩ := Handshake.receiveHandshakeResponse_takesNext hr
    refine .of_handshake htakes ?_
    intro i s hs
    rcases hstores.owns hs with hnew | hold
    · exact .inl (.inl (hnew ▸ howns))
    · exact .inl hold

/-- The local indices of a tunnel begin with the index of its peer. -/
structure Numbered (t : Tunn C) (index : UInt32) : Prop where
  next : t.handshake.nextIndex >>> 8 = index
  owns : ∀ idx, t.Owns idx → idx >>> 8 = index

/-- The next local index begins like the last one. -/
theorem succIndex_shiftRight (idx : UInt32) : Handshake.succIndex idx >>> 8 = idx >>> 8 := by
  apply UInt32.toNat_inj.mp
  have hshift (i : UInt32) : (i >>> 8).toNat = i.toNat / 256 := by
    simp [UInt32.toNat_shiftRight, Nat.shiftRight_eq_div_pow]
  rw [hshift, hshift, Handshake.succIndex_toNat]
  omega

theorem Numbered.takesNext (h : t.Numbered index) (htakes : TakesNext t t') :
    t'.Numbered index where
  next := by
    rcases htakes.next with hnext | hnext
    · rw [hnext]
      exact h.next
    · rw [hnext, succIndex_shiftRight]
      exact h.next
  owns := by
    intro idx howns
    rcases htakes.owns idx howns with hold | rfl
    · exact h.owns idx hold
    · rw [succIndex_shiftRight]
      exact h.next

/-- **Any number of steps.** -/
theorem Numbered.evolves (h : t.Numbered index) (hevolves : Evolves ε t t') :
    t'.Numbered index := by
  induction hevolves with
  | refl => exact h
  | tail _ hlast ih =>
    cases hlast with
    | step hstep => exact ih.takesNext hstep.turn.takesNext
    | count => exact ⟨ih.next, ih.owns⟩

/-- A new tunnel has no local index yet. -/
theorem numbered_newWithAmnezia3 {staticPrivate peerStaticPublic : Key} {presharedKey : Option Key}
    {persistentKeepalive : Option UInt16} {rateLimiter : Option RateLimiter}
    {amnezia : Amnezia3Config} {e e' : ε} (hindex : index.toNat < 2 ^ 24)
    (h : newWithAmnezia3 staticPrivate peerStaticPublic presharedKey persistentKeepalive index
      rateLimiter amnezia e = (.ok t, e')) : t.Numbered index := by
  obtain ⟨-, rfl⟩ := newWithAmnezia3_eq_ok h
  constructor
  · show (index <<< 8) >>> 8 = index
    apply UInt32.toNat_inj.mp
    simp only [UInt32.toNat_shiftRight, UInt32.toNat_shiftLeft, Nat.shiftRight_eq_div_pow,
      Nat.shiftLeft_eq]
    show index.toNat * 2 ^ 8 % 2 ^ 32 / 2 ^ 8 = index.toNat
    omega
  · rintro idx (howns | ⟨i, session, hs, -⟩)
    · cases howns with
      | current hs => cases hs
      | previous hs => cases hs
      | message hm => cases hm
    · cases hs

end Tunn

/-! ## The indices of the peers -/

namespace Device

variable [IpTable] {d d' d'' : Device C} {n n' n'' : Nat} {ref : PeerRef} {p : Peer C}

/-- The indices of all peers there were. -/
def indices (d : Device C) : List UInt32 := d.arcs.map Peer.index

/-- **The invariant**, after `n` indices were used up. -/
structure Indexed (n : Nat) (d : Device C) : Prop where
  register : d.nextIndex.At n
  ref_lt : ∀ ref, d.InDevice ref → ref < d.arcs.length
  key_inj : ∀ k k' ref, d.peers.lookup k = some ref → d.peers.lookup k' = some ref → k = k'
  byIdx : Directs d.peersByIdx d.InDevice d.indices
  byIp : ∀ net ref, d.peersByIp.lookup net = some ref → d.InDevice ref
  issued : ∀ idx ∈ d.indices, ∃ i < n, idx = d.nextIndex.index i
  nodup : d.indices.Nodup
  tunnels : ∀ p ∈ d.arcs, p.tunnel.Numbered p.index

/-- What a peer got an index for between two states is a new one. -/
structure Renumbered (n n' : Nat) (d d' : Device C) : Prop where
  le : n ≤ n'
  index : d'.nextIndex.index = d.nextIndex.index
  new : ∀ (ref : PeerRef) (idx : UInt32), d'.indices[ref]? = some idx →
    d.indices[ref]? = some idx ∨ ∃ i, n ≤ i ∧ i < n' ∧ idx = d.nextIndex.index i

theorem Renumbered.of_indices (hindices : d'.indices = d.indices)
    (hindex : d'.nextIndex.index = d.nextIndex.index) (hle : n ≤ n') : Renumbered n n' d d' :=
  ⟨hle, hindex, fun _ _ hidx => .inl (hindices ▸ hidx)⟩

theorem Renumbered.trans (h : Renumbered n n' d d') (h' : Renumbered n' n'' d' d'') :
    Renumbered n n'' d d'' where
  le := h.le.trans h'.le
  index := h'.index.trans h.index
  new := by
    intro ref idx hidx
    have hle := h.le
    have hle' := h'.le
    rcases h'.new ref idx hidx with hidx | ⟨i, hge, hlt, rfl⟩
    · rcases h.new ref idx hidx with hidx | ⟨i, hge, hlt, rfl⟩
      · exact .inl hidx
      · exact .inr ⟨i, hge, by omega, rfl⟩
    · exact .inr ⟨i, by omega, hlt, by rw [h.index]⟩

theorem indexed_new {register : IndexLfsr} (h : register.Seeded) (mtu : Nat) :
    Indexed 0 (Device.new mtu register : Device C) := by
  have hnone (ref : PeerRef) : ¬ (Device.new mtu register : Device C).InDevice ref := by
    rintro ⟨k, hk⟩
    cases hk
  refine ⟨h.at_zero, fun ref href => absurd href (hnone ref), ?_, .empty _ hnone, ?_, ?_,
    List.nodup_nil, ?_⟩
  · intro k k' ref hk
    cases hk
  · intro net ref hnet
    cases (AllowedIps.lookup_new net).symm.trans hnet
  · intro idx hidx
    cases hidx
  · intro p hp
    cases hp

/-! ## Steps that leave the tables alone -/

theorem map_index_of_kept {arcs arcs' : List (Peer C)} (h : List.Forall₂ (Peer.Kept ε) arcs arcs') :
    arcs'.map Peer.index = arcs.map Peer.index := by
  induction h with
  | nil => rfl
  | cons hp _ ih => rw [List.map_cons, List.map_cons, hp.index, ih]

theorem Indexed.carried (h : Indexed n d) (hcarried : Carried ε d d') :
    Indexed n d' ∧ Renumbered n n d d' := by
  have hindices : d'.indices = d.indices := map_index_of_kept hcarried.arcs
  have hin (ref : PeerRef) : d'.InDevice ref ↔ d.InDevice ref := by
    rw [InDevice, InDevice, hcarried.peers]
  refine ⟨⟨?_, ?_, ?_, ?_, ?_, ?_, ?_, ?_⟩, ?_⟩
  · exact hcarried.nextIndex ▸ h.register
  · intro ref href
    rw [← hcarried.arcs.length_eq]
    exact h.ref_lt ref ((hin ref).mp href)
  · rw [hcarried.peers]
    exact h.key_inj
  · rw [hcarried.peersByIdx, hindices]
    exact h.byIdx.congr hin
  · intro net ref hnet
    rw [hcarried.peersByIp] at hnet
    exact (hin ref).mpr (h.byIp net ref hnet)
  · rw [hindices, hcarried.nextIndex]
    exact h.issued
  · rw [hindices]
    exact h.nodup
  · refine forall₂_forall_mem ?_ hcarried.arcs h.tunnels
    intro p p' hkept hnumbered
    rw [hkept.index]
    exact hnumbered.evolves hkept.tunnel
  · exact .of_indices hindices (by rw [hcarried.nextIndex]) le_rfl

/-! ## Peers that leave -/

theorem indices_modify (arcs : List (Peer C)) (ref : PeerRef) :
    (arcs.modify ref Peer.shutdownEndpoint).map Peer.index = arcs.map Peer.index := by
  apply List.ext_getElem?
  intro i
  rw [List.getElem?_map, List.getElem?_map, List.getElem?_modify]
  split_ifs
  · cases arcs[i]? <;> rfl
  · cases arcs[i]? <;> rfl

theorem Indexed.removePeer (h : Indexed n d) (pubKey : Key) : Indexed n (d.removePeer pubKey) := by
  unfold Device.removePeer
  cases hkey : d.peers.lookup pubKey with
  | none => exact h
  | some peer =>
    have hpeers := lookup_erase_iff h.key_inj hkey
    have hin (ref : PeerRef) : (∃ k, (d.peers.erase pubKey).lookup k = some ref) ↔
        d.InDevice ref ∧ ref ≠ peer := by
      simp only [hpeers, InDevice, exists_and_right]
    obtain ⟨p, hp⟩ : ∃ p, d.arcs[peer]? = some p :=
      ⟨_, List.getElem?_eq_getElem (h.ref_lt peer ⟨pubKey, hkey⟩)⟩
    have hname : d.indices[peer]? = some p.index := by
      rw [indices, List.getElem?_map, hp]
      rfl
    have hindices := indices_modify d.arcs peer
    refine ⟨h.register, ?_, ?_, ?_, ?_, ?_, ?_, ?_⟩
    · intro ref href
      change ref < (d.arcs.modify peer _).length
      rw [List.length_modify]
      exact h.ref_lt ref ((hin ref).mp href).1
    · intro k k' ref hk hk'
      exact h.key_inj k k' ref ((hpeers k ref).mp hk).1 ((hpeers k' ref).mp hk').1
    · simp only [hp, indices, hindices]
      exact (h.byIdx.remove h.nodup hname).congr hin
    · intro net ref hnet
      obtain ⟨hentry, hother⟩ := (lookup_remove_iff _ peer net ref).mp hnet
      exact (hin ref).mpr ⟨h.byIp net ref hentry, hother⟩
    · simp only [indices, hindices]
      exact h.issued
    · simp only [indices, hindices]
      exact h.nodup
    · refine forall₂_forall_mem (R := fun p p' => p'.tunnel = p.tunnel ∧ p'.index = p.index) ?_
        (forall₂_modify (fun _ => ⟨rfl, rfl⟩) (fun _ => ⟨rfl, rfl⟩) d.arcs peer) h.tunnels
      rintro p p' ⟨htunnel, hindex⟩ hnumbered
      rw [htunnel, hindex]
      exact hnumbered

theorem indices_removePeer (d : Device C) (pubKey : Key) :
    (d.removePeer pubKey).indices = d.indices := by
  unfold removePeer
  split
  · rfl
  · exact indices_modify d.arcs _

theorem nextIndex_removePeer (d : Device C) (pubKey : Key) :
    (d.removePeer pubKey).nextIndex.index = d.nextIndex.index := by
  unfold removePeer
  split <;> rfl

theorem Indexed.clearPeers (h : Indexed n d) : Indexed n d.clearPeers := by
  have hnone (ref : PeerRef) : ¬ d.clearPeers.InDevice ref := by
    rintro ⟨k, hk⟩
    cases hk
  refine ⟨h.register, fun ref href => absurd href (hnone ref), ?_, .empty _ hnone, ?_, h.issued,
    h.nodup, h.tunnels⟩
  · intro k k' ref hk
    cases hk
  · intro net ref hnet
    cases (AllowedIps.lookup_new net).symm.trans hnet

/-! ## Peers that get an index -/

/-- An index that was drawn is not that of a peer. -/
theorem Indexed.fresh (h : Indexed n d) : d.nextIndex.index n ∉ d.indices := by
  intro hmem
  obtain ⟨i, hi, heq⟩ := h.issued _ hmem
  have hsame := h.register.index_inj le_rfl hi.le heq
  omega

/-- An index is used up. -/
theorem Indexed.draw (h : Indexed n d) (hreturns : d.nextIndex.next.1.Returns) :
    d.nextIndex.next.1 = .ok (d.nextIndex.index n) ∧
      Indexed (n + 1) { d with nextIndex := d.nextIndex.next.2 } ∧
      Renumbered n (n + 1) d { d with nextIndex := d.nextIndex.next.2 } := by
  obtain ⟨hnext, hat⟩ := h.register.next hreturns
  rw [hnext]
  refine ⟨rfl, ⟨hat, h.ref_lt, h.key_inj, h.byIdx, h.byIp, ?_, h.nodup, h.tunnels⟩,
    .of_indices rfl rfl (Nat.le_succ n)⟩
  intro idx hidx
  obtain ⟨i, hi, heq⟩ := h.issued idx hidx
  exact ⟨i, Nat.lt_succ_of_lt hi, heq⟩

/-- A peer is added. -/
theorem Indexed.added (h : Indexed n d) (hreturns : d.nextIndex.next.1.Returns) {pubKey : Key}
    (hkey : d.peers.lookup pubKey = none) {peer : Peer C}
    (hindex : peer.index = d.nextIndex.index n) (hnumbered : peer.tunnel.Numbered peer.index)
    {table : AllowedIps PeerRef}
    (htable : ∀ net ref, table.lookup net = some ref →
      ref = d.arcs.length ∨ d.peersByIp.lookup net = some ref)
    (hd' : d' = { d with
      nextIndex := d.nextIndex.next.2
      arcs := d.arcs ++ [peer]
      peers := d.peers.insert pubKey d.arcs.length
      peersByIdx := d.peersByIdx.insert peer.index d.arcs.length
      peersByIp := table }) :
    Indexed (n + 1) d' ∧ Renumbered n (n + 1) d d' := by
  obtain ⟨-, hdrawn, hrenumbered⟩ := h.draw hreturns
  have hin (ref : PeerRef) : d'.InDevice ref ↔ ref = d.arcs.length ∨ d.InDevice ref := by
    rw [InDevice, hd', inDevice_insert hkey]
  have hlength : d.indices.length = d.arcs.length := List.length_map ..
  have hindices : d'.indices = d.indices ++ [peer.index] := by
    rw [indices, hd', List.map_append]
    rfl
  have hnew : peer.index ∉ d.indices := hindex ▸ h.fresh
  have hsame : d'.nextIndex.index = d.nextIndex.index := by
    rw [hd']
    exact hrenumbered.index
  refine ⟨⟨?_, ?_, ?_, ?_, ?_, ?_, ?_, ?_⟩, Nat.le_succ n, hsame, ?_⟩
  · rw [hd']
    exact hdrawn.register
  · intro ref href
    rw [hd', List.length_append, List.length_singleton]
    rcases (hin ref).mp href with rfl | href
    · exact Nat.lt_succ_self _
    · exact Nat.lt_succ_of_lt (h.ref_lt ref href)
  · intro k k' ref hk hk'
    rw [hd'] at hk hk'
    exact key_inj_insert h.key_inj (fun k hk => Nat.lt_irrefl _ (h.ref_lt _ ⟨k, hk⟩)) hk hk'
  · have hadd := h.byIdx.add (fun ref href => hlength.symm ▸ h.ref_lt ref href) hnew
    rw [hlength] at hadd
    rw [hindices, hd']
    exact hadd.congr fun ref => by rw [← hin ref, hd']
  · intro net ref hnet
    rw [hd'] at hnet
    rcases htable net ref hnet with rfl | hentry
    · exact (hin _).mpr (.inl rfl)
    · exact (hin ref).mpr (.inr (h.byIp net ref hentry))
  · intro idx hidx
    rw [hindices, List.mem_append, List.mem_singleton] at hidx
    rw [hsame]
    rcases hidx with hidx | rfl
    · obtain ⟨i, hi, heq⟩ := h.issued idx hidx
      exact ⟨i, Nat.lt_succ_of_lt hi, heq⟩
    · exact ⟨n, Nat.lt_succ_self n, hindex⟩
  · rw [hindices, ← List.concat_eq_append]
    exact h.nodup.concat hnew
  · intro p hp
    rw [hd', List.mem_append, List.mem_singleton] at hp
    rcases hp with hp | rfl
    · exact h.tunnels p hp
    · exact hnumbered
  · intro ref idx hidx
    rw [hindices] at hidx
    rcases Nat.lt_or_ge ref d.indices.length with hlt | hge
    · rw [List.getElem?_append_left hlt] at hidx
      exact .inl hidx
    · rw [List.getElem?_append_right hge] at hidx
      have hmem := List.mem_of_getElem? hidx
      rw [List.mem_singleton] at hmem
      exact .inr ⟨n, le_rfl, Nat.lt_succ_self n, hmem.trans hindex⟩

/-- A peer gets another tunnel, with another index. -/
theorem Indexed.rebuilt (h : Indexed n d) (hreturns : d.nextIndex.next.1.Returns)
    (href : d.InDevice ref) (hp : d.arcs[ref]? = some p) (hrebuilds : RebuildsTo ε d ref p d') :
    Indexed (n + 1) d' ∧ Renumbered n (n + 1) d d' := by
  obtain ⟨hindex, hdrawn, hrenumbered⟩ := h.draw hreturns
  cases hrebuilds with
  | refused => exact ⟨hdrawn, hrenumbered⟩
  | @made index hindex' _ _ _ tunnel _ _ hmade =>
    obtain rfl : d.nextIndex.index n = index := by
      rw [hindex] at hindex'
      exact Except.ok.inj hindex'
    have hname : d.indices[ref]? = some p.index := by
      rw [indices, List.getElem?_map, hp]
      rfl
    have hindices : (d.arcs.set ref (p.setTunnel tunnel (d.nextIndex.index n))).map Peer.index =
        d.indices.set ref (d.nextIndex.index n) := List.map_set ..
    have hnumbered := Tunn.numbered_newWithAmnezia3 (h.register.index_lt n) hmade
    refine ⟨⟨hdrawn.register, ?_, h.key_inj, ?_, h.byIp, ?_, ?_, ?_⟩, Nat.le_succ n,
      hrenumbered.index, ?_⟩
    · intro ref' href'
      change ref' < (d.arcs.set ref _).length
      rw [List.length_set]
      exact h.ref_lt ref' href'
    · rw [indices, hindices]
      exact h.byIdx.rename h.nodup href hname h.fresh
    · intro idx hidx
      rw [indices, hindices] at hidx
      change ∃ i < n + 1, idx = d.nextIndex.next.2.index i
      rw [hrenumbered.index]
      rcases List.mem_or_eq_of_mem_set hidx with hidx | rfl
      · obtain ⟨i, hi, heq⟩ := h.issued idx hidx
        exact ⟨i, Nat.lt_succ_of_lt hi, heq⟩
      · exact ⟨n, Nat.lt_succ_self n, rfl⟩
    · rw [indices, hindices]
      exact h.nodup.set h.fresh
    · intro p' hp'
      rcases List.mem_or_eq_of_mem_set hp' with hp' | rfl
      · exact h.tunnels p' hp'
      · exact hnumbered
    · intro ref' idx hidx
      rw [indices, hindices] at hidx
      by_cases hsame : ref = ref'
      · subst hsame
        have hlt : ref < d.indices.length := (List.getElem?_eq_some_iff.mp hname).1
        rw [List.getElem?_set_self hlt, Option.some.injEq] at hidx
        exact .inr ⟨n, le_rfl, Nat.lt_succ_self n, hidx.symm⟩
      · rw [List.getElem?_set_ne hsame] at hidx
        exact .inl hidx

theorem RebuildsTo.peers (h : RebuildsTo ε d ref p d') :
    d'.peers = d.peers ∧ d'.nextIndex = d.nextIndex.next.2 := by
  cases h with
  | refused => exact ⟨rfl, rfl⟩
  | made => exact ⟨rfl, rfl⟩

/-- **The loop** of `set_amnezia_config`: every peer in turn gets another index. -/
theorem Indexed.rebuildPeers (privateKey : Key) {entries : List (Sigma fun _ : Key => PeerRef)}
    (h : Indexed n d) (hentries : ∀ entry ∈ entries, d.InDevice entry.2)
    (hsupplies : d.nextIndex.Supplies entries.length) (e : ε) :
    ∃ n', Indexed n' (Device.rebuildPeers privateKey entries d e).2.1 ∧
      Renumbered n n' d (Device.rebuildPeers privateKey entries d e).2.1 := by
  induction entries generalizing d n e with
  | nil => exact ⟨n, h, .of_indices rfl rfl le_rfl⟩
  | cons entry entries ih =>
    obtain ⟨hreturns, hrest⟩ := hsupplies
    have href := hentries entry List.mem_cons_self
    obtain ⟨p, hp⟩ : ∃ p, d.arcs[entry.2]? = some p :=
      ⟨_, List.getElem?_eq_getElem (h.ref_lt entry.2 href)⟩
    obtain ⟨d₁, e₁, hrun, hrebuilds⟩ := rebuildPeer_rebuildsTo hp hreturns privateKey entry.1 e
    obtain ⟨hindexed, hrenumbered⟩ := h.rebuilt hreturns href hp hrebuilds
    obtain ⟨hpeers, hnext⟩ := hrebuilds.peers
    have hentries₁ : ∀ entry' ∈ entries, d₁.InDevice entry'.2 := by
      intro entry' hmem
      rw [InDevice, hpeers]
      exact hentries entry' (List.mem_cons_of_mem _ hmem)
    obtain ⟨n', hindexed', hrenumbered'⟩ := ih hindexed hentries₁ (hnext ▸ hrest) e₁
    simp only [Device.rebuildPeers, hrun]
    exact ⟨n', hindexed', hrenumbered.trans hrenumbered'⟩

/-! ## Steps -/

/-- The assertion of the register does not fire. -/
def Supplied (d : Device C) : EventLoop.Input → Prop
  | .control (.updatePeer u) => u.remove = false → d.peers.lookup u.publicKey = none →
      d.nextIndex.next.1.Returns
  | .setAmneziaConfig amnezia => d.amnezia ≠ amnezia → d.keyPair.isSome →
      d.nextIndex.Supplies d.peers.entries.length
  | _ => True

theorem Indexed.updatePeer (h : Indexed n d) {u : PeerUpdate}
    (hsupplied : d.Supplied (.control (.updatePeer u))) (e : ε) :
    ∃ n', Indexed n' (d.updatePeer u e).2.1 ∧ Renumbered n n' d (d.updatePeer u e).2.1 := by
  have hupdates := updatePeer_updatesTo d u e
  generalize (d.updatePeer u e).2.1 = d' at hupdates
  cases hupdates with
  | removed =>
    exact ⟨n, h.removePeer u.publicKey,
      .of_indices (indices_removePeer d u.publicKey) (nextIndex_removePeer d u.publicKey) le_rfl⟩
  | present => exact ⟨n, h, .of_indices rfl rfl le_rfl⟩
  | refused hremove hkey => exact ⟨n + 1, (h.draw (hsupplied hremove hkey)).2⟩
  | added hremove hkey _ hindex hmade hpeer _ htable =>
    have hreturns := hsupplied hremove hkey
    rw [(h.draw hreturns).1] at hindex
    cases hindex
    have hnumbered := Tunn.numbered_newWithAmnezia3 (h.register.index_lt n) hmade
    exact ⟨n + 1, h.added hreturns hkey hpeer (hpeer ▸ hnumbered) htable rfl⟩

theorem Indexed.setAmneziaConfig (h : Indexed n d) {amnezia : Amnezia3Config}
    (hsupplied : d.Supplied (.setAmneziaConfig amnezia)) (e : ε) :
    ∃ n', Indexed n' (d.setAmneziaConfig amnezia e).2.1 ∧
      Renumbered n n' d (d.setAmneziaConfig amnezia e).2.1 := by
  unfold Device.setAmneziaConfig
  split_ifs with hsame
  · exact ⟨n, h, .of_indices rfl rfl le_rfl⟩
  · have hstored : Indexed n { d with amnezia } :=
      ⟨h.register, h.ref_lt, h.key_inj, h.byIdx, h.byIp, h.issued, h.nodup, h.tunnels⟩
    simp only
    split
    · exact ⟨n, hstored, .of_indices rfl rfl le_rfl⟩
    · rename_i privateKey publicKey hpair
      have hsupplies := hsupplied hsame (by rw [show d.keyPair = _ from hpair]; rfl)
      obtain ⟨n', hindexed, hrenumbered⟩ := hstored.rebuildPeers privateKey
        (fun entry hmem => ⟨entry.1, AList.mem_lookup_iff.mpr (Env.mem_walk.mp hmem)⟩)
        (by rwa [Env.length_walk e]) e
      exact ⟨n', hindexed, hrenumbered.le, hrenumbered.index, hrenumbered.new⟩

/-- **One step** keeps the invariant, and gives out new indices only. -/
theorem Indexed.change {input : EventLoop.Input} (h : Indexed n d) (hchange : Change ε d input d')
    (hsupplied : d.Supplied input) : ∃ n', Indexed n' d' ∧ Renumbered n n' d d' := by
  cases hchange with
  | carried hcarried => exact ⟨n, h.carried hcarried⟩
  | removed pubKey =>
    exact ⟨n, h.removePeer pubKey,
      .of_indices (indices_removePeer d pubKey) (nextIndex_removePeer d pubKey) le_rfl⟩
  | cleared => exact ⟨n, h.clearPeers, .of_indices rfl rfl le_rfl⟩
  | updated u e => exact h.updatePeer hsupplied e
  | configured amnezia e => exact h.setAmneziaConfig hsupplied e

end Device

/-! ## Runs -/

/-- The local index a packet is addressed to; an initiation comes before there is one. -/
def Packet.receiver : Packet → Option UInt32
  | .handshakeInit _ => none
  | .handshakeResponse p => some p.receiverIdx
  | .packetCookieReply p => some p.receiverIdx
  | .packetData p => some p.receiverIdx

namespace EventLoop

variable [IpTable] {s s' : EventLoop C} {n : Nat} {d : Device C} {idx : UInt32}

/-- Any number of steps in which the assertion of the register does not fire. -/
def SuppliedRun (ε : Type) [Env ε] : EventLoop C → EventLoop C → Prop :=
  Relation.ReflTransGen fun s s' =>
    ∃ input effects, Step ε s input effects s' ∧ s.device.Supplied input

theorem SuppliedRun.indexed (hrun : SuppliedRun ε s s') (h : s.device.Indexed n) :
    ∃ n', s'.device.Indexed n' ∧ Device.Renumbered n n' s.device s'.device := by
  induction hrun with
  | refl => exact ⟨n, h, .of_indices rfl rfl le_rfl⟩
  | tail _ hstep ih =>
    obtain ⟨input, effects, hstep, hsupplied⟩ := hstep
    obtain ⟨n', h', hrenumbered⟩ := ih
    obtain ⟨n'', h'', hrenumbered'⟩ := h'.change hstep.change hsupplied
    exact ⟨n'', h'', hrenumbered.trans hrenumbered'⟩

theorem indices_getElem? {ref : PeerRef} :
    d.indices[ref]? = some idx ↔ ∃ p, d.arcs[ref]? = some p ∧ p.index = idx := by
  rw [Device.indices, List.getElem?_map, Option.map_eq_some_iff]

/-- The index of a peer is found in the table by the packets for its tunnel. -/
theorem peerFor_of_receiver {packet : Packet} (h : packet.receiver = some idx)
    (privateKey publicKey : Key) :
    d.peerFor privateKey publicKey packet = d.peersByIdx.lookup (idx >>> 8) := by
  cases packet with
  | handshakeInit p => cases h
  | handshakeResponse p =>
    cases h
    rfl
  | packetCookieReply p =>
    cases h
    rfl
  | packetData p =>
    cases h
    rfl

/-- An index that changes is one that no peer had before. -/
theorem index_fresh {s₀ : EventLoop C} (h : s₀.device.Indexed n) (hrun : SuppliedRun ε s₀ s)
    {input : Input} {effects : List Effect} (hstep : Step ε s input effects s')
    (hsupplied : s.device.Supplied input) {ref ref₀ : PeerRef} {p' p₀ : Peer C}
    (hp' : s'.device.arcs[ref]? = some p')
    (hchanged : ∀ p, s.device.arcs[ref]? = some p → p.index ≠ p'.index)
    (hp₀ : s₀.device.arcs[ref₀]? = some p₀) : p₀.index ≠ p'.index := by
  obtain ⟨n₁, h₁, hrenumbered⟩ := hrun.indexed h
  obtain ⟨n₂, h₂, hrenumbered₁⟩ := h₁.change hstep.change hsupplied
  intro heq
  -- it was used before the run, and it was not
  obtain ⟨j, hj, hold⟩ := h.issued p₀.index
    (List.mem_of_getElem? (indices_getElem?.mpr ⟨p₀, hp₀, rfl⟩))
  rcases hrenumbered₁.new ref p'.index (indices_getElem?.mpr ⟨p', hp', rfl⟩) with
    hkept | ⟨i, hge, hlt, hnew⟩
  · obtain ⟨p, hp, hsame⟩ := indices_getElem?.mp hkept
    exact hchanged p hp hsame
  · have hle := hrenumbered.le
    rw [← heq, hold, ← hrenumbered.index, ← hrenumbered₁.index] at hnew
    have hsame := h₂.register.index_inj (by omega) (by omega) hnew
    omega

/-- **Dispatch by index is sound and complete.**  In every run of a new device in which the
assertion of the register does not fire: `peers_by_idx` leads from the index of each peer in the
device to this peer, and from nothing else to anything; indices have 24 bits and are all
different, and an index that a peer gets was never that of a peer before; the routes lead to
peers in the device; and the local indices of a tunnel begin with the index of its peer, so that
a packet for one of them is handed to this peer, and no other peer has it. -/
theorem index_dispatch {register : IndexLfsr} (hseeded : register.Seeded) {mtu : Nat}
    {useConnectedSocket : Bool} (hrun : SuppliedRun ε (.new mtu register useConnectedSocket) s) :
    (∀ idx ref, s.device.peersByIdx.lookup idx = some ref ↔
        s.device.InDevice ref ∧ ∃ p, s.device.arcs[ref]? = some p ∧ p.index = idx) ∧
      (∀ (ref : PeerRef) (p : Peer C), s.device.arcs[ref]? = some p → p.index.toNat < 2 ^ 24 ∧
        ∀ (ref' : PeerRef) (p' : Peer C), s.device.arcs[ref']? = some p' → p'.index = p.index →
          ref' = ref) ∧
      (∀ s₀, SuppliedRun ε (.new mtu register useConnectedSocket) s₀ → SuppliedRun ε s₀ s →
        ∀ input effects s', Step ε s input effects s' → s.device.Supplied input →
        ∀ (ref : PeerRef) (p' : Peer C), s'.device.arcs[ref]? = some p' →
        (∀ p, s.device.arcs[ref]? = some p → p.index ≠ p'.index) →
        ∀ (ref₀ : PeerRef) (p₀ : Peer C), s₀.device.arcs[ref₀]? = some p₀ → p₀.index ≠ p'.index) ∧
      (∀ net ref, s.device.peersByIp.lookup net = some ref → s.device.InDevice ref) ∧
      (∀ (ref : PeerRef) (p : Peer C) (idx : UInt32), s.device.arcs[ref]? = some p →
        p.tunnel.Owns idx → idx >>> 8 = p.index) ∧
      ∀ (ref : PeerRef) (p : Peer C) (idx : UInt32), s.device.InDevice ref →
        s.device.arcs[ref]? = some p → p.tunnel.Owns idx →
        (∀ privateKey publicKey packet, packet.receiver = some idx →
          s.device.peerFor privateKey publicKey packet = some ref) ∧
        ∀ (ref' : PeerRef) (p' : Peer C), s.device.arcs[ref']? = some p' → p'.tunnel.Owns idx →
          ref' = ref := by
  have hstart : (EventLoop.new mtu register useConnectedSocket : EventLoop C).device.Indexed 0 :=
    Device.indexed_new hseeded mtu
  obtain ⟨n, h, hrenumbered⟩ := hrun.indexed hstart
  have hunique (ref ref' : PeerRef) (p p' : Peer C) (hp : s.device.arcs[ref]? = some p)
      (hp' : s.device.arcs[ref']? = some p') (hsame : p'.index = p.index) : ref' = ref := by
    have hidx' := indices_getElem?.mpr ⟨p', hp', hsame⟩
    have hlt : ref' < s.device.indices.length := (List.getElem?_eq_some_iff.mp hidx').1
    exact (List.getElem?_inj hlt h.nodup).mp (hidx'.trans (indices_getElem?.mpr ⟨p, hp, rfl⟩).symm)
  have howns (ref : PeerRef) (p : Peer C) (idx : UInt32) (hp : s.device.arcs[ref]? = some p)
      (hidx : p.tunnel.Owns idx) : idx >>> 8 = p.index :=
    (h.tunnels p (List.mem_of_getElem? hp)).owns idx hidx
  have hdirects (idx : UInt32) (ref : PeerRef) : s.device.peersByIdx.lookup idx = some ref ↔
      s.device.InDevice ref ∧ ∃ p, s.device.arcs[ref]? = some p ∧ p.index = idx := by
    rw [h.byIdx idx ref, indices_getElem?]
  refine ⟨hdirects, ?_, ?_, h.byIp, howns, ?_⟩
  · intro ref p hp
    obtain ⟨i, -, hissued⟩ := h.issued p.index
      (List.mem_of_getElem? (indices_getElem?.mpr ⟨p, hp, rfl⟩))
    exact ⟨hissued ▸ h.register.index_lt i, fun ref' p' hp' => hunique ref ref' p p' hp hp'⟩
  · intro s₀ hbefore hbetween input effects s' hstep hsupplied ref p' hp' hchanged ref₀ p₀ hp₀
    obtain ⟨n₀, h₀, -⟩ := hbefore.indexed hstart
    exact index_fresh h₀ hbetween hstep hsupplied hp' hchanged hp₀
  · intro ref p idx href hp hidx
    constructor
    · intro privateKey publicKey packet hreceiver
      rw [peerFor_of_receiver hreceiver, howns ref p idx hp hidx]
      exact (hdirects p.index ref).mpr ⟨href, p, hp, rfl⟩
    · intro ref' p' hp' hidx'
      refine hunique ref ref' p p' hp hp' ?_
      rw [← howns ref' p' idx hp' hidx', howns ref p idx hp hidx]

end EventLoop

namespace EventLoop

/-- A transport packet for the session that the peer of `greetedLoop` has. -/
theorem index_dispatch_greeted :
    SuppliedRun StillMachine (newLoop false) greetedLoop ∧
      (∃ p, greetedLoop.device.arcs[0]? = some p ∧ p.tunnel.Owns 257) ∧
      ∀ privateKey publicKey counter payload, greetedLoop.device.peerFor privateKey publicKey
        (.packetData ⟨257, counter, payload⟩) = some 0 := by
  have hseeded : IndexLfsr.Seeded ⟨1, 1, 1⟩ :=
    ⟨⟨by decide, 1, rfl⟩, rfl, by decide, 1, rfl⟩
  have hgreet : ∃ effects e', (pairedLoop false).udpHandler Tunn.plainInitiation homeAddr true
      ({} : StillMachine) = .ok (effects, greetedLoop, e') :=
    udpHandler_eq_afterDatagram (by decide +kernel)
  obtain ⟨effects, e', hgreet⟩ := hgreet
  have hkey : Step StillMachine (newLoop false) (.setKey zeroKey) [] (keyedLoop false) := .setKey
  have hadd : Step StillMachine (keyedLoop false)
      (.control (.updatePeer { publicKey := zeroKey })) [] (pairedLoop false) := .control
  have hrun : SuppliedRun StillMachine (newLoop false) greetedLoop :=
    ((Relation.ReflTransGen.single ⟨_, _, hkey, trivial⟩).tail
      ⟨_, _, hadd, fun _ _ => ⟨1, rfl⟩⟩).tail ⟨_, _, .anonymous hgreet, trivial⟩
  have htest : greetedLoop.device.arcs[0]?.any (fun p => (p.tunnel.sessions (slotOf 257)).any
      fun session => session.receivingIndex == 257) = true := by decide +kernel
  obtain ⟨p, hp, htest⟩ := (Option.any_eq_true _ _).mp htest
  obtain ⟨session, hsession, hindex⟩ := (Option.any_eq_true _ _).mp htest
  have howns : p.tunnel.Owns 257 := .inr ⟨_, session, hsession, by simpa using hindex⟩
  have hin : greetedLoop.device.InDevice 0 := ⟨zeroKey, by decide +kernel⟩
  obtain ⟨-, -, -, -, -, hdispatch⟩ := index_dispatch hseeded hrun
  refine ⟨hrun, ⟨p, hp, howns⟩, ?_⟩
  intro privateKey publicKey counter payload
  exact (hdispatch 0 p 257 hin hp howns).1 privateKey publicKey _ rfl

end EventLoop
