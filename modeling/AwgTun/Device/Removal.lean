import AwgTun.Device.Routing
import AwgTun.Device.Roaming

/-!
# Removed peers

A peer is found through three tables, and through the handler of a connected socket, which has
captured a pointer of its own.  `remove_peer` takes the peer out of the tables and shuts its
socket down; `clear_peers` empties the tables.

* `EventLoop.Attached` — the invariant: whatever leads to a peer leads to one in the device.
* `EventLoop.CutOff` — what a step does for the world is done by peers in the device, and after
  it no handler is left for any other.
* `EventLoop.ClosesSockets` — the condition: `clear_peers` finds no connected socket.
* `EventLoop.removed_peer_cut_off_iff` — in a run under this condition a step is cut off from
  removed peers exactly if it meets the condition too.
* `EventLoop.cleared_peer_served` — a peer that was cleared and is still served.
-/

open Control Bytes

variable {C : Crypto} {ε : Type} [Env ε]

namespace EventLoop

variable [IpTable] {s s' : EventLoop C}

/-- Every way to a peer leads to one that is in the device. -/
structure Attached (s : EventLoop C) : Prop where
  ref_lt : ∀ ref, s.device.InDevice ref → ref < s.device.arcs.length
  key_inj : ∀ k k' ref, s.device.peers.lookup k = some ref → s.device.peers.lookup k' = some ref →
    k = k'
  byIdx : ∀ idx ref, s.device.peersByIdx.lookup idx = some ref →
    s.device.InDevice ref ∧ ∃ p, s.device.arcs[ref]? = some p ∧ p.index = idx
  byIp : ∀ net ref, s.device.peersByIp.lookup net = some ref → s.device.InDevice ref
  conn : ∀ (ref : PeerRef) (p : Peer C) (c : Conn), s.device.arcs[ref]? = some p →
    p.endpoint.conn = some c →
      s.device.InDevice ref ∧ ∃ handler, s.queue[c]? = some handler ∧ handler.peer = ref

/-- A device without peers, if no socket is connected. -/
theorem attached_clearPeers (hnone : ∀ (ref : PeerRef) (p : Peer C) (c : Conn),
      s.device.arcs[ref]? = some p → p.endpoint.conn ≠ some c) :
    Attached { s with device := s.device.clearPeers } := by
  refine ⟨?_, ?_, ?_, ?_, ?_⟩
  · rintro ref ⟨k, hk⟩
    cases hk
  · intro k k' ref hk
    cases hk
  · intro idx ref hidx
    cases hidx
  · intro net ref hnet
    cases (AllowedIps.lookup_new net).symm.trans hnet
  · intro ref p c hp hconn
    exact absurd hconn (hnone ref p c hp)

theorem attached_new (mtu : Nat) (nextIndex : IndexLfsr) (useConnectedSocket : Bool) :
    Attached (C := C) (.new mtu nextIndex useConnectedSocket) := by
  refine attached_clearPeers (s := .new mtu nextIndex useConnectedSocket) ?_
  intro ref p c hp
  simp [EventLoop.new, Device.new] at hp

/-! ## Steps that leave the tables alone -/

/-- Serving the peers keeps the invariant. -/
theorem Attached.served {d : Device C} (h : s.Attached) (hserved : Device.Served ε s.device d) :
    Attached { s with device := d } := by
  have hin (ref : PeerRef) : d.InDevice ref ↔ s.device.InDevice ref := by
    rw [Device.InDevice, Device.InDevice, hserved.peers]
  refine ⟨?_, ?_, ?_, ?_, ?_⟩
  · intro ref href
    exact hserved.arcs.length_eq ▸ h.ref_lt ref ((hin ref).mp href)
  · intro k k' ref hk hk'
    change d.peers.lookup k = some ref at hk
    change d.peers.lookup k' = some ref at hk'
    rw [hserved.peers] at hk hk'
    exact h.key_inj k k' ref hk hk'
  · intro idx ref hidx
    change d.peersByIdx.lookup idx = some ref at hidx
    rw [hserved.peersByIdx] at hidx
    obtain ⟨href, p, hp, rfl⟩ := h.byIdx idx ref hidx
    obtain ⟨p', hp', hpeer⟩ := forall₂_getElem?_left hserved.arcs hp
    exact ⟨(hin ref).mpr href, p', hp', hpeer.index⟩
  · intro net ref hnet
    change d.peersByIp.lookup net = some ref at hnet
    rw [hserved.peersByIp] at hnet
    exact (hin ref).mpr (h.byIp net ref hnet)
  · intro ref p' c hp' hconn
    obtain ⟨p, hp, hpeer⟩ := forall₂_getElem? hserved.arcs hp'
    rcases hpeer.conn with hsame | hnone
    · obtain ⟨href, hqueue⟩ := h.conn ref p c hp (hsame ▸ hconn)
      exact ⟨(hin ref).mpr href, hqueue⟩
    · rw [hnone] at hconn
      cases hconn

/-- A socket is connected to a peer in the device. -/
theorem Attached.connectedTo {ref : PeerRef} {p : Peer C} (h : s.Attached)
    (hp : s.device.arcs[ref]? = some p) (href : s.device.InDevice ref) (addr : SocketAddr) :
    (s.connectedTo ref p addr).Attached := by
  have hlt : ref < s.device.arcs.length := (List.getElem?_eq_some_iff.mp hp).1
  refine ⟨?_, h.key_inj, ?_, h.byIp, ?_⟩
  · intro ref' href'
    change ref' < (s.device.arcs.set ref _).length
    rw [List.length_set]
    exact h.ref_lt ref' href'
  · intro idx ref' hidx
    obtain ⟨hin, p', hp', hindex⟩ := h.byIdx idx ref' hidx
    refine ⟨hin, ?_⟩
    by_cases hsame : ref = ref'
    · subst hsame
      rw [hp] at hp'
      cases hp'
      exact ⟨p.withConn _, List.getElem?_set_self hlt, hindex⟩
    · exact ⟨p', (List.getElem?_set_ne hsame).trans hp', hindex⟩
  · intro ref' p' c hp' hconn
    change (s.device.arcs.set ref (p.withConn (some s.queue.length)))[ref']? = some p' at hp'
    change s.device.InDevice ref' ∧ ∃ handler, (s.queue ++ [⟨ref, addr.ip⟩])[c]? = some handler ∧ _
    by_cases hsame : ref = ref'
    · subst hsame
      rw [List.getElem?_set_self hlt] at hp'
      cases hp'
      cases hconn
      exact ⟨href, ⟨ref, addr.ip⟩, List.getElem?_concat_length, rfl⟩
    · rw [List.getElem?_set_ne hsame] at hp'
      obtain ⟨hin, handler, hqueue, hpeer⟩ := h.conn ref' p' c hp' hconn
      have hc : c < s.queue.length := (List.getElem?_eq_some_iff.mp hqueue).1
      exact ⟨hin, handler, (List.getElem?_append_left hc).trans hqueue, hpeer⟩

/-! ## Steps that change the tables -/

theorem Attached.removePeer (h : s.Attached) (pubKey : Key) :
    Attached { s with device := s.device.removePeer pubKey } := by
  unfold Device.removePeer
  cases hkey : s.device.peers.lookup pubKey with
  | none => exact h
  | some peer =>
    have hpeers := Device.lookup_erase_iff h.key_inj hkey
    have hin (ref : PeerRef) : (∃ k, (s.device.peers.erase pubKey).lookup k = some ref) ↔
        s.device.InDevice ref ∧ ref ≠ peer := by
      simp only [hpeers, Device.InDevice, exists_and_right]
    obtain ⟨p, hp⟩ : ∃ p, s.device.arcs[peer]? = some p :=
      ⟨_, List.getElem?_eq_getElem (h.ref_lt peer ⟨pubKey, hkey⟩)⟩
    refine ⟨?_, ?_, ?_, ?_, ?_⟩
    · intro ref href
      change ref < (s.device.arcs.modify peer _).length
      rw [List.length_modify]
      exact h.ref_lt ref ((hin ref).mp href).1
    · intro k k' ref hk hk'
      exact h.key_inj k k' ref ((hpeers k ref).mp hk).1 ((hpeers k' ref).mp hk').1
    · intro idx ref hidx
      simp only [hp] at hidx
      obtain ⟨hne, hidx⟩ := (AList.lookup_erase_eq_some_iff _).mp hidx
      obtain ⟨href, p', hp', rfl⟩ := h.byIdx idx ref hidx
      have hother : ref ≠ peer := by
        rintro rfl
        rw [hp] at hp'
        cases hp'
        exact hne rfl
      refine ⟨(hin ref).mpr ⟨href, hother⟩, p', ?_, rfl⟩
      rw [List.getElem?_modify_ne _ _ hother.symm, hp']
    · intro net ref hnet
      obtain ⟨hentry, hother⟩ := (Device.lookup_remove_iff _ peer net ref).mp hnet
      exact (hin ref).mpr ⟨h.byIp net ref hentry, hother⟩
    · intro ref p' c hp' hconn
      change (s.device.arcs.modify peer Peer.shutdownEndpoint)[ref]? = some p' at hp'
      by_cases hsame : peer = ref
      · subst hsame
        rw [List.getElem?_modify_eq, hp] at hp'
        cases hp'
        cases hconn
      · rw [List.getElem?_modify_ne _ _ hsame] at hp'
        obtain ⟨href, hqueue⟩ := h.conn ref p' c hp' hconn
        exact ⟨(hin ref).mpr ⟨href, fun heq => hsame heq.symm⟩, hqueue⟩

/-- No peer has a connected socket when all are cleared. -/
def ClosesSockets (s : EventLoop C) : Input → Prop
  | .control .clearPeers => ∀ (ref : PeerRef) (p : Peer C), s.device.InDevice ref →
      s.device.arcs[ref]? = some p → p.endpoint.conn = none
  | _ => True

theorem Attached.clearPeers (h : s.Attached) (hcloses : s.ClosesSockets (.control .clearPeers)) :
    Attached { s with device := s.device.clearPeers } := by
  refine attached_clearPeers ?_
  intro ref p c hp hconn
  obtain ⟨href, -⟩ := h.conn ref p c hp hconn
  rw [hcloses ref p href hp] at hconn
  cases hconn

/-- A peer without a socket is entered in the tables. -/
theorem Attached.added {pubKey : Key} {peer : Peer C} {table : AllowedIps PeerRef}
    {nextIndex : IndexLfsr} (h : s.Attached) (hkey : s.device.peers.lookup pubKey = none)
    (htable : ∀ net ref, table.lookup net = some ref →
      ref = s.device.arcs.length ∨ s.device.peersByIp.lookup net = some ref)
    (hconn : peer.endpoint.conn = none) :
    Attached { s with device := { s.device with
      nextIndex
      arcs := s.device.arcs ++ [peer]
      peers := s.device.peers.insert pubKey s.device.arcs.length
      peersByIdx := s.device.peersByIdx.insert peer.index s.device.arcs.length
      peersByIp := table } } := by
  have hin (ref : PeerRef) :
      (∃ k, (s.device.peers.insert pubKey s.device.arcs.length).lookup k = some ref) ↔
        ref = s.device.arcs.length ∨ s.device.InDevice ref := Device.inDevice_insert hkey
  have hold {ref : PeerRef} {p : Peer C} (hp : s.device.arcs[ref]? = some p) :
      (s.device.arcs ++ [peer])[ref]? = some p :=
    (List.getElem?_append_left (List.getElem?_eq_some_iff.mp hp).1).trans hp
  refine ⟨?_, ?_, ?_, ?_, ?_⟩
  · intro ref href
    change ref < (s.device.arcs ++ [peer]).length
    rw [List.length_append, List.length_singleton]
    rcases (hin ref).mp href with rfl | href
    · exact Nat.lt_succ_self _
    · exact Nat.lt_succ_of_lt (h.ref_lt ref href)
  · intro k k' ref hk hk'
    exact Device.key_inj_insert h.key_inj (fun k hk => Nat.lt_irrefl _ (h.ref_lt _ ⟨k, hk⟩)) hk hk'
  · intro idx ref hidx
    by_cases hnew : idx = peer.index
    · subst hnew
      rw [AList.lookup_insert] at hidx
      cases hidx
      exact ⟨(hin _).mpr (.inl rfl), peer, List.getElem?_concat_length, rfl⟩
    · rw [AList.lookup_insert_ne hnew] at hidx
      obtain ⟨href, p, hp, hindex⟩ := h.byIdx idx ref hidx
      exact ⟨(hin ref).mpr (.inr href), p, hold hp, hindex⟩
  · intro net ref hnet
    rcases htable net ref hnet with rfl | hentry
    · exact (hin _).mpr (.inl rfl)
    · exact (hin ref).mpr (.inr (h.byIp net ref hentry))
  · intro ref p c hp hc
    by_cases hlt : ref < s.device.arcs.length
    · have hp' : s.device.arcs[ref]? = some p := (List.getElem?_append_left hlt).symm.trans hp
      obtain ⟨href, hqueue⟩ := h.conn ref p c hp' hc
      exact ⟨(hin ref).mpr (.inr href), hqueue⟩
    · -- beyond the old peers there is the new one, which has no socket
      have hmem : p ∈ [peer] := by
        have hp' : [peer][ref - s.device.arcs.length]? = some p :=
          (List.getElem?_append_right (Nat.le_of_not_lt hlt)).symm.trans hp
        exact List.mem_of_getElem? hp'
      rw [List.mem_singleton.mp hmem, hconn] at hc
      cases hc

end EventLoop

namespace Device

variable [IpTable]

/-- A peer is made without a connected socket. -/
theorem addPeer_arcs (d : Device C) (u : PeerUpdate) (index : UInt32) (privateKey : Key) (e : ε) :
    (d.addPeer u index privateKey e).2.1.arcs = d.arcs ∨
      ∃ peer, peer.endpoint.conn = none ∧
        (d.addPeer u index privateKey e).2.1.arcs = d.arcs ++ [peer] := by
  unfold addPeer
  simp only
  split
  · exact .inl rfl
  · rename_i tunn htunn
    split
    · exact .inl rfl
    · rename_i peer hnew
      obtain ⟨table, -, hnew⟩ := bind_eq_ok.mp hnew
      cases hnew
      exact .inr ⟨_, rfl, rfl⟩

theorem updatePeer_arcs {u : PeerUpdate} (hremove : u.remove = false) (d : Device C) (e : ε) :
    (d.updatePeer u e).2.1.arcs = d.arcs ∨
      ∃ peer, peer.endpoint.conn = none ∧ (d.updatePeer u e).2.1.arcs = d.arcs ++ [peer] := by
  unfold updatePeer
  rw [if_neg (by simp [hremove])]
  split_ifs
  · exact .inl rfl
  · simp only
    split
    · exact .inl rfl
    · exact .inl rfl
    · exact addPeer_arcs _ u _ _ e

end Device

namespace EventLoop

variable [IpTable] {s s' : EventLoop C} {handler : ConnHandler} {effects : List Effect}
  {conn : Conn} {addr : SocketAddr} {datagram : Bytes} {ref : PeerRef} {d : Device C}

theorem Attached.updatePeer (h : s.Attached) (u : PeerUpdate) (e : ε) :
    Attached { s with device := (s.device.updatePeer u e).2.1 } := by
  have hupdated := Device.updatePeer_updated s.device u e
  have harcs (hremove : u.remove = false) := Device.updatePeer_arcs hremove s.device e
  generalize (s.device.updatePeer u e).2.1 = d at hupdated harcs
  cases hupdated with
  | removed => exact h.removePeer u.publicKey
  | refused => exact ⟨h.ref_lt, h.key_inj, h.byIdx, h.byIp, h.conn⟩
  | added hadmits hallowed hmtu htable =>
    refine h.added hadmits.publicKey ?_ ?_
    · intro net ref hnet
      rw [htable] at hnet
      split_ifs at hnet
      · exact .inl (Option.some.inj hnet).symm
      · exact .inr hnet
    · rcases harcs hadmits.remove with hsame | ⟨peer', hconn, hsame⟩
      · simp at hsame
      · obtain rfl : _ = peer' := by simpa using hsame
        exact hconn

/-- A tunnel made anew is entered under its new index. -/
theorem Attached.rebuildPeer (h : s.Attached) (href : s.device.InDevice ref)
    (privateKey pubKey : Key) (e : ε) :
    Attached { s with device := (s.device.rebuildPeer privateKey pubKey ref e).2.1 } := by
  rcases Device.rebuildPeer_cases s.device privateKey pubKey ref e with
    ⟨nextIndex, heq⟩ | ⟨nextIndex, p, tunnel, index, hp, heq⟩
  · rw [heq]
    exact ⟨h.ref_lt, h.key_inj, h.byIdx, h.byIp, h.conn⟩
  · rw [heq]
    have hlt : ref < s.device.arcs.length := (List.getElem?_eq_some_iff.mp hp).1
    refine ⟨?_, h.key_inj, ?_, h.byIp, ?_⟩
    · intro ref' href'
      change ref' < (s.device.arcs.set ref _).length
      rw [List.length_set]
      exact h.ref_lt ref' href'
    · intro idx ref' hidx
      rcases (AList.lookup_insert_eq_some_iff _).mp hidx with ⟨rfl, rfl⟩ | ⟨-, hidx⟩
      · exact ⟨href, p.setTunnel tunnel idx, List.getElem?_set_self hlt, rfl⟩
      · obtain ⟨hne, hidx⟩ := (AList.lookup_erase_eq_some_iff _).mp hidx
        obtain ⟨hin, p', hp', rfl⟩ := h.byIdx idx ref' hidx
        have hother : ref ≠ ref' := by
          rintro rfl
          rw [hp] at hp'
          cases hp'
          exact hne rfl
        exact ⟨hin, p', (List.getElem?_set_ne hother).trans hp', rfl⟩
    · intro ref' p' c hp' hconn
      by_cases hsame : ref = ref'
      · subst hsame
        have hpeer : some (p.setTunnel tunnel index) = some p' :=
          (List.getElem?_set_self hlt).symm.trans hp'
        cases hpeer
        exact h.conn ref p c hp hconn
      · exact h.conn ref' p' c ((List.getElem?_set_ne hsame).symm.trans hp') hconn

theorem Attached.rebuildPeers {privateKey : Key} {entries : List (Sigma fun _ : Key => PeerRef)}
    (h : s.Attached) (hentries : ∀ entry ∈ entries, s.device.InDevice entry.2) (e : ε) :
    Attached { s with device := (Device.rebuildPeers privateKey entries s.device e).2.1 } := by
  induction entries generalizing s e with
  | nil => exact h
  | cons entry entries ih =>
    have hfirst := h.rebuildPeer (hentries entry List.mem_cons_self) privateKey entry.1 e
    have hpeers : (s.device.rebuildPeer privateKey entry.1 entry.2 e).2.1.peers =
        s.device.peers := by
      rcases Device.rebuildPeer_cases s.device privateKey entry.1 entry.2 e with
        ⟨nextIndex, heq⟩ | ⟨nextIndex, p, tunnel, index, hp, heq⟩ <;> rw [heq]
    rw [Device.rebuildPeers]
    split
    · rename_i d e₁ hrebuild
      rw [hrebuild] at hfirst hpeers
      refine ih hfirst ?_ e₁
      intro entry' hmem
      change Device.InDevice d entry'.2
      rw [Device.InDevice, hpeers]
      exact hentries entry' (List.mem_cons_of_mem _ hmem)
    · rename_i err d e₁ hrebuild
      rw [hrebuild] at hfirst
      exact hfirst

theorem inDevice_of_mem_entries {entry : Sigma fun _ : Key => PeerRef}
    (h : entry ∈ d.peers.entries) : d.InDevice entry.2 :=
  ⟨entry.1, AList.mem_lookup_iff.mpr h⟩

theorem Attached.setAmneziaConfig (h : s.Attached) (amnezia : Amnezia3Config) (e : ε) :
    Attached { s with device := (s.device.setAmneziaConfig amnezia e).2.1 } := by
  unfold Device.setAmneziaConfig
  split_ifs
  · exact h
  · have hsame : Attached { s with device := { s.device with amnezia } } :=
      ⟨h.ref_lt, h.key_inj, h.byIdx, h.byIp, h.conn⟩
    simp only
    split
    · exact hsame
    · exact hsame.rebuildPeers (fun _ hmem => inDevice_of_mem_entries (Env.mem_walk.mp hmem)) e

/-- The peer an anonymous packet is handed to is in the device. -/
theorem Attached.dispatch {e e₁ : ε} {packet : Packet} {p : Peer C} (h : s.Attached)
    (hdispatch : s.Dispatch datagram addr e packet ref p e₁) : s.device.InDevice ref := by
  obtain ⟨privateKey, publicKey, -, hfor⟩ := hdispatch.found
  cases packet with
  | handshakeInit p =>
    obtain ⟨hh, -, hlookup⟩ := Option.bind_eq_some_iff.mp hfor
    exact ⟨_, hlookup⟩
  | handshakeResponse p => exact (h.byIdx _ _ hfor).1
  | packetCookieReply p => exact (h.byIdx _ _ hfor).1
  | packetData p => exact (h.byIdx _ _ hfor).1

/-! ## Runs -/

/-- What the step does for the world is done by peers in the device, and no handler of a
connected socket is left for any other. -/
structure CutOff (s : EventLoop C) (effects : List Effect) (s' : EventLoop C) : Prop where
  effects : ∀ effect ∈ effects, ∀ ref, effect.peer = some ref → s.device.InDevice ref
  handlers : ∀ conn handler, s'.Live conn handler → s'.device.InDevice handler.peer

theorem Attached.live (h : s.Attached) (hlive : s.Live conn handler) :
    s.device.InDevice handler.peer := by
  obtain ⟨-, p, hp, hconn⟩ := hlive
  exact (h.conn handler.peer p conn hp hconn).1

theorem Attached.anonymous {connects : Bool} {e e' : ε} (h : s.Attached)
    (hrun : s.udpHandler datagram addr connects e = .ok (effects, s', e')) :
    s'.Attached ∧ ∀ effect ∈ effects, ∀ ref, effect.peer = some ref → s.device.InDevice ref := by
  obtain ⟨limiter, limiter', -, -, ⟨rfl, hcookie, -⟩ |
    ⟨packet, ref, p, e₁, good, p', hdispatch, hhandle, hstate⟩⟩ := udpHandler_cases hrun
  · refine ⟨⟨h.ref_lt, h.key_inj, h.byIdx, h.byIp, h.conn⟩, ?_⟩
    intro effect heffect ref hpeer
    rw [hcookie effect heffect] at hpeer
    cases hpeer
  · have href := h.dispatch hdispatch
    obtain ⟨hserved, hfrom⟩ := Peer.served_handleAnonymous hhandle
    have hlimiter : (s.withLimiter limiter').Attached :=
      ⟨h.ref_lt, h.key_inj, h.byIdx, h.byIp, h.conn⟩
    have hpeer : ((s.withLimiter limiter').withPeer ref p').Attached :=
      hlimiter.served (Device.served_set hdispatch.peer hserved)
    constructor
    · rcases hstate with rfl | ⟨-, -, rfl⟩
      · exact hpeer
      · have hlt : ref < s.device.arcs.length := (List.getElem?_eq_some_iff.mp hdispatch.peer).1
        exact hpeer.connectedTo (List.getElem?_set_self hlt) href addr
    · intro effect heffect ref' hpeer'
      rw [hfrom effect heffect] at hpeer'
      cases hpeer'
      exact href

/-- **One step** under the condition keeps the invariant, and what it does is done by peers in
the device. -/
theorem Attached.step {input : Input} (h : s.Attached) (hstep : Step ε s input effects s')
    (hcloses : s.ClosesSockets input) :
    s'.Attached ∧ ∀ effect ∈ effects, ∀ ref, effect.peer = some ref → s.device.InDevice ref := by
  cases hstep with
  | @control event e =>
    refine ⟨?_, by simp⟩
    cases event with
    | updatePeer u => exact h.updatePeer u e
    | removePeer pubKey => exact h.removePeer pubKey
    | clearPeers => exact h.clearPeers hcloses
    | ifaceMtu mtu => exact ⟨h.ref_lt, h.key_inj, h.byIdx, h.byIp, h.conn⟩
    | monitor pathExists readable =>
      exact h.served (ε := ε) (Device.served_monitorHandler s.device pathExists readable)
    | timers readable =>
      exact h.served ((Device.served_resetRateLimiter s.device e).trans
        (Device.served_pollMtu _ readable))
  | setKey => exact ⟨h.served (Device.served_setKey _ _ _), by simp⟩
  | setAmneziaConfig => exact ⟨h.setAmneziaConfig _ _, by simp⟩
  | openListenSocket =>
    exact ⟨h.served (ε := ε) (Device.served_openListenSocket s.device), by simp⟩
  | timers hrun =>
    obtain ⟨hserved, hfrom⟩ := Device.served_timePeers hrun
    refine ⟨h.served hserved, ?_⟩
    intro effect heffect ref hpeer
    obtain ⟨ref', hmem, hpeer'⟩ := hfrom effect heffect
    rw [hpeer'] at hpeer
    cases hpeer
    obtain ⟨entry, hentry, rfl⟩ := List.mem_map.mp (Env.mem_walk.mp hmem)
    exact inDevice_of_mem_entries hentry
  | iface hrun =>
    obtain ⟨hserved, hfrom⟩ := Device.served_ifaceHandler hrun
    refine ⟨h.served hserved, ?_⟩
    intro effect heffect ref hpeer
    obtain ⟨a, ref', hfind, hpeer'⟩ := hfrom effect heffect
    rw [hpeer'] at hpeer
    cases hpeer
    obtain ⟨net, -, hentry⟩ := AllowedIps.exists_of_find hfind
    exact h.byIp net ref hentry
  | anonymous hrun => exact h.anonymous hrun
  | @connected _ conn handler _ _ _ _ hlive hrun =>
    obtain ⟨⟨effects₁, d, e₁⟩, hhandler, hrun⟩ := bind_eq_ok.mp hrun
    cases hrun
    obtain ⟨hserved, hfrom⟩ :=
      Device.served_atPeer (fun _ _ _ _ _ => Peer.served_handleConnected) hhandler
    refine ⟨h.served hserved, ?_⟩
    intro effect heffect ref hpeer
    rw [hfrom effect heffect] at hpeer
    cases hpeer
    exact h.live hlive
  | countDevice => exact ⟨⟨h.ref_lt, h.key_inj, h.byIdx, h.byIp, h.conn⟩, by simp⟩
  | countPeer hp hcount =>
    exact ⟨h.served (Device.served_set hp (Peer.served_tunnel (ε := ε) (.single (.count hcount)))),
      by simp⟩

/-- Any number of steps under the condition. -/
def ClosingRun (ε : Type) [Env ε] : EventLoop C → EventLoop C → Prop :=
  Relation.ReflTransGen fun s s' =>
    ∃ input effects, Step ε s input effects s' ∧ s.ClosesSockets input

/-- **A run** under the condition keeps the invariant. -/
theorem Attached.run (h : s.Attached) (hrun : ClosingRun ε s s') : s'.Attached := by
  induction hrun with
  | refl => exact h
  | tail _ hstep ih =>
    obtain ⟨input, effects, hstep, hcloses⟩ := hstep
    exact (ih.step hstep hcloses).1

/-- **Removed peers are cut off.**  Along any run of a new device in which `clear_peers` finds no
connected socket, whatever a step writes or sends comes from a peer in the device, and no handler
is left for a peer outside it, exactly if the step meets the condition as well. -/
theorem removed_peer_cut_off_iff {mtu : Nat} {nextIndex : IndexLfsr} {useConnectedSocket : Bool}
    {input : Input} {effects : List Effect}
    (hrun : ClosingRun ε (.new mtu nextIndex useConnectedSocket) s)
    (hstep : Step ε s input effects s') : s.CutOff effects s' ↔ s.ClosesSockets input := by
  have hattached := (attached_new mtu nextIndex useConnectedSocket).run hrun
  constructor
  · intro hcut
    cases hstep with
    | @control event e =>
      cases event with
      | clearPeers =>
        intro ref p href hp
        by_contra hconn
        obtain ⟨c, hc⟩ := Option.ne_none_iff_exists'.mp hconn
        obtain ⟨-, handler, hqueue, rfl⟩ := hattached.conn ref p c hp hc
        -- the handler is still there, but its peer is not
        obtain ⟨k, hk⟩ := hcut.handlers c handler ⟨hqueue, p, hp, hc⟩
        cases hk
      | updatePeer | removePeer | ifaceMtu | monitor | timers => trivial
    | setKey | setAmneziaConfig | openListenSocket | timers | iface | anonymous | connected
    | countDevice | countPeer => trivial
  · intro hcloses
    obtain ⟨hattached', heffects⟩ := hattached.step hstep hcloses
    exact ⟨heffects, fun conn handler hlive => hattached'.live hlive⟩

/-! ## Two ways to remove a peer -/

theorem step_removePeer (s : EventLoop C) (pubKey : Key) (e : ε) :
    Step ε s (.control (.removePeer pubKey)) [] { s with device := s.device.removePeer pubKey } :=
  .control (e := e)

theorem step_clearPeers (s : EventLoop C) (e : ε) :
    Step ε s (.control .clearPeers) [] { s with device := s.device.clearPeers } :=
  .control (e := e)

/-- Clearing the peers leaves their handlers alone. -/
theorem Live.clearPeers (h : s.Live conn handler) :
    Live { s with device := s.device.clearPeers } conn handler := h

theorem not_inDevice_clearPeers (d : Device C) (ref : PeerRef) : ¬ d.clearPeers.InDevice ref := by
  rintro ⟨k, hk⟩
  cases hk

theorem CutOff.inDevice (h : s.CutOff effects { s with device := d })
    (hlive : Live { s with device := d } conn handler) :
    d.InDevice handler.peer :=
  h.handlers conn handler hlive

theorem live_of_conn {s : EventLoop C} (hqueue : s.queue[conn]? = some handler)
    (hconn : s.device.arcs[handler.peer]?.bind (fun p => p.endpoint.conn) = some conn) :
    s.Live conn handler := by
  obtain ⟨p, hp, hconn⟩ := Option.bind_eq_some_iff.mp hconn
  exact ⟨hqueue, p, hp, hconn⟩

end EventLoop

namespace EventLoop

/-- A peer that may send from `10.0.0.0/8`, in a device that connects sockets. -/
def routedLoop : EventLoop Crypto.transparent :=
  let s := keyedLoop true
  { s with device := (Device.step (s.device, ({} : StillMachine))
      (.updatePeer { publicKey := zeroKey, allowedIps := [⟨.v4 0x0A000000, 8⟩] })).1 }

/-- The peer has sent an initiation and a socket is connected to it. -/
def connectedLoop : EventLoop Crypto.transparent :=
  routedLoop.afterDatagram Tunn.plainInitiation homeAddr ({} : StillMachine)

/-- The handler of this socket. -/
def homeHandler : ConnHandler := ⟨0, homeAddr.ip⟩

theorem connectedLoop_run : ∃ effects,
    Step StillMachine (newLoop true) (.setKey zeroKey) [] (keyedLoop true) ∧
    Step StillMachine (keyedLoop true) (.control (.updatePeer
      { publicKey := zeroKey, allowedIps := [⟨.v4 0x0A000000, 8⟩] })) [] routedLoop ∧
    Step StillMachine routedLoop (.anonymous Tunn.plainInitiation homeAddr) effects
      connectedLoop := by
  have hrun : ∃ effects e', routedLoop.udpHandler Tunn.plainInitiation homeAddr true
      ({} : StillMachine) = .ok (effects, connectedLoop, e') :=
    udpHandler_eq_afterDatagram (by decide +kernel)
  obtain ⟨effects, e', hrun⟩ := hrun
  exact ⟨effects, .setKey, .control, .anonymous hrun⟩

theorem connectedLoop_live : connectedLoop.Live 0 homeHandler :=
  live_of_conn (by decide +kernel) (by decide +kernel)

/-- The socket of a peer that is removed by its key has no handler any more. -/
theorem removed_peer_cut_off_iff_removed :
    connectedLoop.Live 0 homeHandler ∧
      ∃ s', Step StillMachine connectedLoop (.control (.removePeer zeroKey)) [] s' ∧
        connectedLoop.CutOff [] s' ∧ ¬ s'.Live 0 homeHandler := by
  obtain ⟨effects, hkey, hadd, hgreet⟩ := connectedLoop_run
  have hrun : ClosingRun StillMachine (newLoop true) connectedLoop :=
    ((Relation.ReflTransGen.single ⟨_, _, hkey, trivial⟩).tail ⟨_, _, hadd, trivial⟩).tail
      ⟨_, _, hgreet, trivial⟩
  have hstep := step_removePeer connectedLoop zeroKey ({} : StillMachine)
  have hcut := (removed_peer_cut_off_iff hrun hstep).mpr trivial
  refine ⟨connectedLoop_live, _, hstep, hcut, ?_⟩
  intro hlive
  have hin := hcut.inDevice hlive
  have hempty : (connectedLoop.device.removePeer zeroKey).peers.entries = [] := by decide +kernel
  obtain ⟨k, hk⟩ := hin
  have hmem := AList.mem_lookup_iff.mp hk
  rw [hempty] at hmem
  cases hmem

/-- An IPv4 packet without payload from `10.0.0.1`. -/
def innerPacket : Bytes := [0x45, 0, 0, 20, 0, 0, 0, 0, 64, 17, 0, 0, 10, 0, 0, 1, 192, 168, 0, 1]

/-- The same in the first transport packet of the peer. -/
def innerDatagram : Bytes :=
  u32ToLe 4 ++ (u32ToLe 257 ++ (List.replicate 8 (0 : UInt8) ++
    Crypto.transparent.aeadSeal zeroKey (counterNonce 0) [] innerPacket))

/-- All peers are cleared. -/
def clearedLoop : EventLoop Crypto.transparent :=
  { connectedLoop with device := connectedLoop.device.clearPeers }

/-- **A cleared peer is still served.**  A device connects a socket to its peer, and the peers
are cleared.  The handler of the socket is still live, and a packet that arrives there is
decrypted by the tunnel of the peer and written to the interface. -/
theorem cleared_peer_served :
    (∃ effects, Step StillMachine (newLoop true) (.setKey zeroKey) [] (keyedLoop true) ∧
      Step StillMachine (keyedLoop true) (.control (.updatePeer
        { publicKey := zeroKey, allowedIps := [⟨.v4 0x0A000000, 8⟩] })) [] routedLoop ∧
      Step StillMachine routedLoop (.anonymous Tunn.plainInitiation homeAddr) effects
        connectedLoop) ∧
    Step StillMachine connectedLoop (.control .clearPeers) [] clearedLoop ∧
    (∀ ref, ¬ clearedLoop.device.InDevice ref) ∧ clearedLoop.Live 0 homeHandler ∧
    ∃ s, Step StillMachine clearedLoop (.connected 0 innerDatagram) [.write 0 innerPacket] s := by
  have hlive : clearedLoop.Live 0 homeHandler := connectedLoop_live.clearPeers
  have hserved : Outcome.test (clearedLoop.connHandler 0 homeHandler innerDatagram
      ({} : StillMachine)) (fun x => decide (x.1 = [.write 0 innerPacket])) = true := by
    decide +kernel
  obtain ⟨⟨effects, s, e⟩, hrun, heffects⟩ := Outcome.test_eq_true_iff.mp hserved
  obtain rfl : effects = _ := of_decide_eq_true heffects
  exact ⟨connectedLoop_run, step_clearPeers connectedLoop ({} : StillMachine),
    not_inDevice_clearPeers connectedLoop.device, hlive, s, .connected hlive hrun⟩

end EventLoop
