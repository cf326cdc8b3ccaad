import AwgTun.Device.Routing
import AwgTun.Device.Traffic

/-!
# What a step does to the peers

One inversion lemma for the steps of the event loop.  Most of them carry the peers on: their
tunnels take steps, and the tables, the register and the configuration stay the same
(`Device.Carried`).  The others are the four operations that change the tables.

* `EventLoop.Step.change` — every step is one of these.
-/

open Control Bytes

variable [IpTable] {C : Crypto} {ε : Type} [Env ε]

namespace Peer

variable {p p' p'' : Peer C}

/-- The same peer, some steps of its tunnel further. -/
structure Kept (ε : Type) [Env ε] (p p' : Peer C) : Prop where
  tunnel : Tunn.Evolves ε p.tunnel p'.tunnel
  index : p'.index = p.index
  keepaliveRange : p'.keepaliveRange = p.keepaliveRange

theorem Kept.refl (p : Peer C) : Kept ε p p := ⟨.refl, rfl, rfl⟩

theorem Kept.trans (h : Kept ε p p') (h' : Kept ε p' p'') : Kept ε p p'' :=
  ⟨h.tunnel.trans h'.tunnel, h'.index.trans h.index, h'.keepaliveRange.trans h.keepaliveRange⟩

theorem Served.kept (h : Served ε p p') : Kept ε p p' := ⟨h.tunnel, h.index, h.keepaliveRange⟩

theorem kept_withConn (p : Peer C) (conn : Option Conn) : Kept ε p (p.withConn conn) :=
  ⟨.refl, rfl, rfl⟩

end Peer

namespace Device

variable {d d' d'' : Device C} {effects : List Effect} {ref : PeerRef} {e e' : ε}

/-- The peers are carried on. -/
structure Carried (ε : Type) [Env ε] (d d' : Device C) : Prop where
  arcs : List.Forall₂ (Peer.Kept ε) d.arcs d'.arcs
  peers : d'.peers = d.peers
  peersByIp : d'.peersByIp = d.peersByIp
  peersByIdx : d'.peersByIdx = d.peersByIdx
  amnezia : d'.amnezia = d.amnezia
  nextIndex : d'.nextIndex = d.nextIndex
  keyPair : d.keyPair.isSome → d'.keyPair.isSome

theorem Served.carried (h : Served ε d d') (hindex : d'.nextIndex = d.nextIndex)
    (hkey : d.keyPair.isSome → d'.keyPair.isSome) : Carried ε d d' where
  arcs := h.arcs.imp fun _ _ hserved => hserved.kept
  peers := h.peers
  peersByIp := h.peersByIp
  peersByIdx := h.peersByIdx
  amnezia := h.amnezia
  nextIndex := hindex
  keyPair := hkey

theorem Carried.trans (h : Carried ε d d') (h' : Carried ε d' d'') : Carried ε d d'' where
  arcs := forall₂_trans (fun _ _ _ hp hp' => hp.trans hp') h.arcs h'.arcs
  peers := h'.peers.trans h.peers
  peersByIp := h'.peersByIp.trans h.peersByIp
  peersByIdx := h'.peersByIdx.trans h.peersByIdx
  amnezia := h'.amnezia.trans h.amnezia
  nextIndex := h'.nextIndex.trans h.nextIndex
  keyPair := fun hkey => h'.keyPair (h.keyPair hkey)

/-! ## Handlers that work on the peers alone -/

omit [Env ε] in
theorem atPeer_arcs {f : Peer C → ε → Outcome (List Effect × Peer C × ε)}
    (h : d.atPeer ref f e = .ok (effects, d', e')) :
    ∃ arcs, d' = { d with arcs := arcs } := by
  unfold atPeer at h
  split at h
  · cases h
    exact ⟨d.arcs, rfl⟩
  · obtain ⟨⟨effects₁, p, e₁⟩, -, h⟩ := bind_eq_ok.mp h
    cases h
    exact ⟨_, rfl⟩

theorem timePeers_arcs {refs : List PeerRef} (h : timePeers refs d e = .ok (effects, d', e')) :
    ∃ arcs, d' = { d with arcs := arcs } := by
  induction refs generalizing d e effects with
  | nil =>
    cases h
    exact ⟨_, rfl⟩
  | cons ref refs ih =>
    rw [timePeers] at h
    obtain ⟨⟨effects₁, d₁, e₁⟩, hfirst, h⟩ := bind_eq_ok.mp h
    obtain ⟨⟨effects₂, d₂, e₂⟩, hrest, h⟩ := bind_eq_ok.mp h
    cases h
    obtain ⟨arcs, rfl⟩ := atPeer_arcs hfirst
    obtain ⟨arcs', rfl⟩ := ih hrest
    exact ⟨arcs', rfl⟩

theorem ifaceHandler_arcs {src : Bytes} (h : d.ifaceHandler src e = .ok (effects, d', e')) :
    ∃ arcs, d' = { d with arcs := arcs } := by
  unfold ifaceHandler at h
  split at h
  · cases h
    exact ⟨d.arcs, rfl⟩
  · exact atPeer_arcs h

theorem Served.carried_of_arcs (h : Served ε d d') (harcs : ∃ arcs, d' = { d with arcs := arcs }) :
    Carried ε d d' := by
  obtain ⟨arcs, rfl⟩ := harcs
  exact h.carried rfl id

theorem carried_set {p p' : Peer C} (hp : d.arcs[ref]? = some p) (h : Peer.Kept ε p p') :
    Carried ε d { d with arcs := d.arcs.set ref p' } :=
  ⟨forall₂_set Peer.Kept.refl hp h, rfl, rfl, rfl, rfl, rfl, id⟩

theorem carried_setKey (d : Device C) (privateKey : Key) (e : ε) :
    Carried ε d (d.setKey privateKey e).1 := by
  refine (served_setKey d privateKey e).carried ?_ ?_
  · unfold setKey
    simp only
    split_ifs <;> rfl
  · unfold setKey
    simp only
    split_ifs
    · exact id
    · exact fun _ => rfl

theorem carried_timersHandler (d : Device C) (readable : Bool) (e : ε) :
    Carried ε d (d.timersHandler readable e).2.1 := by
  have hreset : Carried ε d (d.resetRateLimiter e).1 := by
    refine (served_resetRateLimiter d e).carried ?_ ?_
    · unfold resetRateLimiter
      split <;> rfl
    · unfold resetRateLimiter
      split <;> exact id
  refine hreset.trans ((served_pollMtu _ readable).carried ?_ ?_)
  · cases readable with
    | false => rfl
    | true =>
      rw [pollMtu_true]
      split_ifs <;> rfl
  · cases readable with
    | false => exact id
    | true =>
      rw [pollMtu_true]
      split_ifs <;> exact id

theorem carried_monitorHandler (d : Device C) (pathExists readable : Bool) :
    Carried ε d (d.monitorHandler pathExists readable).2 := by
  refine (served_monitorHandler d pathExists readable).carried ?_ ?_
  · unfold monitorHandler
    split_ifs
    · rfl
    · split <;> rfl
  · unfold monitorHandler
    split_ifs
    · exact id
    · split <;> exact id

/-! ## Operations that change the tables -/

/-- A peer that is removed stays where it is for those who still hold it. -/
theorem arcs_removePeer (d : Device C) (pubKey : Key) :
    List.Forall₂ (Peer.Kept ε) d.arcs (d.removePeer pubKey).arcs := by
  unfold removePeer
  split
  · exact List.forall₂_same.mpr fun p _ => .refl p
  · exact forall₂_modify Peer.Kept.refl (fun p => (Peer.served_shutdownEndpoint p).kept) _ _

/-- What an update makes of a device, with the tunnel that was made for a new peer. -/
inductive UpdatesTo (ε : Type) [Env ε] (d : Device C) (u : PeerUpdate) : Device C → Prop
  | removed (hremove : u.remove = true) : UpdatesTo ε d u (d.removePeer u.publicKey)
  /-- The key is there already. -/
  | present (hremove : u.remove = false) (hkey : (d.peers.lookup u.publicKey).isSome) :
      UpdatesTo ε d u d
  /-- No peer is made, and an index is used up. -/
  | refused (hremove : u.remove = false) (hkey : d.peers.lookup u.publicKey = none) :
      UpdatesTo ε d u { d with nextIndex := d.nextIndex.next.2 }
  | added (hremove : u.remove = false) (hkey : d.peers.lookup u.publicKey = none)
      (hpair : d.keyPair.isSome) {index : UInt32} (hindex : d.nextIndex.next.1 = .ok index)
      {privateKey : Key} {peer : Peer C} {e e' : ε}
      (hmade : Tunn.newWithAmnezia3 privateKey u.publicKey u.presharedKey u.keepalive index none
        (d.configFor u.keepaliveRange) e = (.ok peer.tunnel, e'))
      (hpeer : peer.index = index) (hrange : peer.keepaliveRange = u.keepaliveRange)
      {table : AllowedIps PeerRef}
      (htable : ∀ net ref, table.lookup net = some ref →
        ref = d.arcs.length ∨ d.peersByIp.lookup net = some ref) :
      UpdatesTo ε d u
        { d with
          nextIndex := d.nextIndex.next.2
          arcs := d.arcs ++ [peer]
          peers := d.peers.insert u.publicKey d.arcs.length
          peersByIdx := d.peersByIdx.insert peer.index d.arcs.length
          peersByIp := table }

theorem valid_of_new {tunnel : Tunn C} {index : UInt32} {endpoint : Option SocketAddr}
    {ips : List AllowedIP} {presharedKey : Option Key} {keepaliveRange : Option U32Range}
    {peer : Peer C}
    (h : Peer.new tunnel index endpoint ips presharedKey keepaliveRange = .ok peer) :
    (∀ ip ∈ ips, ip.network.isSome) ∧ peer.tunnel = tunnel ∧ peer.index = index ∧
      peer.keepaliveRange = keepaliveRange := by
  constructor
  · by_contra hinvalid
    push Not at hinvalid
    obtain ⟨ip, hip, hnone⟩ := hinvalid
    rw [new_of_invalid ⟨ip, hip, Option.not_isSome_iff_eq_none.mp hnone⟩] at h
    cases h
  · obtain ⟨table, -, h⟩ := bind_eq_ok.mp h
    cases h
    exact ⟨rfl, rfl, rfl⟩

theorem updatePeer_updatesTo (d : Device C) (u : PeerUpdate) (e : ε) :
    UpdatesTo ε d u (d.updatePeer u e).2.1 := by
  unfold updatePeer
  split_ifs with hremove hkey
  · exact .removed hremove
  · exact .present (by simpa using hremove) hkey
  · have hgo : u.remove = false := by simpa using hremove
    have hnew : d.peers.lookup u.publicKey = none := by simpa using hkey
    rcases hnext : d.nextIndex.next with ⟨result, next⟩
    have hrefused : UpdatesTo ε d u { d with nextIndex := next } := by
      have hused := UpdatesTo.refused (ε := ε) hgo hnew
      rwa [hnext] at hused
    simp only
    split
    · exact hrefused
    · exact hrefused
    · rename_i index privateKey publicKey hpair
      unfold addPeer
      rcases hmade : Tunn.newWithAmnezia3 (C := C) privateKey u.publicKey u.presharedKey u.keepalive
        index none (({ d with nextIndex := next } : Device C).configFor u.keepaliveRange) e with
        ⟨made, e₁⟩
      cases made with
      | error err => exact hrefused
      | ok tunnel =>
        simp only
        split
        · exact hrefused
        · rename_i peer hpeer
          obtain ⟨hips, rfl, rfl, hrange⟩ := valid_of_new hpeer
          obtain ⟨table, hinsert, hlookup⟩ :=
            AllowedIps.lookup_insertAll hips d.peersByIp d.arcs.length
          have htable : ∀ net ref, table.lookup net = some ref →
              ref = d.arcs.length ∨ d.peersByIp.lookup net = some ref := by
            intro net ref hnet
            rw [hlookup] at hnet
            split_ifs at hnet
            · exact .inl (Option.some.inj hnet).symm
            · exact .inr hnet
          have hadded := UpdatesTo.added (ε := ε) hgo hnew (by simp [hpair]) (by rw [hnext]) hmade
            rfl hrange htable
          rw [hnext] at hadded
          simpa only [enterPeer, hinsert] using hadded

/-- What a peer's turn in `set_amnezia_config` makes of a device. -/
inductive RebuildsTo (ε : Type) [Env ε] (d : Device C) (ref : PeerRef) (p : Peer C) :
    Device C → Prop
  /-- The peer is left on its old tunnel. -/
  | refused (hconfig : (d.configFor p.keepaliveRange).validate ≠ .ok ()) :
      RebuildsTo ε d ref p { d with nextIndex := d.nextIndex.next.2 }
  | made {index : UInt32} (hindex : d.nextIndex.next.1 = .ok index) {privateKey pubKey : Key}
      {keepalive : Option UInt16} {tunnel : Tunn C} {e e' : ε}
      (hmade : Tunn.newWithAmnezia3 privateKey pubKey p.presharedKey keepalive index none
        (d.configFor p.keepaliveRange) e = (.ok tunnel, e')) :
      RebuildsTo ε d ref p
        { d with
          nextIndex := d.nextIndex.next.2
          arcs := d.arcs.set ref (p.setTunnel tunnel index)
          peersByIdx := (d.peersByIdx.erase p.index).insert index ref }

theorem rebuildPeer_rebuildsTo {p : Peer C} (hp : d.arcs[ref]? = some p)
    (hreturns : d.nextIndex.next.1.Returns) (privateKey pubKey : Key) (e : ε) :
    ∃ d' e', d.rebuildPeer privateKey pubKey ref e = (.ok (), d', e') ∧
      RebuildsTo ε d ref p d' := by
  obtain ⟨index, hindex⟩ := hreturns
  rcases hnext : d.nextIndex.next with ⟨result, next⟩
  have hsecond : d.nextIndex.next.2 = next := by rw [hnext]
  obtain rfl : result = .ok index := by rwa [hnext] at hindex
  unfold rebuildPeer
  simp only [hp, hnext]
  split
  · rename_i err herr
    refine ⟨_, _, rfl, ?_⟩
    have hconfig : (d.configFor p.keepaliveRange).validate ≠ .ok () := by
      intro hvalid
      simp [Tunn.newWithAmnezia3, hvalid] at herr
    have hrefused : RebuildsTo ε d ref p _ := .refused hconfig
    rwa [hsecond] at hrefused
  · rename_i tunnel htunnel
    refine ⟨_, _, rfl, ?_⟩
    have hmade : RebuildsTo ε d ref p _ := .made hindex (Prod.ext htunnel rfl)
    rwa [hsecond] at hmade

/-! ## Steps -/

/-- What an input does to the device. -/
inductive Change (ε : Type) [Env ε] (d : Device C) : EventLoop.Input → Device C → Prop
  | carried {input : EventLoop.Input} {d' : Device C} (h : Carried ε d d') : Change ε d input d'
  | removed (pubKey : Key) : Change ε d (.control (.removePeer pubKey)) (d.removePeer pubKey)
  | cleared : Change ε d (.control .clearPeers) d.clearPeers
  | updated (u : PeerUpdate) (e : ε) :
      Change ε d (.control (.updatePeer u)) (d.updatePeer u e).2.1
  | configured (amnezia : Amnezia3Config) (e : ε) :
      Change ε d (.setAmneziaConfig amnezia) (d.setAmneziaConfig amnezia e).2.1

end Device

namespace EventLoop

variable {s s' : EventLoop C} {effects : List Effect}

theorem carried_udpHandler {datagram : Bytes} {addr : SocketAddr} {connects : Bool} {e e' : ε}
    (h : s.udpHandler datagram addr connects e = .ok (effects, s', e')) :
    Device.Carried ε s.device s'.device := by
  have hlimiter (limiter : RateLimiter) :
      Device.Carried ε s.device (s.withLimiter limiter).device :=
    ⟨List.forall₂_same.mpr fun p _ => .refl p, rfl, rfl, rfl, rfl, rfl, id⟩
  obtain ⟨limiter, limiter', -, -, ⟨rfl, -, -⟩ |
    ⟨packet, ref, p, e₁, good, p', hdispatch, hhandle, hstate⟩⟩ := udpHandler_cases h
  · exact hlimiter limiter'
  · have hlt : ref < s.device.arcs.length := (List.getElem?_eq_some_iff.mp hdispatch.peer).1
    have hkept := (Peer.served_handleAnonymous hhandle).1.kept
    have hpeer : Device.Carried ε s.device ((s.withLimiter limiter').withPeer ref p').device :=
      (hlimiter limiter').trans (Device.carried_set hdispatch.peer hkept)
    rcases hstate with rfl | ⟨-, -, rfl⟩
    · exact hpeer
    · exact hpeer.trans (Device.carried_set (List.getElem?_set_self hlt) (Peer.kept_withConn p' _))

/-- **What a step does to the peers.** -/
theorem Step.change {input : Input} (hstep : Step ε s input effects s') :
    Device.Change ε s.device input s'.device := by
  cases hstep with
  | @control event e =>
    cases event with
    | updatePeer u => exact .updated u e
    | removePeer pubKey => exact .removed pubKey
    | clearPeers => exact .cleared
    | ifaceMtu mtu =>
      exact .carried ⟨List.forall₂_same.mpr fun p _ => .refl p, rfl, rfl, rfl, rfl, rfl, id⟩
    | monitor pathExists readable =>
      exact .carried (Device.carried_monitorHandler s.device pathExists readable)
    | timers readable => exact .carried (Device.carried_timersHandler s.device readable e)
  | setKey => exact .carried (Device.carried_setKey _ _ _)
  | setAmneziaConfig => exact .configured _ _
  | openListenSocket =>
    exact .carried ((Device.served_openListenSocket s.device).carried rfl id)
  | timers hrun =>
    exact .carried ((Device.served_timePeers hrun).1.carried_of_arcs (Device.timePeers_arcs hrun))
  | iface hrun =>
    exact .carried
      ((Device.served_ifaceHandler hrun).1.carried_of_arcs (Device.ifaceHandler_arcs hrun))
  | anonymous hrun => exact .carried (carried_udpHandler hrun)
  | connected hlive hrun =>
    obtain ⟨⟨effects₁, d, e₁⟩, hhandler, hrun⟩ := bind_eq_ok.mp hrun
    cases hrun
    have hserved := (Device.served_atPeer (fun _ _ _ _ _ => Peer.served_handleConnected) hhandler).1
    exact .carried (hserved.carried_of_arcs (Device.atPeer_arcs hhandler))
  | countDevice =>
    exact .carried ⟨List.forall₂_same.mpr fun p _ => .refl p, rfl, rfl, rfl, rfl, rfl, id⟩
  | countPeer hp hcount =>
    exact .carried (Device.carried_set hp ⟨.single (.count hcount), rfl, rfl⟩)

end EventLoop
