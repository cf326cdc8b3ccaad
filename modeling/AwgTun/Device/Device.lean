import AwgTun.Device.AllowedIps
import AwgTun.Noise.Tunn

/-!
# The device

`Device` of `device/mod.rs` with its peers: the three tables through which a peer is
found, and the operations that add and remove peers.  The two periodic handlers that
read the MTU of the interface are here too.

Peers are shared: `peers`, `peers_by_ip` and `peers_by_idx` hold pointers to one and the
same value.  A pointer is a place in `arcs`, the list of all peers ever made, so pointers
are equal exactly if they point to the same peer, and a change made through one table is
seen through the others.

An operation returns the device also when it panics, since what it had done by then
stays done.  The sockets, the event queue and the log are outside the model; shutting a
socket down is taken to succeed.
-/

open Control

/-! ## Indices -/

/-- The shift register that hands out the indices of peers. -/
structure IndexLfsr where
  initial : UInt32
  lfsr : UInt32
  mask : UInt32
  deriving DecidableEq, Repr

/-- `IndexLfsr::next`. -/
def IndexLfsr.next (r : IndexLfsr) : Outcome UInt32 × IndexLfsr :=
  let value := r.lfsr - 1
  let lfsr := (r.lfsr >>> 1) ^^^ ((0 - (r.lfsr &&& 1)) &&& 0xd80000)
  let r := { r with lfsr }
  if r.lfsr ≠ r.initial then (.ok (value ^^^ r.mask), r) else (.panic "Too many peers created", r)

/-! ## Peers -/

/-- A connected socket. -/
abbrev Conn := Nat

/-- Where a peer is, and the socket connected to it. -/
structure Endpoint where
  addr : Option SocketAddr := none
  conn : Option Conn := none
  deriving DecidableEq, Repr

/-- A peer. -/
structure Peer [IpTable] (C : Crypto) where
  tunnel : Tunn C
  /-- The index the tunnel uses. -/
  index : UInt32
  endpoint : Endpoint
  allowedIps : AllowedIps Unit
  presharedKey : Option Key
  keepaliveRange : Option U32Range

namespace Peer

variable [IpTable] {C : Crypto}

/-- `Peer::new`. -/
def new (tunnel : Tunn C) (index : UInt32) (endpoint : Option SocketAddr)
    (allowedIps : List AllowedIP) (presharedKey : Option Key) (keepaliveRange : Option U32Range) :
    Outcome (Peer C) := do
  let table ← AllowedIps.fromIter (allowedIps.map fun ip => (ip, ()))
  return { tunnel, index, endpoint := { addr := endpoint }, allowedIps := table, presharedKey,
           keepaliveRange }

/-- `Peer::shutdown_endpoint`. -/
def shutdownEndpoint (p : Peer C) : Peer C :=
  { p with endpoint := { p.endpoint with conn := none } }

/-- `Peer::is_allowed_ip`. -/
def isAllowedIp (p : Peer C) (addr : IpAddr) : Bool := (p.allowedIps.find addr).isSome

/-- `tunnel.set_mtu`. -/
def setMtu (mtu : UInt32) (p : Peer C) : Peer C := { p with tunnel := p.tunnel.setMtu mtu }

end Peer

/-- A pointer to a peer. -/
abbrev PeerRef := Nat

/-- The arguments of `update_peer`. -/
@[ext] structure PeerUpdate where
  publicKey : Key
  remove : Bool := false
  replaceIps : Bool := false
  endpoint : Option SocketAddr := none
  allowedIps : List AllowedIP := []
  keepalive : Option UInt16 := none
  keepaliveRange : Option U32Range := none
  presharedKey : Option Key := none
  deriving DecidableEq

/-! ## The device -/

/-- The network interface. -/
structure TunSocket where
  /-- The MTU the operating system has for it. -/
  currentMtu : Nat
  deriving DecidableEq, Repr

/-- `TunSocket::mtu`, which fails where the system call does. -/
def TunSocket.mtu (iface : TunSocket) (readable : Bool) : Option Nat :=
  if readable then some iface.currentMtu else none

/-- A device. -/
structure Device [IpTable] (C : Crypto) where
  /-- The private key and its public key. -/
  keyPair : Option (Key × Key)
  iface : TunSocket
  /-- Every peer there was, in the order they were made. -/
  arcs : List (Peer C)
  peers : AList fun _ : Key => PeerRef
  peersByIp : AllowedIps PeerRef
  peersByIdx : AList fun _ : UInt32 => PeerRef
  nextIndex : IndexLfsr
  amnezia : Amnezia3Config
  mtu : Nat
  rateLimiter : Option RateLimiter

namespace Device

/-- What the event loop should do after a handler returns. -/
inductive Action
  | continue
  | yield
  | exit
  deriving DecidableEq, Repr

variable [IpTable] {C : Crypto} {ε : Type} [Env ε] {ips : List AllowedIP} {index : UInt32}
  {u : PeerUpdate} {d : Device C}

/-- `Device::new`, for an interface with its first MTU and a seed for the indices. -/
def new (mtu : Nat) (nextIndex : IndexLfsr) : Device C where
  keyPair := none
  iface := ⟨mtu⟩
  arcs := []
  peers := ∅
  peersByIp := .new
  peersByIdx := ∅
  nextIndex
  amnezia := .default
  mtu
  rateLimiter := none

/-- `peer_amnezia_config`. -/
def peerAmneziaConfig (d : Device C) : Amnezia3Config :=
  { d.amnezia with mtu := UInt32.ofNat d.mtu }

/-- The configuration of a peer with its own range of keepalive intervals. -/
def configFor (d : Device C) (keepaliveRange : Option U32Range) : Amnezia3Config :=
  let amnezia := d.peerAmneziaConfig
  match keepaliveRange with
  | some range =>
      { amnezia with timingRanges := { amnezia.timingRanges with persistentKeepalive := range } }
  | none => amnezia

/-- `remove_peer`. -/
def removePeer (d : Device C) (pubKey : Key) : Device C :=
  match d.peers.lookup pubKey with
  | none => d
  | some peer =>
      { d with
        peers := d.peers.erase pubKey
        arcs := d.arcs.modify peer Peer.shutdownEndpoint
        peersByIdx :=
          match d.arcs[peer]? with
          | some p => d.peersByIdx.erase p.index
          | none => d.peersByIdx
        peersByIp := d.peersByIp.remove (peer == ·) }

/-- `clear_peers`. -/
def clearPeers (d : Device C) : Device C :=
  { d with peers := ∅, peersByIdx := ∅, peersByIp := .new }

/-- The end of `update_peer`: enter a new peer in the three tables. -/
def enterPeer (d : Device C) (pubKey : Key) (peer : Peer C) (allowedIps : List AllowedIP) :
    Outcome Unit × Device C :=
  let ref := d.arcs.length
  let (result, peersByIp) := d.peersByIp.insertAll (allowedIps.map fun ip => (ip, ref))
  (result,
    { d with
      arcs := d.arcs ++ [peer]
      peers := d.peers.insert pubKey ref
      peersByIdx := d.peersByIdx.insert peer.index ref
      peersByIp })

/-- The part of `update_peer` that makes the peer, once it has an index and the private
key. -/
def addPeer (d : Device C) (u : PeerUpdate) (index : UInt32) (privateKey : Key) (e : ε) :
    Outcome Unit × Device C × ε :=
  let (tunn, e) := Tunn.newWithAmnezia3 privateKey u.publicKey u.presharedKey u.keepalive index none
    (d.configFor u.keepaliveRange) e
  match tunn with
  -- a configuration that does not validate refuses the peer
  | .error _ => (.ok (), d, e)
  | .ok tunn =>
      match Peer.new tunn index u.endpoint u.allowedIps u.presharedKey u.keepaliveRange with
      | .error p => (.error p, d, e)
      | .ok peer =>
          let (result, d) := d.enterPeer u.publicKey peer u.allowedIps
          (result, d, e)

/-- `update_peer`. -/
def updatePeer (d : Device C) (u : PeerUpdate) (e : ε) : Outcome Unit × Device C × ε :=
  if u.remove then (.ok (), d.removePeer u.publicKey, e)
  else if (d.peers.lookup u.publicKey).isSome then
    (.panic "Modifying existing peers is not yet supported. Remove and add again instead.", d, e)
  else
    let (index, nextIndex) := d.nextIndex.next
    let d := { d with nextIndex }
    match index, d.keyPair with
    | .error p, _ => (.error p, d, e)
    | .ok _, none => (.panic "Private key must be set first", d, e)
    | .ok index, some (privateKey, _) => d.addPeer u index privateKey e

/-- Do something to every peer in the device. -/
def forPeers (d : Device C) (f : Peer C → Peer C) : Device C :=
  { d with arcs := (d.peers.entries.map (·.2)).foldl (fun arcs peer => arcs.modify peer f) d.arcs }

/-- The handler of `register_monitor`.  `pathExists` is whether the control socket is still
there. -/
def monitorHandler (d : Device C) (pathExists readable : Bool) : Action × Device C :=
  if !pathExists then (.exit, d)
  else
    match d.iface.mtu readable with
    | some mtu => (.continue, { d with mtu := mtu })
    | none => (.continue, d)

/-- Count the handshakes of the next second from zero. -/
def resetRateLimiter (d : Device C) (e : ε) : Device C × ε :=
  match d.rateLimiter with
  | some r =>
      let (r, e) := r.resetCount e
      ({ d with rateLimiter := some r }, e)
  | none => (d, e)

/-- Read the MTU of the interface and push a change into the tunnels. -/
def pollMtu (d : Device C) (readable : Bool) : Device C :=
  match d.iface.mtu readable with
  | some mtu =>
      let old := d.mtu
      let d := { d with mtu := mtu }
      if mtu ≠ old then d.forPeers (Peer.setMtu (UInt32.ofNat mtu)) else d
  | none => d

theorem pollMtu_true (d : Device C) :
    d.pollMtu true =
      if d.iface.currentMtu ≠ d.mtu then
        { d with mtu := d.iface.currentMtu }.forPeers
          (Peer.setMtu (UInt32.ofNat d.iface.currentMtu))
      else { d with mtu := d.iface.currentMtu } := rfl

/-- The first handler of `register_timers`. -/
def timersHandler (d : Device C) (readable : Bool) (e : ε) : Action × Device C × ε :=
  let (d, e) := d.resetRateLimiter e
  (.continue, d.pollMtu readable, e)

/-! ## What `update_peer` can do -/

/-- The update adds a peer: it is no removal, its key is new, and nothing on the way to the
tables stops it. -/
structure Admits (d : Device C) (u : PeerUpdate) : Prop where
  remove : u.remove = false
  publicKey : d.peers.lookup u.publicKey = none
  nextIndex : d.nextIndex.next.1.Returns
  keyPair : d.keyPair.isSome
  config : (d.configFor u.keepaliveRange).validate = .ok ()
  allowedIps : ∀ ip ∈ u.allowedIps, ip.network.isSome

/-- The table of a peer made for an update has the networks of the update. -/
def HasAllowedIps (peer : Peer C) (ips : List AllowedIP) : Prop :=
  ∀ net, peer.allowedIps.lookup net =
    if ∃ ip ∈ ips, ip.network = some net then some () else none

/-- The device after an update: a peer removed, nothing but an index used up, or a peer
entered in all tables. -/
inductive Updated (d : Device C) (u : PeerUpdate) : Device C → Prop
  | removed (h : u.remove = true) : Updated d u (d.removePeer u.publicKey)
  | refused (hremove : u.remove = false) (h : ¬ d.Admits u) (nextIndex : IndexLfsr) :
      Updated d u { d with nextIndex }
  | added (h : d.Admits u) {peer : Peer C} {nextIndex : IndexLfsr} {table : AllowedIps PeerRef}
      (hallowed : HasAllowedIps peer u.allowedIps)
      (hmtu : peer.tunnel.mtu = UInt32.ofNat d.mtu)
      (htable : ∀ net, table.lookup net =
        if ∃ ip ∈ u.allowedIps, ip.network = some net then some d.arcs.length
        else d.peersByIp.lookup net) :
      Updated d u
        { d with
          nextIndex
          arcs := d.arcs ++ [peer]
          peers := d.peers.insert u.publicKey d.arcs.length
          peersByIdx := d.peersByIdx.insert peer.index d.arcs.length
          peersByIp := table }

theorem configFor_mtu (d : Device C) (keepaliveRange : Option U32Range) :
    (d.configFor keepaliveRange).mtu = UInt32.ofNat d.mtu := by
  cases keepaliveRange <;> rfl

theorem new_of_valid (h : ∀ ip ∈ ips, ip.network.isSome) (tunnel : Tunn C) (index : UInt32)
    (endpoint : Option SocketAddr) (presharedKey : Option Key) (keepaliveRange : Option U32Range) :
    ∃ peer, Peer.new tunnel index endpoint ips presharedKey keepaliveRange = .ok peer ∧
      peer.tunnel = tunnel ∧ HasAllowedIps peer ips := by
  obtain ⟨table, hrun, hlookup⟩ := AllowedIps.lookup_insertAll h AllowedIps.new ()
  simp only [AllowedIps.lookup_new] at hlookup
  refine ⟨⟨tunnel, index, { addr := endpoint }, table, presharedKey, keepaliveRange⟩, ?_, rfl,
    hlookup⟩
  simp only [Peer.new, AllowedIps.fromIter, hrun]
  rfl

/-- An entry with too many bits panics. -/
theorem new_of_invalid {tunnel : Tunn C} {endpoint : Option SocketAddr} {presharedKey : Option Key}
    {keepaliveRange : Option U32Range} (h : ∃ ip ∈ ips, ip.network = none) :
    Peer.new tunnel index endpoint ips presharedKey keepaliveRange =
      .panic "cidr is valid length" := by
  have hrun := AllowedIps.insertAll_panics h AllowedIps.new ()
  simp only [Peer.new, AllowedIps.fromIter, hrun]
  rfl

/-- A peer that can be made is entered in all tables. -/
theorem addPeer_of_valid (hconfig : (d.configFor u.keepaliveRange).validate = .ok ())
    (hips : ∀ ip ∈ u.allowedIps, ip.network.isSome) (index : UInt32) (privateKey : Key) (e : ε) :
    ∃ (peer : Peer C) (table : AllowedIps PeerRef),
      HasAllowedIps peer u.allowedIps ∧ peer.tunnel.mtu = UInt32.ofNat d.mtu ∧
      (∀ net, table.lookup net =
        if ∃ ip ∈ u.allowedIps, ip.network = some net then some d.arcs.length
        else d.peersByIp.lookup net) ∧
      (d.addPeer u index privateKey e).2.1 =
        { d with
          arcs := d.arcs ++ [peer]
          peers := d.peers.insert u.publicKey d.arcs.length
          peersByIdx := d.peersByIdx.insert peer.index d.arcs.length
          peersByIp := table } := by
  obtain ⟨table, hrun, hlookup⟩ := AllowedIps.lookup_insertAll hips d.peersByIp d.arcs.length
  let tunn : Tunn C := (Tunn.ofConfig privateKey u.publicKey u.presharedKey u.keepalive index none
    (d.configFor u.keepaliveRange) e).1
  obtain ⟨peer, hnew, htunnel, hallowed⟩ :=
    new_of_valid hips tunn index u.endpoint u.presharedKey u.keepaliveRange
  refine ⟨peer, table, hallowed, ?_, hlookup, ?_⟩
  · rw [htunnel, ← configFor_mtu d u.keepaliveRange]
    rfl
  · simp only [tunn] at hnew
    simp only [addPeer, Tunn.newWithAmnezia3, hconfig, hnew, enterPeer, hrun]

/-- A peer that cannot be made leaves the device as it is. -/
theorem addPeer_of_invalid {privateKey : Key} {e : ε}
    (h : (d.configFor u.keepaliveRange).validate ≠ .ok () ∨
      ∃ ip ∈ u.allowedIps, ip.network = none) :
    (d.addPeer u index privateKey e).2.1 = d := by
  cases hvalid : (d.configFor u.keepaliveRange).validate with
  | error err => simp only [addPeer, Tunn.newWithAmnezia3, hvalid]
  | ok =>
    rcases h with h | h
    · exact absurd hvalid h
    · simp only [addPeer, Tunn.newWithAmnezia3, hvalid, new_of_invalid h, Outcome.panic]

/-- **One update.** -/
theorem updatePeer_updated (d : Device C) (u : PeerUpdate) (e : ε) :
    Updated d u (d.updatePeer u e).2.1 := by
  by_cases hremove : u.remove = true
  · rw [updatePeer, if_pos hremove]
    exact .removed hremove
  rw [Bool.not_eq_true] at hremove
  have hgo : ¬ u.remove = true := by simp [hremove]
  cases hkey : d.peers.lookup u.publicKey with
  | some ref =>
    rw [updatePeer, if_neg hgo, if_pos (by simp [hkey])]
    exact .refused hremove (fun h => by simpa [hkey] using h.publicKey) d.nextIndex
  | none =>
    have hnew : ¬ (d.peers.lookup u.publicKey).isSome = true := by simp [hkey]
    rcases hnext : d.nextIndex.next with ⟨p | index, l⟩
    · have hrun : (d.updatePeer u e).2.1 = { d with nextIndex := l } := by
        simp only [updatePeer, if_neg hgo, if_neg hnew, hnext]
      rw [hrun]
      refine .refused hremove (fun h => ?_) l
      have hreturns := h.nextIndex
      rw [hnext] at hreturns
      obtain ⟨i, hi⟩ := hreturns
      cases hi
    cases hpair : d.keyPair with
    | none =>
      have hrun : (d.updatePeer u e).2.1 = { d with nextIndex := l } := by
        simp only [updatePeer, if_neg hgo, if_neg hnew, hnext, hpair]
      rw [hrun]
      exact .refused hremove (fun h => by simpa [hpair] using h.keyPair) l
    | some pair =>
      have hrun : (d.updatePeer u e).2.1 =
          ({ d with nextIndex := l }.addPeer u index pair.1 e).2.1 := by
        simp only [updatePeer, if_neg hgo, if_neg hnew, hnext, hpair]
      rw [hrun]
      by_cases hok : (d.configFor u.keepaliveRange).validate = .ok () ∧
          ∀ ip ∈ u.allowedIps, ip.network.isSome
      · have hadmits : d.Admits u :=
          ⟨hremove, hkey, by rw [hnext]; exact ⟨index, rfl⟩, by simp [hpair], hok.1, hok.2⟩
        obtain ⟨peer, table, hallowed, hmtu, htable, heq⟩ :=
          addPeer_of_valid (d := { d with nextIndex := l }) hok.1 hok.2 index pair.1 e
        rw [heq]
        exact .added hadmits hallowed hmtu htable
      · rw [addPeer_of_invalid]
        · exact .refused hremove (fun h => hok ⟨h.config, h.allowedIps⟩) l
        · by_contra hcon
          push Not at hcon
          exact hok ⟨hcon.1, fun ip hip => Option.isSome_iff_ne_none.mpr (hcon.2 ip hip)⟩

/-! ## Runs -/

/-- What can happen to a device between two packets. -/
inductive Event
  | updatePeer (u : PeerUpdate)
  | removePeer (pubKey : Key)
  | clearPeers
  /-- The MTU of the interface changes. -/
  | ifaceMtu (mtu : Nat)
  | monitor (pathExists readable : Bool)
  | timers (readable : Bool)

/-- The device and its environment after an event. -/
def step : Device C × ε → Event → Device C × ε
  | (d, e), .updatePeer u => (d.updatePeer u e).2
  | (d, e), .removePeer pubKey => (d.removePeer pubKey, e)
  | (d, e), .clearPeers => (d.clearPeers, e)
  | (d, e), .ifaceMtu mtu => ({ d with iface := ⟨mtu⟩ }, e)
  | (d, e), .monitor pathExists readable => ((d.monitorHandler pathExists readable).2, e)
  | (d, e), .timers readable => (d.timersHandler readable e).2

end Device
