import AwgTun.Device.Receive
import AwgTun.Noise.Turn

/-!
# The event loop of a device

The handlers of `device/mod.rs` that carry traffic, and the configuration changes that
reach the tunnels of all peers: `set_key`, `set_amnezia_config` and `open_listen_socket`.

A connected socket is numbered by its place in the queue of handlers, which holds the
pointer to the peer that the handler has captured.  Wherever a socket is taken out of an
endpoint it is shut down, and nothing is delivered to the handler of a socket that has been
shut down; so a handler is live exactly as long as its socket is the one in the endpoint of
its peer (`EventLoop.Live`).

The anonymous sockets are open and every send succeeds; whether a socket can be connected is
left to the operating system.  The rate limiter of a device is shared with tunnels, whose
counting shows as steps of its own (`EventLoop.Step.countDevice`, `EventLoop.Step.countPeer`).  A
handler that panics is gone with its thread: it has no step.
-/

open Control Bytes

variable {C : Crypto} {ε : Type} [Env ε]

/-- `MAX_UDP_SIZE`. -/
def maxUdpSize : Nat := 2 ^ 16 - 1

/-- `HANDSHAKE_RATE_LIMIT`. -/
def handshakeRateLimit : UInt64 := 100

/-- `SocketAddr::ip`. -/
def SocketAddr.ip : SocketAddr → IpAddr
  | v4 ip _ => .v4 ip
  | v6 ip _ _ _ => .v6 ip

/-! ## Handshakes without a tunnel -/

/-- `HalfHandshake`. -/
structure HalfHandshake where
  peerIndex : UInt32
  peerStaticPublic : Key

/-- `parse_handshake_anon`: who an initiation says it is from. -/
def parseHandshakeAnon (C : Crypto) (staticPrivate staticPublic : Key) (packet : HandshakeInit) :
    Except WireGuardError HalfHandshake := do
  let chainingKey := initialChainKey
  let hash := initialChainHash
  let hash := C.b2sHash hash staticPublic
  let peerEphemeralPublic := packet.unencryptedEphemeral
  let hash := C.b2sHash hash peerEphemeralPublic
  let chainingKey := C.b2sHmac (C.b2sHmac chainingKey peerEphemeralPublic) [0x01]
  let ephemeralShared := C.diffieHellman staticPrivate peerEphemeralPublic
  let temp := C.b2sHmac chainingKey ephemeralShared
  let chainingKey := C.b2sHmac temp [0x01]
  let key := C.b2sHmac2 temp chainingKey [0x02]
  let static ← aeadChacha20Open C key 0 packet.encryptedStatic hash
  return { peerIndex := packet.senderIdx, peerStaticPublic := toArr 32 static }

namespace Tunn

/-- `dst_address`. -/
def dstAddress (packet : Bytes) : Option IpAddr :=
  match packet.head? with
  | none => none
  | some first =>
      if first >>> 4 = 4 ∧ packet.length ≥ 20 then
        some (.v4 (IpAddr.ofBytesV4 (slice packet 16 20)))
      else if first >>> 4 = 6 ∧ packet.length ≥ 40 then
        some (.v6 (IpAddr.ofBytesV6 (slice packet 24 40)))
      else none

/-- `persistent_keepalive`: the interval that is armed. -/
def persistentKeepalive (t : Tunn C) : Option UInt16 :=
  if !t.timers.timingRanges.persistentKeepalive.isZero then
    some (UInt16.ofNat (min (Duration.asSecs t.timers.persistentKeepaliveNext) (2 ^ 16 - 1)))
  else if t.timers.persistentKeepalive > 0 then some (UInt16.ofNat t.timers.persistentKeepalive)
  else none

/-- Poll for outgoing datagrams, at most `n` times. -/
def drainLoop : Nat → Tunn C → List Bytes × Tunn C
  | 0, t => ([], t)
  | n + 1, t =>
      match t.pollOutgoingPacket with
      | (none, t) => ([], t)
      | (some packet, t) =>
          let (packets, t) := drainLoop n t
          (packet :: packets, t)

/-- `drain_outgoing`. -/
def drainOutgoing (t : Tunn C) : List Bytes × Tunn C := drainLoop (t.networkOutgoing.length + 1) t

/-- The loop that flushes the queue of blocked packets, at most `n` times.  What a handshake
has queued goes out before its initiation. -/
def flushLoop : Nat → Tunn C → ε → Outcome (List Bytes × Tunn C × ε)
  | 0, t, e => .ok ([], t, e)
  | n + 1, t, e => do
      let (r, t, e) ← t.decapsulate none [] maxUdpSize e
      match r with
      | .writeToNetwork packet => do
          let (queued, t) := t.drainOutgoing
          let (sent, t, e) ← flushLoop n t e
          return (queued ++ packet :: sent, t, e)
      | _ => return ([], t, e)

/-- Flush until nothing is left to send.  A flush that sends takes a packet off the queue or
starts a handshake, and it starts no second one. -/
def flush (t : Tunn C) (e : ε) : Outcome (List Bytes × Tunn C × ε) :=
  flushLoop (t.packetQueue.length + 2) t e

end Tunn

/-! ## Effects -/

/-- Where a datagram is sent to. -/
inductive Destination
  | addr (a : SocketAddr)
  | conn (c : Conn)
  deriving DecidableEq, Repr

/-- What a handler does to the world. -/
inductive Effect
  /-- A packet that the tunnel of a peer has delivered is written to the interface. -/
  | write (peer : PeerRef) (packet : Bytes)
  /-- A datagram that the tunnel of a peer has produced is sent. -/
  | send (peer : PeerRef) (datagram : Bytes) (dst : Destination)
  /-- A cookie reply of the limiter of the device is sent. -/
  | cookie (datagram : Bytes) (addr : SocketAddr)
  deriving DecidableEq, Repr

/-- The peer whose tunnel an effect comes from. -/
def Effect.peer : Effect → Option PeerRef
  | write peer _ => some peer
  | send peer _ _ => some peer
  | cookie _ _ => none

/-! ## Peers -/

namespace Peer

variable [IpTable]

/-- `set_endpoint`: has the address changed?  The old socket is shut down if so. -/
def setEndpoint (p : Peer C) (addr : SocketAddr) : Bool × Peer C :=
  if p.endpoint.addr ≠ some addr then
    (true, { p with endpoint := { addr := some addr, conn := none } })
  else (false, p)

/-- `connect_endpoint`, where the operating system gives a socket or none. -/
def connectEndpoint (p : Peer C) (sock : Option Conn) : Outcome (Option Conn × Peer C) :=
  if p.endpoint.conn.isSome then .ok (none, p)
  else
    match p.endpoint.addr with
    | none => .panic "Attempt to connect to undefined endpoint"
    | some _ =>
        match sock with
        | none => .ok (none, p)
        | some c => .ok (some c, { p with endpoint := { p.endpoint with conn := some c } })

/-- `set_tunnel`. -/
def setTunnel (p : Peer C) (tunnel : Tunn C) (index : UInt32) : Peer C := { p with tunnel, index }

/-- What a handler does with the result of a tunnel. -/
def effectsOf (p : Peer C) (ref : PeerRef) (dst : Destination) : TunnResult → List Effect
  | .done => []
  | .err _ => []
  | .writeToNetwork datagram => [.send ref datagram dst]
  | .writeToTunnelV4 packet src => if p.isAllowedIp (.v4 src) then [.write ref packet] else []
  | .writeToTunnelV6 packet src => if p.isAllowedIp (.v6 src) then [.write ref packet] else []

/-- The common part of the two socket handlers: act on the result, and flush the queue of
blocked packets if it was a datagram. -/
def respond (p : Peer C) (ref : PeerRef) (dst : Destination) (r : TunnResult) (e : ε) :
    Outcome (List Effect × Peer C × ε) :=
  match r with
  | .writeToNetwork _ => do
      let (sent, tunnel, e) ← p.tunnel.flush e
      return (p.effectsOf ref dst r ++ sent.map (.send ref · dst), { p with tunnel }, e)
  | _ => .ok (p.effectsOf ref dst r, p, e)

/-- The anonymous handler, once it has found the peer: handle the packet and, unless it is
refused, point the peer at the address it came from.  The first result is whether the packet
was good. -/
def handleAnonymous (p : Peer C) (ref : PeerRef) (packet : Packet) (addr : SocketAddr) (e : ε) :
    Outcome (Bool × List Effect × Peer C × ε) := do
  let (r, tunnel, e) ← p.tunnel.handleVerifiedPacket packet maxUdpSize e
  let p := { p with tunnel := tunnel }
  match r with
  | .err _ => return (false, [], p, e)
  | r => do
      let (effects, p, e) ← p.respond ref (.addr addr) r e
      let (moved, p) := p.setEndpoint addr
      let p := if moved then { p with tunnel := p.tunnel.resetUdpWindow } else p
      return (true, effects, p, e)

/-- The handler of a connected socket. -/
def handleConnected (p : Peer C) (ref : PeerRef) (conn : Conn) (peerAddr : IpAddr)
    (datagram : Bytes) (e : ε) : Outcome (List Effect × Peer C × ε) := do
  let (r, tunnel, e) ← p.tunnel.decapsulate (some peerAddr) datagram maxUdpSize e
  { p with tunnel := tunnel }.respond ref (.conn conn) r e

/-- One peer's turn in the second handler of `register_timers`. -/
def handleTimers (p : Peer C) (ref : PeerRef) (e : ε) : Outcome (List Effect × Peer C × ε) :=
  match p.endpoint.addr with
  | none => .ok ([], p, e)
  | some addr => do
      let (r, tunnel, e) ← p.tunnel.updateTimers maxUdpSize e
      let p := { p with tunnel := tunnel }
      match r with
      | .done => return ([], p, e)
      | .err .connectionExpired => return ([], p.shutdownEndpoint, e)
      | .err _ => return ([], p, e)
      | .writeToNetwork packet =>
          let (queued, tunnel) := p.tunnel.drainOutgoing
          return ((queued ++ [packet]).map (.send ref · (.addr addr)), { p with tunnel }, e)
      | _ => .panic "Unexpected result from update_timers"

/-- The handler of the interface, once it has found the peer: the connected socket is
preferred. -/
def handleIface (p : Peer C) (ref : PeerRef) (src : Bytes) (e : ε) :
    Outcome (List Effect × Peer C × ε) := do
  let (r, tunnel, e) ← p.tunnel.encapsulate src maxUdpSize e
  let p := { p with tunnel := tunnel }
  match r with
  | .done => return ([], p, e)
  | .err _ => return ([], p, e)
  | .writeToNetwork packet =>
      let (queued, tunnel) := p.tunnel.drainOutgoing
      let p := { p with tunnel }
      match p.endpoint.conn, p.endpoint.addr with
      | some conn, _ => return ((queued ++ [packet]).map (.send ref · (.conn conn)), p, e)
      | none, some addr => return ((queued ++ [packet]).map (.send ref · (.addr addr)), p, e)
      -- no endpoint
      | none, none => return ([], p, e)
  | _ => .panic "Unexpected result from encapsulate"

end Peer

/-! ## The device -/

namespace Device

variable [IpTable]

/-- Do something to the peer behind a pointer, if there is one. -/
def atPeer (d : Device C) (ref : PeerRef)
    (f : Peer C → ε → Outcome (List Effect × Peer C × ε)) (e : ε) :
    Outcome (List Effect × Device C × ε) :=
  match d.arcs[ref]? with
  | none => .ok ([], d, e)
  | some p => do
      let (effects, p, e) ← f p e
      return (effects, { d with arcs := d.arcs.set ref p }, e)

/-- The peer an anonymous packet is for. -/
def peerFor (d : Device C) (privateKey publicKey : Key) : Packet → Option PeerRef
  | .handshakeInit p =>
      (parseHandshakeAnon C privateKey publicKey p).toOption.bind fun hh =>
        d.peers.lookup hh.peerStaticPublic
  | .handshakeResponse p => d.peersByIdx.lookup (p.receiverIdx >>> 8)
  | .packetCookieReply p => d.peersByIdx.lookup (p.receiverIdx >>> 8)
  | .packetData p => d.peersByIdx.lookup (p.receiverIdx >>> 8)

/-- The anonymous handler up to the lookup of the peer: a packet that has passed the limiter,
or what is done instead. -/
def verifyAnonymous (d : Device C) (limiter : RateLimiter) (datagram : Bytes) (addr : SocketAddr)
    (e : ε) : Outcome (Except (List Effect) Packet × Device C × ε) := do
  let bytes ← unframe C d.amnezia datagram
  let (verified, limiter, e) := limiter.verifyPacket C (some addr.ip) bytes cookieReplySz
    d.amnezia.headers d.amnezia.disableCookies e
  let d := { d with rateLimiter := some limiter }
  match verified with
  | .ok packet => return (.ok packet, d, e)
  | .error (.writeToNetwork reply) =>
      let s3 := d.amnezia.paddings.s3.toNat
      if s3 + reply.length > maxUdpSize then return (.error [], d, e)
      else do
        let (before, e) := Tunn.randomBytes s3 e
        let masked ←
          match d.amnezia.headerProtection with
          | some hp => hp.apply C before reply
          | none => .ok reply
        return (.error [.cookie (before ++ masked) addr], d, e)
  | .error _ => return (.error [], d, e)

/-- `set_key`. -/
def setKey (d : Device C) (privateKey : Key) (e : ε) : Device C × ε :=
  let publicKey := C.publicKey privateKey
  if some publicKey = d.keyPair.map (·.2) then (d, e)
  else
    let (limiter, e) := RateLimiter.new C publicKey handshakeRateLimit e
    let rekey (p : Peer C) : Peer C :=
      match p.tunnel.setStaticPrivate privateKey publicKey (some limiter) e with
      | .ok (tunnel, _) => { p with tunnel }
      | .error _ => p
    ({ d.forPeers rekey with
       keyPair := some (privateKey, publicKey), rateLimiter := some limiter }, e)

/-- One peer's turn in `set_amnezia_config`: a tunnel made anew, with a new index. -/
def rebuildPeer (d : Device C) (privateKey pubKey : Key) (ref : PeerRef) (e : ε) :
    Outcome Unit × Device C × ε :=
  match d.arcs[ref]? with
  | none => (.ok (), d, e)
  | some p =>
      let config := d.configFor p.keepaliveRange
      let keepalive :=
        match p.keepaliveRange with
        | some _ => none
        | none => p.tunnel.persistentKeepalive
      let (index, nextIndex) := d.nextIndex.next
      let d := { d with nextIndex }
      match index with
      | .error err => (.error err, d, e)
      | .ok index =>
          let (tunn, e) := Tunn.newWithAmnezia3 privateKey pubKey p.presharedKey keepalive index
            none config e
          match tunn with
          -- the peer is left on its old tunnel
          | .error _ => (.ok (), d, e)
          | .ok tunn =>
              (.ok (),
                { d with
                  arcs := d.arcs.set ref (p.setTunnel tunn index)
                  peersByIdx := (d.peersByIdx.erase p.index).insert index ref }, e)

/-- The device after a peer's turn: an index may be used up, and the tunnel may be another
one, entered under its own index. -/
theorem rebuildPeer_cases (d : Device C) (privateKey pubKey : Key) (ref : PeerRef) (e : ε) :
    (∃ nextIndex, (d.rebuildPeer privateKey pubKey ref e).2.1 = { d with nextIndex }) ∨
      ∃ nextIndex p tunnel index, d.arcs[ref]? = some p ∧
        (d.rebuildPeer privateKey pubKey ref e).2.1 =
          { d with
            nextIndex
            arcs := d.arcs.set ref (p.setTunnel tunnel index)
            peersByIdx := (d.peersByIdx.erase p.index).insert index ref } := by
  unfold rebuildPeer
  split
  · exact .inl ⟨d.nextIndex, rfl⟩
  · rename_i p hp
    simp only
    split
    · exact .inl ⟨_, rfl⟩
    · rename_i index hindex
      split
      · exact .inl ⟨_, rfl⟩
      · rename_i tunn htunn
        exact .inr ⟨_, p, tunn, index, hp, rfl⟩

/-- The loop of `set_amnezia_config`. -/
def rebuildPeers (privateKey : Key) :
    List (Sigma fun _ : Key => PeerRef) → Device C → ε → Outcome Unit × Device C × ε
  | [], d, e => (.ok (), d, e)
  | entry :: entries, d, e =>
      match d.rebuildPeer privateKey entry.1 entry.2 e with
      | (.ok (), d, e) => rebuildPeers privateKey entries d e
      | (.error err, d, e) => (.error err, d, e)

/-- `set_amnezia_config`. -/
def setAmneziaConfig (d : Device C) (amnezia : Amnezia3Config) (e : ε) :
    Outcome Unit × Device C × ε :=
  if d.amnezia = amnezia then (.ok (), d, e)
  else
    let d := { d with amnezia }
    match d.keyPair with
    | none => (.ok (), d, e)
    | some (privateKey, _) => rebuildPeers privateKey (Env.walk e d.peers.entries) d e

/-- What `open_listen_socket` does to the peers. -/
def openListenSocket (d : Device C) : Device C := d.forPeers Peer.shutdownEndpoint

/-- The second handler of `register_timers`: every peer in turn. -/
def timePeers : List PeerRef → Device C → ε → Outcome (List Effect × Device C × ε)
  | [], d, e => .ok ([], d, e)
  | ref :: refs, d, e => do
      let (effects, d, e) ← d.atPeer ref (Peer.handleTimers · ref) e
      let (rest, d, e) ← timePeers refs d e
      return (effects ++ rest, d, e)

/-- The handler of the interface, for one packet. -/
def ifaceHandler (d : Device C) (src : Bytes) (e : ε) : Outcome (List Effect × Device C × ε) :=
  match (Tunn.dstAddress src).bind d.peersByIp.find with
  | none => .ok ([], d, e)
  | some ref => d.atPeer ref (Peer.handleIface · ref src) e

end Device

/-! ## The event loop -/

/-- The handler of a connected socket. -/
structure ConnHandler where
  peer : PeerRef
  peerAddr : IpAddr
  deriving DecidableEq, Repr

/-- A device with the handlers in its event queue. -/
structure EventLoop [IpTable] (C : Crypto) where
  device : Device C
  useConnectedSocket : Bool
  /-- The handlers of connected sockets, in the order they were registered. -/
  queue : List ConnHandler

namespace EventLoop

variable [IpTable]

/-- A new device. -/
def new (mtu : Nat) (nextIndex : IndexLfsr) (useConnectedSocket : Bool) : EventLoop C where
  device := .new mtu nextIndex
  useConnectedSocket
  queue := []

/-- The handler is registered and its socket has not been shut down. -/
def Live (s : EventLoop C) (conn : Conn) (handler : ConnHandler) : Prop :=
  s.queue[conn]? = some handler ∧
    ∃ p, s.device.arcs[handler.peer]? = some p ∧ p.endpoint.conn = some conn

/-- The end of the anonymous handler: connect a socket to the peer and register its handler. -/
def connect (s : EventLoop C) (ref : PeerRef) (addr : SocketAddr) (connects : Bool) :
    Outcome (EventLoop C) :=
  match s.device.arcs[ref]? with
  | none => .ok s
  | some p =>
      if s.useConnectedSocket then do
        let (sock, p) ← p.connectEndpoint (if connects then some s.queue.length else none)
        match sock with
        | some _ =>
            return { s with
              device := { s.device with arcs := s.device.arcs.set ref p }
              queue := s.queue ++ [⟨ref, addr.ip⟩] }
        | none => return s
      else .ok s

/-- The handler of `register_udp_handler`, for one datagram. -/
def udpHandler (s : EventLoop C) (datagram : Bytes) (addr : SocketAddr) (connects : Bool) (e : ε) :
    Outcome (List Effect × EventLoop C × ε) :=
  match s.device.keyPair, s.device.rateLimiter with
  | none, _ => .panic "Key not set"
  | some _, none => .panic "called Option::unwrap() on a None value"
  | some (privateKey, publicKey), some limiter => do
      let (verified, d, e) ← s.device.verifyAnonymous limiter datagram addr e
      let s := { s with device := d }
      match verified with
      | .error effects => return (effects, s, e)
      | .ok packet =>
          match d.peerFor privateKey publicKey packet with
          | none => return ([], s, e)
          | some ref =>
              match d.arcs[ref]? with
              | none => return ([], s, e)
              | some p => do
                  let (good, effects, p, e) ← p.handleAnonymous ref packet addr e
                  let s := { s with device := { d with arcs := d.arcs.set ref p } }
                  let s ← if good then s.connect ref addr connects else .ok s
                  return (effects, s, e)

/-- The handler of `register_conn_handler`, for one datagram. -/
def connHandler (s : EventLoop C) (conn : Conn) (handler : ConnHandler) (datagram : Bytes) (e : ε) :
    Outcome (List Effect × EventLoop C × ε) := do
  let (effects, d, e) ← s.device.atPeer handler.peer
    (Peer.handleConnected · handler.peer conn handler.peerAddr datagram) e
  return (effects, { s with device := d }, e)

/-- What can happen to a device. -/
inductive Input
  /-- A change of the peers or of the interface, or the first handler of `register_timers`. -/
  | control (event : Device.Event)
  | setKey (privateKey : Key)
  | setAmneziaConfig (amnezia : Amnezia3Config)
  | openListenSocket
  /-- The second handler of `register_timers`. -/
  | timers
  /-- A packet is read from the interface. -/
  | iface (src : Bytes)
  /-- A datagram arrives on an anonymous socket. -/
  | anonymous (datagram : Bytes) (addr : SocketAddr)
  /-- A datagram arrives on a connected socket. -/
  | connected (conn : Conn) (datagram : Bytes)
  /-- A shared rate limiter has counted elsewhere. -/
  | count

/-- One step of the loop, with any environment. -/
inductive Step (ε : Type) [Env ε] : EventLoop C → Input → List Effect → EventLoop C → Prop
  | control {s : EventLoop C} {event : Device.Event} {e : ε} :
      Step ε s (.control event) [] { s with device := (Device.step (s.device, e) event).1 }
  | setKey {s : EventLoop C} {privateKey : Key} {e : ε} :
      Step ε s (.setKey privateKey) [] { s with device := (s.device.setKey privateKey e).1 }
  | setAmneziaConfig {s : EventLoop C} {amnezia : Amnezia3Config} {e : ε} :
      Step ε s (.setAmneziaConfig amnezia) []
        { s with device := (s.device.setAmneziaConfig amnezia e).2.1 }
  | openListenSocket {s : EventLoop C} :
      Step ε s .openListenSocket [] { s with device := s.device.openListenSocket }
  | timers {s : EventLoop C} {effects : List Effect} {d : Device C} {e e' : ε}
      (h : Device.timePeers (Env.walk e (s.device.peers.entries.map (·.2))) s.device e =
        .ok (effects, d, e')) :
      Step ε s .timers effects { s with device := d }
  | iface {s : EventLoop C} {src : Bytes} {effects : List Effect} {d : Device C} {e e' : ε}
      (h : s.device.ifaceHandler src e = .ok (effects, d, e')) :
      Step ε s (.iface src) effects { s with device := d }
  | anonymous {s s' : EventLoop C} {datagram : Bytes} {addr : SocketAddr} {connects : Bool}
      {effects : List Effect} {e e' : ε}
      (h : s.udpHandler datagram addr connects e = .ok (effects, s', e')) :
      Step ε s (.anonymous datagram addr) effects s'
  | connected {s s' : EventLoop C} {conn : Conn} {handler : ConnHandler} {datagram : Bytes}
      {effects : List Effect} {e e' : ε} (hlive : s.Live conn handler)
      (h : s.connHandler conn handler datagram e = .ok (effects, s', e')) :
      Step ε s (.connected conn datagram) effects s'
  | countDevice {s : EventLoop C} {r r' : RateLimiter} (hr : s.device.rateLimiter = some r)
      (h : r.SameButCounts r') :
      Step ε s .count [] { s with device := { s.device with rateLimiter := some r' } }
  | countPeer {s : EventLoop C} {ref : PeerRef} {p : Peer C} {r : RateLimiter}
      (hp : s.device.arcs[ref]? = some p) (h : p.tunnel.rateLimiter.SameButCounts r) :
      Step ε s .count [] { s with device := { s.device with
        arcs := s.device.arcs.set ref { p with tunnel := { p.tunnel with rateLimiter := r } } } }

end EventLoop
