import AwgTun.Noise.Timers

/-!
# The tunnel: state and sending

`Tunn` of `noise/mod.rs`, with everything it keeps between calls, and the half of
its operations that produce datagrams: `encapsulate`, the framing of handshake
messages and `formatHandshakeInitiation`.

A buffer the caller passes in is its length: what an operation leaves in it is the
datagram it returns.  An operation returns its result together with the tunnel and
the environment after it, also when the result is an error, since the source
mutates in place; a panic returns nothing.
-/

open Control Bytes

/-- `MAX_QUEUE_DEPTH`. -/
def maxQueueDepth : Nat := 256

/-- `PEER_HANDSHAKE_RATE_LIMIT`. -/
def peerHandshakeRateLimit : UInt64 := 10

/-- A point-to-point connection. -/
structure Tunn (C : Crypto) where
  handshake : Handshake C
  /-- The most recent sessions, by index modulo the number of slots. -/
  sessions : Fin nSessions → Option Session
  /-- Index of the session in use. -/
  current : Nat
  /-- Packets that wait for a session. -/
  packetQueue : List Bytes
  timers : Timers
  txBytes : Nat
  rxBytes : Nat
  rateLimiter : RateLimiter
  headerConfig : HeaderConfig
  paddingConfig : PaddingConfig
  junkConfig : JunkConfig
  initPacketConfig : InitPacketConfig
  headerProtection : Option HeaderProtection
  contentPadding : Option U32Range
  mtu : UInt32
  randomTrailers : Bool
  disableCookies : Bool
  /-- The largest datagram seen on this tunnel. -/
  udpWindow : UInt32
  /-- Datagrams to send before the next initiation. -/
  networkOutgoing : List Bytes

namespace Tunn

variable {C : Crypto} {ε : Type} [Env ε]

/-- The tunnel of a configuration that has passed validation. -/
def ofConfig (staticPrivate peerStaticPublic : Key) (presharedKey : Option Key)
    (persistentKeepalive : Option UInt16) (index : UInt32) (rateLimiter : Option RateLimiter)
    (amnezia : Amnezia3Config) (e : ε) : Tunn C × ε :=
  let staticPublic := C.publicKey staticPrivate
  let (handshake, e) :=
    Handshake.new staticPrivate staticPublic peerStaticPublic (index <<< 8) presharedKey rfl e
  let (timers, e) := Timers.new persistentKeepalive rateLimiter.isNone amnezia.timingRanges e
  let (rateLimiter, e) :=
    match rateLimiter with
    | some rateLimiter => (rateLimiter, e)
    | none => RateLimiter.new C staticPublic peerHandshakeRateLimit e
  ({ handshake
     sessions := fun _ => none
     current := 0
     packetQueue := []
     timers
     txBytes := 0
     rxBytes := 0
     rateLimiter
     headerConfig := amnezia.headers
     paddingConfig := amnezia.paddings
     junkConfig := amnezia.junk
     initPacketConfig := amnezia.initPackets
     headerProtection := amnezia.headerProtection
     contentPadding := amnezia.contentPaddingAddition
     mtu := amnezia.mtu
     randomTrailers := amnezia.randomTrailers
     disableCookies := amnezia.disableCookies
     udpWindow := awg31DefaultUdpWindow
     networkOutgoing := [] }, e)

/-- `Tunn::new_with_amnezia3`. -/
def newWithAmnezia3 (staticPrivate peerStaticPublic : Key) (presharedKey : Option Key)
    (persistentKeepalive : Option UInt16) (index : UInt32) (rateLimiter : Option RateLimiter)
    (amnezia : Amnezia3Config) (e : ε) : Except ConfigError (Tunn C) × ε :=
  match amnezia.validate with
  | .error err => (.error err, e)
  | .ok () =>
      let (t, e) := ofConfig staticPrivate peerStaticPublic presharedKey persistentKeepalive index
        rateLimiter amnezia e
      (.ok t, e)

/-- A tunnel that was made is the one of its configuration, which has passed. -/
theorem newWithAmnezia3_eq_ok {staticPrivate peerStaticPublic : Key} {presharedKey : Option Key}
    {persistentKeepalive : Option UInt16} {index : UInt32} {rateLimiter : Option RateLimiter}
    {amnezia : Amnezia3Config} {e e' : ε} {t : Tunn C}
    (h : newWithAmnezia3 staticPrivate peerStaticPublic presharedKey persistentKeepalive index
      rateLimiter amnezia e = (.ok t, e')) :
    amnezia.validate = .ok () ∧ t = (ofConfig staticPrivate peerStaticPublic presharedKey
      persistentKeepalive index rateLimiter amnezia e).1 := by
  unfold newWithAmnezia3 at h
  split at h
  · cases h
  · rename_i hvalid
    cases h
    exact ⟨hvalid, rfl⟩

/-- The tunnel speaks the wire format of a configuration.  The MTU and the window
change during its life and are left open. -/
structure HasConfig (t : Tunn C) (cfg : Amnezia3Config) : Prop where
  headers : t.headerConfig = cfg.headers
  paddings : t.paddingConfig = cfg.paddings
  headerProtection : t.headerProtection = cfg.headerProtection
  contentPadding : t.contentPadding = cfg.contentPaddingAddition
  randomTrailers : t.randomTrailers = cfg.randomTrailers
  disableCookies : t.disableCookies = cfg.disableCookies

/-! ## Small operations -/

/-- `set_mtu`. -/
def setMtu (t : Tunn C) (mtu : UInt32) : Tunn C := { t with mtu := mtu }

/-- `reset_udp_window`. -/
def resetUdpWindow (t : Tunn C) : Tunn C := { t with udpWindow := awg31DefaultUdpWindow }

/-- `observe_datagram`: raise the window to the size of a datagram. -/
def observeDatagram (t : Tunn C) (size : Nat) : Tunn C :=
  { t with udpWindow := max t.udpWindow (UInt32.ofNat (min size (2 ^ 32 - 1))) }

/-- `timer_tick`. -/
def timerTick (t : Tunn C) (name : TimerName) : Tunn C := { t with timers := t.timers.tick name }

/-- `self.sessions[idx % N_SESSIONS] = Some(session)`. -/
def storeSession (t : Tunn C) (idx : Nat) (session : Session) : Tunn C :=
  { t with sessions := Function.update t.sessions (slotOf idx) (some session) }

/-- `set_static_private`. -/
def setStaticPrivate (t : Tunn C) (staticPrivate staticPublic : Key)
    (rateLimiter : Option RateLimiter) (e : ε) : Outcome (Tunn C × ε) := do
  let timers := { t.timers with shouldResetRr := rateLimiter.isNone }
  let (rateLimiter, e) :=
    match rateLimiter with
    | some rateLimiter => (rateLimiter, e)
    | none => RateLimiter.new C staticPublic peerHandshakeRateLimit e
  let handshake ← t.handshake.setStaticPrivate staticPrivate staticPublic
  return ({ t with timers, rateLimiter, handshake, sessions := fun _ => none }, e)

/-- `poll_outgoing_packet`. -/
def pollOutgoingPacket (t : Tunn C) : Option Bytes × Tunn C :=
  match t.networkOutgoing with
  | [] => (none, t)
  | packet :: rest => (some packet, { t with networkOutgoing := rest })

/-- `queue_packet`: a full queue drops the packet. -/
def queuePacket (t : Tunn C) (packet : Bytes) : Tunn C :=
  if t.packetQueue.length < maxQueueDepth then
    { t with packetQueue := t.packetQueue ++ [packet] }
  else t

/-- `requeue_packet`. -/
def requeuePacket (t : Tunn C) (packet : Bytes) : Tunn C :=
  if t.packetQueue.length < maxQueueDepth then { t with packetQueue := packet :: t.packetQueue }
  else t

/-- `n` random bytes; the source is not asked for none. -/
def randomBytes (n : Nat) (e : ε) : Bytes × ε :=
  if 0 < n then
    let (buf, e) := RandomSource.fillBytes e n
    (buf.toList, e)
  else ([], e)

@[simp] theorem length_randomBytes (n : Nat) (e : ε) : (randomBytes n e).1.length = n := by
  unfold randomBytes
  split_ifs with h
  · exact (RandomSource.fillBytes e n).1.toList_length
  · simp only [List.length_nil]
    omega

/-! ## Padding -/

/-- `trailer_for`: how many random bytes follow a datagram of `packetSize` bytes. -/
def trailerFor (t : Tunn C) (packetSize dstLen : Nat) (e : ε) : Nat × ε :=
  if t.randomTrailers then
    let (want, e) := randomTrailerLen packetSize t.udpWindow e
    (min want (dstLen - packetSize), e)
  else (0, e)

/-- `content_padding_addition`: a draw from the configured range, bounded by what
the window, the MTU and the buffer leave beyond `datagramSize`. -/
def contentPaddingAddition (t : Tunn C) (datagramSize dstLen : Nat) (e : ε) : Nat × ε :=
  match t.contentPadding with
  | none => (0, e)
  | some range =>
      if t.udpWindow.toNat < datagramSize then (0, e)
      else
        let (draw, e) := range.generate e
        let add := min draw.toNat (t.udpWindow.toNat - datagramSize)
        let add := if t.mtu ≠ 0 then min add (t.mtu.toNat - datagramSize) else add
        (min add (dstLen - datagramSize), e)

/-- The datagram a payload of `packetSize` bytes makes before it is padded. -/
def datagramSize (t : Tunn C) (packetSize : Nat) : Nat :=
  t.paddingConfig.s4.toNat + dataOverheadSz + packetSize

/-- `transport_padding`. -/
def transportPadding (t : Tunn C) (packetSize dstLen : Nat) (e : ε) : Nat × ε :=
  let datagram := t.datagramSize packetSize
  if t.contentPadding.isSome then t.contentPaddingAddition datagram dstLen e
  else t.trailerFor datagram dstLen e

/-! ## Transport packets -/

/-- `peer_would_misclassify`: would a peer that tries the handshake messages first
take this datagram for one? -/
def peerWouldMisclassify (t : Tunn C) (datagram mask : Bytes) : Bool :=
  let candidates := [
    (t.paddingConfig.s1.toNat, t.headerConfig.init, handshakeInitSz),
    (t.paddingConfig.s2.toNat, t.headerConfig.response, handshakeRespSz),
    (t.paddingConfig.s3.toNat, t.headerConfig.cookie, cookieReplySz)]
  candidates.any fun (padding, range, msgSize) =>
    let expected := padding + msgSize
    let sizeOk := datagram.length == expected
      || (t.randomTrailers && decide (datagram.length > expected))
    let typeBytes := slice datagram padding (padding + 4)
    sizeOk && decide (padding + 4 ≤ datagram.length)
      && range.contains (u32OfLe (xorBytes typeBytes mask))

/-- `MAX_PREFIX_DRAWS`. -/
def maxPrefixDraws : Nat := 8

/-- Draw a prefix for a packet and protect its header under it; draw again, at most
`redraws` times, while a peer would misclassify the result. -/
def drawPrefix (t : Tunn C) (packet : Bytes) (redraws : Nat) (e : ε) : Outcome (Bytes × ε) :=
  let (before, e) := randomBytes t.paddingConfig.s4.toNat e
  match t.headerProtection with
  | none => .ok (before ++ packet, e)
  | some hp => do
      let keystream ← hp.keystream C transportHeaderSz before
      let header := xorBytes (packet.take transportHeaderSz) keystream
      let datagram := before ++ (header ++ packet.drop transportHeaderSz)
      match redraws with
      | 0 => .ok (datagram, e)
      | redraws + 1 =>
          if t.peerWouldMisclassify datagram (keystream.take 4) then t.drawPrefix packet redraws e
          else .ok (datagram, e)

/-- `format_transport_packet`: the datagram for a payload, and the session with its
counter moved on. -/
def formatTransportPacket (t : Tunn C) (session : Session) (src : Bytes) (contentPadding : Nat)
    (dstLen : Nat) (e : ε) : Outcome (Bytes × Session × ε) := do
  let (transportType, e) := t.headerConfig.transport.generate e
  let s4 := t.paddingConfig.s4.toNat
  if dstLen < s4 then .panic "range start index out of range for slice"
  else
    let (packet, session) ←
      session.formatPacketData C src (dstLen - s4) transportType contentPadding
    let (datagram, e) ← t.drawPrefix packet (maxPrefixDraws - 1) e
    return (datagram, session, e)

/-! ## Handshake messages -/

/-- Put a handshake message on the wire: a random prefix of `padding` bytes, the
message under header protection, a random trailer. -/
def frame (t : Tunn C) (padding : Nat) (message : Bytes) (dstLen : Nat) (e : ε) :
    Outcome (Bytes × ε) := do
  let (before, e) := randomBytes padding e
  let masked ←
    match t.headerProtection with
    | some hp => hp.apply C before message
    | none => .ok message
  let (trailer, e) := t.trailerFor (padding + message.length) dstLen e
  let (after, e) := randomBytes trailer e
  return (before ++ (masked ++ after), e)

/-- The I-packets of `queue_pre_handshake_packets`; an empty one is not queued. -/
def queueChains : List CpsChain → List Bytes → ε → Outcome (List Bytes × ε)
  | [], queue, e => .ok (queue, e)
  | chain :: chains, queue, e => do
      let (packet, e) ← chain.generateForInit e
      queueChains chains (if packet.isEmpty then queue else queue ++ [packet]) e

/-- `queue_pre_handshake_packets`. -/
def queuePreHandshakePackets (t : Tunn C) (e : ε) : Outcome (Tunn C × ε) := do
  let (queue, e) ← queueChains t.initPacketConfig.activeChains t.networkOutgoing e
  let (junk, e) := t.junkConfig.generateJunkPackets e
  return ({ t with networkOutgoing := queue ++ junk }, e)

/-- What `format_handshake_initiation` does to timers and queue before the message
is made. -/
def prepareInitiation (t : Tunn C) (startingNewHandshake : Bool) (e : ε) : Outcome (Tunn C × ε) :=
  let (timers, e) := if t.handshake.isExpired then t.timers.clear e else (t.timers, e)
  let (timers, e) := timers.rollHandshakeTimings startingNewHandshake e
  { t with timers := timers }.queuePreHandshakePackets e

/-- `format_handshake_initiation`. -/
def formatHandshakeInitiation (t : Tunn C) (dstLen : Nat) (forceResend : Bool) (e : ε) :
    Outcome (TunnResult × Tunn C × ε) :=
  let s1 := t.paddingConfig.s1.toNat
  if t.handshake.isInProgress && !forceResend then .ok (.done, t, e)
  else if s1 + handshakeInitSz > dstLen then .ok (.err .destinationBufferTooSmall, t, e)
  else do
    let startingNewHandshake := !t.handshake.isInProgress
    let (t, e) ← t.prepareInitiation startingNewHandshake e
    let (initType, e) := t.headerConfig.init.generate e
    let (result, handshake, e) := t.handshake.formatHandshakeInitiation (dstLen - s1) initType e
    let t := { t with handshake := handshake }
    match result with
    | .error err => return (.err err, t, e)
    | .ok packet => do
        let (datagram, e) ← t.frame s1 packet dstLen e
        let t := if startingNewHandshake then t.timerTick .timeLastHandshakeStarted else t
        return (.writeToNetwork datagram, t.timerTick .timeLastPacketSent, e)

/-- The branch of `encapsulate` with a session: seal the packet. -/
def sealPacket (t : Tunn C) (session : Session) (src : Bytes) (dstLen : Nat) (e : ε) :
    Outcome (TunnResult × Tunn C × ε) :=
  if t.datagramSize src.length > dstLen then .ok (.err .destinationBufferTooSmall, t, e)
  else do
    let t := t.observeDatagram (t.datagramSize src.length)
    let (contentPadding, e) := t.transportPadding src.length dstLen e
    let (datagram, session, e) ← t.formatTransportPacket session src contentPadding dstLen e
    let t := (t.storeSession t.current session).timerTick .timeLastPacketSent
    let t := if src.isEmpty then t else t.timerTick .timeLastDataPacketSent
    return (.writeToNetwork datagram, { t with txBytes := t.txBytes + src.length }, e)

/-- `encapsulate`. -/
def encapsulate (t : Tunn C) (src : Bytes) (dstLen : Nat) (e : ε) :
    Outcome (TunnResult × Tunn C × ε) :=
  match t.sessions (slotOf t.current) with
  | some session => t.sealPacket session src dstLen e
  | none => (t.queuePacket src).formatHandshakeInitiation dstLen false e

end Tunn
