import AwgTun.Noise.Tunn

/-!
# The tunnel: receiving and timers

The other half of `Tunn`: `decapsulate` with its handlers, and `update_timers`.

`decapsulate` runs in two stages.  `receive` finds the message in a datagram
(classify, strip the prefix, drop the trailer, unmask) and passes it through the
rate limiter; what comes out is a packet or an answer.  A handler then acts on the
packet.  Slicing that the source leaves to a bounds check is an `Outcome` here.
-/

open Control Bytes

/-- What becomes of a datagram before a handler sees it. -/
inductive Received
  | packet (p : Packet)
  | reply (r : TunnResult)

/-- The first stage drops the trailer of a message with a fixed size. -/
def trimTrailer (classified : Option Classified) (payload : Bytes) : Bytes :=
  match classified.bind (·.msgSize) with
  | some size => if size ≤ payload.length then payload.take size else payload
  | none => payload

/-- The mask of a protected transport header. -/
def transportMask : Option Classified → Option Bytes
  | some c => if c.protectedLen = transportHeaderSz then c.headerMask else none
  | none => none

/-- A transport packet whose header is masked and whose body is not. -/
def unmaskTransport (payload mask : Bytes) : Outcome Packet := do
  let header ← sliceTo payload transportHeaderSz
  let header := xorBytes header mask
  let body ← sliceFrom payload transportHeaderSz
  return .packetData {
    receiverIdx := u32OfLe (slice header 4 8)
    counter := u64OfLe (slice header 8 16)
    encryptedEncapsulatedPacket := body }

namespace Tunn

variable {C : Crypto} {ε : Type} [Env ε]

/-! ## From datagram to packet -/

/-- `classifier`. -/
def classifier (t : Tunn C) : PacketClassifier where
  paddings := t.paddingConfig
  headers := t.headerConfig
  headerProtection := t.headerProtection
  randomTrailers := t.randomTrailers

/-- `determine_padding`. -/
def determinePadding (t : Tunn C) (src : Bytes) : Option Classified := t.classifier.classify C src

/-- Unmask a message that is protected in full, in a buffer of the size of the
largest. -/
def unmaskMessage (t : Tunn C) (datagram : Bytes) (padding protectedLen : Nat) (payload : Bytes) :
    Outcome Bytes :=
  match t.headerProtection with
  | none => .ok payload
  | some hp =>
      if protectedLen > 0 then do
        let covered := min protectedLen payload.length
        let message ← sliceTo payload covered
        if handshakeInitSz < covered then .panic "range end index out of range for slice"
        else
          let before ← sliceTo datagram padding
          hp.apply C before message
      else .ok payload

/-- Pass a message through the rate limiter and frame its answer, if it has one. -/
def verify (t : Tunn C) (srcAddr : Option IpAddr) (stripped : Bytes) (dstLen : Nat) (e : ε) :
    Outcome (Received × Tunn C × ε) :=
  let (verified, rateLimiter, e) := t.rateLimiter.verifyPacket C srcAddr stripped cookieReplySz
    t.headerConfig t.disableCookies e
  let t := { t with rateLimiter := rateLimiter }
  match verified with
  | .ok packet => .ok (.packet packet, t, e)
  | .error (.writeToNetwork cookie) =>
      let s3 := t.paddingConfig.s3.toNat
      if s3 + cookie.length > dstLen then .ok (.reply (.err .destinationBufferTooSmall), t, e)
      else do
        let (datagram, e) ← t.frame s3 cookie dstLen e
        return (.reply (.writeToNetwork datagram), t, e)
  | .error (.err err) => .ok (.reply (.err err), t, e)
  | .error _ => .panic "internal error: entered unreachable code"

/-- A packet that is not a handshake message passes unchecked. -/
theorem verify_of_not_handshake (t : Tunn C) (srcAddr : Option IpAddr) {stripped : Bytes}
    (dstLen : Nat) (e : ε) {packet : Packet}
    (hparse : parseIncomingPacketConfig stripped t.headerConfig = .ok packet)
    (hkind : packet.handshakeSender = none) :
    t.verify srcAddr stripped dstLen e = .ok (.packet packet, t, e) := by
  rw [verify, RateLimiter.verifyPacket_of_not_handshake t.rateLimiter srcAddr cookieReplySz
    t.disableCookies e hparse hkind]

section

variable {t t' : Tunn C} {srcAddr : Option IpAddr} {stripped : Bytes} {dstLen : Nat} {e e' : ε}

/-- What `verify` returns for each answer of the limiter, which is all that it changes. -/
theorem verify_cases {received : Received}
    (h : t.verify srcAddr stripped dstLen e = .ok (received, t', e')) :
    ∃ verified rateLimiter e₁, t.rateLimiter.verifyPacket C srcAddr stripped cookieReplySz
        t.headerConfig t.disableCookies e = (verified, rateLimiter, e₁) ∧
      t' = { t with rateLimiter := rateLimiter } ∧
      ((∃ packet, verified = .ok packet ∧ received = .packet packet) ∨
        (∃ err, verified = .error (.err err) ∧ received = .reply (.err err)) ∨
        ∃ cookie, verified = .error (.writeToNetwork cookie) ∧
          (received = .reply (.err .destinationBufferTooSmall) ∨
            ∃ datagram, t'.frame t.paddingConfig.s3.toNat cookie dstLen e₁ = .ok (datagram, e') ∧
              received = .reply (.writeToNetwork datagram))) := by
  rcases hverified : t.rateLimiter.verifyPacket C srcAddr stripped cookieReplySz t.headerConfig
    t.disableCookies e with ⟨verified, rateLimiter, e₁⟩
  refine ⟨verified, rateLimiter, e₁, rfl, ?_⟩
  simp only [verify, hverified] at h
  split at h
  · cases h
    exact ⟨rfl, .inl ⟨_, rfl, rfl⟩⟩
  · rename_i cookie
    split_ifs at h
    · cases h
      exact ⟨rfl, .inr (.inr ⟨cookie, rfl, .inl rfl⟩)⟩
    · obtain ⟨⟨datagram, e₂⟩, hframe, h⟩ := bind_eq_ok.mp h
      cases h
      exact ⟨rfl, .inr (.inr ⟨cookie, rfl, .inr ⟨datagram, hframe, rfl⟩⟩)⟩
  · cases h
    exact ⟨rfl, .inr (.inl ⟨_, rfl, rfl⟩)⟩
  · cases h

/-- A packet that passes the rate limiter is the one that was parsed. -/
theorem verify_packet {p : Packet}
    (h : t.verify srcAddr stripped dstLen e = .ok (.packet p, t', e')) :
    parseIncomingPacketConfig stripped t.headerConfig = .ok p := by
  obtain ⟨_, _, _, hverified, -, ⟨_, rfl, h⟩ | ⟨_, -, h⟩ | ⟨_, -, h | ⟨_, -, h⟩⟩⟩ := verify_cases h
  · cases h
    exact RateLimiter.verifyPacket_ok hverified
  all_goals cases h

end

/-- The first stage of `decapsulate`. -/
def receive (t : Tunn C) (srcAddr : Option IpAddr) (datagram : Bytes) (dstLen : Nat) (e : ε) :
    Outcome (Received × Tunn C × ε) := do
  let classified := t.determinePadding datagram
  let padding := (classified.map (·.padding)).getD 0
  let protectedLen := (classified.map (·.protectedLen)).getD 0
  let payload ← sliceFrom datagram padding
  let payload := trimTrailer classified payload
  match transportMask classified with
  | some mask => do
      let packet ← unmaskTransport payload mask
      return (.packet packet, t, e)
  | none => do
      let stripped ← t.unmaskMessage datagram padding protectedLen payload
      t.verify srcAddr stripped dstLen e

/-! ## Handlers -/

/-- `set_current_session`. -/
def setCurrentSession (t : Tunn C) (newIdx : Nat) : Tunn C :=
  if t.current = newIdx then t
  else if (t.sessions (slotOf t.current)).isNone
      ∨ t.timers.sessionTimers (slotOf newIdx) ≥ t.timers.sessionTimers (slotOf t.current) then
    { t with current := newIdx }
  else t

/-- `handle_handshake_init`. -/
def handleHandshakeInit (t : Tunn C) (p : HandshakeInit) (dstLen : Nat) (e : ε) :
    Outcome (Except WireGuardError TunnResult × Tunn C × ε) :=
  let (respType, e) := t.headerConfig.response.generate e
  let s2 := t.paddingConfig.s2.toNat
  if s2 + handshakeRespSz > dstLen then .ok (.error .destinationBufferTooSmall, t, e)
  else do
    let (result, handshake, e) ←
      t.handshake.receiveHandshakeInitialization p (dstLen - s2) respType e
    let t := { t with handshake := handshake }
    match result with
    | .error err => return (.error err, t, e)
    | .ok (packet, session) => do
        let index := session.localIndex
        let t := t.storeSession index session
        let (datagram, e) ← t.frame s2 packet dstLen e
        let t := (t.timerTick .timeLastPacketReceived).timerTick .timeLastPacketSent
        let t := { t with timers := t.timers.tickSessionEstablished false index }
        return (.ok (.writeToNetwork datagram), t, e)

/-- `handle_handshake_response`. -/
def handleHandshakeResponse (t : Tunn C) (p : HandshakeResponse) (dstLen : Nat) (e : ε) :
    Outcome (Except WireGuardError TunnResult × Tunn C × ε) :=
  if t.paddingConfig.s4.toNat + dataOverheadSz > dstLen then
    .ok (.error .destinationBufferTooSmall, t, e)
  else
    let (result, handshake, e) := t.handshake.receiveHandshakeResponse p e
    let t := { t with handshake := handshake }
    match result with
    | .error err => .ok (.error err, t, e)
    | .ok session => do
        let (contentPadding, e) := t.contentPaddingAddition 0 dstLen e
        let (keepalive, session, e) ← t.formatTransportPacket session [] contentPadding dstLen e
        let lIdx := session.localIndex
        let t := (t.storeSession lIdx session).timerTick .timeLastPacketReceived
        let t := { t with timers := t.timers.tickSessionEstablished true (lIdx % nSessions) }
        return (.ok (.writeToNetwork keepalive), t.setCurrentSession lIdx, e)

/-- `handle_cookie_reply`. -/
def handleCookieReply (t : Tunn C) (p : PacketCookieReply) :
    Except WireGuardError TunnResult × Tunn C :=
  let (result, handshake) := t.handshake.receiveCookieReply p
  let t := { t with handshake := handshake }
  match result with
  | .error err => (.error err, t)
  | .ok () => (.ok .done, (t.timerTick .timeLastPacketReceived).timerTick .timeCookieReceived)

/-- An inner packet with a plausible header: cut it to the length it declares. -/
def deliver (t : Tunn C) (packet : Bytes) (computedLen : Nat) (srcIpAddress : IpAddr) :
    TunnResult × Tunn C :=
  if computedLen > packet.length then (.err .invalidPacket, t)
  else
    let t := t.timerTick .timeLastDataPacketReceived
    let t := { t with rxBytes := t.rxBytes + computedLen }
    match srcIpAddress with
    | .v4 addr => (.writeToTunnelV4 (packet.take computedLen) addr, t)
    | .v6 addr => (.writeToTunnelV6 (packet.take computedLen) addr, t)

/-- `validate_decapsulated_packet`. -/
def validateDecapsulatedPacket (t : Tunn C) (packet : Bytes) : TunnResult × Tunn C :=
  match packet.head? with
  | none => (.done, t)
  | some first =>
      if first >>> 4 = 4 ∧ packet.length ≥ 20 then
        t.deliver packet (beNat (slice packet 2 4)) (.v4 (IpAddr.ofBytesV4 (slice packet 12 16)))
      else if first >>> 4 = 6 ∧ packet.length ≥ 40 then
        t.deliver packet (beNat (slice packet 4 6) + 40)
          (.v6 (IpAddr.ofBytesV6 (slice packet 8 24)))
      else if first = 0 then (.done, t)
      else (.done, t.timerTick .timeLastDataPacketReceived)

/-- What becomes of an inner packet, and the tunnel behind it. -/
inductive Validated (t : Tunn C) : TunnResult × Tunn C → Prop
  | ignored : Validated t (.done, t)
  | invalid : Validated t (.err .invalidPacket, t)
  | unknown : Validated t (.done, t.timerTick .timeLastDataPacketReceived)
  | v4 {packet : Bytes} {addr : BitVec 32} {rxBytes : Nat} :
      Validated t (.writeToTunnelV4 packet addr,
        { t.timerTick .timeLastDataPacketReceived with rxBytes := rxBytes })
  | v6 {packet : Bytes} {addr : BitVec 128} {rxBytes : Nat} :
      Validated t (.writeToTunnelV6 packet addr,
        { t.timerTick .timeLastDataPacketReceived with rxBytes := rxBytes })

theorem validated (t : Tunn C) (packet : Bytes) :
    Validated t (t.validateDecapsulatedPacket packet) := by
  have hdeliver (len : Nat) (addr : IpAddr) : Validated t (t.deliver packet len addr) := by
    unfold deliver
    split_ifs
    · exact .invalid
    · cases addr with
      | v4 addr => exact .v4
      | v6 addr => exact .v6
  unfold validateDecapsulatedPacket
  split
  · exact .ignored
  · split_ifs
    · exact hdeliver _ _
    · exact hdeliver _ _
    · exact .ignored
    · exact .unknown

/-- `handle_data`. -/
def handleData (t : Tunn C) (packet : PacketData) (dstLen : Nat) (e : ε) :
    Outcome (Except WireGuardError TunnResult × Tunn C × ε) :=
  let rIdx := packet.receiverIdx.toNat
  let t := t.observeDatagram (t.paddingConfig.s4.toNat + transportHeaderSz
    + packet.encryptedEncapsulatedPacket.length)
  match t.sessions (slotOf rIdx) with
  | none => .ok (.error .noCurrentSession, t, e)
  | some session => do
      let (result, session) ← session.receivePacketData C packet dstLen
      let t := t.storeSession rIdx session
      match result with
      | .error err => return (.error err, t, e)
      | .ok plain =>
          let t := (t.setCurrentSession rIdx).timerTick .timeLastPacketReceived
          let (r, t) := t.validateDecapsulatedPacket plain
          return (.ok r, t, e)

/-- `handle_verified_packet`, before an error becomes a result. -/
def handlePacket (t : Tunn C) (packet : Packet) (dstLen : Nat) (e : ε) :
    Outcome (Except WireGuardError TunnResult × Tunn C × ε) :=
  match packet with
  | .handshakeInit p => t.handleHandshakeInit p dstLen e
  | .handshakeResponse p => t.handleHandshakeResponse p dstLen e
  | .packetCookieReply p =>
      let (result, t) := t.handleCookieReply p
      .ok (result, t, e)
  | .packetData p => t.handleData p dstLen e

/-- `handle_verified_packet`. -/
def handleVerifiedPacket (t : Tunn C) (packet : Packet) (dstLen : Nat) (e : ε) :
    Outcome (TunnResult × Tunn C × ε) := do
  let (result, t, e) ← t.handlePacket packet dstLen e
  match result with
  | .ok r => return (r, t, e)
  | .error err => return (.err err, t, e)

/-- `send_queued_packet`. -/
def sendQueuedPacket (t : Tunn C) (dstLen : Nat) (e : ε) : Outcome (TunnResult × Tunn C × ε) :=
  match t.packetQueue with
  | [] => .ok (.done, t, e)
  | packet :: rest => do
      let (r, t, e) ← { t with packetQueue := rest }.encapsulate packet dstLen e
      match r with
      | .err _ => return (.done, t.requeuePacket packet, e)
      | r => return (r, t, e)

/-- `decapsulate`. -/
def decapsulate (t : Tunn C) (srcAddr : Option IpAddr) (datagram : Bytes) (dstLen : Nat) (e : ε) :
    Outcome (TunnResult × Tunn C × ε) :=
  if datagram.isEmpty then t.sendQueuedPacket dstLen e
  else do
    let (received, t, e) ← t.receive srcAddr datagram dstLen e
    match received with
    | .packet packet => t.handleVerifiedPacket packet dstLen e
    | .reply r => return (r, t, e)

/-! ## Timers -/

/-- What `update_timers` decided to do. -/
inductive TimerAction
  | nothing
  | expired
  | handshake
  | keepalive
  deriving DecidableEq, Repr

/-- `clear_all`. -/
def clearAll (t : Tunn C) (e : ε) : Tunn C × ε :=
  let (timers, e) := t.timers.clear e
  ({ t with sessions := fun _ => none, packetQueue := [], networkOutgoing := [], timers }, e)

/-- Give the connection up. -/
def expire (t : Tunn C) (e : ε) : Tunn C × ε :=
  { t with handshake := t.handshake.setExpired }.clearAll e

/-- `update_session_timers`: each slot on its own. -/
def updateSessionTimers (t : Tunn C) (now : Duration) : Outcome (Tunn C) :=
  if ∀ i, t.timers.sessionTimers i ≤ now then
    .ok { t with
      sessions := fun i => if t.timers.sessionExpired now i then none else t.sessions i
      timers := { t.timers with
        sessionTimers := fun i =>
          if t.timers.sessionExpired now i then now else t.timers.sessionTimers i } }
  else .panic "overflow when subtracting durations"

/-- Take the time and age the sessions. -/
def startTimers (t : Tunn C) (e : ε) : Outcome (Duration × Tunn C × ε) := do
  let (time, e) := Env.instantNow e
  let (rateLimiter, e) :=
    if t.timers.shouldResetRr then t.rateLimiter.resetCount e else (t.rateLimiter, e)
  let now : Duration := time - t.timers.timeStarted
  let t ← { t with rateLimiter, timers := t.timers.set .timeCurrent now }.updateSessionTimers now
  return (now, t, e)

/-- With an initiation in flight: give up, send again or wait. -/
def retryAction (t : Tunn C) (now : Duration) (timeInitSent : Instant) (e : ε) :
    Outcome (TimerAction × Tunn C × ε) := do
  let giveUp ← dueAfter true now (t.timers.timers .timeLastHandshakeStarted)
    t.timers.rekeyAttemptDeadline
  if giveUp then
    let (t, e) := t.expire e
    return (.expired, t, e)
  else
    let (instant, e) := Env.instantNow e
    let elapsed : Duration := instant - timeInitSent
    return (if elapsed ≥ t.timers.rekeyTimeoutCurrent then .handshake else .nothing, t, e)

/-- With no initiation in flight: start a handshake, send a keepalive or wait. -/
def idleAction (t : Tunn C) (now : Duration) (e : ε) : Outcome (TimerAction × Tunn C × ε) := do
  let (rekey, e) ← t.timers.rekeyDue now e
  let (silent, timers, e) ← t.timers.newHandshakeDue now e
  if rekey || silent then return (.handshake, { t with timers }, e)
  else
    let (keepalive, timers, e) ← timers.keepaliveDue now e
    let (persistent, timers, e) ← timers.persistentKeepaliveDue now e
    return (if keepalive || persistent then .keepalive else .nothing, { t with timers }, e)

/-- The decisions of `update_timers`, once the time has been taken. -/
def timerAction (t : Tunn C) (now : Duration) (e : ε) : Outcome (TimerAction × Tunn C × ε) :=
  if t.handshake.isExpired then .ok (.expired, t, e)
  else do
    let cookieOld ← dueAfter t.handshake.hasCookie now (t.timers.timers .timeCookieReceived)
      cookieExpirationTime
    let t := if cookieOld then { t with handshake := t.handshake.clearCookie } else t
    let dead ← dueAfter true now (t.timers.timers .timeSessionEstablished)
      (t.timers.rejectAfterTime * 3)
    if dead then
      let (t, e) := t.expire e
      return (.expired, t, e)
    else
      match t.handshake.timer with
      | some timeInitSent => t.retryAction now timeInitSent e
      | none => t.idleAction now e

/-- `update_timers`. -/
def updateTimers (t : Tunn C) (dstLen : Nat) (e : ε) : Outcome (TunnResult × Tunn C × ε) := do
  let (now, t, e) ← t.startTimers e
  let (action, t, e) ← t.timerAction now e
  match action with
  | .nothing => return (.done, t, e)
  | .expired => return (.err .connectionExpired, t, e)
  | .handshake => t.formatHandshakeInitiation dstLen true e
  | .keepalive => t.encapsulate [] dstLen e

/-- `time_since_last_handshake`. -/
def timeSinceLastHandshake (t : Tunn C) (e : ε) : Outcome (Option Duration × ε) :=
  if (t.sessions (slotOf t.current)).isSome then do
    let (instant, e) := Env.instantNow e
    let durationSinceTunStart : Duration := instant - t.timers.timeStarted
    let durationSinceSessionEstablished := t.timers.timers .timeSessionEstablished
    let elapsed ← Duration.sub durationSinceTunStart durationSinceSessionEstablished
    return (some elapsed, e)
  else .ok (none, e)

end Tunn
