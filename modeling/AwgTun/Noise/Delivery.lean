import AwgTun.Noise.Cookies
import AwgTun.Noise.History

/-!
# The first packets of a connection

A packet that has no session waits in the queue while `encapsulate` starts a handshake.  Here two
tunnels are put together, call by call: the initiation and the response through the framing, the
limiter and the handshake, the keepalive that follows, and the flush of the queue.

* `Tunn.Admits.takes` — a handshake message of the peer gets past the limiter.
* `Tunn.Expects.arrives` — what waits in a queue arrives, flush by flush.
* `Tunn.first_packets_arrive` — from the first call of `encapsulate` on.
-/

open Control Bytes RingBits

variable {C : Crypto} {ε : Type} [Env ε]

/-! ## Messages pass the limiter -/

/-- A message with a first MAC for the owner of a public key. -/
def HasMac1 (C : Crypto) (publicKey : Key) (message : Bytes) : Prop :=
  ∃ (body : Bytes) (mac1 mac2 : ByteArr 16), message = body ++ (mac1.toList ++ mac2.toList) ∧
    C.b2sKeyedMac16 (C.b2sHash labelMac1 publicKey) body = mac1

namespace Handshake

variable {h h' : Handshake C} {message : Bytes} {dstLen : Nat} {e e' : ε}

theorem hasMac1_initiation {msgType : UInt32}
    (hr : h.formatHandshakeInitiation dstLen msgType e = (.ok message, h', e')) :
    HasMac1 C h.params.peerStaticPublic message := by
  obtain ⟨mac1, mac2, hmessage, hmac1, -⟩ := formatHandshakeInitiation_macs hr
  exact ⟨_, mac1, mac2, hmessage, by rw [hmac1, h.params.mac1_eq]⟩

theorem hasMac1_response {packet : HandshakeInit} {respMsgType : UInt32} {session : Session}
    (hr : h.receiveHandshakeInitialization packet dstLen respMsgType e =
      .ok (.ok (message, session), h', e')) : HasMac1 C h.params.peerStaticPublic message := by
  rcases h.receiveHandshakeInitialization_cases packet dstLen respMsgType e with
    ⟨err, herr⟩ | ⟨timestamp, sym, -, hanswer⟩
  · rw [herr] at hr
    cases hr
  · rw [hanswer, formatHandshakeResponse] at hr
    split_ifs at hr
    · cases hr
    · cases hr
      exact ⟨_, _, _, rfl, by rw [← h.params.mac1_eq]; rfl⟩

omit [Env ε] in
theorem awaiting_of_initSent {s : HandshakeInitSentState} (hstate : h.state = .initSent s) :
    h.awaiting s.localIndex = some (s, false) := by
  rw [awaiting, HandshakeState.sentWith_eq_some_iff.mpr ⟨hstate, rfl⟩]

/-- The initiation of a peer is answered, and the answer makes two ends of a new session. -/
theorem Peers.exchange (hdh : C.DhCommutes) (hopen : C.OpenUndoesSeal) {I I' R : Handshake C}
    (hpeers : Peers I R) {dstI : Nat} {initType : UInt32} {eI eI' : ε}
    (hmade : I.formatHandshakeInitiation dstI initType eI = (.ok message, I', eI'))
    (hafter : (I.initiationTimestamp eI).after R.lastHandshakeTimestamp = true)
    {headers : HeaderConfig} (hinit : headers.init.contains initType = true) :
    ∃ packet, parseIncomingPacketConfig message headers = .ok (.handshakeInit packet) ∧
      ∀ {dstR : Nat} {respType : UInt32}, handshakeRespSz ≤ dstR →
        headers.response.contains respType = true → ∀ eR : ε, ∃ answer sR R' eR' reply,
        R.receiveHandshakeInitialization packet dstR respType eR = .ok (.ok (answer, sR), R', eR') ∧
        parseIncomingPacketConfig answer headers = .ok (.handshakeResponse reply) ∧
        sR.receivingKeyCounter = {} ∧ ∀ e : ε, ∃ sI I'' e'',
          I'.receiveHandshakeResponse reply e = (.ok sI, I'', e'') ∧ sI.Mirrored sR ∧
          sI.sendingKeyCounter = 0 := by
  have hparsed := I.parse_formatHandshakeInitiation hinit (succIndex I.nextIndex)
    (I.afterInitiation eI) eI
  obtain ⟨hstate, hkey, hpsk⟩ : I'.state = .initSent (I.initiationState eI) ∧
      I'.params.staticPrivate = I.params.staticPrivate ∧
      I'.params.presharedKey = I.params.presharedKey := by
    rw [← show _ = I' from congrArg Prod.snd (formatHandshakeInitiation_ok hmade)]
    exact ⟨rfl, rfl, rfl⟩
  rw [congrArg Prod.fst (formatHandshakeInitiation_ok hmade)] at hparsed
  refine ⟨_, hparsed, fun {dstR} {respType} hdst hresp eR => ?_⟩
  obtain ⟨macs, R', hmacs, hreceive⟩ :=
    receiveHandshakeInitialization_accepts hdh hopen hpeers eI eR hafter hdst respType rfl
  refine ⟨_, _, R', _, _, hreceive, parse_responseBody hresp _ _ _ eR hmacs, rfl, fun e => ?_⟩
  have hread := read_responsePacket hdh hopen
    (I.initiation (initiationEphemeral eI) (I.initiationStamp eI)).2 (initiationEphemeral eI)
    I'.params.staticPrivate (hkey ▸ hpeers.backward) (succIndex I.nextIndex) eR rfl
  rw [← hpeers.psk, ← hpsk] at hread
  have hawait := awaiting_of_initSent hstate
  exact ⟨_, _, _, receiveHandshakeResponse_eq I' e hawait hread, ⟨rfl, rfl, rfl, rfl⟩, rfl⟩

end Handshake

/-- A handshake message with its first MAC passes a limiter that is not under load. -/
theorem RateLimiter.verifyPacket_idle {C : Crypto} {ε : Type} [Env ε] {r : RateLimiter}
    {message : Bytes} {publicKey : Key} (hmac : HasMac1 C publicKey message)
    (hkey : r.mac1Key = C.b2sHash labelMac1 publicKey) {headers : HeaderConfig} {packet : Packet}
    (hparse : parseIncomingPacketConfig message headers = .ok packet) {disableCookies : Bool}
    (hidle : disableCookies = true ∨ r.count < r.limit) (srcAddr : Option IpAddr) (dstLen : Nat)
    (e : ε) :
    ∃ r', r.verifyPacket C srcAddr message dstLen headers disableCookies e =
      (.ok packet, r', e) := by
  obtain ⟨body, mac1, mac2, rfl, hmac1⟩ := hmac
  obtain ⟨hbody, hfirst, -⟩ := macs_split body mac1 mac2
  rw [← hkey] at hmac1
  unfold verifyPacket
  rw [hparse]
  simp only
  split
  · exact ⟨_, rfl⟩
  · simp only [hbody, hfirst, hmac1, ne_eq, not_true_eq_false, if_false]
    split_ifs with hdisabled hload
    · exact ⟨_, rfl⟩
    · exact absurd (hidle.resolve_left hdisabled) (UInt64.not_lt.mpr (of_decide_eq_true hload))
    · exact ⟨_, rfl⟩

theorem Session.toNat_sent {s : Session} (hsmall : s.sendingKeyCounter.toNat < 2 ^ 64 - 1024) :
    s.sent.sendingKeyCounter.toNat = s.sendingKeyCounter.toNat + 1 := by
  show (s.sendingKeyCounter + 1).toNat = _
  rw [UInt64.toNat_add]
  exact Nat.mod_eq_of_lt (show s.sendingKeyCounter.toNat + 1 < 2 ^ 64 by omega)

namespace Tunn

variable {t t' I R : Tunn C} {cfg : Amnezia3Config}

/-- The limiter is that of the tunnel's own key, and asks for no cookie. -/
structure Admits (t : Tunn C) : Prop where
  mac1Key : t.rateLimiter.mac1Key = C.b2sHash labelMac1 t.handshake.params.staticPublic
  idle : t.disableCookies = true ∨ t.rateLimiter.count < t.rateLimiter.limit

/-- The configuration of two tunnels that tell their handshake messages apart. -/
structure TellsApart (cfg : Amnezia3Config) : Prop extends cfg.WellFormed where
  trailers : cfg.randomTrailers = false
  sizes : FramedKind.DistinctSizes cfg.paddings

/-- A tunnel without a session and without a handshake, which can start one. -/
structure Idle (t : Tunn C) : Prop where
  session : t.sessions (slotOf t.current) = none
  handshake : t.handshake.isInProgress = false
  chains : t.ChainsGenerable
  queue : t.packetQueue.length < maxQueueDepth

/-- The tunnel that has sent an initiation, with one more packet in its queue. -/
structure Waits (t : Tunn C) (src : Bytes) (t' : Tunn C) : Prop where
  settings : t'.settings = t.settings
  session : t'.sessions (slotOf t'.current) = none
  packetQueue : t'.packetQueue = t.packetQueue ++ [src]
  udpWindow : t'.udpWindow = t.udpWindow
  rateLimiter : t'.rateLimiter = t.rateLimiter
  params : t'.handshake.params = t.handshake.params

theorem Waits.admits {src : Bytes} (h : t.Waits src t') (hadmits : t.Admits) : t'.Admits := by
  have hdisable : t'.disableCookies = t.disableCookies :=
    congrArg Settings.disableCookies h.settings
  refine ⟨?_, ?_⟩
  · rw [h.rateLimiter, h.params, hadmits.mac1Key]
  · rw [h.rateLimiter, hdisable]
    exact hadmits.idle

/-! ## The calls of a handshake -/

/-- `encapsulate` puts the packet into the queue and sends an initiation. -/
theorem Idle.initiates (h : I.Idle) (hI : I.HasConfig cfg) (hcfg : cfg.WellFormed) {dstLen : Nat}
    (hroom : cfg.paddings.s1.toNat + handshakeInitSz ≤ dstLen) (src : Bytes) (e : ε) :
    ∃ datagram I' e', I.encapsulate src dstLen e = .ok (.writeToNetwork datagram, I', e') ∧
      I.Waits src I' ∧ ∃ (message : Bytes) (size : Nat) (t : Tunn C) (e₁ e₂ : ε),
        (I.queuePacket src).prepareInitiation true e = .ok (t, e₁) ∧
        I.handshake.formatHandshakeInitiation size (I.headerConfig.init.generate e₁).1
          (I.headerConfig.init.generate e₁).2 = (.ok message, I'.handshake, e₂) ∧
        I.Framed .init message datagram := by
  have hqueued : I.queuePacket src = { I with packetQueue := I.packetQueue ++ [src] } :=
    if_pos h.queue
  have hgo : (I.handshake.isInProgress && !false) = false := by simpa using h.handshake
  rw [← hI.paddings] at hroom
  obtain ⟨datagram, I', e', -, hcall, -⟩ := (formatHandshakeInitiation_fits
    (t := { I with packetQueue := I.packetQueue ++ [src] }) hgo hroom (hI.prefixRoom hcfg .init)
    e).2 h.chains
  refine ⟨datagram, I', e', ?_, ?_⟩
  · rw [encapsulate, h.session]
    simp only [hqueued, hcall]
  · rcases formatHandshakeInitiation_ends hcall with ⟨-, hr | hr⟩ | ⟨_, hr, hsent⟩ <;> cases hr
    cases hsent with
    | sent _ _ hprepare hmade hframe =>
      have hstarts := hprepare
      obtain ⟨timers, queue, rfl⟩ := prepareInitiation_eq hprepare
      rw [h.handshake, ← hqueued] at hstarts
      refine ⟨⟨rfl, h.session, rfl, rfl, rfl, ?_⟩, _, _, _, _, _, hstarts, hmade,
        framed_of_frame .init hframe⟩
      exact congrArg (·.2.params) (Handshake.formatHandshakeInitiation_ok hmade).symm

/-- Content padding is kept within the window. -/
theorem contentPaddingAddition_le (t : Tunn C) (size dstLen : Nat) (e : ε) :
    (t.contentPaddingAddition size dstLen e).1 ≤ t.udpWindow.toNat := by
  cases hrange : t.contentPadding with
  | none =>
    rw [contentPaddingAddition, hrange]
    exact Nat.zero_le _
  | some range =>
    rw [contentPaddingAddition_eq hrange, sizeLimit]
    split_ifs <;> omega

/-- The session of a handshake that was finished without another one is the one in use. -/
theorem finished_current (hnone : I.sessions (slotOf I.current) = none) (handshake : Handshake C)
    (session : Session) :
    (I.finished handshake session).sessions (slotOf (I.finished handshake session).current) =
      some session.sent := by
  have hstored : (I.finished handshake session).sessions =
      Function.update I.sessions (slotOf session.localIndex) (some session.sent) :=
    setCurrentSession_sessions _ _
  have hcurrent : slotOf (I.finished handshake session).current = slotOf session.localIndex := by
    simp only [finished, setCurrentSession]
    split_ifs with hsame hother
    · exact congrArg slotOf hsame
    · rfl
    · by_contra hne
      refine hother (.inl ?_)
      have hother : Function.update I.sessions (slotOf session.localIndex) (some session.sent)
          (slotOf I.current) = none := (Function.update_of_ne hne _ _).trans hnone
      exact congrArg Option.isNone hother
  rw [hstored, hcurrent, Function.update_self]

section Receives

variable {S T : Tunn C} (h : T.Admits) (hcfg : TellsApart cfg) (hS : S.HasConfig cfg)
  (hT : T.HasConfig cfg) {message datagram : Bytes} {dstLen : Nat} {session : Session}
  {handshake : Handshake C} {e e' : ε}
  (hmac : HasMac1 C T.handshake.params.staticPublic message) (srcAddr : Option IpAddr)
include h hcfg hS hT hmac

/-- **A handshake message of the peer is taken**, through the framing and past the limiter. -/
theorem Admits.takes {kind : FramedKind} {packet : Packet} (hmakes : Makes ε S kind message)
    (hframed : S.Framed kind message datagram)
    (hparse : parseIncomingPacketConfig message cfg.headers = .ok packet) (dstLen : Nat) (e : ε) :
    ∃ limiter, T.decapsulate srcAddr datagram dstLen e =
      ({ T with rateLimiter := limiter } : Tunn C).handleVerifiedPacket packet dstLen e := by
  obtain ⟨hsize, htype⟩ := hmakes.wellFormed (hS.headers ▸ hcfg.ordered)
  have hframed := hframed.of_config hS hT
  rw [hS.headers, ← hT.headers] at htype
  have hown := hframed.recognises (hT.prefixRoom hcfg.toWellFormed kind) hsize htype
    (hT.randomTrailers.trans hcfg.trailers) (by rw [hT.paddings]; exact hcfg.sizes)
  rw [← hT.headers] at hparse
  obtain ⟨limiter, hverified⟩ :=
    RateLimiter.verifyPacket_idle hmac h.mac1Key hparse h.idle srcAddr cookieReplySz e
  have hnonempty : datagram.isEmpty = false := by
    obtain ⟨before, masked, after, -, hmasked, -, rfl⟩ := hframed
    have hlen := hmasked.length_eq.trans hsize
    have hpos := kind.size_bounds.1
    rw [List.isEmpty_eq_false_iff_exists_mem, ← List.length_pos_iff_exists_mem]
    simp only [List.length_append]
    omega
  refine ⟨limiter, ?_⟩
  rw [decapsulate, hnonempty, if_neg Bool.false_ne_true, receive_eq_unframe,
    hframed.unframe_eq hsize hown]
  simp only [ok_bind, verify, hverified]

/-- An initiation that the handshake accepts is answered. -/
theorem Admits.answers {p : HandshakeInit} (hmakes : Makes ε S .init message)
    (hframed : S.Framed .init message datagram)
    (hparse : parseIncomingPacketConfig message cfg.headers = .ok (.handshakeInit p))
    (hroom : cfg.paddings.s2.toNat + handshakeRespSz ≤ dstLen) {answer : Bytes}
    (hreceive : T.handshake.receiveHandshakeInitialization p (dstLen - cfg.paddings.s2.toNat)
      (cfg.headers.response.generate e).1 (cfg.headers.response.generate e).2 =
        .ok (.ok (answer, session), handshake, e')) :
    ∃ response T' e'', T.decapsulate srcAddr datagram dstLen e =
        .ok (.writeToNetwork response, T', e'') ∧ T.Framed .response answer response ∧
      T'.HasConfig cfg ∧ T'.sessions (slotOf session.receivingIndex.toNat) = some session := by
  obtain ⟨limiter, htaken⟩ := h.takes hcfg hS hT hmac srcAddr hmakes hframed hparse dstLen e
  rw [← hT.paddings, ← hT.headers] at hreceive
  rw [← hT.paddings] at hroom
  let T₀ : Tunn C := { T with rateLimiter := limiter }
  obtain ⟨response, e'', hframe⟩ := frame_returns
    (t := { T₀ with handshake := handshake }.storeSession session.localIndex session)
    (hT.prefixRoom hcfg.toWellFormed .response) answer dstLen e'
  refine ⟨response, T₀.answered handshake session, e'', ?_, framed_of_frame .response hframe,
    hT.of_settings rfl, Function.update_self _ _ _⟩
  rw [htaken]
  simp only [handleVerifiedPacket, handlePacket, handleHandshakeInit, if_neg (Nat.not_lt.mpr hroom),
    hreceive, ok_bind]
  rw [show T.paddingConfig.s2.toNat = FramedKind.response.padding _ from rfl, hframe]
  rfl

/-- A response that the handshake accepts is followed by a keepalive. -/
theorem Admits.finishes (hnone : T.sessions (slotOf T.current) = none) {p : HandshakeResponse}
    (hmakes : Makes ε S .response message) (hframed : S.Framed .response message datagram)
    (hparse : parseIncomingPacketConfig message cfg.headers = .ok (.handshakeResponse p))
    (hroom : cfg.paddings.s4.toNat + dataOverheadSz + T.udpWindow.toNat ≤ dstLen)
    (hreceive : T.handshake.receiveHandshakeResponse p e = (.ok session, handshake, e')) :
    ∃ keepalive T' e'' contentPadding, T.decapsulate srcAddr datagram dstLen e =
        .ok (.writeToNetwork keepalive, T', e'') ∧ T.Carries session [] contentPadding keepalive ∧
      keepalive.length ≤ dstLen ∧ T'.HasConfig cfg ∧
      T'.sessions (slotOf T'.current) = some session.sent ∧ T'.packetQueue = T.packetQueue := by
  obtain ⟨limiter, htaken⟩ := h.takes hcfg hS hT hmac srcAddr hmakes hframed hparse dstLen e
  rw [← hT.paddings] at hroom
  let T₀ : Tunn C := { T with rateLimiter := limiter, handshake := handshake }
  rcases hpad : T₀.contentPaddingAddition 0 dstLen e' with ⟨contentPadding, e₁⟩
  have hle : contentPadding ≤ T.udpWindow.toNat := by
    have hdraw := T₀.contentPaddingAddition_le 0 dstLen e'
    rwa [hpad] at hdraw
  have hfit : T₀.datagramSize ([] : Bytes).length + contentPadding ≤ dstLen := by
    show T.paddingConfig.s4.toNat + dataOverheadSz + 0 + contentPadding ≤ dstLen
    omega
  obtain ⟨keepalive, e'', hformat, hcarries⟩ := formatTransportPacket_spec
    (show T₀.NonceRoom from hT.nonceRoom hcfg.nonceFits) session hfit e₁
  refine ⟨keepalive, ({ T with rateLimiter := limiter } : Tunn C).finished handshake session, e'',
    contentPadding, ?_, hcarries, hcarries.length_eq.trans_le hfit,
    hT.of_settings (setCurrentSession_settings _ _), finished_current
      (I := { T with rateLimiter := limiter }) hnone handshake session,
    setCurrentSession_packetQueue _ _⟩
  rw [htaken]
  simp only [handleVerifiedPacket, handlePacket, handleHandshakeResponse,
    if_neg (show ¬ T.paddingConfig.s4.toNat + dataOverheadSz > dstLen by omega), hreceive]
  rw [hpad, hformat]
  rfl

end Receives

/-! ## The other end of a session -/

/-- A tunnel holds the other end of a session, and has accepted counters before the next one. -/
structure Expects (cfg : Amnezia3Config) (R : Tunn C) (s r : Session) (seen : List UInt64) :
    Prop where
  config : R.HasConfig cfg
  session : R.sessions (slotOf r.receivingIndex.toNat) = some r
  mirrored : s.Mirrored r
  refines : r.receivingKeyCounter.Refines seen
  earlier : nextAfter (seen.map UInt64.toNat) ≤ s.sendingKeyCounter.toNat

variable {s r : Session} {seen : List UInt64} {src datagram : Bytes} {contentPadding dstLen : Nat}

/-- **A transport packet of the peer is opened**, and the next one is expected. -/
theorem Expects.takes (h : Expects cfg R s r seen) (hopen : C.OpenUndoesSeal)
    (hcfg : cfg.WellFormed)
    (hsmall : s.sendingKeyCounter.toNat < 2 ^ 64 - 1024) (hI : I.HasConfig cfg)
    (hcarries : I.Carries s src contentPadding datagram) (hshape : R.Recognisable datagram)
    (hdst : datagram.length ≤ dstLen) (srcAddr : Option IpAddr) (e : ε) :
    ∃ (t : Tunn C) (r' : Session), R.decapsulate srcAddr datagram dstLen e = .ok
        ((t.validateDecapsulatedPacket (src ++ List.replicate contentPadding 0)).1,
          (t.validateDecapsulatedPacket (src ++ List.replicate contentPadding 0)).2, e) ∧
      Expects cfg (t.validateDecapsulatedPacket (src ++ List.replicate contentPadding 0)).2 s.sent
        r' (s.sendingKeyCounter :: seen) := by
  have hcarries := hcarries.of_config hI h.config
  have hlen := hcarries.length_eq
  have hfresh : r.Fresh s.sendingKeyCounter := by
    refine Session.fresh_of_accepts h.refines hsmall ⟨fun hmem => ?_, h.earlier.trans (by omega)⟩
    exact absurd h.earlier (Nat.not_le.mpr (lt_nextAfter (List.mem_map_of_mem hmem)))
  obtain ⟨r', hopened⟩ := Session.receivePacketData_sealed hopen h.mirrored hfresh
    (show (s.sealedContent C src contentPadding).length ≤ dstLen by
      simp only [datagramSize, dataOverheadSz] at hlen
      rw [Session.length_sealedContent]
      omega)
  obtain ⟨-, hrefines⟩ := Session.receivePacketData_refines h.refines hsmall hopened
  obtain ⟨-, -, v, -, hr'⟩ := Session.receivePacketData_ok hopened
  have hreceive := receive_transport (h.config.nonceRoom hcfg.nonceFits)
    (by rw [h.config.headers]; exact hcfg.disjoint)
    (by rw [h.config.headers]; exact hcfg.ordered.transport) hcarries hshape srcAddr dstLen e
  have hindex : (packetOf C s src contentPadding).receiverIdx = r.receivingIndex :=
    h.mirrored.sendingIndex
  obtain ⟨hsettings, hsessions, -⟩ := (R.opened (packetOf C s src contentPadding)
    r').validateDecapsulatedPacket_quiet (src ++ List.replicate contentPadding 0)
  refine ⟨R.opened (packetOf C s src contentPadding) r', r', ?_, ?_⟩
  · rw [decapsulate, hcarries.isEmpty_eq_false, if_neg Bool.false_ne_true, hreceive]
    have hslot : (R.observeDatagram (R.observedSize (packetOf C s src contentPadding))).sessions
        (slotOf (packetOf C s src contentPadding).receiverIdx.toNat) = some r := by
      rw [hindex]
      exact h.session
    simp only [observedSize] at hslot
    simp only [ok_bind, handleVerifiedPacket, handlePacket, handleData, hslot, hopened]
    rfl
  · subst hr'
    refine ⟨h.config.of_settings (hsettings.trans (setCurrentSession_settings _ _)), ?_, ?_, ?_, ?_⟩
    · rw [hsessions]
      refine (congrFun (setCurrentSession_sessions _ _) _).trans ?_
      show Function.update _ (slotOf (packetOf C s src contentPadding).receiverIdx.toNat) _ _ = _
      rw [hindex]
      exact Function.update_self _ _ _
    · exact ⟨h.mirrored.sender, h.mirrored.receiver, h.mirrored.receivingIndex,
        h.mirrored.sendingIndex⟩
    · exact hrefines
    · rw [List.map_cons, nextAfter_cons, Session.toNat_sent hsmall]
      exact max_le le_rfl (h.earlier.trans (Nat.le_succ _))

/-- What waits in the queue of one tunnel comes out of the other: each flush sends a datagram, and
the other tunnel, unless it takes the datagram for a handshake message, hands over the packet in
it. -/
def Arrives (ε : Type) [Env ε] (dstLen : Nat) (I R : Tunn C) : List TunnResult → Prop
  | [] => I.packetQueue = []
  | result :: results => ∀ (srcAddr : Option IpAddr) (e eR : ε), ∃ datagram I' e',
      I.decapsulate none [] dstLen e = .ok (.writeToNetwork datagram, I', e') ∧
      (R.Recognisable datagram → ∃ R', R.decapsulate srcAddr datagram dstLen eR =
        .ok (result, R', eR) ∧ Arrives ε dstLen I' R' results)

/-- One flush. -/
theorem flush_sends (hI : I.HasConfig cfg) (hcfg : cfg.WellFormed)
    (hs : I.sessions (slotOf I.current) = some s) {rest : List Bytes}
    (hqueue : I.packetQueue = src :: rest)
    (hfit : I.datagramSize src.length ≤ dstLen) (e : ε) :
    ∃ datagram e' contentPadding, I.decapsulate none [] dstLen e = .ok (.writeToNetwork datagram,
        ({ I with packetQueue := rest } : Tunn C).afterSealing src s.sent, e') ∧
      I.Carries s src contentPadding datagram ∧ datagram.length ≤ dstLen := by
  have hle :=
    (I.observeDatagram (I.datagramSize src.length)).transportPadding_le src.length dstLen e
  obtain ⟨datagram, I', e', hseal, hcarries⟩ :=
    sealPacket_spec (t := { I with packetQueue := rest })
    (hI.nonceRoom hcfg.nonceFits) s hfit e
  refine ⟨datagram, e', _, ?_, hcarries, ?_⟩
  · rcases sealPacket_cases hseal with ⟨hr, -⟩ | ⟨_, s', hr, rfl, hformat⟩ <;> cases hr
    obtain rfl := formatTransportPacket_session hformat
    simp only [decapsulate, List.isEmpty_nil, if_true, sendQueuedPacket, hqueue,
      encapsulate, hs, hseal,
      ok_bind]
    rfl
  · exact hcarries.length_eq.trans_le (Nat.add_le_of_le_sub' hfit hle)

/-- **The queue arrives**, one flush after the other. -/
theorem Expects.arrives (hopen : C.OpenUndoesSeal) (hcfg : cfg.WellFormed)
    {results : List TunnResult}
    (h : Expects cfg R s r seen) (hI : I.HasConfig cfg)
    (hs : I.sessions (slotOf I.current) = some s)
    (hpackets : List.Forall₂ IpPacket I.packetQueue results)
    (hfits : ∀ p ∈ I.packetQueue, I.datagramSize p.length ≤ dstLen)
    (hsmall : s.sendingKeyCounter.toNat + results.length < 2 ^ 64 - 1024) :
    Arrives ε dstLen I R results := by
  induction results generalizing I R s r seen with
  | nil => exact List.forall₂_nil_right_iff.mp hpackets
  | cons result results ih =>
    obtain ⟨src, rest, hsrc, hrest, hqueue⟩ := List.forall₂_cons_right_iff.mp hpackets
    rw [hqueue, List.forall_mem_cons] at hfits
    rw [List.length_cons] at hsmall
    intro srcAddr e eR
    obtain ⟨datagram, e', contentPadding, hsend, hcarries, hdst⟩ :=
      flush_sends hI hcfg hs hqueue hfits.1 e
    refine ⟨datagram, _, e', hsend, fun hshape => ?_⟩
    obtain ⟨t, r', htakes, hnext⟩ :=
      h.takes hopen hcfg (by omega) hI hcarries hshape hdst srcAddr eR
    rw [validate_padded t hsrc] at htakes hnext
    refine ⟨_, htakes, ih hnext (hI.of_settings rfl) (Function.update_self _ _ _) hrest hfits.2 ?_⟩
    rw [Session.toNat_sent (by omega)]
    omega

/-! ## From the first packet on -/

/-- A keepalive is nothing but padding. -/
theorem validate_keepalive (t : Tunn C) (n : Nat) :
    (t.validateDecapsulatedPacket ([] ++ List.replicate n 0)).1 = .done := by
  cases n <;> rfl

/-- The buffers have room for every message of a connection, and for these packets. -/
structure Room (cfg : Amnezia3Config) (window dstLen : Nat) (packets : List Bytes) : Prop where
  initiation : cfg.paddings.s1.toNat + handshakeInitSz ≤ dstLen
  response : cfg.paddings.s2.toNat + handshakeRespSz ≤ dstLen
  keepalive : cfg.paddings.s4.toNat + dataOverheadSz + window ≤ dstLen
  data : ∀ p ∈ packets, cfg.paddings.s4.toNat + dataOverheadSz + p.length ≤ dstLen

end Tunn
