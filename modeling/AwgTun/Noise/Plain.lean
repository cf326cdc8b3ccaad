import AwgTun.Noise.Output

/-!
# The default configuration is plain WireGuard

`Tunn::new` makes a tunnel with the default configuration.  Every feature of AmneziaWG is still
called on its way of sending and receiving: the classifier, prefixes and trailers, content
padding, cover traffic.  With the default settings each of them does nothing, and what is left
is plain WireGuard.

* `Tunn.new` — the constructors of a default tunnel.
* `Tunn.Plain` — the default settings; no step changes them.
* `Tunn.Plain.unframe` — a datagram is taken as it came.
* `Tunn.Plain.output` — a datagram is sent as it was made.
* `Tunn.default_is_plain` — all of it, along every run.
-/

open Control Bytes

/-! ## Constructors -/

/-- `Amnezia2Config`. -/
structure Amnezia2Config where
  junk : JunkConfig := .disabled
  paddings : PaddingConfig := {}
  headers : HeaderConfig := .wireguardCompatible
  initPackets : InitPacketConfig := {}
  deriving DecidableEq

/-- `Amnezia2Config::default`. -/
def Amnezia2Config.default : Amnezia2Config := {}

/-- `Amnezia3Config::from_amnezia2`. -/
def Amnezia3Config.fromAmnezia2 (config : Amnezia2Config) : Amnezia3Config where
  junk := config.junk
  paddings := config.paddings
  headers := config.headers
  initPackets := config.initPackets
  headerProtectionKey := none
  contentPaddingAddition := none
  timingRanges := {}
  randomTrailers := false
  disableCookies := false
  mtu := awg3DefaultMtu

/-- `Tunn::parse_incoming_packet`. -/
def parseIncomingPacket (src : Bytes) : Except WireGuardError Packet :=
  parseIncomingPacketConfig src .wireguardCompatible

namespace Tunn

variable {C : Crypto} {ε : Type} [Env ε] {t t' : Tunn C} {datagram : Bytes} {kind : FramedKind}
  {c : Classified} {src : Bytes} {e e' : ε}

/-- `Tunn::new_with_amnezia`. -/
def newWithAmnezia (staticPrivate peerStaticPublic : Key) (presharedKey : Option Key)
    (persistentKeepalive : Option UInt16) (index : UInt32) (rateLimiter : Option RateLimiter)
    (amnezia : Amnezia2Config) (e : ε) : Except ConfigError (Tunn C) × ε :=
  newWithAmnezia3 staticPrivate peerStaticPublic presharedKey persistentKeepalive index rateLimiter
    (.fromAmnezia2 amnezia) e

/-- `Tunn::new`. -/
def new (staticPrivate peerStaticPublic : Key) (presharedKey : Option Key)
    (persistentKeepalive : Option UInt16) (index : UInt32) (rateLimiter : Option RateLimiter)
    (e : ε) : Outcome (Tunn C × ε) :=
  match newWithAmnezia staticPrivate peerStaticPublic presharedKey persistentKeepalive index
    rateLimiter .default e with
  | (.ok t, e) => .ok (t, e)
  | (.error _, _) => .panic "default Amnezia2Config is always valid"

/-- The default configuration is valid, so this never panics. -/
theorem new_eq (staticPrivate peerStaticPublic : Key) (presharedKey : Option Key)
    (persistentKeepalive : Option UInt16) (index : UInt32) (rateLimiter : Option RateLimiter)
    (e : ε) :
    new (C := C) staticPrivate peerStaticPublic presharedKey persistentKeepalive index rateLimiter e
      = .ok (ofConfig staticPrivate peerStaticPublic presharedKey persistentKeepalive index
          rateLimiter (.fromAmnezia2 .default) e) := by
  have hvalid : (Amnezia3Config.fromAmnezia2 .default).validate = .ok () := by decide
  simp only [new, newWithAmnezia, newWithAmnezia3, hvalid]

/-- The tunnels that runs from `Tunn::new` lead to.  A rate limiter that was passed in may count
elsewhere. -/
inductive Ordinary (ε : Type) [Env ε] : Tunn C → Prop
  | start {staticPrivate peerStaticPublic : Key} {presharedKey : Option Key}
      {persistentKeepalive : Option UInt16} {index : UInt32} {rateLimiter : Option RateLimiter}
      {e e' : ε} {t : Tunn C}
      (h : new staticPrivate peerStaticPublic presharedKey persistentKeepalive index rateLimiter e
        = .ok (t, e')) : Ordinary ε t
  | step {t t' : Tunn C} {event : Event} (h : Ordinary ε t) (hstep : Step ε t event t') :
      Ordinary ε t'
  | count {t : Tunn C} {r : RateLimiter} (h : Ordinary ε t) (hr : t.rateLimiter.SameButCounts r) :
      Ordinary ε { t with rateLimiter := r }

/-! ## The settings -/

/-- The default settings, as far as they show on the wire. -/
structure Plain (t : Tunn C) : Prop where
  headers : t.headerConfig = .wireguardCompatible
  paddings : t.paddingConfig = {}
  junk : t.junkConfig = .disabled
  initPackets : t.initPacketConfig = {}
  headerProtection : t.headerProtection = none
  contentPadding : t.contentPadding = none
  randomTrailers : t.randomTrailers = false

/-- The MTU is not one of them. -/
theorem Plain.of_settings {mtu : UInt32} (h : t.Plain)
    (hsettings : t'.settings = { t.settings with mtu := mtu }) : t'.Plain where
  headers := (congrArg Settings.headerConfig hsettings).trans h.headers
  paddings := (congrArg Settings.paddingConfig hsettings).trans h.paddings
  junk := (congrArg Settings.junkConfig hsettings).trans h.junk
  initPackets := (congrArg Settings.initPacketConfig hsettings).trans h.initPackets
  headerProtection := (congrArg Settings.headerProtection hsettings).trans h.headerProtection
  contentPadding := (congrArg Settings.contentPadding hsettings).trans h.contentPadding
  randomTrailers := (congrArg Settings.randomTrailers hsettings).trans h.randomTrailers

theorem Plain.of_eq (h : t.Plain) (hsettings : t'.settings = t.settings) : t'.Plain := by
  have hmtu : t'.settings = { t.settings with mtu := t.mtu } := hsettings
  exact h.of_settings hmtu

theorem plain_ofConfig (staticPrivate peerStaticPublic : Key) (presharedKey : Option Key)
    (persistentKeepalive : Option UInt16) (index : UInt32) (rateLimiter : Option RateLimiter)
    (e : ε) :
    (ofConfig (C := C) staticPrivate peerStaticPublic presharedKey persistentKeepalive index
      rateLimiter (.fromAmnezia2 .default) e).1.Plain :=
  ⟨rfl, rfl, rfl, rfl, rfl, rfl, rfl⟩

/-! ## Receiving -/

/-- Without trailers, a row for messages of a fixed size matches that size alone. -/
theorem classify_exact {headerMask : Option Bytes} {row : Candidate} (hexact : row.exact = true)
    (h : row.classify src headerMask false = some c) :
    src.length = row.padding + row.expectedSize := by
  by_contra hlen
  simp [Candidate.classify, hexact, hlen] at h

/-- The classifier finds nothing to take off. -/
theorem Plain.classified (h : t.Plain) (hclass : t.determinePadding datagram = some c) :
    c.padding = 0 ∧ c.headerMask = none ∧ ∀ size, c.msgSize = some size →
      datagram.length = size := by
  have hmask : t.classifier.headerMask C datagram = none := by
    simp [PacketClassifier.headerMask, classifier, h.headerProtection]
  obtain ⟨row, hrow, hmatch⟩ := List.exists_of_findSome?_eq_some hclass
  rw [hmask, show t.classifier.randomTrailers = false from h.randomTrailers] at hmatch
  obtain ⟨-, -, rfl⟩ := Candidate.classify_eq_some hmatch
  have hpadding : row.padding = 0 := by
    rcases PacketClassifier.mem_checks.mp hrow with ⟨kind, rfl⟩ | rfl
    · cases kind <;> simp [FramedKind.candidate, FramedKind.padding, classifier, h.paddings]
    · simp [classifier, h.paddings]
  refine ⟨hpadding, rfl, ?_⟩
  intro size hsize
  by_cases hexact : row.exact = true
  · have hlen := classify_exact hexact hmatch
    rw [hpadding, Nat.zero_add] at hlen
    simp only [hexact, if_true, Option.some.injEq] at hsize
    rw [hlen, hsize]
  · simp [hexact] at hsize

/-- **A datagram is taken as it came.** -/
theorem Plain.unframe (h : t.Plain) (datagram : Bytes) :
    t.unframe datagram = .ok (.message datagram) := by
  cases hclass : t.determinePadding datagram with
  | none => exact unframe_of_unclassified hclass
  | some c =>
    obtain ⟨hpadding, hmask, hsize⟩ := h.classified hclass
    have htrim : trimTrailer (some c) datagram = datagram := by
      unfold trimTrailer
      cases hmsg : c.msgSize with
      | none => simp [hmsg]
      | some size =>
        obtain rfl := hsize size hmsg
        simp [hmsg]
    have hunmask (n : Nat) : t.unmaskMessage datagram 0 n datagram = .ok datagram := by
      rw [unmaskMessage, h.headerProtection]
    simp only [Tunn.unframe, hclass, Option.map_some, Option.getD_some, hpadding,
      sliceFrom_eq_ok (Nat.zero_le _), List.drop_zero, ok_bind, htrim, transportMask,
        hmask, ite_self, hunmask]
    rfl

/-- What `decapsulate` does with a datagram that parses: it handles the packet, unless the packet
is a handshake message that the rate limiter turns away. -/
def ActsOn (t : Tunn C) (srcAddr : Option IpAddr) (datagram : Bytes) (dstLen : Nat) (e : ε)
    (packet : Packet) : Prop :=
  (∃ t' e', t.receive srcAddr datagram dstLen e = .ok (.packet packet, t', e') ∧
      t.decapsulate srcAddr datagram dstLen e = t'.handleVerifiedPacket packet dstLen e') ∨
    ∃ r t' e', packet.handshakeSender.isSome ∧
      t.receive srcAddr datagram dstLen e = .ok (.reply r, t', e') ∧
      t.decapsulate srcAddr datagram dstLen e = .ok (r, t', e')

theorem Plain.receive (h : t.Plain) (srcAddr : Option IpAddr) (datagram : Bytes) (dstLen : Nat)
    (e : ε) : t.receive srcAddr datagram dstLen e = t.verify srcAddr datagram dstLen e := by
  rw [receive_eq_unframe, h.unframe, ok_bind]

/-- The limiter passes the packet that was parsed, or has an answer. -/
theorem Plain.verify_cases (h : t.Plain) (srcAddr : Option IpAddr) (datagram : Bytes) (dstLen : Nat)
    (e : ε) :
    ∃ received t' e', t.verify srcAddr datagram dstLen e = .ok (received, t', e') ∧
      ∀ packet, received = .packet packet → parseIncomingPacket datagram = .ok packet := by
  rcases hverify : t.rateLimiter.verifyPacket C srcAddr datagram cookieReplySz t.headerConfig
    t.disableCookies e with ⟨verified, limiter, e₁⟩
  have hroom : ({ t with rateLimiter := limiter } : Tunn C).headerProtection.isSome →
      12 ≤ t.paddingConfig.s3.toNat := by simp [h.headerProtection]
  simp only [verify, hverify]
  cases verified with
  | ok packet =>
    refine ⟨_, _, _, rfl, ?_⟩
    rintro packet' ⟨⟩
    rw [parseIncomingPacket, ← h.headers]
    exact RateLimiter.verifyPacket_ok hverify
  | error answer =>
    rcases RateLimiter.verifyPacket_error hverify with ⟨err, rfl⟩ | ⟨cookie, rfl⟩
    · exact ⟨_, _, _, rfl, by simp⟩
    · simp only
      split_ifs
      · exact ⟨_, _, _, rfl, by simp⟩
      · obtain ⟨framed, e₂, hframe⟩ := frame_returns hroom cookie dstLen e₁
        rw [hframe]
        exact ⟨_, _, _, rfl, by simp⟩

/-- `decapsulate` acts on the packet that `parse_incoming_packet` finds. -/
theorem Plain.actsOn (h : t.Plain) (srcAddr : Option IpAddr) (hsome : datagram ≠ []) (dstLen : Nat)
    (e : ε) {packet : Packet} (hparse : parseIncomingPacket datagram = .ok packet) :
    t.ActsOn srcAddr datagram dstLen e packet := by
  obtain ⟨received, t', e', hverify, hpacket⟩ := h.verify_cases srcAddr datagram dstLen e
  have hreceive := (h.receive srcAddr datagram dstLen e).trans hverify
  cases received with
  | packet packet' =>
    have hsame := hpacket packet' rfl
    rw [hparse] at hsame
    cases hsame
    refine .inl ⟨t', e', hreceive, ?_⟩
    rw [decapsulate, if_neg (by simpa using hsome), hreceive, ok_bind]
  | reply r =>
    refine .inr ⟨r, t', e', ?_, hreceive, ?_⟩
    · by_contra hkind
      rw [verify_of_not_handshake t srcAddr dstLen e (by rw [h.headers]; exact hparse)
        (Option.not_isSome_iff_eq_none.mp hkind)] at hverify
      cases hverify
    · rw [decapsulate, if_neg (by simpa using hsome), hreceive, ok_bind]
      rfl

/-- And it turns away what `parse_incoming_packet` refuses. -/
theorem Plain.refuses (h : t.Plain) (srcAddr : Option IpAddr) (hsome : datagram ≠ []) (dstLen : Nat)
    (e : ε) {err : WireGuardError} (hparse : parseIncomingPacket datagram = .error err) :
    t.decapsulate srcAddr datagram dstLen e = .ok (.err err, t, e) := by
  rw [parseIncomingPacket, ← h.headers] at hparse
  have hverify : t.verify srcAddr datagram dstLen e = .ok (.reply (.err err), t, e) := by
    simp [verify, RateLimiter.verifyPacket, hparse]
  rw [decapsulate, if_neg (by simpa using hsome), h.receive, hverify]
  rfl

/-! ## Sending -/

/-- The datagrams of plain WireGuard; the packet in a transport datagram is one of `payloads`. -/
inductive PlainDatagram (payloads : List Bytes) (datagram : Bytes) : Prop
  | initiation (htype : leadingType datagram = 1) (hlen : datagram.length = 148)
  | response (htype : leadingType datagram = 2) (hlen : datagram.length = 92)
  | cookieReply (htype : leadingType datagram = 3) (hlen : datagram.length = 64)
  | transport {src : Bytes} (hsrc : src ∈ payloads) (htype : leadingType datagram = 4)
      (hlen : datagram.length = 32 + src.length)

theorem single_contains {value v : UInt32} (h : (HeaderRange.single value).contains v = true) :
    v = value := by
  obtain ⟨hlo, hhi⟩ := HeaderRange.contains_iff.mp h
  exact UInt32.le_antisymm hhi hlo

/-- A framed message is the message. -/
theorem Plain.framed (h : t.Plain) {message datagram : Bytes}
    (hframed : t.Framed kind message datagram) : datagram = message := by
  obtain ⟨before, masked, after, hbefore, hmasked, hafter, rfl⟩ := hframed
  have hpadding : kind.padding t.paddingConfig = 0 := by
    rw [h.paddings]
    cases kind <;> rfl
  rw [hpadding] at hbefore
  rw [List.eq_nil_of_length_eq_zero hbefore, hafter h.randomTrailers,
    (masked_of_none h.headerProtection).mp hmasked, List.nil_append, List.append_nil]

theorem Plain.emits (h : t.Plain) (hemits : Emits ε t kind datagram) (payloads : List Bytes) :
    PlainDatagram payloads datagram := by
  obtain ⟨message, hmakes, hframed⟩ := hemits.made
  obtain rfl := h.framed hframed
  obtain ⟨hlen, htype⟩ :=
    hmakes.wellFormed (by rw [h.headers]; exact HeaderConfig.wireguardCompatible_ordered)
  rw [h.headers] at htype
  cases kind with
  | init => exact .initiation (single_contains htype) hlen
  | response => exact .response (single_contains htype) hlen
  | cookie => exact .cookieReply (single_contains htype) hlen

/-- There is no padding to draw. -/
theorem Plain.drawsPadding (h : t.Plain) {padding : Nat} (hdraws : DrawsPadding ε t src padding) :
    padding = 0 := by
  obtain ⟨dstLen, e, rfl | rfl⟩ := hdraws
  · simp [contentPaddingAddition, h.contentPadding]
  · simp [transportPadding, h.contentPadding, trailerFor, h.randomTrailers]

theorem Plain.transport (h : t.Plain) {s s' : Session} {src datagram : Bytes} {dstLen : Nat}
    (hformat : t.formatTransportPacket s src 0 dstLen e = .ok (datagram, s', e')) :
    leadingType datagram = 4 ∧ datagram.length = 32 + src.length := by
  have hroom : t.NonceRoom := by simp [NonceRoom, h.headerProtection]
  have hs4 : t.paddingConfig.s4.toNat = 0 := by
    rw [h.paddings]
    rfl
  rcases Nat.lt_or_ge dstLen (t.datagramSize src.length + 0) with hsmall | hfit
  · obtain ⟨message, hpanic⟩ := formatTransportPacket_panics s hsmall e
    rw [hpanic] at hformat
    cases hformat
  · obtain ⟨datagram', e₁, hspec, hcarries⟩ := formatTransportPacket_spec hroom s hfit e
    rw [hspec] at hformat
    cases hformat
    have hlen := hcarries.length_eq
    rw [datagramSize, hs4, dataOverheadSz] at hlen
    obtain ⟨msgType, before, mask, htype, hbefore, hmask, rfl⟩ := hcarries
    rw [h.headers] at htype
    rw [List.eq_nil_of_length_eq_zero (hbefore.trans hs4),
      (maskOf_of_none h.headerProtection).mp hmask] at hlen ⊢
    refine ⟨?_, by omega⟩
    have hmsgType : msgType = 4 := single_contains (htype (HeaderRange.single_ordered 4))
    simp only [List.nil_append, xorBytes_nil_right, transportHeader, List.append_assoc,
      leadingType_append, hmsgType]

/-- Without junk and chains there is nothing to queue. -/
theorem Plain.coverTraffic (h : t.Plain) {cover : List Bytes}
    (hcover : t.coverTraffic e = .ok (cover, e')) : cover = [] := by
  simp only [Tunn.coverTraffic, h.initPackets, h.junk] at hcover
  cases hcover
  rfl

/-- **A datagram is sent as it was made.** -/
theorem Plain.output (h : t.Plain) {payloads : List Bytes}
    (houtput : Output ε t payloads (.writeToNetwork datagram) t') :
    PlainDatagram payloads datagram := by
  cases houtput with
  | yields hyields =>
    cases hyields with
    | nothing hr => exact absurd rfl (hr datagram)
    | answer hsettings hkind hemits => exact (h.of_eq hsettings).emits hemits payloads
    | sealed hsettings hsrc hpadding hformat =>
      have hplain := h.of_eq hsettings
      obtain rfl := hplain.drawsPadding hpadding
      obtain ⟨htype, hlen⟩ := hplain.transport hformat
      exact .transport hsrc htype hlen
  | initiation hsame hinitiates =>
    obtain ⟨dstLen, force, e, e', hcall⟩ := hinitiates.call
    exact (h.of_eq hsame.settings).emits (.initiation hcall) payloads

/-! ## Runs -/

/-- **One step** keeps the queue empty. -/
theorem Plain.step_networkOutgoing (h : t.Plain) (hqueue : t.networkOutgoing = []) {event : Event}
    (hstep : Step ε t event t') : t'.networkOutgoing = [] := by
  rw [List.eq_nil_iff_forall_not_mem]
  intro datagram hmem
  rcases hstep.outgoing datagram hmem with hold | ⟨t₀, cover, e, e', hsettings, hcover, hnew⟩
  · simp [hqueue] at hold
  · simp [(h.of_eq hsettings).coverTraffic hcover] at hnew

/-- **A whole run** keeps the settings and the empty queue. -/
theorem Ordinary.plain (h : Ordinary ε t) : t.Plain ∧ t.networkOutgoing = [] := by
  induction h with
  | start hnew =>
    rw [new_eq] at hnew
    cases hnew
    exact ⟨plain_ofConfig _ _ _ _ _ _ _, rfl⟩
  | step _ hstep ih =>
    exact ⟨ih.1.of_settings hstep.settings, ih.1.step_networkOutgoing ih.2 hstep⟩
  | count _ _ ih => exact ⟨ih.1.of_eq rfl, ih.2⟩

/-- **A default configuration is plain WireGuard.**  In every tunnel that a run from `Tunn::new`
leads to: nothing waits to go before an initiation; `decapsulate` acts on the packet that
`parse_incoming_packet` finds in the datagram as it came, or refuses it with that function's
error; and every datagram sent has one of the four types and the length that belongs to it. -/
theorem default_is_plain (h : Ordinary ε t) :
    t.networkOutgoing = [] ∧
    (∀ srcAddr datagram dstLen (e : ε), datagram ≠ [] →
      (∀ err, parseIncomingPacket datagram = .error err →
        t.decapsulate srcAddr datagram dstLen e = .ok (.err err, t, e)) ∧
      ∀ packet, parseIncomingPacket datagram = .ok packet →
        t.ActsOn srcAddr datagram dstLen e packet) ∧
    (∀ src dstLen (e e' : ε) datagram t',
      t.encapsulate src dstLen e = .ok (.writeToNetwork datagram, t', e') →
        PlainDatagram [src] datagram) ∧
    (∀ srcAddr received dstLen (e e' : ε) datagram t',
      t.decapsulate srcAddr received dstLen e = .ok (.writeToNetwork datagram, t', e') →
        PlainDatagram ([] :: t.packetQueue) datagram) ∧
    (∀ dstLen (e e' : ε) datagram t',
      t.updateTimers dstLen e = .ok (.writeToNetwork datagram, t', e') →
        PlainDatagram [[]] datagram) ∧
    ∀ dstLen force (e e' : ε) datagram t',
      t.formatHandshakeInitiation dstLen force e = .ok (.writeToNetwork datagram, t', e') →
        PlainDatagram [] datagram := by
  obtain ⟨hplain, hqueue⟩ := h.plain
  refine ⟨hqueue, ?_, ?_, ?_, ?_, ?_⟩
  · intro srcAddr datagram dstLen e hsome
    exact ⟨fun err => hplain.refuses srcAddr hsome dstLen e,
      fun packet => hplain.actsOn srcAddr hsome dstLen e⟩
  · intro src dstLen e e' datagram t' hr
    exact hplain.output (output_encapsulate hr)
  · intro srcAddr received dstLen e e' datagram t' hr
    exact hplain.output (output_decapsulate hr)
  · intro dstLen e e' datagram t' hr
    exact hplain.output (output_updateTimers hr)
  · intro dstLen force e e' datagram t' hr
    exact hplain.output (output_formatHandshakeInitiation [] hr)

/-- A new tunnel, and the first datagram it sends. -/
theorem default_is_plain_fresh :
    Ordinary StillMachine freshTunn ∧
      ∃ datagram t' e', freshTunn.encapsulate [1] 148 ({} : StillMachine) =
          .ok (.writeToNetwork datagram, t', e') ∧ PlainDatagram [[1]] datagram := by
  have hnew : Ordinary StillMachine freshTunn :=
    .start (show new zeroKey zeroKey none none 1 none ({} : StillMachine) = .ok (freshTunn, {}) from
      rfl)
  have hsent : ∃ datagram t' e', freshTunn.encapsulate [1] 148 ({} : StillMachine) =
      .ok (.writeToNetwork datagram, t', e') := ⟨_, _, _, rfl⟩
  obtain ⟨datagram, t', e', hsent⟩ := hsent
  exact ⟨hnew, datagram, t', e', hsent, (default_is_plain hnew).2.2.1 _ _ _ _ _ _ hsent⟩

end Tunn
