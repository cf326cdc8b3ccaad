import AwgTun.Noise.Decapsulate
import AwgTun.Noise.ReplayWindow

/-!
# Transport packets

What `format_transport_packet` puts on the wire, and that the other end of the
connection gets back what was sent.

* `Tunn.Carries` — the shape of a transport datagram: a prefix of S4 bytes, the
  16-byte header under the mask of that prefix, the sealed content.
* `Tunn.formatTransportPacket_spec` — in a buffer that is large enough a datagram of
  this shape comes out, whatever the draws; `Tunn.formatTransportPacket_panics` — in
  a smaller one nothing does.
* `Tunn.receive_transport` — the classifier, the two unmasking paths and the parser
  find the packet in a datagram of this shape.
* `Tunn.transport_roundtrip` — from `encapsulate` on one side to `decapsulate` on the
  other.
-/

open Control Bytes

variable {C : Crypto} {ε : Type} [Env ε]

/-! ## The shape of a transport datagram -/

/-- The clear header of a transport packet. -/
def transportHeader (msgType : UInt32) (s : Session) : Bytes :=
  u32ToLe msgType ++ (u32ToLe s.sendingIndex ++ u64ToLe s.sendingKeyCounter)

@[simp] theorem length_transportHeader (msgType : UInt32) (s : Session) :
    (transportHeader msgType s).length = 16 := by
  simp [transportHeader]

namespace Session

/-- The sealed content of the next packet of a session. -/
def sealedContent (C : Crypto) (s : Session) (src : Bytes) (contentPadding : Nat) : Bytes :=
  C.aeadSeal s.sender (counterNonce s.sendingKeyCounter) [] (src ++ List.replicate contentPadding 0)

@[simp] theorem length_sealedContent (C : Crypto) (s : Session) (src : Bytes)
    (contentPadding : Nat) :
    (s.sealedContent C src contentPadding).length = src.length + contentPadding + 16 := by
  simp [sealedContent]

/-- The session after it has sealed a packet. -/
def sent (s : Session) : Session := { s with sendingKeyCounter := s.sendingKeyCounter + 1 }

theorem formatPacketData_eq {C : Crypto} (s : Session) {src : Bytes} {dstLen : Nat}
    (msgType : UInt32)
    {contentPadding : Nat} (h : src.length + contentPadding + dataOverheadSz ≤ dstLen) :
    s.formatPacketData C src dstLen msgType contentPadding =
      .ok (transportHeader msgType s ++ s.sealedContent C src contentPadding, s.sent) := by
  rw [formatPacketData, if_neg (by omega)]
  simp [transportHeader, sealedContent, sent]

theorem formatPacketData_panics {C : Crypto} (s : Session) {src : Bytes} {dstLen : Nat}
    (msgType : UInt32) {contentPadding : Nat}
    (h : dstLen < src.length + contentPadding + dataOverheadSz) :
    s.formatPacketData C src dstLen msgType contentPadding =
      .panic "The destination buffer is too small" := by
  rw [formatPacketData, if_pos h]

end Session

namespace Tunn

variable {t : Tunn C} {s : Session} {src : Bytes} {contentPadding : Nat} {before mask : Bytes}
  {datagram : Bytes} {msgType : UInt32} {dstLen : Nat} {cfg : Amnezia3Config} {after : Bytes}
  {t' : Tunn C} {e e' : ε}

/-- With header protection on, the S4 prefix holds a nonce. -/
def NonceRoom (t : Tunn C) : Prop :=
  t.headerProtection.isSome → 12 ≤ t.paddingConfig.s4.toNat

theorem HasConfig.nonceRoom (h : t.HasConfig cfg)
    (hfits : cfg.headerProtectionKey.isSome → Amnezia3Config.NonceFits cfg.paddings) :
    t.NonceRoom := by
  intro hsome
  rw [h.headerProtection, Amnezia3Config.headerProtection, Option.isSome_map] at hsome
  rw [h.paddings]
  exact (hfits hsome).s4

/-- The mask that a prefix puts on the transport header behind it. -/
def MaskOf (t : Tunn C) (before mask : Bytes) : Prop :=
  match t.headerProtection with
  | none => mask = []
  | some hp => hp.keystream C transportHeaderSz before = .ok mask

/-- A datagram of the tunnel with the next packet of a session inside. -/
def Carries (t : Tunn C) (s : Session) (src : Bytes) (contentPadding : Nat) (datagram : Bytes) :
    Prop :=
  ∃ msgType before mask,
    (t.headerConfig.transport.Ordered → t.headerConfig.transport.contains msgType = true) ∧
    before.length = t.paddingConfig.s4.toNat ∧ t.MaskOf before mask ∧
    datagram = before ++
      (xorBytes (transportHeader msgType s) mask ++ s.sealedContent C src contentPadding)

theorem Carries.length_eq (h : t.Carries s src contentPadding datagram) :
    datagram.length = t.datagramSize src.length + contentPadding := by
  obtain ⟨msgType, before, mask, -, hbefore, -, rfl⟩ := h
  simp only [List.length_append, length_xorBytes, length_transportHeader,
    Session.length_sealedContent, hbefore, datagramSize, dataOverheadSz]
  omega

theorem Carries.isEmpty_eq_false (h : t.Carries s src contentPadding datagram) :
    datagram.isEmpty = false := by
  have hlen := h.length_eq
  simp only [datagramSize, dataOverheadSz] at hlen
  rw [List.isEmpty_eq_false_iff_exists_mem, ← List.length_pos_iff_exists_mem]
  omega

/-- What a datagram carries depends on the configuration alone. -/
theorem Carries.of_config (h : t.HasConfig cfg) (h' : t'.HasConfig cfg)
    (hcarries : t.Carries s src contentPadding datagram) :
    t'.Carries s src contentPadding datagram := by
  unfold Carries MaskOf at *
  rwa [h'.headers, h'.paddings, h'.headerProtection, ← h.headers, ← h.paddings,
    ← h.headerProtection]

theorem maskOf_of_some {hp : HeaderProtection} (hhp : t.headerProtection = some hp)
    {before : Bytes} {mask : Bytes} :
    t.MaskOf before mask ↔ hp.keystream C transportHeaderSz before = .ok mask := by
  rw [MaskOf, hhp]

theorem maskOf_of_none (hhp : t.headerProtection = none) :
    t.MaskOf before mask ↔ mask = [] := by
  rw [MaskOf, hhp]

/-! ## Sending -/

/-- A prefix that is long enough has a mask. -/
theorem randomPrefix_spec (hroom : t.NonceRoom) (e : ε) :
    ∃ before mask e', randomBytes t.paddingConfig.s4.toNat e = (before, e') ∧
      before.length = t.paddingConfig.s4.toNat ∧ t.MaskOf before mask := by
  rcases hdraw : randomBytes t.paddingConfig.s4.toNat e with ⟨before, e'⟩
  have hlen : before.length = t.paddingConfig.s4.toNat := by
    rw [← length_randomBytes t.paddingConfig.s4.toNat e, hdraw]
  cases hhp : t.headerProtection with
  | none => exact ⟨before, [], e', rfl, hlen, (maskOf_of_none hhp).mpr rfl⟩
  | some hp =>
    obtain ⟨nonce, hnonce⟩ := HeaderProtection.nonceOf_eq_some (hlen ▸ hroom (by simp [hhp]))
    exact ⟨before, _, e', rfl, hlen,
      (maskOf_of_some hhp).mpr (hp.keystream_eq_ok C hnonce transportHeaderSz)⟩

/-- One draw: the packet under the mask of the prefix, or another draw. -/
theorem drawPrefix_step (packet : Bytes) (redraws : Nat)
    (hdraw : randomBytes t.paddingConfig.s4.toNat e = (before, e')) (hmask : t.MaskOf before mask) :
    t.drawPrefix packet redraws e =
        .ok (before ++ (xorBytes (packet.take 16) mask ++ packet.drop 16), e') ∨
      ∃ n, redraws = n + 1 ∧ t.drawPrefix packet redraws e = t.drawPrefix packet n e' := by
  rw [drawPrefix, hdraw]
  cases hhp : t.headerProtection with
  | none =>
    rw [(maskOf_of_none hhp).mp hmask]
    exact .inl (by simp)
  | some hp =>
    simp only [(maskOf_of_some hhp).mp hmask, ok_bind]
    cases redraws with
    | zero => exact .inl rfl
    | succ n =>
      split_ifs
      · exact .inr ⟨n, rfl, rfl⟩
      · exact .inl rfl

/-- However often the prefix is drawn again, the packet comes out under the mask of
the prefix that was drawn last. -/
theorem drawPrefix_spec (hroom : t.NonceRoom) (packet : Bytes) (redraws : Nat) (e : ε) :
    ∃ before mask e', before.length = t.paddingConfig.s4.toNat ∧ t.MaskOf before mask ∧
      t.drawPrefix packet redraws e =
        .ok (before ++ (xorBytes (packet.take 16) mask ++ packet.drop 16), e') := by
  induction redraws generalizing e with
  | zero =>
    obtain ⟨before, mask, e', hdraw, hlen, hmask⟩ := randomPrefix_spec hroom e
    rcases drawPrefix_step packet 0 hdraw hmask with hok | ⟨n, hn, -⟩
    · exact ⟨before, mask, e', hlen, hmask, hok⟩
    · cases hn
  | succ redraws ih =>
    obtain ⟨before, mask, e', hdraw, hlen, hmask⟩ := randomPrefix_spec hroom e
    rcases drawPrefix_step packet (redraws + 1) hdraw hmask with hok | ⟨n, hn, hagain⟩
    · exact ⟨before, mask, e', hlen, hmask, hok⟩
    · cases hn
      rw [hagain]
      exact ih e'

/-- A buffer with room for the padded packet gets a datagram that carries it. -/
theorem formatTransportPacket_spec (hroom : t.NonceRoom) (s : Session)
    (hfit : t.datagramSize src.length + contentPadding ≤ dstLen) (e : ε) :
    ∃ datagram e', t.formatTransportPacket s src contentPadding dstLen e =
      .ok (datagram, s.sent, e') ∧
      t.Carries s src contentPadding datagram := by
  rcases hgen : t.headerConfig.transport.generate e with ⟨msgType, e₁⟩
  have htype : t.headerConfig.transport.Ordered →
      t.headerConfig.transport.contains msgType = true := by
    intro hordered
    have hcontains := HeaderRange.generate_contains hordered e
    rwa [hgen] at hcontains
  simp only [datagramSize, dataOverheadSz] at hfit
  obtain ⟨before, mask, e₂, hlen, hmask, hdraw⟩ := drawPrefix_spec hroom
    (transportHeader msgType s ++ s.sealedContent C src contentPadding) (maxPrefixDraws - 1) e₁
  rw [List.take_left' (length_transportHeader msgType s),
    List.drop_left' (length_transportHeader msgType s)] at hdraw
  refine ⟨_, e₂, ?_, msgType, before, mask, htype, hlen, hmask, rfl⟩
  simp only [formatTransportPacket, hgen,
    if_neg (show ¬ dstLen < t.paddingConfig.s4.toNat by omega)]
  rw [Session.formatPacketData_eq s msgType (by simp only [dataOverheadSz]; omega), ok_bind]
  simp only [hdraw, ok_bind]
  rfl

/-- A buffer without that room is a panic. -/
theorem formatTransportPacket_panics (s : Session)
    (hfit : dstLen < t.datagramSize src.length + contentPadding) (e : ε) :
    ∃ message, t.formatTransportPacket s src contentPadding dstLen e = .panic message := by
  rcases hgen : t.headerConfig.transport.generate e with ⟨msgType, e₁⟩
  simp only [datagramSize, dataOverheadSz] at hfit
  simp only [formatTransportPacket, hgen]
  split_ifs with hs4
  · exact ⟨_, rfl⟩
  · rw [Session.formatPacketData_panics s msgType (by simp only [dataOverheadSz]; omega)]
    exact ⟨_, rfl⟩

/-- The size up to which content padding may let a datagram grow. -/
def sizeLimit (t : Tunn C) : Nat :=
  if t.mtu ≠ 0 then min t.udpWindow.toNat t.mtu.toNat else t.udpWindow.toNat

/-- Content padding is the draw, cut down to the room below the limit and to the
room in the buffer. -/
theorem contentPaddingAddition_eq {range : U32Range} (hrange : t.contentPadding = some range)
    (size dstLen : Nat) (e : ε) :
    (t.contentPaddingAddition size dstLen e).1 =
      min (range.generate e).1.toNat (min (t.sizeLimit - size) (dstLen - size)) := by
  unfold contentPaddingAddition sizeLimit
  simp only [hrange]
  split_ifs <;> simp only <;> omega

/-- Padding never needs more than the buffer has left. -/
theorem transportPadding_le (t : Tunn C) (packetSize dstLen : Nat) (e : ε) :
    (t.transportPadding packetSize dstLen e).1 ≤ dstLen - t.datagramSize packetSize := by
  rw [transportPadding]
  cases hrange : t.contentPadding with
  | some range =>
    simp only [Option.isSome_some, if_true, contentPaddingAddition_eq hrange]
    omega
  | none =>
    rw [if_neg (by simp), trailerFor]
    split_ifs
    · exact min_le_right _ _
    · exact Nat.zero_le _

/-- The content padding `encapsulate` adds: it has widened the window to the
datagram before it draws. -/
def sealPadding (t : Tunn C) (src : Bytes) (dstLen : Nat) (e : ε) : Nat :=
  ((t.observeDatagram (t.datagramSize src.length)).transportPadding src.length dstLen e).1

/-- With room for the packet itself, sealing succeeds. -/
theorem sealPacket_spec (hroom : t.NonceRoom) (s : Session)
    (hfit : t.datagramSize src.length ≤ dstLen) (e : ε) :
    ∃ datagram t' e', t.sealPacket s src dstLen e = .ok (.writeToNetwork datagram, t', e') ∧
      t.Carries s src (t.sealPadding src dstLen e) datagram := by
  have hle :=
    (t.observeDatagram (t.datagramSize src.length)).transportPadding_le src.length dstLen e
  rw [sealPacket, if_neg (by omega)]
  rcases hpad : (t.observeDatagram (t.datagramSize src.length)).transportPadding src.length dstLen e
    with ⟨contentPadding, e₁⟩
  rw [hpad] at hle
  obtain ⟨datagram, e₂, hformat, hcarries⟩ := formatTransportPacket_spec
    (show (t.observeDatagram (t.datagramSize src.length)).NonceRoom from hroom) s
    (show t.datagramSize src.length + contentPadding ≤ dstLen from
      Nat.add_le_of_le_sub' hfit hle) e₁
  simp only [hpad, hformat, ok_bind]
  refine ⟨datagram, _, e₂, rfl, ?_⟩
  rw [sealPadding, hpad]
  exact hcarries

/-- Without it, the packet is refused and nothing changes. -/
theorem sealPacket_tooSmall (s : Session) (hfit : dstLen < t.datagramSize src.length) (e : ε) :
    t.sealPacket s src dstLen e = .ok (.err .destinationBufferTooSmall, t, e) := by
  rw [sealPacket, if_pos hfit]

/-- A datagram that came out of `encapsulate` with a session carries the packet. -/
theorem carries_of_encapsulate (hroom : t.NonceRoom) (hs : t.sessions (slotOf t.current) = some s)
    (h : t.encapsulate src dstLen e = .ok (.writeToNetwork datagram, t', e')) :
    ∃ contentPadding, t.Carries s src contentPadding datagram := by
  rw [encapsulate, hs] at h
  simp only at h
  rcases Nat.lt_or_ge dstLen (t.datagramSize src.length) with hsmall | hfit
  · rw [sealPacket_tooSmall s hsmall] at h
    cases h
  · obtain ⟨datagram', t'', e'', hseal, hcarries⟩ := sealPacket_spec hroom s hfit e
    rw [hseal] at h
    cases h
    exact ⟨_, hcarries⟩

/-! ## Receiving -/

/-- The conditions under which a transport datagram is recognised: without trailers
its length must not be that of a handshake message. -/
def Recognisable (t : Tunn C) (datagram : Bytes) : Prop :=
  t.randomTrailers = true ∨
    (datagram.length ≠ t.paddingConfig.s1.toNat + handshakeInitSz ∧
      datagram.length ≠ t.paddingConfig.s2.toNat + handshakeRespSz ∧
      datagram.length ≠ t.paddingConfig.s3.toNat + cookieReplySz)

/-- The classifier derives the mask from the prefix it finds in the datagram. -/
theorem headerMask_eq (hroom : t.NonceRoom) {before mask after : Bytes}
    (hlen : before.length = t.paddingConfig.s4.toNat) (hmask : t.MaskOf before mask) :
    t.classifier.headerMask C (before ++ after) = t.headerProtection.map fun _ => mask := by
  unfold PacketClassifier.headerMask classifier
  cases hhp : t.headerProtection with
  | none => rfl
  | some hp =>
    have h12 : 12 ≤ before.length := hlen ▸ hroom (by simp [hhp])
    have hlong : (before ++ after).length ≥ headerProtectionNonceSize := by
      simp only [headerProtectionNonceSize, List.length_append]
      omega
    have hkeystream : hp.keystream C transportHeaderSz (before ++ after) = .ok mask := by
      rw [← (maskOf_of_some hhp).mp hmask, HeaderProtection.keystream, HeaderProtection.keystream,
        HeaderProtection.apply, HeaderProtection.apply, HeaderProtection.nonceOf_append h12]
    simp only [if_pos hlong, hkeystream]
    rfl

/-- The transport row of the classifier's table matches. -/
theorem transport_candidate {headerMask : Option Bytes} (hmask : headerMask.getD [] = mask)
    (hlen : before.length = t.paddingConfig.s4.toNat) (hafter : 16 ≤ after.length)
    (htype : t.headerConfig.transport.contains msgType = true) (randomTrailers : Bool) :
    Candidate.classify (before ++ (xorBytes (transportHeader msgType s) mask ++ after)) headerMask
        randomTrailers ⟨t.paddingConfig.s4.toNat, t.headerConfig.transport, dataOverheadSz, false⟩ =
      some ⟨t.paddingConfig.s4.toNat, transportHeaderSz, headerMask, none⟩ := by
  have hmasked : (xorBytes (transportHeader msgType s) mask).length = 16 := by simp
  have hslice : slice (before ++ (xorBytes (transportHeader msgType s) mask ++ after))
      t.paddingConfig.s4.toNat (t.paddingConfig.s4.toNat + 4) =
        (xorBytes (transportHeader msgType s) mask).take 4 := by
    rw [slice_skip hlen.le, hlen, Nat.sub_self, Nat.add_sub_cancel_left, slice_zero,
      List.take_append_of_le_length (by omega)]
  have hclear : (transportHeader msgType s).take 4 = u32ToLe msgType :=
    List.take_left' (length_u32ToLe msgType)
  simp only [Candidate.classify, hslice, hmask, xorBytes_take_xorBytes, hclear, u32OfLe_u32ToLe,
    htype, List.length_append, hmasked, hlen, dataOverheadSz]
  rw [if_pos]
  · rfl
  · simp
    omega

/-- The classifier takes a transport datagram for what it is. -/
theorem classify_transport (hroom : t.NonceRoom) (hlen : before.length = t.paddingConfig.s4.toNat)
    (hmask : t.MaskOf before mask) (hafter : 16 ≤ after.length)
    (htype : t.headerConfig.transport.contains msgType = true)
    (hshape : t.Recognisable (before ++ (xorBytes (transportHeader msgType s) mask ++ after))) :
    t.determinePadding (before ++ (xorBytes (transportHeader msgType s) mask ++ after)) =
      some ⟨t.paddingConfig.s4.toNat, transportHeaderSz, t.headerProtection.map fun _ => mask,
        none⟩ := by
  have hgetD : (t.headerProtection.map fun _ => mask).getD [] = mask := by
    cases hhp : t.headerProtection with
    | none => simp [(maskOf_of_none hhp).mp hmask]
    | some hp => rfl
  have htransport := transport_candidate (s := s) hgetD hlen hafter htype t.randomTrailers
  rw [determinePadding, PacketClassifier.classify, headerMask_eq hroom hlen hmask]
  cases htrailers : t.randomTrailers with
  | true =>
    -- transport is tried first
    rw [htrailers] at htransport
    simp only [PacketClassifier.checks, classifier, htrailers, if_true, List.findSome?_cons,
      htransport]
  | false =>
    -- the other kinds are compared exactly, and the length is none of theirs
    obtain ⟨hinit, hresponse, hcookie⟩ := hshape.resolve_left (by simp [htrailers])
    rw [htrailers] at htransport
    simp only [PacketClassifier.checks, classifier, htrailers, Bool.false_eq_true, if_false,
      List.findSome?_cons, Candidate.classify_eq_none _ _ hinit,
      Candidate.classify_eq_none _ _ hresponse, Candidate.classify_eq_none _ _ hcookie,
      htransport]

/-- The packet in a transport datagram. -/
def packetOf (C : Crypto) (s : Session) (src : Bytes) (contentPadding : Nat) : PacketData where
  receiverIdx := s.sendingIndex
  counter := s.sendingKeyCounter
  encryptedEncapsulatedPacket := s.sealedContent C src contentPadding

/-- The masked header is unmasked and read field by field. -/
theorem unmaskTransport_eq (msgType : UInt32) (s : Session) (mask src : Bytes)
    (contentPadding : Nat) :
    unmaskTransport (xorBytes (transportHeader msgType s) mask ++
      s.sealedContent C src contentPadding)
      mask = .ok (.packetData (packetOf C s src contentPadding)) := by
  have hmasked : (xorBytes (transportHeader msgType s) mask).length = 16 := by simp
  have hidx : slice (transportHeader msgType s) 4 8 = u32ToLe s.sendingIndex := by
    simp [transportHeader, slice_skip, slice_head]
  have hcounter : slice (transportHeader msgType s) 8 16 = u64ToLe s.sendingKeyCounter := by
    rw [transportHeader, ← List.append_assoc, slice_skip (by simp), slice]
    simp
  rw [unmaskTransport, sliceTo_eq_ok (by simp), List.take_left' hmasked,
    sliceFrom_eq_ok (by simp), List.drop_left' hmasked]
  simp only [ok_bind, xorBytes_xorBytes, hidx, hcounter, u32OfLe_u32ToLe, u64OfLe_u64ToLe]
  rfl

/-- A datagram that is classified as transport gives the packet in it, and nothing changes. -/
theorem receive_of_transport (hdisjoint : t.headerConfig.Disjoint)
    (htype : t.headerConfig.transport.contains msgType = true)
    (hlen : before.length = t.paddingConfig.s4.toNat) (hmask : t.MaskOf before mask)
    (hclassify : t.determinePadding (before ++ (xorBytes (transportHeader msgType s) mask
        ++ s.sealedContent C src contentPadding)) =
      some ⟨t.paddingConfig.s4.toNat, transportHeaderSz, t.headerProtection.map fun _ =>
        mask, none⟩)
    (srcAddr : Option IpAddr) (dstLen : Nat) (e : ε) :
    t.receive srcAddr (before ++ (xorBytes (transportHeader msgType s) mask
        ++ s.sealedContent C src contentPadding)) dstLen e =
      .ok (.packet (.packetData (packetOf C s src contentPadding)), t, e) := by
  have hpayload : (before ++ (xorBytes (transportHeader msgType s) mask
      ++ s.sealedContent C src contentPadding)).drop t.paddingConfig.s4.toNat =
        xorBytes (transportHeader msgType s) mask ++ s.sealedContent C src contentPadding :=
    List.drop_left' hlen
  rw [receive, hclassify]
  simp only [Option.map_some, Option.getD_some]
  rw [sliceFrom_eq_ok (by simp [hlen]), hpayload, ok_bind]
  simp only [trimTrailer, transportMask, Option.bind_some, if_true]
  cases hhp : t.headerProtection with
  | some hp =>
    simp only [Option.map_some, unmaskTransport_eq, ok_bind]
    rfl
  | none =>
    -- without header protection the packet goes through the parser
    have hparse : parseIncomingPacketConfig
        (transportHeader msgType s ++ s.sealedContent C src contentPadding) t.headerConfig =
          .ok (.packetData (packetOf C s src contentPadding)) := by
      rw [transportHeader, List.append_assoc, List.append_assoc]
      exact parse_transport hdisjoint htype (by simp)
    rw [(maskOf_of_none hhp).mp hmask, xorBytes_nil_right, Option.map_none, unmaskMessage, hhp]
    exact verify_of_not_handshake t srcAddr dstLen e hparse rfl

/-- The first stage of `decapsulate` finds the packet in a transport datagram and
changes nothing. -/
theorem receive_transport (hroom : t.NonceRoom) (hdisjoint : t.headerConfig.Disjoint)
    (hordered : t.headerConfig.transport.Ordered)
    (hcarries : t.Carries s src contentPadding datagram) (hshape : t.Recognisable datagram)
    (srcAddr : Option IpAddr) (dstLen : Nat) (e : ε) :
    t.receive srcAddr datagram dstLen e =
      .ok (.packet (.packetData (packetOf C s src contentPadding)), t, e) := by
  obtain ⟨msgType, before, mask, htype, hlen, hmask, rfl⟩ := hcarries
  have hclassify := classify_transport hroom hlen hmask
    (show 16 ≤ (s.sealedContent C src contentPadding).length by simp) (htype hordered) hshape
  exact receive_of_transport hdisjoint (htype hordered) hlen hmask hclassify srcAddr dstLen e

end Tunn

/-! ## The round trip -/

namespace Session

/-- The receiving end takes a counter, both before and after the decryption. -/
def Fresh (s : Session) (counter : UInt64) : Prop :=
  s.receivingCounterQuickCheck counter = .ok () ∧ (s.receivingCounterMark counter).1 = .ok ()

/-- A counter the abstract replay window accepts is fresh. -/
theorem fresh_of_accepts {s : Session} {seen : List UInt64} {counter : UInt64}
    (hseen : s.receivingKeyCounter.Refines seen) (hsmall : counter.toNat < 2 ^ 64 - 1024)
    (haccepts : ReceivingKeyCounterValidator.Accepts seen counter) : s.Fresh counter := by
  refine ⟨(ReceivingKeyCounterValidator.willAccept_spec hseen hsmall).mpr haccepts, ?_⟩
  rcases ReceivingKeyCounterValidator.markDidReceive_spec hseen hsmall with
    ⟨-, v', hmark, -⟩ | ⟨hrej, -⟩
  · rw [receivingCounterMark, hmark]
  · exact absurd haccepts hrej

/-- The other end opens what a session has sealed. -/
theorem receivePacketData_sealed {C : Crypto} (hopen : C.OpenUndoesSeal) {s r : Session}
    (hmirror : s.Mirrored r) (hfresh : r.Fresh s.sendingKeyCounter) {src : Bytes}
    {contentPadding dstLen : Nat} (hdst : (s.sealedContent C src contentPadding).length ≤ dstLen) :
    ∃ r', r.receivePacketData C (Tunn.packetOf C s src contentPadding) dstLen =
      .ok (.ok (src ++ List.replicate contentPadding 0), r') := by
  obtain ⟨hquick, hmark⟩ := hfresh
  rcases hr : r.receivingCounterMark s.sendingKeyCounter with ⟨result, r'⟩
  obtain rfl : result = .ok () := by rwa [hr] at hmark
  have hopened : C.aeadOpen r.receiver (counterNonce s.sendingKeyCounter) []
      (s.sealedContent C src contentPadding) = some (src ++ List.replicate contentPadding 0) := by
    rw [← hmirror.sender]
    exact hopen _ _ _ _
  refine ⟨r', ?_⟩
  simp only [receivePacketData, Tunn.packetOf, if_neg (Nat.not_lt.mpr hdst), hmirror.sendingIndex,
    ne_eq, not_true_eq_false, if_false, hquick, hopened, hr]

end Session

/-- An IP packet whose header declares exactly its length, and what a tunnel has to
hand over for it: the packet itself and the source address in its header. -/
inductive IpPacket : Bytes → TunnResult → Prop
  | v4 {src : Bytes} {first : UInt8} (hfirst : src.head? = some first) (hversion : first >>> 4 = 4)
      (hmin : 20 ≤ src.length) (hlen : beNat (slice src 2 4) = src.length) :
      IpPacket src (.writeToTunnelV4 src (IpAddr.ofBytesV4 (slice src 12 16)))
  | v6 {src : Bytes} {first : UInt8} (hfirst : src.head? = some first) (hversion : first >>> 4 = 6)
      (hmin : 40 ≤ src.length) (hlen : beNat (slice src 4 6) + 40 = src.length) :
      IpPacket src (.writeToTunnelV6 src (IpAddr.ofBytesV6 (slice src 8 24)))

namespace Tunn

variable {result : TunnResult} {src : Bytes}

/-- An IP packet is data, and bytes after it are cut off, whatever they are. -/
theorem validate_padded (t : Tunn C) (h : IpPacket src result) (after : Bytes) :
    t.validateDecapsulatedPacket (src ++ after) = (result,
      { t.timerTick .timeLastDataPacketReceived with rxBytes := t.rxBytes + src.length }) := by
  have hhead {first : UInt8} (hfirst : src.head? = some first) :
      (src ++ after).head? = some first := by
    rw [List.head?_append, hfirst, Option.some_or]
  cases h with
  | v4 hfirst hversion hmin hlen =>
    rw [validateDecapsulatedPacket, hhead hfirst]
    simp only [hversion, List.length_append, true_and,
      if_pos (show src.length + after.length ≥ 20 by omega),
      slice_append_left (show 4 ≤ src.length by omega),
      slice_append_left (show 16 ≤ src.length by omega), hlen, deliver]
    rw [if_neg (by omega), List.take_left]
    rfl
  | v6 hfirst hversion hmin hlen =>
    have h4 : ¬ (6 : UInt8) = 4 := by decide
    rw [validateDecapsulatedPacket, hhead hfirst]
    simp only [hversion, h4, false_and, if_false, List.length_append, true_and,
      if_pos (show src.length + after.length ≥ 40 by omega),
      slice_append_left (show 6 ≤ src.length by omega),
      slice_append_left (show 24 ≤ src.length by omega), hlen, deliver]
    rw [if_neg (by omega), List.take_left]
    rfl

/-- The session that a packet of a mirrored session is for. -/
theorem sessions_packetOf {t : Tunn C} {s r : Session}
    (hr : t.sessions (slotOf r.receivingIndex.toNat) = some r) (hmirror : s.Mirrored r)
    (src : Bytes) (contentPadding size : Nat) :
    (t.observeDatagram size).sessions
      (slotOf (packetOf C s src contentPadding).receiverIdx.toNat) = some r := by
  rw [← hr, ← hmirror.sendingIndex]
  rfl

/-- Handling the packet that a mirrored session has sealed. -/
theorem handleVerifiedPacket_sealed (hopen : C.OpenUndoesSeal) {t : Tunn C} {s r : Session}
    (hr : t.sessions (slotOf r.receivingIndex.toNat) = some r) (hmirror : s.Mirrored r)
    (hfresh : r.Fresh s.sendingKeyCounter) {contentPadding dstLen : Nat}
    (hdst : (s.sealedContent C src contentPadding).length ≤ dstLen) (hsrc : IpPacket src result)
    (e : ε) :
    ∃ t', t.handleVerifiedPacket (.packetData (packetOf C s src contentPadding)) dstLen e =
      .ok (result, t', e) := by
  obtain ⟨r', hopened⟩ := Session.receivePacketData_sealed hopen hmirror hfresh hdst
  have hslot := sessions_packetOf hr hmirror src contentPadding
  simp only [handleVerifiedPacket, handlePacket, handleData, hslot, hopened, ok_bind, pure,
    Except.pure, validate_padded _ hsrc]
  exact ⟨_, rfl⟩

/-- **Transport round trip.**  Two tunnels that share a parsed configuration and hold
mirrored sessions: what `encapsulate` makes of an IP packet, `decapsulate` turns back
into that packet with its source address, whatever the window, the MTU and the draws
were.  Without random trailers the datagram must not have the length of a handshake
message. -/
theorem transport_roundtrip [Text.Hex] (hopen : C.OpenUndoesSeal) {input : Text}
    {cfg : Amnezia3Config} (hparse : (Amnezia3Config.parse input).run = .ok (.ok cfg))
    {S R : Tunn C} (hS : S.HasConfig cfg) (hR : R.HasConfig cfg) {s r : Session}
    (hs : S.sessions (slotOf S.current) = some s)
    (hr : R.sessions (slotOf r.receivingIndex.toNat) = some r) (hmirror : s.Mirrored r)
    {src : Bytes} {result : TunnResult} (hsrc : IpPacket src result) {dstS : Nat} {e e' : ε}
    {S' : Tunn C} {datagram : Bytes}
    (hsend : S.encapsulate src dstS e = .ok (.writeToNetwork datagram, S', e'))
    (hfresh : r.Fresh s.sendingKeyCounter) {dstR : Nat} (hdst : datagram.length ≤ dstR)
    (hshape : cfg.randomTrailers = true ∨
      (datagram.length ≠ cfg.paddings.s1.toNat + handshakeInitSz ∧
        datagram.length ≠ cfg.paddings.s2.toNat + handshakeRespSz ∧
        datagram.length ≠ cfg.paddings.s3.toNat + cookieReplySz))
    (srcAddr : Option IpAddr) (eR : ε) :
    ∃ R', R.decapsulate srcAddr datagram dstR eR = .ok (result, R', eR) := by
  obtain ⟨hdisjoint, hordered, hnonce⟩ := Amnezia3Config.parse_wellFormed hparse
  obtain ⟨contentPadding, hsent⟩ := carries_of_encapsulate (hS.nonceRoom hnonce) hs hsend
  have hcarries := hsent.of_config hS hR
  have hlen := hcarries.length_eq
  have hreceive := receive_transport (hR.nonceRoom hnonce) (by rw [hR.headers]; exact hdisjoint)
    (by rw [hR.headers]; exact hordered.transport) hcarries
    (by rw [Recognisable, hR.randomTrailers, hR.paddings]; exact hshape) srcAddr dstR eR
  obtain ⟨R', hhandle⟩ := handleVerifiedPacket_sealed hopen hr hmirror hfresh
    (show (s.sealedContent C src contentPadding).length ≤ dstR by
      simp only [datagramSize, dataOverheadSz] at hlen
      rw [Session.length_sealedContent]
      omega) hsrc eR
  refine ⟨R', ?_⟩
  rw [decapsulate, hcarries.isEmpty_eq_false, if_neg (by simp), hreceive]
  exact hhandle

/-- A configuration with every layer of a transport packet switched on. -/
def layeredText : Text :=
  ("s1=12\ns2=12\ns3=12\ns4=20\nh4=4000-4099\nrandom_trailers=on\ncontent_padding_addition=5-9\n" ++
    "header_protection_key=0101010101010101010101010101010101010101010101010101010101010101").toList

/-- What `layeredText` says. -/
def layeredConfig : Amnezia3Config where
  paddings := ⟨12, 12, 12, 20⟩
  headers := { HeaderConfig.wireguardCompatible with transport := ⟨4000, 4099⟩ }
  headerProtectionKey := some (List.Vector.replicate 32 1)
  contentPaddingAddition := some ⟨5, 9⟩
  randomTrailers := true

/-- The tunnel of `layeredConfig` with one session. -/
def layeredTunn (idx : Nat) (s : Session) : Tunn Crypto.transparent :=
  (ofConfig zeroKey zeroKey none none 1 none layeredConfig ({} : StillMachine)).1.storeSession idx s

/-- An IPv4 header through every layer. -/
theorem transport_roundtrip_layered :
    let s := Session.new 1 1 zeroKey zeroKey
    let src : Bytes := [0x45, 0, 0, 20] ++ List.replicate 16 7
    ∃ datagram S' e', (layeredTunn 0 s).encapsulate src 200 ({} : StillMachine)
        = .ok (.writeToNetwork datagram, S', e') ∧
      ∃ R', (layeredTunn 1 s).decapsulate none datagram datagram.length ({} : StillMachine)
        = .ok (.writeToTunnelV4 src 0x07070707, R', {}) := by
  intro s src
  obtain ⟨datagram, S', e', hsend, -⟩ := sealPacket_spec
    (show (layeredTunn 0 s).NonceRoom from fun _ => by decide) s
    (show (layeredTunn 0 s).datagramSize src.length ≤ 200 by decide) ({} : StillMachine)
  have hparse : (Amnezia3Config.parse layeredText).run = .ok (.ok layeredConfig) := by
    decide +kernel
  have hS : (layeredTunn 0 s).HasConfig layeredConfig := ⟨rfl, rfl, rfl, rfl, rfl, rfl⟩
  have hR : (layeredTunn 1 s).HasConfig layeredConfig := ⟨rfl, rfl, rfl, rfl, rfl, rfl⟩
  have hmirror : s.Mirrored s := ⟨rfl, rfl, rfl, rfl⟩
  have hversion : (0x45 : UInt8) >>> 4 = 4 := by decide
  have hsrc : IpPacket src (.writeToTunnelV4 src 0x07070707) :=
    .v4 rfl hversion (by decide) (by decide)
  have hfresh : s.Fresh s.sendingKeyCounter := ⟨by decide, by decide⟩
  exact ⟨datagram, S', e', hsend, transport_roundtrip Crypto.transparent_openUndoesSeal hparse hS hR
    rfl rfl hmirror hsrc hsend hfresh le_rfl (.inl rfl) none {}⟩

end Tunn
