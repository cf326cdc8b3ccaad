import AwgTun.Noise.Framing
import AwgTun.Noise.Transport
import AwgTun.Noise.Unauthenticated

/-!
# Inner packets

What a tunnel makes of the plaintext of a transport packet.  `validate_decapsulated_packet`
looks at the version and at the length the IP header declares, and cuts off whatever follows: the
sender may have padded the packet, and a keepalive may be nothing but padding.

The size of the header is compared with the plaintext and not with the declared length, so an
IPv4 header that declares less than itself is cut to that.  In the IPv6 header the length counts
what comes after it, and nothing of the kind can happen.

* `Tunn.delivered_iff` — which plaintexts give a well-formed packet or none.
* `Tunn.short_packet_delivered` — one that gives four bytes of a header.
* `Tunn.receive_data` — data that is received from a peer's datagram is what the peer sealed.
* `Tunn.data_agreement` — sender and receiver agree on what is data and what is a keepalive.
-/

open Control Bytes

variable {C : Crypto} {ε : Type} [Env ε]

/-- An IPv4 packet has a header. -/
theorem IpPacket.length_v4 {packet src : Bytes} {addr : BitVec 32}
    (h : IpPacket packet (.writeToTunnelV4 src addr)) : 20 ≤ src.length := by
  generalize hr : TunnResult.writeToTunnelV4 src addr = r at h
  cases h with
  | v4 hfirst hversion hmin hlen =>
    rw [(TunnResult.writeToTunnelV4.inj hr).1]
    exact hmin
  | v6 => cases hr

namespace Tunn

variable {payload : Bytes} {first : UInt8} {n : Nat}

/-! ## What is handed over -/

/-- What may come of a plaintext: an IP packet at its start, with the length and the source address
of its own header, or nothing. -/
def Delivered (payload : Bytes) (r : TunnResult) : Prop :=
  (∃ packet, packet <+: payload ∧ IpPacket packet r) ∨ r = .done ∨ r = .err .invalidPacket

/-- The payload looks like an IPv4 packet: the version, and room for a header. -/
def LooksV4 (payload : Bytes) : Prop :=
  (∃ first, payload.head? = some first ∧ first >>> 4 = 4) ∧ 20 ≤ payload.length

theorem take_declared (hn : n ≤ payload.length) :
    payload.take n <+: payload ∧ (payload.take n).length = n :=
  ⟨List.take_prefix _ _, List.length_take_of_le hn⟩

theorem head?_take_of_pos (hn : 0 < n) :
    (payload.take n).head? = payload.head? := by
  cases payload with
  | nil => simp
  | cons b bs => simp [List.head?_take, Nat.pos_iff_ne_zero.mp hn]

/-- An IPv4 packet that declares at least its header is handed over whole, or refused. -/
theorem deliver_v4 (t : Tunn C) (hfirst : payload.head? = some first) (hversion : first >>> 4 = 4)
    (hdeclared : 20 ≤ beNat (slice payload 2 4)) :
    Delivered payload (t.deliver payload (beNat (slice payload 2 4))
      (.v4 (IpAddr.ofBytesV4 (slice payload 12 16)))).1 := by
  unfold deliver
  split_ifs with hlong
  · exact .inr (.inr rfl)
  · obtain ⟨hstart, hlen⟩ := take_declared (Nat.not_lt.mp hlong)
    refine .inl ⟨_, hstart, ?_⟩
    rw [← slice_take (show 16 ≤ beNat (slice payload 2 4) by omega)]
    exact .v4 (by rw [head?_take_of_pos (by omega), hfirst]) hversion (by omega)
      (by rw [slice_take (by omega), hlen])

/-- An IPv6 packet always declares its header. -/
theorem deliver_v6 (t : Tunn C) (hfirst : payload.head? = some first) (hversion : first >>> 4 = 6) :
    Delivered payload (t.deliver payload (beNat (slice payload 4 6) + 40)
      (.v6 (IpAddr.ofBytesV6 (slice payload 8 24)))).1 := by
  unfold deliver
  split_ifs with hlong
  · exact .inr (.inr rfl)
  · obtain ⟨hstart, hlen⟩ := take_declared (Nat.not_lt.mp hlong)
    refine .inl ⟨_, hstart, ?_⟩
    rw [← slice_take (show 24 ≤ beNat (slice payload 4 6) + 40 by omega)]
    exact .v6 (by rw [head?_take_of_pos (by omega), hfirst]) hversion (by omega)
      (by rw [slice_take (by omega), hlen])

/-- An IPv4 packet that declares less than its header is handed over without it. -/
theorem not_delivered_short (t : Tunn C) (hlong : 20 ≤ payload.length)
    (hshort : beNat (slice payload 2 4) < 20) :
    ¬ Delivered payload (t.deliver payload (beNat (slice payload 2 4))
      (.v4 (IpAddr.ofBytesV4 (slice payload 12 16)))).1 := by
  unfold deliver
  rw [if_neg (by omega)]
  rintro (⟨packet, -, hpacket⟩ | hdone | herr)
  · have hmin := hpacket.length_v4
    rw [List.length_take] at hmin
    omega
  · cases hdone
  · cases herr

/-- **Delivered packets.**  A plaintext gives a well-formed packet, or none, exactly if it does not
look like an IPv4 packet that declares less than a header. -/
theorem delivered_iff (t : Tunn C) (payload : Bytes) :
    Delivered payload (t.validateDecapsulatedPacket payload).1 ↔
      (LooksV4 payload → 20 ≤ beNat (slice payload 2 4)) := by
  unfold validateDecapsulatedPacket
  cases hhead : payload.head? with
  | none =>
    refine iff_of_true (.inr (.inl rfl)) ?_
    rintro ⟨⟨first, hfirst, -⟩, -⟩
    rw [hhead] at hfirst
    cases hfirst
  | some first =>
    have hlooks : LooksV4 payload ↔ first >>> 4 = 4 ∧ payload.length ≥ 20 := by
      simp [LooksV4, hhead]
    rw [hlooks]
    dsimp only
    by_cases hv4 : first >>> 4 = 4 ∧ payload.length ≥ 20
    · rw [if_pos hv4]
      by_cases hdeclared : 20 ≤ beNat (slice payload 2 4)
      · exact iff_of_true (t.deliver_v4 hhead hv4.1 hdeclared) fun _ => hdeclared
      · exact iff_of_false (t.not_delivered_short hv4.2 (Nat.not_le.mp hdeclared))
          fun h => hdeclared (h hv4)
    · refine iff_of_true ?_ fun h => absurd h hv4
      rw [if_neg hv4]
      split_ifs with hv6 hzero
      · exact t.deliver_v6 hhead hv6.1
      · exact .inr (.inl rfl)
      · exact .inr (.inl rfl)

/-- Twenty bytes that declare four: the packet handed over ends before the address that is
returned with it. -/
theorem short_packet_delivered :
    let payload : Bytes := [0x45, 0, 0, 4] ++ List.replicate 16 7
    (freshTunn.validateDecapsulatedPacket payload).1 =
        .writeToTunnelV4 [0x45, 0, 0, 4] 0x07070707 ∧
      ¬ Delivered payload (freshTunn.validateDecapsulatedPacket payload).1 := by
  intro payload
  have hresult : (freshTunn.validateDecapsulatedPacket payload).1 =
      .writeToTunnelV4 [0x45, 0, 0, 4] 0x07070707 := by rfl
  refine ⟨hresult, ?_⟩
  rw [hresult]
  rintro (⟨packet, -, hpacket⟩ | hdone | herr)
  · exact absurd hpacket.length_v4 (by decide)
  · cases hdone
  · cases herr

/-! ## Data from a peer -/

end Tunn

/-- What the classifier has found in a datagram of a fixed kind: room for the message, and its
type. -/
theorem PacketClassifier.classify_kind {C : Crypto} {c : PacketClassifier} {src : Bytes}
    {kind : FramedKind} {headerMask : Option Bytes}
    (h : c.classify C src = some (kind.classified c.paddings headerMask)) :
    kind.datagramSize c.paddings ≤ src.length ∧
      (kind.range c.headers).contains (u32OfLe (xorBytes
        (slice src (kind.padding c.paddings) (kind.padding c.paddings + 4))
        ((c.headerMask C src).getD []))) = true := by
  obtain ⟨row, hrow, hclassify⟩ := List.exists_of_findSome?_eq_some h
  obtain ⟨hsize, htype, heq⟩ := Candidate.classify_eq_some hclassify
  rcases PacketClassifier.mem_checks.mp hrow with ⟨kind', rfl⟩ | rfl
  · have hmsg := congrArg Classified.msgSize heq
    obtain rfl : kind = kind' := FramedKind.size_inj (Option.some.inj hmsg)
    exact ⟨hsize, htype⟩
  · cases congrArg Classified.msgSize heq

/-- Only a type of the transport range makes data. -/
theorem parse_packetData {message : Bytes} {headers : HeaderConfig} {p : PacketData}
    (h : parseIncomingPacketConfig message headers = .ok (.packetData p)) :
    headers.transport.contains (leadingType message) = true := by
  by_contra hno
  rw [leadingType, Bool.not_eq_true] at hno
  simp only [parseIncomingPacketConfig, hno, Bool.false_eq_true, false_and, if_false] at h
  split_ifs at h <;> cases h

namespace Tunn

variable {t : Tunn C} {t' : Tunn C} {srcAddr : Option IpAddr} {e e' : ε} {src datagram : Bytes}
  {dstLen : Nat} {contentPadding : Nat} {p : PacketData} {r : TunnResult} {s : Session}

/-- A datagram that is classified as a handshake message or a cookie reply is not received as
data: the message in it has the size and the type of its kind. -/
theorem receive_kind_ne_data {kind : FramedKind} {headerMask : Option Bytes}
    (hclass : t.determinePadding datagram = some (kind.classified t.paddingConfig headerMask))
    (hroom : t.headerProtection.isSome → 12 ≤ kind.padding t.paddingConfig) :
    t.receive srcAddr datagram dstLen e ≠ .ok (.packet (.packetData p), t', e') := by
  intro hreceive
  obtain ⟨hlen, htype⟩ := PacketClassifier.classify_kind hclass
  obtain ⟨hmin, -⟩ := kind.size_bounds
  simp only [transportHeaderSz] at hmin
  have hfit : kind.padding t.paddingConfig + kind.size ≤ datagram.length := hlen
  have hbefore : (datagram.take (kind.padding t.paddingConfig)).length =
      kind.padding t.paddingConfig := List.length_take_of_le (by omega)
  have hmasked : ((datagram.drop (kind.padding t.paddingConfig)).take kind.size).length =
      kind.size := List.length_take_of_le (by rw [List.length_drop]; omega)
  obtain ⟨message, hunmasked⟩ : ∃ message, t.Masked (datagram.take (kind.padding t.paddingConfig))
      ((datagram.drop (kind.padding t.paddingConfig)).take kind.size) message := by
    cases hhp : t.headerProtection with
    | none => exact ⟨_, (masked_of_none hhp).mpr rfl⟩
    | some hp =>
      obtain ⟨nonce, hnonce⟩ := HeaderProtection.nonceOf_eq_some
        (show 12 ≤ (datagram.take (kind.padding t.paddingConfig)).length by
          rw [hbefore]
          exact hroom (by simp [hhp]))
      exact ⟨_, (masked_of_some hhp).mpr (hp.apply_eq_ok C hnonce _)⟩
  have hmessage : message.length = kind.size := hunmasked.length_eq.trans hmasked
  have hsplit : datagram.take (kind.padding t.paddingConfig) ++
      ((datagram.drop (kind.padding t.paddingConfig)).take kind.size ++
        (datagram.drop (kind.padding t.paddingConfig)).drop kind.size) = datagram := by
    rw [List.take_append_drop, List.take_append_drop]
  have hleading := unmask_leadingType (by rwa [hbefore]) hunmasked.symm
    (show 16 ≤ message.length by omega)
    ((datagram.drop (kind.padding t.paddingConfig)).drop kind.size)
  rw [hsplit, hbefore] at hleading
  obtain ⟨packet, hparse, hkind⟩ : ∃ packet, parseIncomingPacketConfig message t.headerConfig =
      .ok packet ∧ packet.framedKind = some kind :=
    parse_framedKind hmessage (by rw [← hleading]; exact htype)
  rw [receive_eq_unframe, unframe_of_kind hclass hlen hunmasked, ok_bind] at hreceive
  rw [verify_packet hreceive] at hparse
  cases hparse
  cases hkind

/-- **Data from a peer.**  If the datagram that carries a packet of a session is received as data,
then as that packet, and the tunnel is left as it was. -/
theorem receive_data {cfg : Amnezia3Config} (hvalid : cfg.validate = .ok ())
    (hcfg : t.HasConfig cfg) (hcarries : t.Carries s src contentPadding datagram)
    (hreceive : t.receive srcAddr datagram dstLen e = .ok (.packet (.packetData p), t', e')) :
    p = packetOf C s src contentPadding ∧ t' = t ∧ e' = e := by
  obtain ⟨hdisjoint, hnonce⟩ := Amnezia3Config.validate_eq_ok hvalid
  have hroom := hcfg.nonceRoom hnonce
  have hkinds (kind : FramedKind) (hsome : t.headerProtection.isSome) :
      12 ≤ kind.padding t.paddingConfig := by
    rw [hcfg.headerProtection, Amnezia3Config.headerProtection, Option.isSome_map] at hsome
    have hfits := hnonce hsome
    rw [hcfg.paddings]
    cases kind with
    | init => exact hfits.s1
    | response => exact hfits.s2
    | cookie => exact hfits.s3
  obtain ⟨msgType, before, mask, htype, hlen, hmask, rfl⟩ := hcarries
  have hheaderMask : t.classifier.headerMask C (before ++ (xorBytes (transportHeader msgType s) mask
      ++ s.sealedContent C src contentPadding)) = t.headerProtection.map fun _ => mask :=
    headerMask_eq hroom hlen hmask
  cases hclass : t.determinePadding (before ++ (xorBytes (transportHeader msgType s) mask
      ++ s.sealedContent C src contentPadding)) with
  | none =>
    -- the transport row matches, unless its range is inverted and contains nothing
    exfalso
    by_cases hordered : t.headerConfig.transport.Ordered
    · have hgetD : (t.headerProtection.map fun _ => mask).getD [] = mask := by
        cases hhp : t.headerProtection with
        | none => simp [(maskOf_of_none hhp).mp hmask]
        | some hp => rfl
      have hrow := transport_candidate (s := s) hgetD hlen
        (show 16 ≤ (s.sealedContent C src contentPadding).length by simp) (htype hordered)
        t.randomTrailers
      rw [determinePadding, PacketClassifier.classify, hheaderMask] at hclass
      have hnone := List.findSome?_eq_none_iff.mp hclass _
        (PacketClassifier.mem_checks.mpr (.inr rfl))
      exact Option.some_ne_none _ (hrow.symm.trans hnone)
    · rw [receive_eq_unframe, unframe_of_unclassified hclass, ok_bind] at hreceive
      have hcontains := parse_packetData (verify_packet hreceive)
      rw [HeaderRange.contains_iff] at hcontains
      exact hordered (UInt32.le_trans hcontains.1 hcontains.2)
  | some classified =>
    rcases PacketClassifier.classify_eq_some hclass with ⟨kind, rfl, -⟩ | ⟨rfl, -, hcontains⟩
    · exact absurd hreceive (receive_kind_ne_data hclass (hkinds kind))
    · have hordered : t.headerConfig.transport.Ordered := by
        rw [HeaderRange.contains_iff] at hcontains
        exact UInt32.le_trans hcontains.1 hcontains.2
      rw [hheaderMask] at hclass
      rw [receive_of_transport (hcfg.headers ▸ hdisjoint) (htype hordered) hlen hmask hclass]
        at hreceive
      cases hreceive
      exact ⟨rfl, rfl, rfl⟩

/-! ## Data and keepalives -/

/-- An entry of the timer table was ticked exactly if `data`. -/
def TicksIf (data : Bool) (name : TimerName) (t t' : Tunn C) : Prop :=
  t'.timers.timers name = if data then t.timers.timers .timeCurrent else t.timers.timers name

/-- `decapsulate` took a datagram for data, and its session accepted it. -/
def AcceptsData (ε : Type) [Env ε] (t : Tunn C) (datagram : Bytes) (r : TunnResult) (t' : Tunn C) :
    Prop :=
  ∃ (srcAddr : Option IpAddr) (dstLen : Nat) (e e₁ e' : ε) (p : PacketData) (t₁ : Tunn C),
    t.receive srcAddr datagram dstLen e = .ok (.packet (.packetData p), t₁, e₁) ∧
      t₁.handleData p dstLen e₁ = .ok (.ok r, t', e')

/-- Such a call of `decapsulate` returns what the session has delivered. -/
theorem AcceptsData.decapsulate_eq (h : AcceptsData ε t datagram r t') (hdatagram : datagram ≠ []) :
    ∃ (srcAddr : Option IpAddr) (dstLen : Nat) (e e' : ε),
      t.decapsulate srcAddr datagram dstLen e = .ok (r, t', e') := by
  obtain ⟨srcAddr, dstLen, e, e₁, e', p, t₁, hreceive, hdata⟩ := h
  refine ⟨srcAddr, dstLen, e, e', ?_⟩
  simp only [decapsulate, List.isEmpty_iff, hdatagram, if_false, hreceive, ok_bind,
    handleVerifiedPacket, handlePacket, hdata]
  rfl

/-- The sender ticks for anything but a keepalive. -/
theorem sealPacket_ticks
    (h : t.sealPacket s src dstLen e = .ok (.writeToNetwork datagram, t', e')) :
    TicksIf (!src.isEmpty) .timeLastDataPacketSent t t' := by
  rcases sealPacket_cases h with ⟨hr, -⟩ | ⟨packet, session, -, rfl, -⟩
  · cases hr
  · cases src <;> simp [TicksIf, afterSealing, sentTimers, Timers.tick, Timers.set, observeDatagram]

/-- Padding alone is a keepalive. -/
theorem validate_zeros (t : Tunn C) (n : Nat) :
    t.validateDecapsulatedPacket (List.replicate n 0) = (.done, t) := by
  cases n with
  | zero => rfl
  | succ n =>
    simp [validateDecapsulatedPacket, List.replicate_succ]

/-- The plaintext of a packet that a mirrored session has sealed. -/
theorem receivePacketData_plain (hopen : C.OpenUndoesSeal) {s r r' : Session}
    (hmirror : s.Mirrored r) {plain : Bytes}
    (h : r.receivePacketData C (packetOf C s src contentPadding) dstLen = .ok (.ok plain, r')) :
    plain = src ++ List.replicate contentPadding 0 := by
  have hopened : C.aeadOpen r.receiver (counterNonce s.sendingKeyCounter) []
      (s.sealedContent C src contentPadding) = some (src ++ List.replicate contentPadding 0) := by
    rw [← hmirror.sender]
    exact hopen _ _ _ _
  simp only [Session.receivePacketData, packetOf, hopened] at h
  split_ifs at h
  · cases h
  · cases h
  · split at h
    · cases h
    · split at h
      · cases h
      · cases h
        rfl

omit [Env ε] in
/-- What a tunnel does with the packet of a mirrored session once it has accepted it. -/
theorem handleData_plain (hopen : C.OpenUndoesSeal) {s r : Session}
    (hr : t.sessions (slotOf r.receivingIndex.toNat) = some r) (hmirror : s.Mirrored r)
    {result : TunnResult}
    (h : t.handleData (packetOf C s src contentPadding) dstLen e = .ok (.ok result, t', e')) :
    ∃ t₁ : Tunn C, t₁.timers.timers .timeCurrent = t.timers.timers .timeCurrent ∧
      t₁.timers.timers .timeLastDataPacketReceived =
        t.timers.timers .timeLastDataPacketReceived ∧ t₁.rxBytes = t.rxBytes ∧
      (result, t') = t₁.validateDecapsulatedPacket (src ++ List.replicate contentPadding 0) := by
  have hslot := sessions_packetOf hr hmirror src contentPadding
  simp only [handleData, hslot] at h
  obtain ⟨⟨opened, r'⟩, hopened, h⟩ := bind_eq_ok.mp h
  cases opened with
  | error err => cases h
  | ok plain =>
    obtain rfl := receivePacketData_plain hopen hmirror hopened
    cases h
    refine ⟨_, ?_, ?_, ?_, rfl⟩
    · simp only [timerTick, Timers.tick, Timers.set, setCurrentSession]
      split_ifs <;> rfl
    · simp only [timerTick, Timers.tick, Timers.set, setCurrentSession]
      split_ifs <;> rfl
    · simp only [timerTick, setCurrentSession]
      split_ifs <;> rfl

/-- **Both ends agree on what is data.**  Two tunnels of one validated configuration with mirrored
sessions: if the receiver accepts what `encapsulate` has made of an IP packet, or of nothing, then
it ticks for data exactly if the sender has, and a keepalive, however padded, is handed to nobody
and not counted. -/
theorem data_agreement (hopen : C.OpenUndoesSeal) {cfg : Amnezia3Config}
    (hvalid : cfg.validate = .ok ()) {S R : Tunn C} (hS : S.HasConfig cfg) (hR : R.HasConfig cfg)
    {s r : Session} (hs : S.sessions (slotOf S.current) = some s)
    (hr : R.sessions (slotOf r.receivingIndex.toNat) = some r) (hmirror : s.Mirrored r)
    {src : Bytes} (hsrc : src = [] ∨ ∃ result, IpPacket src result) {dstLen : Nat} {e e' : ε}
    {S' R' : Tunn C} {datagram : Bytes} {result : TunnResult}
    (hsend : S.encapsulate src dstLen e = .ok (.writeToNetwork datagram, S', e'))
    (haccept : AcceptsData ε R datagram result R') :
    TicksIf (!src.isEmpty) .timeLastDataPacketSent S S' ∧
      TicksIf (!src.isEmpty) .timeLastDataPacketReceived R R' ∧
      (src = [] → result = .done ∧ R'.rxBytes = R.rxBytes) := by
  obtain ⟨-, hnonce⟩ := Amnezia3Config.validate_eq_ok hvalid
  obtain ⟨contentPadding, hsent⟩ := carries_of_encapsulate (hS.nonceRoom hnonce) hs hsend
  obtain ⟨srcAddr, dstR, eR, e₁, e₂, p, R₁, hreceive, hdata⟩ := haccept
  obtain ⟨rfl, rfl, rfl⟩ := receive_data hvalid hR (hsent.of_config hS hR) hreceive
  obtain ⟨R₂, hcurrent, hlast, hrx, hvalidate⟩ := handleData_plain hopen hr hmirror hdata
  refine ⟨?_, ?_⟩
  · rw [encapsulate, hs] at hsend
    exact sealPacket_ticks hsend
  · rcases hsrc with rfl | ⟨delivered, hpacket⟩
    · rw [List.nil_append, validate_zeros] at hvalidate
      cases hvalidate
      exact ⟨hlast, fun _ => ⟨rfl, hrx⟩⟩
    · have hnonempty : src.isEmpty = false := by
        cases src with
        | nil => cases hpacket <;> simp at *
        | cons b bs => rfl
      have hR' : R' = (R₂.validateDecapsulatedPacket (src ++ List.replicate contentPadding 0)).2 :=
        congrArg Prod.snd hvalidate
      refine ⟨?_, fun hnil => by simp [hnil] at hnonempty⟩
      rw [hR', validate_padded R₂ hpacket]
      simp [TicksIf, hnonempty, timerTick, Timers.tick, Timers.set, hcurrent]

/-- A fresh packet of a mirrored session that is recognised is accepted. -/
theorem acceptsData_sealed (hopen : C.OpenUndoesSeal) (hroom : t.NonceRoom)
    (hdisjoint : t.headerConfig.Disjoint) (hordered : t.headerConfig.transport.Ordered)
    {s r : Session} (hr : t.sessions (slotOf r.receivingIndex.toNat) = some r)
    (hmirror : s.Mirrored r) (hfresh : r.Fresh s.sendingKeyCounter)
    (hcarries : t.Carries s src contentPadding datagram) (hshape : t.Recognisable datagram)
    (e : ε) : ∃ result t', AcceptsData ε t datagram result t' := by
  have hreceive := receive_transport hroom hdisjoint hordered hcarries hshape none datagram.length e
  have hlen := hcarries.length_eq
  simp only [datagramSize, dataOverheadSz] at hlen
  obtain ⟨r', hopened⟩ := Session.receivePacketData_sealed hopen hmirror hfresh
    (show (s.sealedContent C src contentPadding).length ≤ datagram.length by
      rw [Session.length_sealedContent]
      omega)
  have hslot := sessions_packetOf hr hmirror src contentPadding
  obtain ⟨result, t', hdata⟩ : ∃ result t', t.handleData (packetOf C s src contentPadding)
      datagram.length e = .ok (.ok result, t', e) := by
    simp only [handleData, hslot, hopened, ok_bind]
    exact ⟨_, _, rfl⟩
  exact ⟨result, t', none, datagram.length, e, e, e, _, t, hreceive, hdata⟩

/-- A padded keepalive through every layer. -/
theorem data_agreement_layered :
    let s := Session.new 1 1 zeroKey zeroKey
    ∃ datagram S' e' result R', (layeredTunn 0 s).encapsulate [] 200 ({} : StillMachine) =
        .ok (.writeToNetwork datagram, S', e') ∧
      AcceptsData StillMachine (layeredTunn 1 s) datagram result R' ∧
      TicksIf false .timeLastDataPacketSent (layeredTunn 0 s) S' ∧
      TicksIf false .timeLastDataPacketReceived (layeredTunn 1 s) R' ∧
      result = .done ∧ R'.rxBytes = 0 := by
  intro s
  have hroom (idx : Nat) : (layeredTunn idx s).NonceRoom :=
    fun _ => show 12 ≤ layeredConfig.paddings.s4.toNat by decide
  have hconfig (idx : Nat) : (layeredTunn idx s).HasConfig layeredConfig :=
    ⟨rfl, rfl, rfl, rfl, rfl, rfl⟩
  have hvalid : layeredConfig.validate = .ok () := by decide +kernel
  have hmirror : s.Mirrored s := ⟨rfl, rfl, rfl, rfl⟩
  have hfit : (layeredTunn 0 s).datagramSize ([] : Bytes).length ≤ 200 := by decide
  obtain ⟨datagram, S', e', hsend, hcarries⟩ := sealPacket_spec (hroom 0) s hfit ({} : StillMachine)
  obtain ⟨result, R', haccept⟩ := acceptsData_sealed (r := s) Crypto.transparent_openUndoesSeal
    (hroom 1) (HeaderConfig.validate_eq_ok_iff.mp (by decide))
    (show (4000 : UInt32) ≤ 4099 by decide) rfl hmirror
    ⟨by decide, by decide⟩ (hcarries.of_config (hconfig 0) (hconfig 1)) (.inl rfl)
    ({} : StillMachine)
  obtain ⟨hsender, hreceiver, hkeepalive⟩ := data_agreement Crypto.transparent_openUndoesSeal hvalid
    (hconfig 0) (hconfig 1) rfl rfl hmirror (.inl rfl) hsend haccept
  exact ⟨datagram, S', e', result, R', hsend, haccept, hsender, hreceiver, (hkeepalive rfl).1,
    (hkeepalive rfl).2⟩

end Tunn
