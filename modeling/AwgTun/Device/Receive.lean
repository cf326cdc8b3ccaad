import AwgTun.Noise.Framing
import AwgTun.Device.Device

/-!
# The two ways a datagram is received

A tunnel that has a socket of its own takes the framing off a datagram in `decapsulate`.
The anonymous socket of a device does not know the tunnel yet: its handler takes the framing
off with the configuration of the device, in the buffer the datagram was read into, and
passes the rest to the rate limiter before it looks for the peer.

The two are written differently.  The handler masks in place and cuts last; the tunnel cuts
first, unmasks a handshake message in a buffer of its own and puts a transport packet
together without parsing it.  `Device.receive_paths_agree` — they find the same thing.
-/

open Control Bytes

variable {C : Crypto} {ε : Type} [Env ε]

/-- `PacketClassifier::from_config`. -/
def PacketClassifier.fromConfig (amnezia : Amnezia3Config) : PacketClassifier where
  paddings := amnezia.paddings
  headers := amnezia.headers
  headerProtection := amnezia.headerProtection
  randomTrailers := amnezia.randomTrailers

namespace Device

variable (C : Crypto)

/-- Decrypt the protected span of a datagram where it stands.  The mask of the classifier is
enough for a transport header; a longer span takes the cipher. -/
def decryptInPlace (amnezia : Amnezia3Config) (headerMask : Option Bytes) (padding covered : Nat)
    (buf : Bytes) : Outcome Bytes :=
  match (if covered = transportHeaderSz then headerMask else none) with
  | some mask => do
      let message ← sliceFrom buf padding
      return buf.take padding ++ xorBytes message mask
  | none =>
      if covered > 0 then
        match amnezia.headerProtection with
        | some hp => do
            let message ← sliceFrom buf padding
            let span ← sliceTo message covered
            let span ← hp.apply C (buf.take padding) span
            return buf.take padding ++ (span ++ message.drop covered)
        | none => .ok buf
      else .ok buf

/-- The anonymous handler, up to the rate limiter. -/
def unframe (amnezia : Amnezia3Config) (datagram : Bytes) : Outcome Bytes := do
  let classified := (PacketClassifier.fromConfig amnezia).classify C datagram
  let padding := (classified.map (·.padding)).getD 0
  let protectedLen := (classified.map (·.protectedLen)).getD 0
  if datagram.length < padding then .panic "attempt to subtract with overflow"
  else
    let covered := min protectedLen (datagram.length - padding)
    let buf ← decryptInPlace C amnezia (classified.bind (·.headerMask)) padding covered datagram
    let msgEnd := match classified.bind (·.msgSize) with
      | some size => if padding + size ≤ datagram.length then padding + size else datagram.length
      | none => datagram.length
    let packet ← sliceTo buf msgEnd
    sliceFrom packet padding

end Device

/-- The packet that comes of what is left of a datagram. -/
def Unframed.parsed (headers : HeaderConfig) : Unframed → Except WireGuardError Packet
  | .packet p => .ok p
  | .message bytes => parseIncomingPacketConfig bytes headers

namespace Tunn

variable {t : Tunn C} {cfg : Amnezia3Config} {datagram : Bytes} {bytes : Bytes}

/-- What a tunnel makes of a datagram is what the device makes of it: the same packet or
none, the same bytes for the MAC check, and so the same verdict of the rate limiter. -/
structure ReadsAs (t : Tunn C) (datagram bytes : Bytes) : Prop where
  unframed : ∃ u, t.unframe datagram = .ok u ∧
    u.parsed t.headerConfig = parseIncomingPacketConfig bytes t.headerConfig ∧
    ((∀ p, parseIncomingPacketConfig bytes t.headerConfig ≠ .ok (.packetData p)) →
      u = .message bytes)

/-- A datagram that is left as the same message. -/
theorem ReadsAs.of_message (h : t.unframe datagram = .ok (.message bytes)) :
    t.ReadsAs datagram bytes :=
  ⟨_, h, rfl, fun _ => rfl⟩

/-- The first stage of `decapsulate` passes on what the device would. -/
theorem ReadsAs.receive_eq (h : t.ReadsAs datagram bytes) (srcAddr : Option IpAddr) (dstLen : Nat)
    (e : ε) :
    t.receive srcAddr datagram dstLen e = t.verify srcAddr bytes dstLen e := by
  obtain ⟨u, hunframe, hparsed, hmessage⟩ := h.unframed
  rw [receive_eq_unframe, hunframe, ok_bind]
  by_cases hdata : ∃ p, parseIncomingPacketConfig bytes t.headerConfig = .ok (.packetData p)
  · obtain ⟨p, hp⟩ := hdata
    rw [verify_of_not_handshake t srcAddr dstLen e hp rfl]
    cases u with
    | packet q =>
      rw [hp] at hparsed
      cases hparsed
      rfl
    | message m => exact verify_of_not_handshake t srcAddr dstLen e (hparsed.trans hp) rfl
  · push Not at hdata
    rw [hmessage hdata]

/-- Both ask one classifier. -/
theorem HasConfig.classify_eq (h : t.HasConfig cfg) (datagram : Bytes) :
    (PacketClassifier.fromConfig cfg).classify C datagram = t.determinePadding datagram := by
  rw [determinePadding, classifier, h.headers, h.paddings, h.headerProtection, h.randomTrailers]
  rfl

/-! ## Datagrams of each class -/

/-- Without a class, the datagram as it stands. -/
theorem readsAs_of_unclassified (hcfg : t.HasConfig cfg)
    (hclass : t.determinePadding datagram = none) :
    Device.unframe C cfg datagram = .ok datagram ∧ t.ReadsAs datagram datagram := by
  refine ⟨?_, .of_message (unframe_of_unclassified hclass)⟩
  rw [← hcfg.classify_eq] at hclass
  have hdecrypt : Device.decryptInPlace C cfg none 0 0 datagram = .ok datagram := rfl
  simp [Device.unframe, hclass, hdecrypt, sliceTo_eq_ok, sliceFrom_eq_ok]

/-- A message of a fixed kind, unmasked and without what follows it. -/
theorem readsAs_of_kind (hcfg : t.HasConfig cfg) {kind : FramedKind}
    (hroom : t.headerProtection.isSome → 12 ≤ kind.padding t.paddingConfig)
    {headerMask : Option Bytes}
    (hclass : t.determinePadding datagram = some (kind.classified t.paddingConfig headerMask))
    (hlen : kind.datagramSize t.paddingConfig ≤ datagram.length) :
    ∃ bytes, Device.unframe C cfg datagram = .ok bytes ∧ t.ReadsAs datagram bytes := by
  obtain ⟨hmin, -⟩ := kind.size_bounds
  have hread {message : Bytes} := @unframe_of_kind _ _ _ datagram message _ hclass hlen
  rw [← hcfg.classify_eq] at hclass
  simp only [FramedKind.datagramSize] at hlen
  generalize hpad : kind.padding t.paddingConfig = padding at *
  have hspan : min kind.size (datagram.length - padding) = kind.size := by omega
  have hcut : kind.size ≤ (datagram.drop padding).length := by
    rw [List.length_drop]
    omega
  have hbefore : (datagram.take padding).length = padding := List.length_take_of_le (by omega)
  -- the handler cuts the message out of the buffer after the mask has been taken off
  have hdevice {span : Bytes} (hspanLen : span.length = kind.size)
      (hdecrypt : Device.decryptInPlace C cfg headerMask padding kind.size datagram =
        .ok (datagram.take padding ++ (span ++ (datagram.drop padding).drop kind.size))) :
      Device.unframe C cfg datagram = .ok span := by
    have hbuf : datagram.take padding ++ (span ++ (datagram.drop padding).drop kind.size) =
        (datagram.take padding ++ span) ++ (datagram.drop padding).drop kind.size := by simp
    have hend : padding + kind.size = (datagram.take padding ++ span).length := by
      rw [List.length_append, hbefore, hspanLen]
    simp only [Device.unframe, hclass, FramedKind.classified, hpad, Option.map_some,
      Option.getD_some, Option.bind_some, if_neg (show ¬ datagram.length < padding by omega), hspan,
      hdecrypt, ok_bind, if_pos hlen, hbuf]
    rw [hend, sliceTo_eq_ok (by simp), List.take_left, ok_bind, sliceFrom_eq_ok (by simp [hbefore]),
      List.drop_left' hbefore]
  have hlong : ¬ kind.size = transportHeaderSz := hmin.ne'
  have hsome : kind.size > 0 := by omega
  cases hhp : t.headerProtection with
  | none =>
    refine ⟨(datagram.drop padding).take kind.size, hdevice (List.length_take_of_le hcut) ?_,
      .of_message (hread ((masked_of_none hhp).mpr rfl))⟩
    rw [Device.decryptInPlace, if_neg hlong, ← hcfg.headerProtection, hhp]
    simp only [if_pos hsome, List.take_append_drop]
  | some hp =>
    obtain ⟨nonce, hnonce⟩ := HeaderProtection.nonceOf_eq_some
      (show 12 ≤ (datagram.take padding).length by rw [hbefore]; exact hroom (by simp [hhp]))
    have happly := hp.apply_eq_ok C hnonce ((datagram.drop padding).take kind.size)
    refine ⟨_, hdevice ?_ ?_, .of_message (hread ((masked_of_some hhp).mpr happly))⟩
    · rw [length_xorBytes, List.length_take_of_le hcut]
    · rw [Device.decryptInPlace, if_neg hlong, ← hcfg.headerProtection, hhp]
      simp only [if_pos hsome, sliceFrom_eq_ok (show padding ≤ datagram.length by omega), ok_bind,
        sliceTo_eq_ok hcut, happly]
      rfl

/-- The header of a transport packet is as long as its mask, so the fields can be read from
the unmasked header or from the unmasked packet. -/
theorem parse_unmaskTransport {headers : HeaderConfig} (hdisjoint : headers.Disjoint)
    {payload mask : Bytes} (hmask : mask.length = transportHeaderSz)
    (hlen : dataOverheadSz ≤ payload.length)
    (htype : headers.transport.contains (leadingType (xorBytes payload mask)) = true) :
    ∃ p, unmaskTransport payload mask = .ok (.packetData p) ∧
      parseIncomingPacketConfig (xorBytes payload mask) headers = .ok (.packetData p) := by
  obtain ⟨hinit, hresponse, hcookie⟩ := hdisjoint.of_transport htype
  simp only [transportHeaderSz, dataOverheadSz] at hmask hlen
  have hhead : (payload.take 16).length = 16 := List.length_take_of_le (by omega)
  have hsplit : xorBytes payload mask = xorBytes (payload.take 16) mask ++ payload.drop 16 := by
    conv_lhs => rw [← List.take_append_drop 16 payload]
    rw [xorBytes_append, hhead, ← hmask, List.take_length, List.drop_length, xorBytes_nil_right]
  have hxor : (xorBytes (payload.take 16) mask).length = 16 := by rw [length_xorBytes, hhead]
  have hfield {i j : Nat} (hj : j ≤ 16) :
      slice (xorBytes payload mask) i j = slice (xorBytes (payload.take 16) mask) i j := by
    rw [hsplit, slice_append_left (by omega)]
  have hbody : (xorBytes payload mask).drop 16 = payload.drop 16 := by
    rw [hsplit, List.drop_left' hxor]
  refine ⟨⟨u32OfLe (slice (xorBytes (payload.take 16) mask) 4 8),
    u64OfLe (slice (xorBytes (payload.take 16) mask) 8 16), payload.drop 16⟩, ?_, ?_⟩
  · rw [unmaskTransport, sliceTo_eq_ok (by simp only [transportHeaderSz]; omega), ok_bind,
      sliceFrom_eq_ok (by simp only [transportHeaderSz]; omega), ok_bind]
    rfl
  · unfold leadingType at htype hinit hresponse hcookie
    rw [parseIncomingPacketConfig, if_neg (by simp; omega)]
    simp only [hinit, hresponse, hcookie, htype, Bool.false_eq_true, false_and, if_false, true_and,
      length_xorBytes, if_pos (show payload.length ≥ dataOverheadSz from hlen), hbody,
      hfield (show 8 ≤ 16 by omega), hfield (show 16 ≤ 16 by omega)]

/-- A transport packet: the tunnel assembles what the handler's bytes parse as. -/
theorem readsAs_of_transport (hcfg : t.HasConfig cfg) (hdisjoint : cfg.headers.Disjoint)
    (hroom : t.headerProtection.isSome → 12 ≤ t.paddingConfig.s4.toNat)
    (hclass : t.determinePadding datagram = some ⟨t.paddingConfig.s4.toNat, transportHeaderSz,
      t.classifier.headerMask C datagram, none⟩)
    (hlen : t.paddingConfig.s4.toNat + dataOverheadSz ≤ datagram.length)
    (htype : t.headerConfig.transport.contains (u32OfLe (xorBytes
      (slice datagram t.paddingConfig.s4.toNat (t.paddingConfig.s4.toNat + 4))
      ((t.classifier.headerMask C datagram).getD []))) = true) :
    ∃ bytes, Device.unframe C cfg datagram = .ok bytes ∧ t.ReadsAs datagram bytes := by
  generalize t.paddingConfig.s4.toNat = padding at *
  have hfit : padding ≤ datagram.length := by omega
  have hspan : min transportHeaderSz (datagram.length - padding) = transportHeaderSz := by
    simp only [transportHeaderSz, dataOverheadSz] at *
    omega
  have hlenDrop : dataOverheadSz ≤ (datagram.drop padding).length := by
    rw [List.length_drop]
    omega
  have hbefore : (datagram.take padding).length = padding := List.length_take_of_le hfit
  cases hhp : t.headerProtection with
  | none =>
    have hmask : t.classifier.headerMask C datagram = none := by
      simp only [PacketClassifier.headerMask, classifier, hhp]
    rw [hmask] at hclass
    have hdevice := (hcfg.classify_eq datagram).trans hclass
    refine ⟨datagram.drop padding, ?_, .of_message ?_⟩
    · have hdecrypt : Device.decryptInPlace C cfg none padding transportHeaderSz datagram =
          .ok datagram := by
        rw [Device.decryptInPlace, ← hcfg.headerProtection, hhp]
        rfl
      simp [Device.unframe, hdevice, hspan, hdecrypt, sliceTo_eq_ok, sliceFrom_eq_ok hfit, hfit]
    · simp only [unframe, hclass, Option.map_some, Option.getD_some, sliceFrom_eq_ok hfit, ok_bind,
        trimTrailer, transportMask, Option.bind_some, if_true, unmaskMessage, hhp]
      rfl
  | some hp =>
    obtain ⟨nonce, hnonce⟩ := HeaderProtection.nonceOf_eq_some
      (show 12 ≤ datagram.length from (hroom (by simp [hhp])).trans hfit)
    have hlong : datagram.length ≥ headerProtectionNonceSize :=
      (hroom (by simp [hhp])).trans hfit
    have hmask : t.classifier.headerMask C datagram = some (C.keystream hp.key nonce 16) := by
      simp only [PacketClassifier.headerMask, classifier, hhp, if_pos hlong]
      rw [hp.keystream_eq_ok C hnonce]
      rfl
    rw [hmask] at hclass htype
    have hdevice := (hcfg.classify_eq datagram).trans hclass
    generalize hkey : C.keystream hp.key nonce 16 = mask at *
    have hmaskLen : mask.length = transportHeaderSz := by rw [← hkey, Crypto.length_keystream]
    have hleading : leadingType (xorBytes (datagram.drop padding) mask) =
        u32OfLe (xorBytes (slice datagram padding (padding + 4)) mask) := by
      rw [leadingType, slice_zero, xorBytes_take, xorBytes_take_mask (by simp), slice,
        Nat.add_sub_cancel_left]
    obtain ⟨p, hassembled, hparsed⟩ := parse_unmaskTransport (hcfg.headers ▸ hdisjoint) hmaskLen
      hlenDrop (by rw [hleading]; exact htype)
    refine ⟨xorBytes (datagram.drop padding) mask, ?_, ⟨.packet (.packetData p), ?_, ?_, ?_⟩⟩
    · have hdecrypt : Device.decryptInPlace C cfg (some mask) padding transportHeaderSz datagram =
          .ok (datagram.take padding ++ xorBytes (datagram.drop padding) mask) := by
        simp only [Device.decryptInPlace, if_true, sliceFrom_eq_ok hfit]
        rfl
      have hwhole : datagram.length =
          (datagram.take padding ++ xorBytes (datagram.drop padding) mask).length := by
        rw [List.length_append, length_xorBytes, hbefore, List.length_drop]
        omega
      simp only [Device.unframe, hdevice, Option.map_some, Option.getD_some, Option.bind_some,
        if_neg (Nat.not_lt.mpr hfit), hspan, hdecrypt, ok_bind]
      rw [hwhole, sliceTo_eq_ok le_rfl, List.take_length, ok_bind,
        sliceFrom_eq_ok (by rw [← hwhole]; exact hfit), List.drop_left' hbefore]
    · simp only [unframe, hclass, Option.map_some, Option.getD_some, sliceFrom_eq_ok hfit, ok_bind,
        trimTrailer, transportMask, Option.bind_some, if_true, hassembled]
      rfl
    · exact hparsed.symm
    · intro hno
      exact absurd hparsed (hno p)

end Tunn

namespace Device

/-- **One meaning on both paths.**  Under a parsed configuration, the anonymous handler never
indexes out of range, and the bytes it hands to the rate limiter are those a tunnel with
that configuration finds in the datagram: they parse to the same packet or are refused by
both, a handshake message is the same bytes, and `receive` is the check of exactly these
bytes. -/
theorem receive_paths_agree [Text.Hex] {input : Text} {cfg : Amnezia3Config}
    (hparse : (Amnezia3Config.parse input).run = .ok (.ok cfg)) {t : Tunn C}
    (hcfg : t.HasConfig cfg) (datagram : Bytes) :
    ∃ bytes, Device.unframe C cfg datagram = .ok bytes ∧ t.ReadsAs datagram bytes ∧
      ∀ srcAddr dstLen (e : ε),
        t.receive srcAddr datagram dstLen e = t.verify srcAddr bytes dstLen e := by
  have hwf := Amnezia3Config.parse_wellFormed hparse
  suffices hbytes : ∃ bytes, Device.unframe C cfg datagram = .ok bytes ∧ t.ReadsAs datagram bytes by
    obtain ⟨bytes, hdevice, hreads⟩ := hbytes
    exact ⟨bytes, hdevice, hreads, hreads.receive_eq⟩
  cases hclass : t.determinePadding datagram with
  | none => exact ⟨datagram, Tunn.readsAs_of_unclassified hcfg hclass⟩
  | some classified =>
    rcases PacketClassifier.classify_eq_some hclass with ⟨kind, rfl, hlen⟩ | ⟨rfl, hlen, htype⟩
    · exact Tunn.readsAs_of_kind hcfg (hcfg.prefixRoom hwf kind) hclass hlen
    · refine Tunn.readsAs_of_transport hcfg hwf.disjoint ?_ hclass hlen htype
      intro hsome
      rw [hcfg.headerProtection, Amnezia3Config.headerProtection, Option.isSome_map] at hsome
      rw [hcfg.paddings]
      exact (hwf.nonceFits hsome).s4

/-- Both read a protected transport packet of 44 bytes. -/
theorem receive_paths_agree_guarded :
    ∃ bytes, Device.unframe Crypto.transparent Tunn.guardedConfig
        (List.replicate 12 0 ++ (4 :: List.replicate 31 0)) = .ok bytes ∧
      Tunn.guardedTunn.ReadsAs (List.replicate 12 0 ++ (4 :: List.replicate 31 0)) bytes ∧
      (parseIncomingPacketConfig bytes Tunn.guardedConfig.headers).toOption.isSome := by
  have hparse : (Amnezia3Config.parse Tunn.guardedText).run = .ok (.ok Tunn.guardedConfig) := by
    decide +kernel
  have hconfig : Tunn.guardedTunn.HasConfig Tunn.guardedConfig := ⟨rfl, rfl, rfl, rfl, rfl, rfl⟩
  obtain ⟨bytes, hdevice, hreads, -⟩ := receive_paths_agree (ε := StillMachine) hparse hconfig
    (List.replicate 12 0 ++ (4 :: List.replicate 31 0))
  refine ⟨bytes, hdevice, hreads, ?_⟩
  have hrun : Outcome.test (Device.unframe Crypto.transparent Tunn.guardedConfig
      (List.replicate 12 0 ++ (4 :: List.replicate 31 0)))
      (fun bytes => (parseIncomingPacketConfig bytes Tunn.guardedConfig.headers).toOption.isSome) =
        true := by decide +kernel
  obtain ⟨bytes', hdevice', hsome⟩ := Outcome.test_eq_true_iff.mp hrun
  rw [hdevice] at hdevice'
  cases hdevice'
  exact hsome

end Device
