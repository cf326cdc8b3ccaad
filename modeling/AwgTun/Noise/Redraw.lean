import AwgTun.Noise.Transport

/-!
# Drawing the prefix again

The classifier of the reference implementation tries the handshake messages before transport, so it
may take a transport datagram for one of them.  What it reads is masked with a keystream that
depends on the prefix; under header protection `format_transport_packet` therefore draws the prefix
again, at most eight times in all, while the reference would be mistaken.

* `ReferencePeer.classify` — the decision of the reference.
* `Tunn.peerWouldMisclassify_iff` — `peer_would_misclassify` predicts it.
* `Tunn.drawPrefix_settles` — the loop ends with the first draw that is not mistaken, or the last.
* `Tunn.redraw_avoids_misclassification` — header and ciphertext come out whole under the mask of
  the prefix that was kept, and one good draw among eight is enough.
-/

open Control Bytes

/-! ## The reference -/

/-- A peer that runs the reference implementation with a configuration and its key. -/
structure ReferencePeer where
  paddings : PaddingConfig
  headers : HeaderConfig
  randomTrailers : Bool
  headerProtection : HeaderProtection

namespace ReferencePeer

variable (C : Crypto) (peer : ReferencePeer)

/-- Does a datagram have the size and, behind a prefix of `padding` bytes, the type of a handshake
message? -/
def matchesRow (mask datagram : Bytes) (padding : Nat) (range : HeaderRange) (size : Nat) : Bool :=
  let expected := padding + size
  (datagram.length == expected || (peer.randomTrailers && decide (datagram.length > expected)))
    && decide (padding + 4 ≤ datagram.length)
    && range.contains (u32OfLe (xorBytes (slice datagram padding (padding + 4)) mask))

/-- The kind of a datagram: initiation, response and cookie reply are tried before transport.  The
mask is the keystream under the first 12 bytes. -/
def classify (datagram : Bytes) : Option HeaderKind :=
  match HeaderProtection.nonceOf datagram with
  | none => none
  | some nonce =>
      let mask := C.keystream peer.headerProtection.key nonce 4
      if peer.matchesRow mask datagram peer.paddings.s1.toNat peer.headers.init handshakeInitSz then
        some .init
      else if peer.matchesRow mask datagram peer.paddings.s2.toNat peer.headers.response
          handshakeRespSz then
        some .response
      else if peer.matchesRow mask datagram peer.paddings.s3.toNat peer.headers.cookie
          cookieReplySz then
        some .cookie
      else if datagram.length ≥ peer.paddings.s4.toNat + dataOverheadSz
          ∧ peer.headers.transport.contains (u32OfLe (xorBytes
            (slice datagram peer.paddings.s4.toNat (peer.paddings.s4.toNat + 4)) mask)) then
        some .transport
      else none

/-- The reference takes a datagram for a handshake message or a cookie reply. -/
def TakesForHandshake (datagram : Bytes) : Prop :=
  ∃ kind, peer.classify C datagram = some kind ∧ kind ≠ .transport

/-- That is so exactly if one of the three rows before transport matches. -/
theorem takesForHandshake_iff {datagram : Bytes} {nonce : Nonce}
    (hnonce : HeaderProtection.nonceOf datagram = some nonce) :
    peer.TakesForHandshake C datagram ↔
      (peer.matchesRow (C.keystream peer.headerProtection.key nonce 4) datagram
          peer.paddings.s1.toNat peer.headers.init handshakeInitSz ||
        (peer.matchesRow (C.keystream peer.headerProtection.key nonce 4) datagram
            peer.paddings.s2.toNat peer.headers.response handshakeRespSz ||
          peer.matchesRow (C.keystream peer.headerProtection.key nonce 4) datagram
            peer.paddings.s3.toNat peer.headers.cookie cookieReplySz)) = true := by
  simp only [TakesForHandshake, classify, hnonce, Bool.or_eq_true]
  constructor
  · rintro ⟨kind, hkind, hne⟩
    split_ifs at hkind with hinit hresponse hcookie
    · exact .inl hinit
    · exact .inr (.inl hresponse)
    · exact .inr (.inr hcookie)
    · cases hkind
      exact absurd rfl hne
  · intro h
    split_ifs with hinit hresponse hcookie
    · exact ⟨.init, rfl, by decide⟩
    · exact ⟨.response, rfl, by decide⟩
    · exact ⟨.cookie, rfl, by decide⟩
    all_goals simp [hinit, hresponse, hcookie] at h

end ReferencePeer

namespace Tunn

variable {C : Crypto} {ε : Type} [Env ε] {t : Tunn C} {hp : HeaderProtection}

/-- The peer that runs the reference with the settings of this tunnel. -/
def referencePeer (t : Tunn C) (hp : HeaderProtection) : ReferencePeer where
  paddings := t.paddingConfig
  headers := t.headerConfig
  randomTrailers := t.randomTrailers
  headerProtection := hp

/-- A packet behind a prefix, its header under the mask of the prefix. -/
def protectUnder (C : Crypto) (hp : HeaderProtection) (packet before : Bytes) : Outcome Bytes := do
  let keystream ← hp.keystream C transportHeaderSz before
  return before ++ (xorBytes (packet.take transportHeaderSz) keystream
    ++ packet.drop transportHeaderSz)

/-- **The prediction.**  Of a datagram whose prefix holds a nonce, `peer_would_misclassify` says
what the reference decides. -/
theorem peerWouldMisclassify_iff {before mask : Bytes} (hlong : 12 ≤ before.length)
    (hmask : hp.keystream C transportHeaderSz before = .ok mask) (after : Bytes) :
    t.peerWouldMisclassify (before ++ after) (mask.take 4) = true ↔
      (t.referencePeer hp).TakesForHandshake C (before ++ after) := by
  obtain ⟨nonce, hnonce⟩ := HeaderProtection.nonceOf_eq_some hlong
  have hsame : HeaderProtection.nonceOf (before ++ after) = some nonce := by
    rw [HeaderProtection.nonceOf_append hlong, hnonce]
  -- the first four bytes of the transport mask are the mask of a type
  obtain rfl : C.keystream hp.key nonce transportHeaderSz = mask := by
    rw [hp.keystream_eq_ok C hnonce] at hmask
    exact Except.ok.inj hmask
  rw [C.take_keystream hp.key nonce (show 4 ≤ transportHeaderSz by decide),
    ReferencePeer.takesForHandshake_iff C _ hsame]
  simp only [peerWouldMisclassify, List.any_cons, List.any_nil, Bool.or_false]
  rfl

/-! ## The loop -/

/-- The prefixes that `n` draws give. -/
def prefixDraws (t : Tunn C) : Nat → ε → List Bytes
  | 0, _ => []
  | n + 1, e =>
      let (before, e) := randomBytes t.paddingConfig.s4.toNat e
      before :: t.prefixDraws n e

/-- **The loop** keeps one of the prefixes it may draw, and if one of them is not mistaken, neither
is the one it keeps. -/
theorem drawPrefix_settles (hhp : t.headerProtection = some hp)
    (hroom : 12 ≤ t.paddingConfig.s4.toNat) (packet : Bytes) (redraws : Nat) (e : ε) :
    ∃ before datagram e', before ∈ t.prefixDraws (redraws + 1) e ∧
      before.length = t.paddingConfig.s4.toNat ∧ protectUnder C hp packet before = .ok datagram ∧
      t.drawPrefix packet redraws e = .ok (datagram, e') ∧
      ((∃ draw ∈ t.prefixDraws (redraws + 1) e, ∃ other,
          protectUnder C hp packet draw = .ok other ∧
            ¬ (t.referencePeer hp).TakesForHandshake C other) →
        ¬ (t.referencePeer hp).TakesForHandshake C datagram) := by
  induction redraws generalizing e with
  | zero =>
    rcases hdraw : randomBytes t.paddingConfig.s4.toNat e with ⟨before, e'⟩
    have hlen : before.length = t.paddingConfig.s4.toNat := by
      rw [← length_randomBytes t.paddingConfig.s4.toNat e, hdraw]
    obtain ⟨nonce, hnonce⟩ := HeaderProtection.nonceOf_eq_some (hlen ▸ hroom)
    have hmask := hp.keystream_eq_ok C hnonce transportHeaderSz
    refine ⟨before, _, e', by simp [prefixDraws, hdraw], hlen, by rw [protectUnder, hmask]; rfl, ?_,
      ?_⟩
    · rw [drawPrefix, hdraw, hhp]
      simp only [hmask, ok_bind]
    · rintro ⟨draw, hmem, other, hother, hgood⟩
      obtain rfl : draw = before := by simpa [prefixDraws, hdraw] using hmem
      rw [protectUnder, hmask] at hother
      cases hother
      exact hgood
  | succ redraws ih =>
    rcases hdraw : randomBytes t.paddingConfig.s4.toNat e with ⟨before, e'⟩
    have hlen : before.length = t.paddingConfig.s4.toNat := by
      rw [← length_randomBytes t.paddingConfig.s4.toNat e, hdraw]
    have hlong : 12 ≤ before.length := hlen ▸ hroom
    obtain ⟨nonce, hnonce⟩ := HeaderProtection.nonceOf_eq_some hlong
    have hmask := hp.keystream_eq_ok C hnonce transportHeaderSz
    have hdraws : t.prefixDraws (redraws + 1 + 1) e = before :: t.prefixDraws (redraws + 1) e' := by
      rw [prefixDraws, hdraw]
    have hprotect : protectUnder C hp packet before = .ok (before ++ (xorBytes
        (packet.take transportHeaderSz) (C.keystream hp.key nonce transportHeaderSz)
          ++ packet.drop transportHeaderSz)) := by
      rw [protectUnder, hmask]
      rfl
    have hpredict := peerWouldMisclassify_iff (t := t) hlong hmask (xorBytes
      (packet.take transportHeaderSz) (C.keystream hp.key nonce transportHeaderSz)
        ++ packet.drop transportHeaderSz)
    by_cases hbad : t.peerWouldMisclassify (before ++ (xorBytes (packet.take transportHeaderSz)
        (C.keystream hp.key nonce transportHeaderSz) ++ packet.drop transportHeaderSz))
        ((C.keystream hp.key nonce transportHeaderSz).take 4) = true
    · -- mistaken: the rest of the draws decide, and this one is no help
      obtain ⟨kept, datagram, e'', hmem, hkept, hresult, hrun, hgood⟩ := ih e'
      refine ⟨kept, datagram, e'', by rw [hdraws]; exact List.mem_cons_of_mem _ hmem,
        hkept, hresult, ?_, ?_⟩
      · rw [drawPrefix, hdraw, hhp]
        simp only [hmask, ok_bind, hbad, if_true]
        exact hrun
      · rw [hdraws]
        rintro ⟨draw, hdrawn, other, hother, hnot⟩
        rcases List.mem_cons.mp hdrawn with rfl | hlater
        · rw [hprotect] at hother
          cases hother
          exact absurd (hpredict.mp hbad) hnot
        · exact hgood ⟨draw, hlater, other, hother, hnot⟩
    · refine ⟨before, _, e', by simp [hdraws], hlen, hprotect, ?_, fun _ => hpredict.not.mp hbad⟩
      rw [drawPrefix, hdraw, hhp]
      simp only [hmask, ok_bind, hbad]
      rfl

/-! ## The packet -/

/-- **The prefix is drawn well.**  Under a validated configuration with header protection, a buffer
with room for the packet gets a datagram that, unmasked under the keystream of its own first 12
bytes, is the transport header followed by the ciphertext; and if one of the eight prefixes that
may be drawn gives a datagram that the reference does not take for a handshake message, then it
does not take this one for one. -/
theorem redraw_avoids_misclassification {cfg : Amnezia3Config} (hvalid : cfg.validate = .ok ())
    (hcfg : t.HasConfig cfg) (hhp : t.headerProtection = some hp) (s : Session) {src : Bytes}
    {contentPadding dstLen : Nat} (hfit : t.datagramSize src.length + contentPadding ≤ dstLen)
    (e : ε) :
    let drawn := t.headerConfig.transport.generate e
    let packet := transportHeader drawn.1 s ++ s.sealedContent C src contentPadding
    ∃ datagram mask e', t.formatTransportPacket s src contentPadding dstLen e =
        .ok (datagram, s.sent, e') ∧
      hp.keystream C transportHeaderSz (datagram.take 12) = .ok mask ∧
      xorBytes (datagram.drop t.paddingConfig.s4.toNat) mask = packet ∧
      ((∃ draw ∈ t.prefixDraws maxPrefixDraws drawn.2, ∃ other,
          protectUnder C hp packet draw = .ok other ∧
            ¬ (t.referencePeer hp).TakesForHandshake C other) →
        ¬ (t.referencePeer hp).TakesForHandshake C datagram) := by
  intro drawn packet
  have hroom : 12 ≤ t.paddingConfig.s4.toNat :=
    hcfg.nonceRoom (Amnezia3Config.validate_eq_ok hvalid).2 (by simp [hhp])
  obtain ⟨before, datagram, e', -, hlen, hprotect, hrun, hgood⟩ :=
    drawPrefix_settles hhp hroom packet (maxPrefixDraws - 1) drawn.2
  have hlong : 12 ≤ before.length := hlen ▸ hroom
  obtain ⟨nonce, hnonce⟩ := HeaderProtection.nonceOf_eq_some hlong
  have hmask := hp.keystream_eq_ok C hnonce transportHeaderSz
  rw [protectUnder, hmask] at hprotect
  cases hprotect
  refine ⟨_, C.keystream hp.key nonce transportHeaderSz, e', ?_, ?_, ?_, hgood⟩
  · simp only [datagramSize, dataOverheadSz] at hfit
    simp only [formatTransportPacket, if_neg (show ¬ dstLen < t.paddingConfig.s4.toNat by omega)]
    rw [Session.formatPacketData_eq s _ (by simp only [dataOverheadSz]; omega), ok_bind]
    simp only [drawn, packet] at hrun
    simp only [hrun, ok_bind]
    rfl
  · -- the mask depends on the first 12 bytes of the datagram alone
    have htake : (before ++ (xorBytes (packet.take transportHeaderSz)
        (C.keystream hp.key nonce transportHeaderSz) ++ packet.drop transportHeaderSz)).take 12 =
          before.take 12 := List.take_append_of_le_length hlong
    have htwelve : 12 ≤ (before.take 12).length := by
      rw [List.length_take]
      omega
    have hsplit := HeaderProtection.nonceOf_append htwelve (before.drop 12)
    rw [List.take_append_drop, hnonce] at hsplit
    rw [htake]
    exact hp.keystream_eq_ok C hsplit.symm transportHeaderSz
  · have hhead : (packet.take transportHeaderSz).length = transportHeaderSz :=
      List.length_take_of_le (by simp [packet, transportHeaderSz])
    rw [List.drop_left' hlen, xorBytes_append, length_xorBytes, hhead]
    have hwhole : (C.keystream hp.key nonce transportHeaderSz).take transportHeaderSz =
        C.keystream hp.key nonce transportHeaderSz :=
      List.take_of_length_le (by simp)
    have hnone : (C.keystream hp.key nonce transportHeaderSz).drop transportHeaderSz = [] :=
      List.drop_eq_nil_of_le (by simp)
    rw [hwhole, hnone, xorBytes_xorBytes, xorBytes_nil_right, List.take_append_drop]

/-- A packet of the configuration with every layer switched on. -/
theorem redraw_avoids_misclassification_layered :
    let s := Session.new 1 1 zeroKey zeroKey
    let t := layeredTunn 0 s
    let src : Bytes := [0x45, 0, 0, 20] ++ List.replicate 16 7
    let drawn := t.headerConfig.transport.generate ({} : StillMachine)
    let packet := transportHeader drawn.1 s ++ s.sealedContent Crypto.transparent src 3
    ∃ hp datagram mask e', t.headerProtection = some hp ∧
      t.formatTransportPacket s src 3 200 ({} : StillMachine) = .ok (datagram, s.sent, e') ∧
      hp.keystream Crypto.transparent transportHeaderSz (datagram.take 12) = .ok mask ∧
      xorBytes (datagram.drop t.paddingConfig.s4.toNat) mask = packet ∧
      ((∃ draw ∈ t.prefixDraws maxPrefixDraws drawn.2, ∃ other,
          protectUnder Crypto.transparent hp packet draw = .ok other ∧
            ¬ (t.referencePeer hp).TakesForHandshake Crypto.transparent other) →
        ¬ (t.referencePeer hp).TakesForHandshake Crypto.transparent datagram) := by
  intro s t src drawn packet
  have hvalid : layeredConfig.validate = .ok () := by decide +kernel
  have hconfig : t.HasConfig layeredConfig := ⟨rfl, rfl, rfl, rfl, rfl, rfl⟩
  have hfit : t.datagramSize src.length + 3 ≤ 200 := by decide
  obtain ⟨datagram, mask, e', hrun⟩ :=
    redraw_avoids_misclassification hvalid hconfig rfl s hfit ({} : StillMachine)
  exact ⟨_, datagram, mask, e', rfl, hrun⟩

end Tunn
