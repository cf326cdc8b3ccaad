import AwgTun.Phobos.Codec

/-!
# Phobos datagrams on their way

A receiver takes a datagram apart by what it finds at fixed places, where a sender has put masked
bytes, or a clock that keeps running.  Two of these places can mislead it: an unframed payload may
look like a plain message, and the timestamp of an RTP frame may be the STUN cookie.

* `PhobosCodec.Serves` — a codec of a configuration, whatever it has sent (`Reached.serves`).
* `PhobosCodec.Arrives` — neither happens to a message.
* `PhobosCodec.datagram_roundtrip_iff` — those are the messages that arrive.
-/

open Control Bytes

namespace Phobos

/-! ## Frames -/

theorem copyAt_returns (out bs : Bytes) (start : Nat) (h : start + bs.length ≤ out.length) :
    ∃ out', copyAt out start bs = .ok out' ∧ out'.length = out.length := by
  refine ⟨overwrite out start bs, if_pos h, ?_⟩
  simp only [overwrite, List.length_append, List.length_take, List.length_drop]
  omega

@[simp] theorem length_stunHeader (msgType msgLen : Nat) (txid : ByteArr 12) :
    (stunHeader msgType msgLen txid).length = 20 := by
  simp [stunHeader, stunCookie]

theorem finishWithFingerprint_returns (packet : Bytes) (pos : Nat) (hpos : 4 ≤ pos)
    (h : pos + 8 ≤ packet.length) :
    ∃ out, finishWithFingerprint packet pos = .ok out ∧ out.length = packet.length := by
  obtain ⟨p₁, h₁, hlen₁⟩ := copyAt_returns packet [0, 0] 2
    (by simp only [List.length_cons, List.length_nil]; omega)
  obtain ⟨p₂, h₂, hlen₂⟩ := copyAt_returns p₁ (beBytes 2 stunAttrFingerprint) pos
    (by rw [length_beBytes]; omega)
  obtain ⟨p₃, h₃, hlen₃⟩ :=
    copyAt_returns p₂ (beBytes 2 4) (pos + 2) (by rw [length_beBytes]; omega)
  obtain ⟨p₄, h₄, hlen₄⟩ := copyAt_returns p₃
    (beBytes 4 (crc32 (p₁.take pos) ^^^ stunFingerprintXor).toNat) (pos + 4)
    (by rw [length_beBytes]; omega)
  obtain ⟨p₅, h₅, hlen₅⟩ := copyAt_returns p₄ (beBytes 2 (pos + 8 - stunHeaderLen)) 2
    (by rw [length_beBytes]; omega)
  refine ⟨p₅, ?_, by omega⟩
  simp only [finishWithFingerprint, h₁, ok_bind, sliceTo_eq_ok (show pos ≤ p₁.length by omega), h₂,
    h₃, h₄, h₅]

theorem buildBindingRequest_returns (txid : ByteArr 12) :
    ∃ packet, buildBindingRequest txid = .ok packet ∧ packet.length = 28 := by
  obtain ⟨out, hout, hlen⟩ := copyAt_returns (List.replicate 28 0)
    (stunHeader stunBindingRequest 0 txid) 0 (by simp)
  rw [List.length_replicate] at hlen
  obtain ⟨packet, hpacket, hpacketLen⟩ := finishWithFingerprint_returns out
    stunHeaderLen (by decide) (by rw [hlen]; decide)
  refine ⟨packet, ?_, hpacketLen.trans hlen⟩
  rw [buildBindingRequest, writeStunHeader, hout, ok_bind, hpacket]

/-- The header of a Data Indication. -/
def dataHeader (txid : ByteArr 12) (payloadLen : Nat) : Bytes :=
  stunHeader stunDataIndication 0 txid ++ (beBytes 2 stunAttrData ++ beBytes 2 payloadLen)

@[simp] theorem length_rtpHeader (s : RtpStream) : s.header.length = 12 := by
  simp [RtpStream.header]

namespace RtpStream

/-- A stream of these parameters. -/
structure Follows (s : RtpStream) (params : MediaParams) : Prop where
  payloadType : params.payloadType ≠ 0 → s.payloadType = params.payloadType
  ssrc : params.ssrc ≠ 0 → s.ssrc = params.ssrc

theorem Follows.next {s : RtpStream} {params : MediaParams} (h : s.Follows params) :
    s.next.Follows params :=
  ⟨h.payloadType, h.ssrc⟩

variable {ρ : Type} [RandomSource ρ]

/-- The timestamp a new stream begins with. -/
def firstTimestamp (rng : ρ) : UInt32 :=
  (genRangeU32 (genRangeU16 rng 0 65535).2 0 4294967295).1

theorem preset_exists (rng : ρ) :
    ∃ preset, mediaPresets[(genRangeU32 rng 0 (UInt32.ofNat mediaPresets.length - 1)).1.toNat]? =
      some preset := by
  have hlast : UInt32.ofNat mediaPresets.length - 1 = 49 := by decide
  rw [hlast]
  have hindex : (genRangeU32 rng 0 49).1 ≤ 49 := (genRangeU32_mem rng (by decide)).2
  rw [UInt32.le_iff_toNat_le] at hindex
  have hlt : (genRangeU32 rng 0 49).1.toNat < mediaPresets.length := by
    change _ ≤ 49 at hindex
    change _ < 50
    omega
  exact ⟨_, List.getElem?_eq_getElem hlt⟩

theorem new_returns (params : MediaParams) (rng : ρ) :
    ∃ s rng', new params rng = .ok (s, rng') ∧ s.Follows params ∧
      s.timestamp = firstTimestamp rng := by
  simp only [new]
  obtain ⟨⟨presetPt, presetStep⟩, hpreset⟩ := preset_exists (if params.ssrc ≠ 0 then
    (params.ssrc, (genRangeU32 (genRangeU16 rng 0 65535).2 0 4294967295).2)
    else genRangeU32 (genRangeU32 (genRangeU16 rng 0 65535).2 0 4294967295).2 1 4294967295).2
  rw [hpreset]
  refine ⟨_, _, rfl, ⟨?_, ?_⟩, rfl⟩
  · intro hset
    exact if_pos hset
  · intro hset
    exact congrArg Prod.fst (if_pos hset)

end RtpStream

/-! ## What a codec sends -/

theorem keyFits_of_validateKey {key : Bytes} (h : validateKey key = .ok ()) : KeyFits key := by
  unfold validateKey at h
  split_ifs at h with hnil hlong
  exact ⟨hnil, Nat.not_lt.mp hlong⟩

theorem looksPlain_shape {message : Bytes} (h : looksPlain message = true) :
    4 ≤ message.length ∧ slice message 1 4 = [0, 0, 0] := by
  match message, h with
  | b₀ :: b₁ :: b₂ :: b₃ :: rest, h =>
    simp only [looksPlain, Bool.and_eq_true, beq_iff_eq] at h
    obtain ⟨⟨⟨-, rfl⟩, rfl⟩, rfl⟩ := h
    exact ⟨by simp, rfl⟩

/-- Under this mask, a payload has the type field of a plain message. -/
def Draws.PlainUnder (drawn : Draws) (b₀ : UInt8) (mask : Bytes) : Prop :=
  (1 ≤ (b₀ ^^^ drawn.r) ^^^ mask.getD 0 0 ∧ (b₀ ^^^ drawn.r) ^^^ mask.getD 0 0 ≤ 4) ∧
    drawn.r = mask.getD 1 0 ∧ leBytes 2 drawn.dummy.toNat = [mask.getD 2 0, mask.getD 3 0]

theorem Draws.looksPlain_masked (drawn : Draws) (b₀ : UInt8) (rest mask : Bytes) :
    looksPlain (xorBytes (drawn.payload b₀ rest) mask) = true ↔ drawn.PlainUnder b₀ mask := by
  have hcons : ∀ (b : UInt8) (bs ms : Bytes),
      xorBytes (b :: bs) ms = (b ^^^ ms.getD 0 0) :: xorBytes bs (ms.drop 1) := by
    intro b bs ms
    cases ms <;> simp [xorBytes]
  simp only [Draws.payload, leBytes, List.cons_append, List.nil_append, hcons, List.drop_drop,
    looksPlain, Draws.PlainUnder, Bool.and_eq_true, decide_eq_true_eq, beq_iff_eq,
    List.getD_eq_getElem?_getD, List.getElem?_drop, UInt8.xor_eq_zero_iff,
      List.cons.injEq, and_true,
    and_assoc, Nat.add_zero, Nat.reduceAdd]

namespace PhobosCodec

variable {ρ : Type} [RandomSource ρ] {cfg : PhobosConfig} {c c' : PhobosCodec ρ} {message : Bytes}
  {datagram : Bytes} {sender sender' : PhobosCodec ρ} {request : Option Bytes} {s : RtpStream}

/-- A codec of this configuration, whatever it has done before. -/
structure Serves (c : PhobosCodec ρ) (cfg : PhobosConfig) : Prop where
  valid : cfg.validate = .ok ()
  config : c.config = cfg
  obfuscateBytes : c.obfuscateBytes = cfg.effectiveObfuscateBytes
  rtp : ∀ s, c.rtp = some s → s.Follows cfg.media

omit [RandomSource ρ] in
theorem withRng_serves {rng : ρ} (h : withRng cfg rng = .ok c) : c.Serves cfg := by
  obtain ⟨hvalid, h⟩ := check_bind_eq_ok.mp h
  cases h
  exact ⟨hvalid, rfl, rfl, by simp⟩

omit [RandomSource ρ] in
theorem Serves.withRng (h : c.Serves cfg) (rng : ρ) :
    ({ c with rng := rng } : PhobosCodec ρ).Serves cfg :=
  ⟨h.valid, h.config, h.obfuscateBytes, h.rtp⟩

omit [RandomSource ρ] in
theorem Serves.keyFits (h : c.Serves cfg) : KeyFits c.config.key := by
  obtain ⟨hkey, -⟩ := check_bind_eq_ok.mp h.valid
  rw [h.config]
  exact keyFits_of_validateKey hkey

omit [RandomSource ρ] in
theorem Serves.payloadType_le (h : c.Serves cfg) : ¬ 127 < cfg.media.payloadType := by
  have hvalid := h.valid
  intro hbig
  obtain ⟨-, hvalid⟩ := check_bind_eq_ok.mp hvalid
  split_ifs at hvalid <;> cases hvalid

/-- The generator once the Binding Request has been made. -/
def preambleRng (c : PhobosCodec ρ) (message : Bytes) : ρ :=
  if u32OfLe (message.take 4) = 1 ∧ c.config.masking.controlInterval.isSome then
    (RandomSource.fillBytes c.rng 12).2
  else c.rng

theorem preamble_returns (c : PhobosCodec ρ) (message : Bytes) :
    ∃ request, c.preamble message = .ok (request, { c with rng := c.preambleRng message }) := by
  unfold preamble preambleRng
  split_ifs with hrequest
  · obtain ⟨packet, hpacket, -⟩ := buildBindingRequest_returns (RandomSource.fillBytes c.rng 12).1
    refine ⟨some packet, ?_⟩
    simp only [bindingRequest, hpacket, ok_bind]
    rfl
  · exact ⟨none, rfl⟩

/-- What `encode` draws for a message. -/
def draw (c : PhobosCodec ρ) (message : Bytes) : Draws × ρ :=
  draws (tailBound c.obfuscateBytes.toNat message.length (u32OfLe (message.take 4))
    c.config.maxDummy) (c.preambleRng message)

/-- The mask of its payload. -/
def mask (c : PhobosCodec ρ) (message : Bytes) : Bytes :=
  keystream c.config.key
    (maskedLen c.obfuscateBytes.toNat (message.length + (c.draw message).1.dummy.toNat))

/-- Its payload. -/
def payload (c : PhobosCodec ρ) (message : Bytes) : Bytes :=
  xorBytes ((c.draw message).1.payload (message.headD 0) (message.drop 4)) (c.mask message)

theorem draw_tail (c : PhobosCodec ρ) (message : Bytes) :
    (c.draw message).1.tail.length = (c.draw message).1.dummy.toNat :=
  draws_tail_length Prod.mk.eta.symm

theorem length_payload (hlen : 4 ≤ message.length) :
    (c.payload message).length = message.length + (c.draw message).1.dummy.toNat := by
  rw [payload, length_xorBytes, Draws.length_payload, draw_tail, List.length_drop]
  omega

/-- A payload under STUN has a length of 16 bits. -/
theorem length_payload_lt (hlen : 4 ≤ message.length) (hmax : message.length ≤ 65535) :
    (c.payload message).length ≤ 65535 := by
  have hbound := tailBound_le c.obfuscateBytes.toNat message.length (u32OfLe (message.take 4))
    c.config.maxDummy
  have hdummy : (c.draw message).1.dummy.toNat ≤ _ :=
    draws_dummy_le (hbound.trans (Nat.sub_le _ _)) Prod.mk.eta.symm
  rw [length_payload hlen]
  simp only [dummyLimit] at hbound
  omega

/-- The encoding of a message, behind the zeros of its frame. -/
theorem encode_message (hs : c.Serves cfg) (hlen : 4 ≤ message.length) (header : Bytes) :
    encode (header ++ message) header.length c.config.key c.config.maxDummy c.obfuscateBytes
        (c.preambleRng message) = .ok (header ++ c.payload message, (c.draw message).2) := by
  match message, hlen with
  | b₀ :: b₁ :: b₂ :: b₃ :: rest, hlen =>
    have hpayload := Draws.length_payload (c.draw (b₀ :: b₁ :: b₂ :: b₃ :: rest)).1 b₀ rest
    rw [draw_tail] at hpayload
    rw [encode_eq hs.keyFits header rest b₀ b₁ b₂ b₃ c.config.maxDummy c.obfuscateBytes _
      Prod.mk.eta.symm, payload, mask]
    change Except.ok (header ++ xorBytes _ (keystream _ (maskedLen _
      ((c.draw (b₀ :: b₁ :: b₂ :: b₃ :: rest)).1.payload b₀ rest).length)), _) = _
    rw [hpayload]
    rfl

/-- What is left of `wrap` once the message is encoded. -/
theorem wrap_eq (hs : c.Serves cfg) (hlen : 4 ≤ message.length)
    (hmax : c.config.masking = .stun → message.length ≤ 65535) :
    ∃ request, c.wrap message =
      (frame { c with rng := (c.draw message).2 }
        (List.replicate c.config.masking.overhead 0 ++ c.payload message) >>= fun made =>
          .ok (.ok (request, made.1), made.2)) := by
  obtain ⟨request, hrequest⟩ := c.preamble_returns message
  have hencode := encode_message hs hlen (List.replicate c.config.masking.overhead 0)
  rw [List.length_replicate] at hencode
  have hfits : c.config.masking.maxMessageLen.any (· < message.length) = false := by
    cases hmasking : c.config.masking with
    | none => rfl
    | stun => simpa [Masking.maxMessageLen] using hmax hmasking
    | media => rfl
  refine ⟨request, ?_⟩
  simp only [wrap, if_neg (Nat.not_lt.mpr hlen), hfits, hrequest, ok_bind, hencode]
  rfl

theorem frame_stun (hmasking : c.config.masking = .stun) (payload : Bytes) :
    ∃ txid c', c.frame (List.replicate stunDataHeaderLen 0 ++ payload) =
      .ok (dataHeader txid payload.length ++ payload, c') := by
  refine ⟨(RandomSource.fillBytes c.rng 12).1,
    { c with rng := (RandomSource.fillBytes c.rng 12).2 },
    ?_⟩
  have hlen : (List.replicate stunDataHeaderLen (0 : UInt8) ++ payload).length - stunDataHeaderLen =
      payload.length := by simp
  have hstun := copyAt_append [] (List.replicate 20 0)
    (List.replicate 2 0 ++ (List.replicate 2 0 ++ payload))
    (stunHeader stunDataIndication 0 (RandomSource.fillBytes c.rng 12).1) List.length_nil (by simp)
  have hattr := copyAt_append (stunHeader stunDataIndication 0 (RandomSource.fillBytes c.rng 12).1)
    (List.replicate 2 0) (List.replicate 2 0 ++ payload) (beBytes 2 stunAttrData)
    (length_stunHeader _ _ _) (by simp)
  have hsize : copyAt (_ ++ (_ ++ payload)) 22 _ = _ := copyAt_append
    (stunHeader stunDataIndication 0 (RandomSource.fillBytes c.rng 12).1 ++ beBytes 2 stunAttrData)
    (List.replicate 2 0) payload (beBytes 2 payload.length) (by simp) (by simp)
  simp only [List.append_assoc] at hsize
  have hzeros : List.replicate stunDataHeaderLen (0 : UInt8) ++ payload =
      [] ++ (List.replicate 20 0 ++ (List.replicate 2 0 ++ (List.replicate 2 0 ++ payload))) := rfl
  simp only [frame, hmasking, hlen, writeStunHeader]
  rw [hzeros, hstun, ok_bind, List.nil_append, hattr, ok_bind, hsize, ok_bind]
  simp only [dataHeader, List.append_assoc]
  rfl

/-- The timestamp of the frame that is sent next. -/
def frameTimestamp (c : PhobosCodec ρ) (message : Bytes) : UInt32 :=
  (c.rtp.map RtpStream.timestamp).getD (RtpStream.firstTimestamp (c.draw message).2)

theorem stream_returns (hs : c.Serves cfg) :
    ∃ (s : RtpStream) (rng' : ρ), c.stream = .ok (s, rng') ∧ s.Follows cfg.media ∧
      s.timestamp = (c.rtp.map RtpStream.timestamp).getD (RtpStream.firstTimestamp c.rng) := by
  unfold stream
  cases hrtp : c.rtp with
  | some s => exact ⟨s, c.rng, rfl, hs.rtp s hrtp, rfl⟩
  | none =>
    rw [hs.config]
    exact RtpStream.new_returns cfg.media c.rng

theorem stream_follows (hs : c.Serves cfg) {rng' : ρ} (h : c.stream = .ok (s, rng')) :
    s.Follows cfg.media := by
  obtain ⟨s', rng'', hstream, hfollows, -⟩ := stream_returns hs
  rw [h] at hstream
  cases hstream
  exact hfollows

theorem frame_media (hs : c.Serves cfg) (hmasking : c.config.masking = .media) (payload : Bytes) :
    ∃ (s : RtpStream) (c' : PhobosCodec ρ), c.frame (List.replicate rtpHeaderLen 0 ++ payload) =
        .ok (s.header ++ payload, c') ∧ s.Follows cfg.media ∧
      s.timestamp = (c.rtp.map RtpStream.timestamp).getD (RtpStream.firstTimestamp c.rng) := by
  obtain ⟨s, rng', hstream, hfollows, htimestamp⟩ := stream_returns hs
  refine ⟨s, { c with rng := rng', rtp := some s.next }, ?_, hfollows, htimestamp⟩
  have hwrite := copyAt_append [] (List.replicate rtpHeaderLen 0) payload s.header List.length_nil
    (by simp [rtpHeaderLen])
  simp only [frame, hmasking, hstream, ok_bind, RtpStream.writeHeader]
  rw [List.nil_append] at hwrite
  rw [hwrite]
  rfl

/-! ### A codec stays a codec of its configuration -/

theorem frame_serves (hs : c.Serves cfg) {out datagram : Bytes}
    (h : c.frame out = .ok (datagram, c')) : c'.Serves cfg := by
  unfold frame at h
  split at h
  · cases h
    exact hs
  · obtain ⟨out₁, -, h⟩ := bind_eq_ok.mp h
    obtain ⟨out₂, -, h⟩ := bind_eq_ok.mp h
    obtain ⟨out₃, -, h⟩ := bind_eq_ok.mp h
    cases h
    exact hs.withRng _
  · obtain ⟨⟨s, rng'⟩, hstream, h⟩ := bind_eq_ok.mp h
    obtain ⟨⟨out', s'⟩, hwrite, h⟩ := bind_eq_ok.mp h
    obtain ⟨out'', -, hwrite⟩ := bind_eq_ok.mp hwrite
    cases hwrite
    cases h
    refine ⟨hs.valid, hs.config, hs.obfuscateBytes, ?_⟩
    intro s' hs'
    cases hs'
    exact (stream_follows hs hstream).next

/-- The stream of a codec follows its configuration before and after a message is wrapped. -/
theorem wrap_serves (hs : c.Serves cfg) {result : Except WrapError (Option Bytes × Bytes)}
    (h : c.wrap datagram = .ok (result, c')) : c'.Serves cfg := by
  simp only [wrap] at h
  split_ifs at h
  · cases h
    exact hs
  · cases h
    exact hs
  · obtain ⟨request, hrequest⟩ := c.preamble_returns datagram
    rw [hrequest, ok_bind] at h
    obtain ⟨⟨out, rng'⟩, -, h⟩ := bind_eq_ok.mp h
    obtain ⟨⟨out', c₁⟩, hframe, h⟩ := bind_eq_ok.mp h
    cases h
    exact frame_serves ((hs.withRng _).withRng _) hframe

theorem bindingRequest_serves (hs : c.Serves cfg) {request : Bytes}
    (h : c.bindingRequest = .ok (request, c')) : c'.Serves cfg := by
  obtain ⟨packet, -, h⟩ := bind_eq_ok.mp h
  cases h
  exact hs.withRng _

/-- The codecs a configuration leads to: one is made, wraps messages and asks for bindings. -/
inductive Reached (cfg : PhobosConfig) : PhobosCodec ρ → Prop
  | made {rng : ρ} {c : PhobosCodec ρ} (h : withRng cfg rng = .ok c) : Reached cfg c
  | wraps {c c' : PhobosCodec ρ} {datagram : Bytes}
      {result : Except WrapError (Option Bytes × Bytes)} (hc : Reached cfg c)
      (h : c.wrap datagram = .ok (result, c')) : Reached cfg c'
  | requests {c c' : PhobosCodec ρ} {request : Bytes} (hc : Reached cfg c)
      (h : c.bindingRequest = .ok (request, c')) : Reached cfg c'

/-- Whatever a codec has sent, it serves its configuration. -/
theorem Reached.serves (h : Reached cfg c) : c.Serves cfg := by
  induction h with
  | made h => exact withRng_serves h
  | wraps _ h ih => exact wrap_serves ih h
  | requests _ h ih => exact bindingRequest_serves ih h

/-! ## What a codec makes of it -/

variable {ρ' : Type} {receiver : PhobosCodec ρ'} {source : SocketAddr}

/-- A payload that is found is decoded. -/
theorem unwrap_located {header payload buf : Bytes} {n : Nat}
    (hplain : looksPlain (header ++ payload) = false) (hlen : 4 ≤ payload.length)
    (hlocate : receiver.locate (header ++ payload) source =
      .ok (.inr (header.length, payload.length)))
    (hdecode : decode payload receiver.config.key receiver.obfuscateBytes = .ok (some n, buf))
    (hn : n ≤ buf.length) :
    receiver.unwrap (header ++ payload) source =
      .ok (.wireGuard header.length (buf.take n), overwrite (header ++ payload)
        header.length buf) := by
  have hslice : sliceRange (header ++ payload) header.length (header.length + payload.length) =
      .ok payload := by
    rw [sliceRange_eq_ok (by omega) (by simp)]
    have hfield : slice (header ++ (payload ++ [])) header.length _ = payload :=
      slice_append rfl rfl
    rw [List.append_nil] at hfield
    rw [hfield]
  have hfirst : ¬ ((header ++ payload).length < 4 ∨ looksPlain (header ++ payload) = true) := by
    rw [hplain, List.length_append]
    simp
    omega
  simp only [unwrap, if_neg hfirst, hlocate, ok_bind, if_neg (Nat.not_lt.mpr hlen), hslice, hdecode,
    sliceTo_eq_ok hn]
  rfl

/-- A receiver with the configuration of the sender decodes its payloads. -/
theorem decode_payload (hs : c.Serves cfg) (hr : receiver.Serves cfg) (hlen : 4 ≤ message.length)
    (hzero : slice message 1 4 = [0, 0, 0]) :
    ∃ buf, decode (c.payload message) receiver.config.key receiver.obfuscateBytes =
        .ok (some message.length, buf) ∧ message.length ≤ buf.length ∧
      buf.take message.length = message := by
  obtain ⟨b₀, rest, rfl⟩ := message_shape hlen hzero
  have hdecode := Draws.decode_payload hs.keyFits
    (draws_r_ne_zero (Prod.mk.eta.symm : c.draw (b₀ :: 0 :: 0 :: 0 :: rest) = _)) (c.draw_tail _)
    c.obfuscateBytes b₀ rest
  rw [Draws.length_payload, draw_tail] at hdecode
  rw [hr.config, ← hs.config, hr.obfuscateBytes, ← hs.obfuscateBytes]
  exact ⟨_, hdecode, by simp, by simp⟩

/-! ### STUN -/

theorem readU16_at (before : Bytes) {after datagram : Bytes} {i x : Nat} (hi : before.length = i)
    (hdatagram : datagram = before ++ (beBytes 2 x ++ after)) (hx : x < 256 ^ 2) :
    readU16 datagram i = .ok x := by
  subst hdatagram
  have hfield : slice (before ++ (beBytes 2 x ++ after)) i (i + 2) = beBytes 2 x :=
    slice_append hi (by simp)
  rw [readU16, sliceRange_eq_ok (by omega)
    (by simp only [List.length_append, length_beBytes]; omega),
    ok_bind, hfield, beNat_beBytes, Nat.mod_eq_of_lt hx]
  rfl

theorem length_dataHeader (txid : ByteArr 12) (n : Nat) : (dataHeader txid n).length = 24 := by
  simp [dataHeader]

theorem handleStun_data (txid : ByteArr 12) {payload : Bytes} (hlen : payload.length ≤ 65535)
    (source : SocketAddr) :
    handleStun (dataHeader txid payload.length ++ payload) source = .ok (.data payload.length) := by
  have hshape : dataHeader txid payload.length ++ payload = beBytes 2 stunDataIndication ++
      (beBytes 2 0 ++ (stunCookie ++ (txid.toList ++
        (beBytes 2 stunAttrData ++ (beBytes 2 payload.length ++ payload))))) := by
    simp only [dataHeader, stunHeader, List.append_assoc]
  have hshape' : dataHeader txid payload.length ++ payload = stunHeader stunDataIndication 0 txid ++
      (beBytes 2 stunAttrData ++ (beBytes 2 payload.length ++ payload)) := by
    simp only [dataHeader, List.append_assoc]
  have hkind : readU16 (dataHeader txid payload.length ++ payload) 0 = .ok stunDataIndication :=
    readU16_at [] List.length_nil hshape (by decide)
  have hmsgLen : readU16 (dataHeader txid payload.length ++ payload) 2 = .ok 0 :=
    readU16_at _ (length_beBytes 2 stunDataIndication) hshape (by decide)
  have hattr : readU16 (dataHeader txid payload.length ++ payload) 20 = .ok stunAttrData :=
    readU16_at _ (length_stunHeader stunDataIndication 0 txid) hshape' (by decide)
  have hdataLen : readU16 (dataHeader txid payload.length ++ payload) 22 = .ok payload.length :=
    readU16_at (stunHeader stunDataIndication 0 txid ++ beBytes 2 stunAttrData) (by simp)
      (hshape'.trans (List.append_assoc _ _ _).symm) (by omega)
  have hn : (dataHeader txid payload.length ++ payload).length = 24 + payload.length := by
    rw [List.length_append, length_dataHeader]
  have hfits : ¬ (24 + payload.length < 0 + stunHeaderLen ∨ stunAttrData ≠ stunAttrData ∨
      24 + payload.length < payload.length + stunDataHeaderLen) := by
    simp only [stunHeaderLen, stunDataHeaderLen]
    omega
  have hlong : ¬ 24 + payload.length < stunDataHeaderLen := by
    simp only [stunDataHeaderLen]
    omega
  have hother : stunDataIndication ≠ stunBindingRequest := by decide
  simp only [handleStun, hkind, ok_bind, if_neg hother, if_true, hn, if_neg hlong, hmsgLen, hattr,
    hdataLen, if_neg hfits]
  rfl

theorem hasStunCookie_dataHeader (txid : ByteArr 12) (payload : Bytes) (n : Nat) :
    hasStunCookie (dataHeader txid n ++ payload) = true := by
  have hcookie : slice (dataHeader txid n ++ payload) 4 8 = stunCookie := by
    have hshape : dataHeader txid n ++ payload = (beBytes 2 stunDataIndication ++ beBytes 2 0) ++
        (stunCookie ++ (txid.toList ++ (beBytes 2 stunAttrData ++ (beBytes 2 n ++ payload)))) := by
      simp only [dataHeader, stunHeader, List.append_assoc]
    rw [hshape]
    exact slice_append (by simp) rfl
  rw [hasStunCookie, hcookie, List.length_append, length_dataHeader]
  simp
  omega

/-! ### RTP -/

/-- The timestamp that is the STUN cookie. -/
def cookieTimestamp : UInt32 := 0x2112A442

theorem beBytes_four_inj {a b : UInt32} : beBytes 4 a.toNat = beBytes 4 b.toNat ↔ a = b := by
  constructor
  · intro h
    have hread := congrArg beNat h
    rw [beNat_beBytes, beNat_beBytes] at hread
    have ha := a.toNat_lt
    have hb := b.toNat_lt
    exact UInt32.toNat_inj.mp (by omega)
  · rintro rfl
    rfl

theorem hasStunCookie_rtp (s : RtpStream) (payload : Bytes) :
    hasStunCookie (s.header ++ payload) = true ↔ s.timestamp = cookieTimestamp := by
  have hcookie : slice (s.header ++ payload) 4 8 = beBytes 4 s.timestamp.toNat := by
    have hshape : s.header ++ payload = ([0x80, 0x80 ||| (s.payloadType &&& 0x7F)] ++
        beBytes 2 s.sequence.toNat) ++ (beBytes 4 s.timestamp.toNat ++
          (beBytes 4 s.ssrc.toNat ++ payload)) := by
      simp only [RtpStream.header, List.append_assoc]
    rw [hshape]
    exact slice_append (by simp) (by simp)
  have hlong : 8 ≤ (s.header ++ payload).length := by
    rw [List.length_append, length_rtpHeader]
    omega
  have hvalue : stunCookie = beBytes 4 cookieTimestamp.toNat := by decide
  rw [hasStunCookie, hcookie, hvalue, Bool.and_eq_true, decide_eq_true_eq, beq_iff_eq,
    beBytes_four_inj]
  exact and_iff_right hlong

/-- A frame whose timestamp is the cookie is taken for control traffic of no known kind. -/
theorem handleStun_rtp (s : RtpStream) (payload : Bytes) (source : SocketAddr) :
    handleStun (s.header ++ payload) source = .ok .drop := by
  have hkind : readU16 (s.header ++ payload) 0 =
      .ok (beNat [0x80, 0x80 ||| (s.payloadType &&& 0x7F)]) := by
    rw [readU16, sliceRange_eq_ok (by omega) (by rw [List.length_append, length_rtpHeader]; omega)]
    rfl
  have hlarge : 0x8000 ≤ beNat [0x80, 0x80 ||| (s.payloadType &&& 0x7F)] := by
    change 0x8000 ≤ (0x80 ||| (s.payloadType &&& 0x7F)).toNat + 256 * (128 + 256 * 0)
    omega
  have hrequest : beNat [0x80, 0x80 ||| (s.payloadType &&& 0x7F)] ≠ stunBindingRequest := by
    simp only [stunBindingRequest]
    omega
  have hdata : beNat [0x80, 0x80 ||| (s.payloadType &&& 0x7F)] ≠ stunDataIndication := by
    simp only [stunDataIndication]
    omega
  simp only [handleStun, hkind, ok_bind, if_neg hrequest, if_neg hdata]
  rfl

/-- The payload type survives the marker bit. -/
theorem marked_payloadType {pt : UInt8} (h : ¬ 127 < pt) :
    (0x80 ||| (pt &&& 0x7F)) &&& 0x7F = pt := by
  rw [UInt8.lt_iff_toNat_lt, Nat.not_lt] at h
  have hle : pt.toNat ≤ 127 := h
  apply UInt8.toNat_inj.mp
  rw [UInt8.toNat_and, UInt8.toNat_or, UInt8.toNat_and]
  change (128 ||| (pt.toNat &&& (2 ^ 7 - 1))) &&& (2 ^ 7 - 1) = _
  rw [Nat.and_two_pow_sub_one_eq_mod, Nat.and_two_pow_sub_one_eq_mod,
    Nat.or_mod_two_pow, Nat.mod_mod,
    Nat.mod_eq_of_lt (show pt.toNat < 2 ^ 7 by omega)]
  exact Nat.zero_or _

/-- A frame is found where its timestamp is not the cookie. -/
theorem locate_rtp (hr : receiver.Serves cfg) (hmasking : cfg.masking = .media)
    (hs : s.Follows cfg.media) (htimestamp : s.timestamp ≠ cookieTimestamp) {payload : Bytes}
    (hlen : 4 ≤ payload.length) (source : SocketAddr) :
    receiver.locate (s.header ++ payload) source =
      .ok (.inr (s.header.length, payload.length)) := by
  have hcookie : ¬ hasStunCookie (s.header ++ payload) = true :=
    fun h => htimestamp ((hasStunCookie_rtp s payload).mp h)
  have hn : (s.header ++ payload).length = 12 + payload.length := by
    rw [List.length_append, length_rtpHeader]
  have hlong : ¬ 12 + payload.length < rtpHeaderLen + 4 := by
    simp only [rtpHeaderLen]
    omega
  have hssrc : sliceRange (s.header ++ payload) 8 12 = .ok (beBytes 4 s.ssrc.toNat) := by
    rw [sliceRange_eq_ok (by omega) (by omega)]
    have hshape : s.header ++ payload = ([0x80, 0x80 ||| (s.payloadType &&& 0x7F)] ++
        (beBytes 2 s.sequence.toNat ++ beBytes 4 s.timestamp.toNat)) ++
          (beBytes 4 s.ssrc.toNat ++ payload) := by
      simp only [RtpStream.header, List.append_assoc]
    rw [hshape]
    exact congrArg Except.ok (slice_append (by simp) (by simp))
  have hfirst : byteAt (s.header ++ payload) 0 = .ok 0x80 := rfl
  have hsecond : byteAt (s.header ++ payload) 1 = .ok (0x80 ||| (s.payloadType &&& 0x7F)) := rfl
  have hversion : (0x80 : UInt8) &&& 0xC0 = 0x80 := by decide
  have haccepted : ¬ ((0x80 : UInt8) &&& 0xC0 ≠ 0x80 ∨
      (cfg.media.payloadType ≠ 0 ∧
        (0x80 ||| (s.payloadType &&& 0x7F)) &&& 0x7F ≠ cfg.media.payloadType) ∨
      (cfg.media.ssrc ≠ 0 ∧ beBytes 4 s.ssrc.toNat ≠ beBytes 4 cfg.media.ssrc.toNat)) := by
    rintro (h | ⟨hset, h⟩ | ⟨hset, h⟩)
    · exact h hversion
    · rw [hs.payloadType hset] at h
      exact h (marked_payloadType hr.payloadType_le)
    · rw [hs.ssrc hset] at h
      exact h rfl
  have hrest : 12 + payload.length - rtpHeaderLen = payload.length := Nat.add_sub_cancel_left _ _
  simp only [locate, hr.config, hmasking, if_neg hcookie, hn, if_neg hlong, hfirst, hsecond, hssrc,
    ok_bind, if_neg haccepted, length_rtpHeader, hrest]
  rfl

/-! ## Which messages arrive -/

/-- A message that is not taken for something else on its way: without a frame, its payload does
not look plain, and in an RTP frame the timestamp is not the cookie. -/
def Arrives (c : PhobosCodec ρ) (message : Bytes) : Prop :=
  match c.config.masking with
  | .none => ¬ (c.draw message).1.PlainUnder (message.headD 0) (c.mask message)
  | .stun => True
  | .media => c.frameTimestamp message ≠ cookieTimestamp

/-- The sender wraps the message, and the receiver takes it out again. -/
def RoundTrips (sender : PhobosCodec ρ) (receiver : PhobosCodec ρ') (source : SocketAddr)
    (message : Bytes) : Prop :=
  ∃ request datagram sender', sender.wrap message = .ok (.ok (request, datagram), sender') ∧
    ∃ offset buffer, receiver.unwrap datagram source = .ok (.wireGuard offset message, buffer)

omit [RandomSource ρ] in
theorem unwrap_plain (h : looksPlain datagram = true) :
    receiver.unwrap datagram source = .ok (.drop, datagram) := by
  simp only [unwrap, h, or_true, if_true]
  rfl

omit [RandomSource ρ] in
theorem unwrap_dropped (h : receiver.locate datagram source = .ok (.inl .drop)) :
    receiver.unwrap datagram source = .ok (.drop, datagram) := by
  simp only [unwrap, h, ok_bind]
  split_ifs <;> rfl

/-- What becomes of a message is read off the datagram it was wrapped in. -/
theorem roundTrips_iff (hwrap : sender.wrap message = .ok (.ok (request, datagram), sender')) :
    sender.RoundTrips receiver source message ↔
      ∃ offset buffer, receiver.unwrap datagram source =
        .ok (.wireGuard offset message, buffer) := by
  constructor
  · rintro ⟨request', datagram', sender'', hwrap', hunwrap⟩
    rw [hwrap] at hwrap'
    cases hwrap'
    exact hunwrap
  · intro hunwrap
    exact ⟨request, datagram, sender', hwrap, hunwrap⟩

theorem not_roundTrips (hwrap : sender.wrap message = .ok (.ok (request, datagram), sender'))
    (hdrop : receiver.unwrap datagram source = .ok (.drop, datagram)) :
    ¬ sender.RoundTrips receiver source message := by
  rw [roundTrips_iff hwrap, hdrop]
  rintro ⟨offset, buffer, h⟩
  cases h

/-- A message whose payload is found arrives. -/
theorem roundTrips_of_locate {header : Bytes} (hs : sender.Serves cfg) (hr : receiver.Serves cfg)
    (hlen : 4 ≤ message.length) (hzero : slice message 1 4 = [0, 0, 0])
    (hwrap : sender.wrap message =
      .ok (.ok (request, header ++ sender.payload message), sender'))
    (hplain : looksPlain (header ++ sender.payload message) = false)
    (hlocate : receiver.locate (header ++ sender.payload message) source =
      .ok (.inr (header.length, (sender.payload message).length))) :
    sender.RoundTrips receiver source message := by
  obtain ⟨buf, hdecode, hroom, hbuf⟩ := decode_payload hs hr hlen hzero
  have hpayload : 4 ≤ (sender.payload message).length := by
    rw [length_payload hlen]
    omega
  have hunwrap := unwrap_located hplain hpayload hlocate hdecode hroom
  rw [hbuf] at hunwrap
  exact (roundTrips_iff hwrap).mpr ⟨_, _, hunwrap⟩

/-- **Which messages arrive.**  For two codecs of one configuration, every draw and every state of
the stream, a WireGuard message is wrapped, and the receiver takes it out of the datagram exactly
if `Arrives` holds of it. -/
theorem datagram_roundtrip_iff {sender : PhobosCodec ρ} (hs : sender.Serves cfg)
    (hr : receiver.Serves cfg) (source : SocketAddr) (hmessage : looksPlain message = true)
    (hmax : cfg.masking = .stun → message.length ≤ 65535) :
    sender.RoundTrips receiver source message ↔ sender.Arrives message := by
  obtain ⟨hlen, hzero⟩ := looksPlain_shape hmessage
  obtain ⟨request, hwrap⟩ := wrap_eq hs hlen (by rwa [hs.config])
  have hserves := hs.withRng (sender.draw message).2
  unfold Arrives
  cases hmasking : sender.config.masking with
  | none =>
    have hframe : frame { sender with rng := (sender.draw message).2 } (List.replicate
        sender.config.masking.overhead 0 ++ sender.payload message) =
          .ok ([] ++ sender.payload message, { sender with rng := (sender.draw message).2 }) := by
      simp only [frame, hmasking]
      rfl
    rw [hframe, ok_bind] at hwrap
    simp only
    rw [← Draws.looksPlain_masked _ _ (message.drop 4) _, ← payload]
    constructor
    · intro htrips hplain
      exact not_roundTrips hwrap (unwrap_plain hplain) htrips
    · intro hplain
      refine roundTrips_of_locate hs hr hlen hzero hwrap (Bool.not_eq_true _ ▸ hplain) ?_
      have hreceiver : receiver.config.masking = .none := by rw [hr.config, ← hs.config, hmasking]
      simp only [locate, hreceiver]
      rfl
  | stun =>
    obtain ⟨txid, sender', hframe⟩ :=
      frame_stun (c := { sender with rng := (sender.draw message).2 })
      hmasking (sender.payload message)
    rw [hmasking] at hwrap
    rw [Masking.overhead, hframe, ok_bind] at hwrap
    refine iff_of_true (roundTrips_of_locate hs hr hlen hzero hwrap rfl ?_) trivial
    have hreceiver : receiver.config.masking = .stun := by rw [hr.config, ← hs.config, hmasking]
    have hsmall := length_payload_lt (c := sender) hlen (hmax (by rw [← hs.config, hmasking]))
    simp only [locate, hreceiver, hasStunCookie_dataHeader, if_true, handleStun_data txid hsmall,
      ok_bind, length_dataHeader]
    rfl
  | media =>
    have hmedia : cfg.masking = .media := by rw [← hs.config, hmasking]
    obtain ⟨s, sender', hframe, hfollows, htimestamp⟩ := frame_media hserves hmasking
      (sender.payload message)
    rw [hmasking] at hwrap
    rw [Masking.overhead, hframe, ok_bind] at hwrap
    have hsame : s.timestamp = sender.frameTimestamp message := htimestamp
    simp only
    rw [← hsame]
    constructor
    · intro htrips hcookie
      refine not_roundTrips hwrap (unwrap_dropped ?_) htrips
      have hreceiver : receiver.config.masking = .media := by rw [hr.config, hmedia]
      simp only [locate, hreceiver, (hasStunCookie_rtp s _).mpr hcookie, if_true,
        handleStun_rtp, ok_bind]
      rfl
    · intro hother
      refine roundTrips_of_locate hs hr hlen hzero hwrap rfl
        (locate_rtp hr hmedia hfollows hother ?_ _)
      rw [length_payload hlen]
      omega

/-- A codec with STUN frames. -/
def indicating : PhobosCodec StillMachine where
  config := { key := [7, 8, 9], masking := .stun }
  obfuscateBytes := 0
  rng := {}
  rtp := none

/-- A keepalive of WireGuard: a transport message without content. -/
def keepalive : Bytes := 4 :: List.replicate 31 0

/-- A keepalive arrives in a STUN frame. -/
theorem datagram_roundtrip_iff_stun :
    withRng indicating.config ({} : StillMachine) = .ok indicating ∧
      indicating.RoundTrips indicating (.v4 0 0) keepalive := by
  have hbuilt : withRng indicating.config ({} : StillMachine) = .ok indicating := rfl
  have hserves := withRng_serves hbuilt
  exact ⟨hbuilt, (datagram_roundtrip_iff hserves hserves _ rfl (fun _ => by decide)).mpr trivial⟩

/-- A codec without a frame. -/
def unframed : PhobosCodec StillMachine where
  config := { key := [245, 244, 221, 220] }
  obfuscateBytes := 0
  rng := {}
  rtp := none

/-- One with RTP frames, whose clock has come to the cookie. -/
def streaming : PhobosCodec StillMachine where
  config := { key := [7], masking := .media }
  obfuscateBytes := 16
  rng := {}
  rtp := some ⟨9, cookieTimestamp, 5, 3000, 96⟩

theorem streaming_serves : streaming.Serves streaming.config := by
  refine ⟨rfl, rfl, rfl, ?_⟩
  intro s hs
  cases hs
  exact ⟨by simp [streaming], by simp [streaming]⟩

/-- A test for a codec that drops what it has wrapped itself. -/
def dropsOwn (c : PhobosCodec ρ) (message : Bytes) : Bool :=
  Outcome.test (c.wrap message) fun made =>
    match made.1 with
    | .ok (_, datagram) => Outcome.test (c.unwrap datagram (.v4 0 0)) (fun r => r.1 == .drop)
    | .error _ => false

theorem dropsOwn_spec (h : dropsOwn c message = true) :
    ∃ request datagram c', c.wrap message = .ok (.ok (request, datagram), c') ∧
      ∃ buffer, c.unwrap datagram (.v4 0 0) = .ok (.drop, buffer) := by
  obtain ⟨⟨wrapped, c'⟩, hwrap, h⟩ := Outcome.test_eq_true_iff.mp h
  cases wrapped with
  | error err => cases h
  | ok made =>
    obtain ⟨⟨result, buffer⟩, hunwrap, h⟩ := Outcome.test_eq_true_iff.mp h
    rw [beq_iff_eq] at h
    cases h
    exact ⟨_, _, _, hwrap, buffer, hunwrap⟩

/-- **Messages that do not arrive.**  The mask of this key gives a keepalive its plain type field,
and a receiver drops it; a frame with this timestamp is dropped as control traffic. -/
theorem encoded_message_dropped :
    (withRng unframed.config ({} : StillMachine) = .ok unframed ∧
        ∃ request datagram c', unframed.wrap keepalive = .ok (.ok (request, datagram), c') ∧
          ∃ buffer, unframed.unwrap datagram (.v4 0 0) = .ok (.drop, buffer)) ∧
      streaming.Serves streaming.config ∧
        ∃ request datagram c', streaming.wrap keepalive = .ok (.ok (request, datagram), c') ∧
          ∃ buffer, streaming.unwrap datagram (.v4 0 0) = .ok (.drop, buffer) :=
  ⟨⟨rfl, dropsOwn_spec (by decide +kernel)⟩, streaming_serves, dropsOwn_spec (by decide +kernel)⟩

end PhobosCodec

end Phobos
