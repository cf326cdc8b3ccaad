import AwgTun.Amnezia.Config
import AwgTun.Lib.NetAddr
import AwgTun.Phobos.Payload

/-!
# Phobos datagrams

The rest of `phobos/mod.rs`: the configuration of a client, the STUN and RTP frames around a
payload, and the codec that puts datagrams into them and takes them out again.

* `PhobosConfig.validate`, `PhobosCodec.withRng` — a codec and its settings.
* `PhobosCodec.wrap`, `PhobosCodec.unwrap` — the two directions.
-/

open Control Bytes

namespace Phobos

/-! ## Configuration -/

/-- The cover protocol of a datagram. -/
inductive Masking
  | none
  | stun
  | media
  deriving DecidableEq, Repr

/-- `STUN_HEADER_LEN`. -/
def stunHeaderLen : Nat := 20

/-- `STUN_DATA_HEADER_LEN`. -/
def stunDataHeaderLen : Nat := 24

/-- `RTP_HEADER_LEN`. -/
def rtpHeaderLen : Nat := 12

namespace Masking

/-- `Masking::overhead`. -/
def overhead : Masking → Nat
  | none => 0
  | stun => stunDataHeaderLen
  | media => rtpHeaderLen

/-- `Masking::control_interval`. -/
def controlInterval : Masking → Option Duration
  | none => Option.none
  | stun => some (Duration.fromSecs 10)
  | media => some (Duration.fromSecs 5)

/-- `Masking::max_message_len`. -/
def maxMessageLen : Masking → Option Nat
  | stun => some 65535
  | none | media => Option.none

end Masking

/-- The parameters of an RTP stream; zero means that one is drawn. -/
structure MediaParams where
  payloadType : UInt8 := 0
  ssrc : UInt32 := 0
  timestampStep : UInt16 := 0
  deriving DecidableEq, Repr

/-- The configuration of a client. -/
structure PhobosConfig where
  key : Bytes
  masking : Masking := .none
  maxDummy : UInt16 := 4
  obfuscateBytes : UInt32 := 0
  media : MediaParams := {}
  deriving DecidableEq, Repr

/-- `validate_key`. -/
def validateKey (key : Bytes) : Except ConfigError Unit :=
  if key = [] then .error (.invalidFieldValue "key".toList "must not be empty")
  else if maxKeyLen < key.length then
    .error (.invalidFieldValue "key".toList "must be at most 255 bytes")
  else .ok ()

namespace PhobosConfig

/-- `PhobosConfig::new`. -/
def new (key : Bytes) : Except ConfigError PhobosConfig := do
  validateKey key
  return { key := key }

/-- `PhobosConfig::validate`. -/
def validate (c : PhobosConfig) : Except ConfigError Unit := do
  validateKey c.key
  if dummyLimit < c.maxDummy.toNat then
    throw (.invalidFieldValue "max-dummy".toList "must be between 0 and 1024")
  if 2147483647 < c.obfuscateBytes then
    throw (.invalidFieldValue "obfuscate-bytes".toList "must be between 0 and 2147483647")
  if 127 < c.media.payloadType then
    throw (.invalidFieldValue "media-pt".toList "must be between 0 and 127")

/-- `PhobosConfig::effective_obfuscate_bytes`. -/
def effectiveObfuscateBytes (c : PhobosConfig) : UInt32 :=
  if c.obfuscateBytes = 0 ∧ c.masking = .media then 16 else c.obfuscateBytes

end PhobosConfig

/-! ## STUN -/

/-- `STUN_COOKIE`. -/
def stunCookie : Bytes := [0x21, 0x12, 0xA4, 0x42]

/-- `STUN_BINDING_REQUEST`. -/
def stunBindingRequest : Nat := 0x0001

/-- `STUN_BINDING_SUCCESS`. -/
def stunBindingSuccess : Nat := 0x0101

/-- `STUN_DATA_INDICATION`. -/
def stunDataIndication : Nat := 0x0115

/-- `STUN_ATTR_DATA`. -/
def stunAttrData : Nat := 0x0013

/-- `STUN_ATTR_XOR_MAPPED_ADDRESS`. -/
def stunAttrXorMappedAddress : Nat := 0x0020

/-- `STUN_ATTR_FINGERPRINT`. -/
def stunAttrFingerprint : Nat := 0x8028

/-- `STUN_FINGERPRINT_XOR`. -/
def stunFingerprintXor : UInt32 := 0x5354554E

/-- One round of the loop that computes an entry of `CRC32`. -/
def crc32Bit (crc : UInt32) : UInt32 :=
  if crc &&& 1 ≠ 0 then (crc >>> 1) ^^^ 0xEDB88320 else crc >>> 1

/-- `CRC32[i]`. -/
def crc32Table (i : UInt8) : UInt32 := crc32Bit^[8] i.toUInt32

/-- `crc32`. -/
def crc32 (data : Bytes) : UInt32 :=
  ~~~ data.foldl (fun crc b => crc32Table (crc ^^^ b.toUInt32).toUInt8 ^^^ (crc >>> 8)) 0xFFFFFFFF

/-- The 20 bytes of a STUN header. -/
def stunHeader (msgType msgLen : Nat) (txid : ByteArr 12) : Bytes :=
  beBytes 2 msgType ++ (beBytes 2 msgLen ++ (stunCookie ++ txid.toList))

/-- `write_stun_header`. -/
def writeStunHeader (out : Bytes) (msgType msgLen : Nat) (txid : ByteArr 12) : Outcome Bytes :=
  copyAt out 0 (stunHeader msgType msgLen txid)

/-- `finish_with_fingerprint`: the checksum is taken while the message length is still zero. -/
def finishWithFingerprint (packet : Bytes) (pos : Nat) : Outcome Bytes := do
  let packet ← copyAt packet 2 [0, 0]
  let fp := crc32 (← sliceTo packet pos) ^^^ stunFingerprintXor
  let packet ← copyAt packet pos (beBytes 2 stunAttrFingerprint)
  let packet ← copyAt packet (pos + 2) (beBytes 2 4)
  let packet ← copyAt packet (pos + 4) (beBytes 4 fp.toNat)
  copyAt packet 2 (beBytes 2 (pos + 8 - stunHeaderLen))

/-- `build_binding_request`. -/
def buildBindingRequest (txid : ByteArr 12) : Outcome Bytes := do
  let out ← writeStunHeader (List.replicate 28 0) stunBindingRequest 0 txid
  finishWithFingerprint out stunHeaderLen

/-- `Ipv6Addr::to_ipv4_mapped`. -/
def toIpv4Mapped (ip : BitVec 128) : Option (BitVec 32) :=
  if ip >>> 32 = 0xFFFF then some (ip.setWidth 32) else none

/-- The address a Binding Success reports, and its port. -/
def mappedAddress : SocketAddr → Option (BitVec 32 × UInt16)
  | .v4 ip port => some (ip, port)
  | .v6 ip port _ _ => (toIpv4Mapped ip).map (·, port)

/-- `build_binding_success`. -/
def buildBindingSuccess (txid : ByteArr 12) (source : SocketAddr) : Outcome (Option Bytes) := do
  match mappedAddress source with
  | none => return none
  | some (ip, port) =>
    let out ← writeStunHeader (List.replicate 40 0) stunBindingSuccess 0 txid
    let out ← copyAt out 20 (beBytes 2 stunAttrXorMappedAddress)
    let out ← copyAt out 22 (beBytes 2 8)
    let out ← copyAt out 24 [0, 1]
    let out ← copyAt out 26 (xorBytes (beBytes 2 port.toNat) stunCookie)
    let out ← copyAt out 28 (xorBytes (beBytes 4 ip.toNat) stunCookie)
    let out ← finishWithFingerprint out 32
    return some out

/-- `StunOutcome`. -/
inductive StunOutcome
  /-- The payload is `datagram[24..24 + len]`. -/
  | data (len : Nat)
  | reply (packet : Bytes)
  | drop

/-- `u16::from_be_bytes([datagram[i], datagram[i + 1]])`. -/
def readU16 (datagram : Bytes) (i : Nat) : Outcome Nat := do
  return beNat (← sliceRange datagram i (i + 2))

/-- `handle_stun`. -/
def handleStun (datagram : Bytes) (source : SocketAddr) : Outcome StunOutcome := do
  let n := datagram.length
  let kind ← readU16 datagram 0
  if kind = stunBindingRequest then
    if n < stunHeaderLen then
      return .drop
    let txid ← sliceRange datagram 8 20
    match ← buildBindingSuccess (toArr 12 txid) source with
    | some reply => return .reply reply
    | none => return .drop
  else if kind = stunDataIndication then
    if n < stunDataHeaderLen then
      return .drop
    let msgLen ← readU16 datagram 2
    let attr ← readU16 datagram 20
    let dataLen ← readU16 datagram 22
    if n < msgLen + stunHeaderLen ∨ attr ≠ stunAttrData ∨ n < dataLen + stunDataHeaderLen then
      return .drop
    return .data dataLen
  -- Binding Success and anything else carry nothing for WireGuard
  else return .drop

/-- `has_stun_cookie`. -/
def hasStunCookie (datagram : Bytes) : Bool :=
  decide (8 ≤ datagram.length) && slice datagram 4 8 == stunCookie

/-! ## RTP -/

/-- `MEDIA_PRESETS`: payload types and timestamp steps to draw from. -/
def mediaPresets : List (UInt8 × UInt16) :=
  [(96, 3000), (96, 3600), (96, 3750), (96, 1500), (96, 6000), (97, 3000), (97, 3600), (97, 4500),
    (97, 9000), (97, 18000), (98, 3000), (98, 3600), (98, 3750), (98, 1500), (98, 6000), (99, 3000),
    (99, 3600), (100, 3000), (100, 1500), (100, 3750), (102, 3000), (102, 1500), (102, 3600),
    (104, 3000), (104, 1500), (106, 3000), (106, 3750), (108, 3000), (108, 1500), (110, 3000),
    (112, 3000), (112, 3600), (114, 3000), (114, 1500), (116, 3000), (118, 3000), (119, 3000),
    (120, 3000), (122, 3000), (123, 3000), (124, 3000), (125, 3000), (125, 1500), (126, 3000),
    (127, 3000), (127, 1500), (127, 3750), (96, 1502), (96, 3003), (97, 3753)]

/-- `RtpStream`. -/
structure RtpStream where
  sequence : UInt16
  timestamp : UInt32
  ssrc : UInt32
  timestampStep : UInt16
  payloadType : UInt8
  deriving DecidableEq, Repr

namespace RtpStream

/-- `RtpStream::new`. -/
def new {ρ : Type} [RandomSource ρ] (params : MediaParams) (rng : ρ) : Outcome (RtpStream × ρ) := do
  let (sequence, rng) := genRangeU16 rng 0 65535
  let (timestamp, rng) := genRangeU32 rng 0 4294967295
  let (ssrc, rng) := if params.ssrc ≠ 0 then (params.ssrc, rng) else genRangeU32 rng 1 4294967295
  let (index, rng) := genRangeU32 rng 0 (UInt32.ofNat mediaPresets.length - 1)
  match mediaPresets[index.toNat]? with
  | none => .panic "index out of bounds"
  | some (presetPt, presetStep) =>
    return ({ sequence, timestamp, ssrc
              timestampStep := if params.timestampStep ≠ 0 then params.timestampStep else presetStep
              payloadType := if params.payloadType ≠ 0 then params.payloadType else presetPt }, rng)

/-- The 12 bytes of an RTP header. -/
def header (s : RtpStream) : Bytes :=
  [0x80, 0x80 ||| (s.payloadType &&& 0x7F)] ++ (beBytes 2 s.sequence.toNat ++
    (beBytes 4 s.timestamp.toNat ++ beBytes 4 s.ssrc.toNat))

/-- The stream at its next frame. -/
def next (s : RtpStream) : RtpStream :=
  { s with sequence := s.sequence + 1, timestamp := s.timestamp + s.timestampStep.toUInt32 }

/-- `RtpStream::write_header`. -/
def writeHeader (s : RtpStream) (out : Bytes) : Outcome (Bytes × RtpStream) := do
  return (← copyAt out 0 s.header, s.next)

end RtpStream

/-! ## The codec -/

/-- `WrapError`. -/
inductive WrapError
  | tooShort
  | tooLong
  deriving DecidableEq, Repr

/-- What `unwrap` found in a datagram. -/
inductive Unwrapped
  /-- A WireGuard message: where it begins in the buffer, and what it is. -/
  | wireGuard (offset : Nat) (message : Bytes)
  | reply (packet : Bytes)
  | drop
  deriving DecidableEq, Repr

/-- `PhobosCodec`. -/
structure PhobosCodec (ρ : Type) where
  config : PhobosConfig
  obfuscateBytes : UInt32
  rng : ρ
  rtp : Option RtpStream

namespace PhobosCodec

variable {ρ : Type} [RandomSource ρ]

/-- `PhobosCodec::with_rng`. -/
def withRng (config : PhobosConfig) (rng : ρ) : Except ConfigError (PhobosCodec ρ) := do
  config.validate
  return { config, obfuscateBytes := config.effectiveObfuscateBytes, rng, rtp := none }

/-- `PhobosCodec::binding_request`. -/
def bindingRequest (c : PhobosCodec ρ) : Outcome (Bytes × PhobosCodec ρ) := do
  let (txid, rng) := RandomSource.fillBytes c.rng 12
  return (← buildBindingRequest txid, { c with rng })

/-- The Binding Request that goes before an initiation. -/
def preamble (c : PhobosCodec ρ) (datagram : Bytes) : Outcome (Option Bytes × PhobosCodec ρ) := do
  if u32OfLe (datagram.take 4) = 1 ∧ c.config.masking.controlInterval.isSome then
    let (request, c) ← c.bindingRequest
    return (some request, c)
  else return (none, c)

/-- The stream a frame is written with: `self.rtp.get_or_insert_with(..)`. -/
def stream (c : PhobosCodec ρ) : Outcome (RtpStream × ρ) :=
  match c.rtp with
  | some stream => .ok (stream, c.rng)
  | none => RtpStream.new c.config.media c.rng

/-- The frame of a payload that stands behind `overhead` zeros. -/
def frame (c : PhobosCodec ρ) (out : Bytes) : Outcome (Bytes × PhobosCodec ρ) := do
  match c.config.masking with
  | .none => return (out, c)
  | .stun =>
    let (txid, rng) := RandomSource.fillBytes c.rng 12
    let payloadLen := out.length - stunDataHeaderLen
    -- the message-length field stays 0, as the reference sends it
    let out ← writeStunHeader out stunDataIndication 0 txid
    let out ← copyAt out 20 (beBytes 2 stunAttrData)
    let out ← copyAt out 22 (beBytes 2 payloadLen)
    return (out, { c with rng })
  | .media =>
    let (stream, rng) ← c.stream
    let (out, stream) ← stream.writeHeader out
    return (out, { c with rng, rtp := some stream })

/-- `PhobosCodec::wrap`: the Binding Request to send first, if any, and the datagram. -/
def wrap (c : PhobosCodec ρ) (datagram : Bytes) :
    Outcome (Except WrapError (Option Bytes × Bytes) × PhobosCodec ρ) := do
  let masking := c.config.masking
  let header := masking.overhead
  if datagram.length < 4 then
    return (.error .tooShort, c)
  if masking.maxMessageLen.any (· < datagram.length) then
    return (.error .tooLong, c)
  let (preamble, c) ← c.preamble datagram
  let (out, rng) ← encode (List.replicate header 0 ++ datagram) header c.config.key
    c.config.maxDummy c.obfuscateBytes c.rng
  let (out, c) ← frame { c with rng } out
  return (.ok (preamble, out), c)

/-- Where the payload of a datagram is, or what becomes of a datagram that has none. -/
def locate (c : PhobosCodec ρ) (datagram : Bytes) (source : SocketAddr) :
    Outcome (Unwrapped ⊕ (Nat × Nat)) := do
  let n := datagram.length
  let stun : Outcome (Unwrapped ⊕ (Nat × Nat)) := do
    match ← handleStun datagram source with
    | .data len => return .inr (stunDataHeaderLen, len)
    | .reply packet => return .inl (.reply packet)
    | .drop => return .inl .drop
  match c.config.masking with
  | .none => return .inr (0, n)
  | .stun => if hasStunCookie datagram then stun else return .inl .drop
  | .media =>
    if hasStunCookie datagram then stun
    else
      let media := c.config.media
      if n < rtpHeaderLen + 4 then
        return .inl .drop
      let first ← byteAt datagram 0
      let second ← byteAt datagram 1
      let ssrc ← sliceRange datagram 8 12
      if first &&& 0xC0 ≠ 0x80 ∨
          (media.payloadType ≠ 0 ∧ second &&& 0x7F ≠ media.payloadType) ∨
          (media.ssrc ≠ 0 ∧ ssrc ≠ beBytes 4 media.ssrc.toNat) then
        return .inl .drop
      return .inr (rtpHeaderLen, n - rtpHeaderLen)

/-- `PhobosCodec::unwrap`: what a datagram is, and the buffer after it was decoded in place. -/
def unwrap (c : PhobosCodec ρ) (datagram : Bytes) (source : SocketAddr) :
    Outcome (Unwrapped × Bytes) := do
  -- a plain-looking datagram is taken for one that was never encoded
  if datagram.length < 4 ∨ looksPlain datagram then
    return (.drop, datagram)
  match ← c.locate datagram source with
  | .inl result => return (result, datagram)
  | .inr (offset, len) =>
    if len < 4 then
      return (.drop, datagram)
    let payload ← sliceRange datagram offset (offset + len)
    let (decoded, payload) ← decode payload c.config.key c.obfuscateBytes
    let buffer := overwrite datagram offset payload
    match decoded with
    | none => return (.drop, buffer)
    | some m => return (.wireGuard offset (← sliceTo payload m), buffer)

end PhobosCodec

end Phobos
