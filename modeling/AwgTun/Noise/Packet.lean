import AwgTun.Amnezia.Parse
import AwgTun.Lib.NetAddr

/-!
# Messages on the wire

The four WireGuard messages, the parser that tells them apart by type and size
(`parseIncomingPacketConfig`), and the classifier that finds the message inside an
AmneziaWG datagram (`PacketClassifier.classify`): how long the random prefix is,
how much of the message is masked, and where a random trailer starts.

Message fields of a fixed size are arrays of that size, so a message with a field
of the wrong length cannot be built.
-/

open Text Control Bytes

/-! ## Errors and results -/

/-- `WireGuardError`, the errors the tunnel reports. -/
inductive WireGuardError
  | destinationBufferTooSmall
  | incorrectPacketLength
  | unexpectedPacket
  | wrongPacketType
  | wrongIndex
  | wrongKey
  | invalidTai64nTimestamp
  | wrongTai64nTimestamp
  | invalidMac
  | invalidAeadTag
  | invalidCounter
  | duplicateCounter
  | invalidPacket
  | noCurrentSession
  | lockFailed
  | connectionExpired
  | underLoad
  deriving DecidableEq, Repr

/-- `TunnResult`: what a caller is asked to do. -/
inductive TunnResult
  | done
  | err (e : WireGuardError)
  | writeToNetwork (datagram : Bytes)
  | writeToTunnelV4 (packet : Bytes) (src : BitVec 32)
  | writeToTunnelV6 (packet : Bytes) (src : BitVec 128)
  deriving DecidableEq, Repr

/-- The datagram to send, if that is what is asked. -/
def TunnResult.toNetwork : TunnResult → Option Bytes
  | .writeToNetwork datagram => some datagram
  | _ => none

theorem TunnResult.toNetwork_eq_some {r : TunnResult} {datagram : Bytes} :
    r.toNetwork = some datagram ↔ r = .writeToNetwork datagram := by
  cases r <;> simp [toNetwork]

/-! ## Sizes -/

/-- `HANDSHAKE_INIT_SZ`. -/
abbrev handshakeInitSz : Nat := 148

/-- `HANDSHAKE_RESP_SZ`. -/
abbrev handshakeRespSz : Nat := 92

/-- `COOKIE_REPLY_SZ`. -/
abbrev cookieReplySz : Nat := 64

/-- `DATA_OVERHEAD_SZ`: transport header and AEAD tag. -/
abbrev dataOverheadSz : Nat := 32

/-- `TRANSPORT_HEADER_SZ`: type, receiver index and counter. -/
abbrev transportHeaderSz : Nat := 16

/-! ## Messages -/

/-- A handshake initiation, without its MACs. -/
structure HandshakeInit where
  senderIdx : UInt32
  unencryptedEphemeral : Key
  encryptedStatic : ByteArr 48
  encryptedTimestamp : ByteArr 28
  deriving DecidableEq

/-- A handshake response, without its MACs. -/
structure HandshakeResponse where
  senderIdx : UInt32
  receiverIdx : UInt32
  unencryptedEphemeral : Key
  encryptedNothing : ByteArr 16
  deriving DecidableEq

/-- A cookie reply. -/
structure PacketCookieReply where
  receiverIdx : UInt32
  nonce : ByteArr 24
  encryptedCookie : ByteArr 32
  deriving DecidableEq

/-- A transport packet. -/
structure PacketData where
  receiverIdx : UInt32
  counter : UInt64
  encryptedEncapsulatedPacket : Bytes
  deriving DecidableEq

/-- A packet from the network. -/
inductive Packet
  | handshakeInit (p : HandshakeInit)
  | handshakeResponse (p : HandshakeResponse)
  | packetCookieReply (p : PacketCookieReply)
  | packetData (p : PacketData)
  deriving DecidableEq

/-- `Tunn::parse_incoming_packet_config`. -/
def parseIncomingPacketConfig (src : Bytes) (headerConfig : HeaderConfig) :
    Except WireGuardError Packet :=
  if src.length < 4 then .error .invalidPacket
  else
    let packetType := u32OfLe (slice src 0 4)
    if headerConfig.init.contains packetType ∧ src.length = handshakeInitSz then
      .ok (.handshakeInit {
        senderIdx := u32OfLe (slice src 4 8)
        unencryptedEphemeral := toArr 32 (slice src 8 40)
        encryptedStatic := toArr 48 (slice src 40 88)
        encryptedTimestamp := toArr 28 (slice src 88 116) })
    else if headerConfig.response.contains packetType ∧ src.length = handshakeRespSz then
      .ok (.handshakeResponse {
        senderIdx := u32OfLe (slice src 4 8)
        receiverIdx := u32OfLe (slice src 8 12)
        unencryptedEphemeral := toArr 32 (slice src 12 44)
        encryptedNothing := toArr 16 (slice src 44 60) })
    else if headerConfig.cookie.contains packetType ∧ src.length = cookieReplySz then
      .ok (.packetCookieReply {
        receiverIdx := u32OfLe (slice src 4 8)
        nonce := toArr 24 (slice src 8 32)
        encryptedCookie := toArr 32 (slice src 32 64) })
    else if headerConfig.transport.contains packetType ∧ src.length ≥ dataOverheadSz then
      .ok (.packetData {
        receiverIdx := u32OfLe (slice src 4 8)
        counter := u64OfLe (slice src 8 16)
        encryptedEncapsulatedPacket := src.drop 16 })
    else .error .invalidPacket

/-! ## Messages parse back -/

section RoundTrip

variable {headers : HeaderConfig} {msgType index peerIndex : UInt32} {counter : UInt64}
  {ephemeral : Key}

/-- The fields of an initiation are found where they were written. -/
theorem parse_initiation {encryptedStatic encryptedTimestamp macs : Bytes}
    (htype : headers.init.contains msgType = true) (hstatic : encryptedStatic.length = 48)
    (hstamp : encryptedTimestamp.length = 28) (hmacs : macs.length = 32) :
    parseIncomingPacketConfig (u32ToLe msgType ++ (u32ToLe index ++ (ephemeral ++
      (encryptedStatic ++ (encryptedTimestamp ++ macs))))) headers =
      .ok (.handshakeInit ⟨index, ephemeral, toArr 48 encryptedStatic,
        toArr 28 encryptedTimestamp⟩) := by
  have hephemeral : (ephemeral : Bytes).length = 32 := ephemeral.toList_length
  simp [parseIncomingPacketConfig, slice_head, slice_skip, htype, hstatic, hstamp,
    hmacs, hephemeral]

/-- The fields of a response are found where they were written. -/
theorem parse_response {encryptedNothing macs : Bytes}
    (htype : headers.response.contains msgType = true) (hnothing : encryptedNothing.length = 16)
    (hmacs : macs.length = 32) :
    parseIncomingPacketConfig (u32ToLe msgType ++ (u32ToLe index ++ (u32ToLe peerIndex ++
      (ephemeral ++ (encryptedNothing ++ macs))))) headers =
      .ok (.handshakeResponse ⟨index, peerIndex, ephemeral, toArr 16 encryptedNothing⟩) := by
  have hephemeral : (ephemeral : Bytes).length = 32 := ephemeral.toList_length
  simp [parseIncomingPacketConfig, slice_head, slice_skip, htype, hnothing, hmacs, hephemeral]

/-- The fields of a transport packet are found where they were written, unless its
type is one of another kind. -/
theorem parse_transport {sealed : Bytes} (hdisjoint : headers.Disjoint)
    (htype : headers.transport.contains msgType = true) (hsealed : 16 ≤ sealed.length) :
    parseIncomingPacketConfig (u32ToLe msgType ++ (u32ToLe index ++ (u64ToLe counter ++ sealed)))
      headers = .ok (.packetData ⟨index, counter, sealed⟩) := by
  obtain ⟨hinit, hresponse, hcookie⟩ := hdisjoint.of_transport htype
  have hdrop :
      (u32ToLe msgType ++ (u32ToLe index ++ (u64ToLe counter ++ sealed))).drop 16 = sealed := by
    rw [← List.append_assoc (u32ToLe index), ← List.append_assoc]
    exact List.drop_left' (by simp)
  have hlen : 32 ≤ 4 + (4 + (8 + sealed.length)) := by omega
  simp [parseIncomingPacketConfig, slice_head, slice_skip, hinit, hresponse, hcookie, htype, hdrop,
    hlen]

end RoundTrip

/-! ## The classifier -/

/-- What the classifier found out about a datagram. -/
structure Classified where
  /-- Bytes of random prefix. -/
  padding : Nat
  /-- Bytes after the prefix that header protection covers. -/
  protectedLen : Nat
  /-- Keystream of this datagram, enough for a transport header. -/
  headerMask : Option Bytes
  /-- Size of the message, for the kinds that have a fixed one. -/
  msgSize : Option Nat
  deriving DecidableEq

/-- The configuration a classifier looks at. -/
structure PacketClassifier where
  paddings : PaddingConfig
  headers : HeaderConfig
  headerProtection : Option HeaderProtection
  randomTrailers : Bool

/-- One row of the classifier's table. -/
structure Candidate where
  padding : Nat
  headerRange : HeaderRange
  expectedSize : Nat
  exact : Bool

/-- Does a candidate match?  A fixed-size message is compared exactly unless
trailers are allowed; then its type must lie in the candidate's range. -/
def Candidate.classify (src : Bytes) (headerMask : Option Bytes) (randomTrailers : Bool)
    (c : Candidate) : Option Classified :=
  let sizeOk :=
    if c.exact && !randomTrailers then src.length == c.padding + c.expectedSize
    else decide (src.length ≥ c.padding + c.expectedSize)
  if sizeOk ∧ c.padding + 4 ≤ src.length then
    let typeBytes := slice src c.padding (c.padding + 4)
    let header := u32OfLe (xorBytes typeBytes (headerMask.getD []))
    if c.headerRange.contains header then
      some {
        padding := c.padding
        protectedLen := if c.exact then c.expectedSize else transportHeaderSz
        headerMask := headerMask
        msgSize := if c.exact then some c.expectedSize else none }
    else none
  else none

/-- Without trailers, a message of fixed size is not seen in a datagram of another
length. -/
theorem Candidate.classify_eq_none {src : Bytes} {padding size : Nat} (headerMask : Option Bytes)
    (range : HeaderRange) (hlen : src.length ≠ padding + size) :
    Candidate.classify src headerMask false ⟨padding, range, size, true⟩ = none := by
  simp [classify, hlen]

namespace PacketClassifier

variable (C : Crypto) (c : PacketClassifier)

/-- The candidates, in the order they are tried: transport comes first when
trailers relax the size tests of the others. -/
def checks : List Candidate :=
  let init : Candidate := ⟨c.paddings.s1.toNat, c.headers.init, handshakeInitSz, true⟩
  let response : Candidate := ⟨c.paddings.s2.toNat, c.headers.response, handshakeRespSz, true⟩
  let cookie : Candidate := ⟨c.paddings.s3.toNat, c.headers.cookie, cookieReplySz, true⟩
  let transport : Candidate := ⟨c.paddings.s4.toNat, c.headers.transport, dataOverheadSz, false⟩
  if c.randomTrailers then [transport, init, response, cookie]
  else [init, response, cookie, transport]

/-- The keystream every candidate shares. -/
def headerMask (src : Bytes) : Option Bytes :=
  match c.headerProtection with
  | some hp =>
      if src.length ≥ headerProtectionNonceSize then (hp.keystream C transportHeaderSz src).toOption
      else none
  | none => none

/-- `PacketClassifier::classify`. -/
def classify (src : Bytes) : Option Classified :=
  c.checks.findSome? (Candidate.classify src (c.headerMask C src) c.randomTrailers)

end PacketClassifier
