import AwgTun.Noise.Framing
import AwgTun.Noise.Transport

/-!
# Every access of the receive path

`decapsulate` of `noise/mod.rs` cuts a datagram from the network up by positions that other
functions have computed: the classifier (`classify`), the parser
(`parse_incoming_packet_config`), the rate limiter (`verify_packet`) and the validation of the
configuration.  The model of that path in `Noise.Packet`, `Noise.RateLimiter` and
`Noise.Decapsulate` reads a field with functions that are total.  Here the path is written once
more, with each slice, `split_at`, `copy_from_slice`, `try_into`, `expect`, subtraction of
lengths and `unreachable!` of the source as a step that may panic.

* `access_parseIncomingPacketConfig`, `PacketClassifier.access_classify`,
  `RateLimiter.access_verifyPacket` — these panic for no input and are the functions of the
  model.
* `Classified.Inside` — what a match of the classifier says about lengths, from which the cuts
  of `decapsulate` are in range.
* `Tunn.receive_in_range` — so is the whole path, for a configuration that has been validated.
-/

open Control Bytes

namespace Access

/-! ## The parser -/

/-- `Tunn::parse_incoming_packet_config`. -/
def parseIncomingPacketConfig (src : Bytes) (headerConfig : HeaderConfig) :
    Outcome (Except WireGuardError Packet) :=
  if src.length < 4 then .ok (.error .invalidPacket)
  else do
    let packetType := u32OfLe (← arrAt 4 src 0 4)
    if headerConfig.init.contains packetType ∧ src.length = handshakeInitSz then do
      let senderIdx ← arrAt 4 src 4 8
      let unencryptedEphemeral ← arrAt 32 src 8 40
      let encryptedStatic ← sliceRange src 40 88
      let encryptedTimestamp ← sliceRange src 88 116
      return .ok (.handshakeInit {
        senderIdx := u32OfLe senderIdx
        unencryptedEphemeral
        encryptedStatic := toArr 48 encryptedStatic
        encryptedTimestamp := toArr 28 encryptedTimestamp })
    else if headerConfig.response.contains packetType ∧ src.length = handshakeRespSz then do
      let senderIdx ← arrAt 4 src 4 8
      let receiverIdx ← arrAt 4 src 8 12
      let unencryptedEphemeral ← arrAt 32 src 12 44
      let encryptedNothing ← sliceRange src 44 60
      return .ok (.handshakeResponse {
        senderIdx := u32OfLe senderIdx
        receiverIdx := u32OfLe receiverIdx
        unencryptedEphemeral
        encryptedNothing := toArr 16 encryptedNothing })
    else if headerConfig.cookie.contains packetType ∧ src.length = cookieReplySz then do
      let receiverIdx ← arrAt 4 src 4 8
      let nonce ← sliceRange src 8 32
      let encryptedCookie ← sliceRange src 32 64
      return .ok (.packetCookieReply {
        receiverIdx := u32OfLe receiverIdx
        nonce := toArr 24 nonce
        encryptedCookie := toArr 32 encryptedCookie })
    else if headerConfig.transport.contains packetType ∧ src.length ≥ dataOverheadSz then do
      let receiverIdx ← arrAt 4 src 4 8
      let counter ← arrAt 8 src 8 16
      let encryptedEncapsulatedPacket ← sliceFrom src 16
      return .ok (.packetData {
        receiverIdx := u32OfLe receiverIdx
        counter := u64OfLe counter
        encryptedEncapsulatedPacket })
    else return .error .invalidPacket

/-! ## The classifier -/

/-- One round of the loop of `PacketClassifier::classify`. -/
def candidate (src : Bytes) (headerMask : Option Bytes) (randomTrailers : Bool) (c : Candidate) :
    Outcome (Option Classified) :=
  let sizeOk :=
    if c.exact && !randomTrailers then src.length == c.padding + c.expectedSize
    else decide (src.length ≥ c.padding + c.expectedSize)
  if sizeOk ∧ c.padding + 4 ≤ src.length then do
    let typeBytes ← arrAt 4 src c.padding (c.padding + 4)
    let header := u32OfLe (xorBytes typeBytes (headerMask.getD []))
    if c.headerRange.contains header then
      return some {
        padding := c.padding
        protectedLen := if c.exact then c.expectedSize else transportHeaderSz
        headerMask := headerMask
        msgSize := if c.exact then some c.expectedSize else none }
    else return none
  else .ok none

section Crypto

variable (C : Crypto) {ε : Type} [Env ε]

/-- The keystream that the candidates share: `apply` on the start of the datagram. -/
def headerMask (c : PacketClassifier) (src : Bytes) : Outcome (Option Bytes) :=
  match c.headerProtection with
  | some hp =>
      if src.length ≥ headerProtectionNonceSize then do
        let mask ← hp.keystream C transportHeaderSz src
        return some mask
      else .ok none
  | none => .ok none

/-- `PacketClassifier::classify`. -/
def classify (c : PacketClassifier) (src : Bytes) : Outcome (Option Classified) := do
  let mask ← headerMask C c src
  c.checks.findSomeM? (candidate src mask c.randomTrailers)

/-! ## The rate limiter -/

/-- `format_cookie_reply`, into the buffer `dst`. -/
def formatCookieReply (r : RateLimiter) (idx : UInt32) (cookie : ByteArr 16) (mac1 dst : Bytes)
    (msgType : UInt32) : Outcome (Except WireGuardError Bytes × RateLimiter) :=
  if dst.length < cookieReplySz then .ok (.error .destinationBufferTooSmall, r)
  else do
    let (messageType, rest) ← splitAt dst 4
    let (receiverIndex, rest) ← splitAt rest 4
    let (nonce, rest) ← splitAt rest 24
    let (encryptedCookie, after) ← splitAt rest (16 + 16)
    let messageType ← copyFromSlice messageType (u32ToLe msgType)
    let receiverIndex ← copyFromSlice receiverIndex (u32ToLe idx)
    let (drawn, r) := r.nonce C
    let nonce ← copyFromSlice nonce drawn
    let iv ← tryInto 24 nonce
    let (plain, tag) ← splitAt encryptedCookie 16
    let plain ← copyFromSlice plain cookie
    let sealed := C.xaeadSeal r.cookieKey iv mac1 plain
    let tag ← copyFromSlice tag (sealed.drop 16)
    let dst := messageType ++ (receiverIndex ++ (nonce ++ ((sealed.take 16 ++ tag) ++ after)))
    let reply ← sliceTo dst cookieReplySz
    return (.ok reply, r)

/-- The check of the second MAC. -/
def verifyMac2 (r : RateLimiter) (srcAddr : Option IpAddr) (packet : Packet) (senderIdx : UInt32)
    (msg mac1 mac2 dst : Bytes) (headerConfig : HeaderConfig) (e : ε) :
    Outcome (Except TunnResult Packet × RateLimiter × ε) :=
  match srcAddr with
  | none => .ok (.error (.err .underLoad), r, e)
  | some addr =>
      let (cookie, e) := r.currentCookie C addr e
      if (C.b2sKeyedMac16Pair cookie msg mac1 : Bytes) = mac2 then .ok (.ok packet, r, e)
      else do
        let (cookieMsgType, e) := headerConfig.cookie.generate e
        match ← formatCookieReply C r senderIdx cookie mac1 dst cookieMsgType with
        | (.error err, r) => return (.error (.err err), r, e)
        | (.ok cookiePacket, r) => return (.error (.writeToNetwork cookiePacket), r, e)

/-- `verify_packet`. -/
def verifyPacket (r : RateLimiter) (srcAddr : Option IpAddr) (src dst : Bytes)
    (headerConfig : HeaderConfig) (disableCookies : Bool) (e : ε) :
    Outcome (Except TunnResult Packet × RateLimiter × ε) := do
  match ← parseIncomingPacketConfig src headerConfig with
  | .error err => return (.error (.err err), r, e)
  | .ok packet =>
      match packet.handshakeSender with
      | none => return (.ok packet, r, e)
      | some senderIdx =>
          let (msg, macs) ← splitAtEnd src 32
          let (mac1, mac2) ← splitAt macs 16
          if (C.b2sKeyedMac16 r.mac1Key msg : Bytes) ≠ mac1 then
            return (.error (.err .invalidMac), r, e)
          else if disableCookies then return (.ok packet, r, e)
          else
            let (underLoad, r) := r.isUnderLoad
            if underLoad then
              verifyMac2 C r srcAddr packet senderIdx msg mac1 mac2 dst headerConfig e
            else return (.ok packet, r, e)

/-! ## `decapsulate` -/

variable {C}

/-- Drop the trailer of a message with a fixed size. -/
def trimTrailer (classified : Option Classified) (payload : Bytes) : Outcome Bytes :=
  match classified.bind (·.msgSize) with
  | some size => if size ≤ payload.length then sliceTo payload size else .ok payload
  | none => .ok payload

/-- A transport packet whose header is masked: the header is copied to an array of its own. -/
def unmaskTransport (payload mask : Bytes) : Outcome Packet := do
  let masked ← sliceTo payload transportHeaderSz
  let header ← copyFromSlice (List.replicate transportHeaderSz 0) masked
  let header := xorBytes header mask
  let receiverIdx ← arrAt 4 header 4 8
  let counter ← arrAt 8 header 8 16
  let body ← sliceFrom payload transportHeaderSz
  return .packetData {
    receiverIdx := u32OfLe receiverIdx
    counter := u64OfLe counter
    encryptedEncapsulatedPacket := body }

/-- Any other message: it is copied to an array of the size of the largest and unmasked there. -/
def unmaskMessage (t : Tunn C) (datagram : Bytes) (padding protectedLen : Nat) (payload : Bytes) :
    Outcome Bytes :=
  match t.headerProtection with
  | none => .ok payload
  | some hp =>
      if protectedLen > 0 then do
        let covered := min protectedLen payload.length
        let decrypted ← sliceTo (List.replicate handshakeInitSz 0) covered
        let masked ← sliceTo payload covered
        let decrypted ← copyFromSlice decrypted masked
        let before ← sliceTo datagram padding
        hp.apply C before decrypted
      else .ok payload

/-- A message that was put behind its prefix, under header protection. -/
def maskIn (t : Tunn C) (dst : Bytes) (padding : Nat) (message : Bytes) : Outcome Bytes :=
  match t.headerProtection with
  | some hp => do
      let (before, rest) ← splitAt dst padding
      let covered ← sliceTo rest message.length
      hp.apply C before covered
  | none => .ok message

/-- Put a message into the buffer `dst`: behind a random prefix of `padding` bytes, under header
protection, in front of a random trailer. -/
def frame (t : Tunn C) (padding : Nat) (message dst : Bytes) (e : ε) : Outcome (Bytes × ε) := do
  let (before, e) := Tunn.randomBytes padding e
  let dst ← copyAt dst 0 before
  let dst ← copyAt dst padding message
  let masked ← maskIn t dst padding message
  let dst ← copyAt dst padding masked
  let (trailer, e) := t.trailerFor (padding + message.length) dst.length e
  let (after, e) := Tunn.randomBytes trailer e
  let dst ← copyAt dst (padding + message.length) after
  let datagram ← sliceTo dst (padding + message.length + trailer)
  return (datagram, e)

/-- Pass a message through the rate limiter and frame its answer, if it has one. -/
def verify (t : Tunn C) (srcAddr : Option IpAddr) (stripped dst : Bytes) (e : ε) :
    Outcome (Received × Tunn C × ε) := do
  let (verified, rateLimiter, e) ← verifyPacket C t.rateLimiter srcAddr stripped
    (List.replicate cookieReplySz 0) t.headerConfig t.disableCookies e
  let t := { t with rateLimiter := rateLimiter }
  match verified with
  | .ok packet => return (.packet packet, t, e)
  | .error (.writeToNetwork cookie) =>
      let s3 := t.paddingConfig.s3.toNat
      if s3 + cookie.length > dst.length then
        return (.reply (.err .destinationBufferTooSmall), t, e)
      else do
        let (datagram, e) ← frame t s3 cookie dst e
        return (.reply (.writeToNetwork datagram), t, e)
  | .error (.err err) => return (.reply (.err err), t, e)
  | .error _ => .panic "internal error: entered unreachable code"

/-- The first stage of `decapsulate`. -/
def receive (t : Tunn C) (srcAddr : Option IpAddr) (datagram dst : Bytes) (e : ε) :
    Outcome (Received × Tunn C × ε) := do
  let classified ← classify C t.classifier datagram
  let padding := (classified.map (·.padding)).getD 0
  let protectedLen := (classified.map (·.protectedLen)).getD 0
  let payload ← sliceFrom datagram padding
  let payload ← trimTrailer classified payload
  match transportMask classified with
  | some mask => do
      let packet ← unmaskTransport payload mask
      return (.packet packet, t, e)
  | none => do
      let stripped ← unmaskMessage t datagram padding protectedLen payload
      verify t srcAddr stripped dst e

end Crypto

end Access

/-! ## Accesses in range -/

/-- **The parser stays inside its input**, whatever that is. -/
theorem access_parseIncomingPacketConfig (src : Bytes) (headerConfig : HeaderConfig) :
    Access.parseIncomingPacketConfig src headerConfig =
      .ok (parseIncomingPacketConfig src headerConfig) := by
  unfold Access.parseIncomingPacketConfig parseIncomingPacketConfig
  split
  · rfl
  rename_i hshort
  rw [arrAt_eq_ok (by omega) (by omega), ok_bind, toList_field (by omega) (by omega)]
  dsimp only
  -- the messages of a fixed length
  iterate 3
    split
    · rename_i h
      simp only [arrAt_eq_ok, sliceRange_eq_ok, toList_field, h.2, handshakeInitSz, handshakeRespSz,
        cookieReplySz, ok_bind, Nat.reduceAdd, Nat.reduceLeDiff]
      rfl
  split
  · rename_i h
    have hlen : 32 ≤ src.length := h.2
    rw [arrAt_eq_ok (by omega) (by omega), arrAt_eq_ok (by omega) (by omega),
      sliceFrom_eq_ok (by omega)]
    simp only [ok_bind]
    rw [toList_field (by omega) (by omega), toList_field (by omega) (by omega)]
    rfl
  · rfl

theorem Candidate.access_classify (src : Bytes) (headerMask : Option Bytes) (randomTrailers : Bool)
    (c : Candidate) :
    Access.candidate src headerMask randomTrailers c =
      .ok (c.classify src headerMask randomTrailers) := by
  unfold Access.candidate Candidate.classify
  dsimp only
  generalize (if (c.exact && !randomTrailers) = true then src.length == c.padding + c.expectedSize
    else decide (src.length ≥ c.padding + c.expectedSize)) = sizeOk
  split
  · rename_i h
    rw [arrAt_eq_ok rfl h.2, ok_bind, toList_field rfl h.2]
    split
    · rfl
    · rfl
  · rfl

/-- A prefix that holds a nonce is enough for header protection, and no less is. -/
theorem HeaderProtection.apply_returns_iff (C : Crypto) (hp : HeaderProtection)
    (before message : Bytes) : (hp.apply C before message).Returns ↔ 12 ≤ before.length := by
  unfold apply nonceOf
  split
  · rename_i h
    split_ifs at h with hlen
    exact iff_of_true ⟨_, rfl⟩ hlen
  · rename_i h
    split_ifs at h with hlen
    exact iff_of_false (Outcome.not_returns_panic _) hlen

namespace PacketClassifier

variable (C : Crypto) (c : PacketClassifier)

theorem access_headerMask (src : Bytes) : Access.headerMask C c src = .ok (c.headerMask C src) := by
  unfold Access.headerMask headerMask
  cases c.headerProtection with
  | none => rfl
  | some hp =>
    dsimp only
    split
    · rename_i hlen
      obtain ⟨mask, hmask⟩ :=
        (hp.apply_returns_iff C src (List.replicate transportHeaderSz 0)).mpr hlen
      have hstream : hp.keystream C transportHeaderSz src = .ok mask := hmask
      rw [hstream]
      rfl
    · rfl

/-- **So does the classifier.** -/
theorem access_classify (src : Bytes) : Access.classify C c src = .ok (c.classify C src) := by
  rw [Access.classify, access_headerMask, ok_bind]
  exact findSomeM?_ok (fun candidate => candidate.access_classify src _ c.randomTrailers) c.checks

end PacketClassifier

namespace RateLimiter

variable (C : Crypto) {ε : Type} [Env ε]

/-- A cookie reply fills the first 64 bytes of its buffer. -/
theorem access_formatCookieReply (r : RateLimiter) (idx : UInt32) (cookie : ByteArr 16)
    (mac1 dst : Bytes) (msgType : UInt32) :
    Access.formatCookieReply C r idx cookie mac1 dst msgType =
      .ok (r.formatCookieReply C idx cookie mac1 dst.length msgType) := by
  unfold Access.formatCookieReply formatCookieReply
  split
  · rfl
  rename_i hlen
  have hroom : 64 ≤ dst.length := Nat.not_lt.mp hlen
  -- the buffer in pieces, each of the length of what is written to it
  obtain ⟨messageType, dst₁, rfl, htype⟩ := exists_append (show 4 ≤ dst.length by omega)
  rw [List.length_append, htype] at hroom
  obtain ⟨receiverIndex, dst₂, rfl, hindex⟩ := exists_append (show 4 ≤ dst₁.length by omega)
  rw [List.length_append, hindex] at hroom
  obtain ⟨nonce, dst₃, rfl, hnonce⟩ := exists_append (show 24 ≤ dst₂.length by omega)
  rw [List.length_append, hnonce] at hroom
  obtain ⟨encryptedCookie, after, rfl, hcookie⟩ := exists_append (show 32 ≤ dst₃.length by omega)
  obtain ⟨plain, tag, rfl, hplain⟩ := exists_append (show 16 ≤ encryptedCookie.length by omega)
  have htag : tag.length = 16 := by
    rw [List.length_append, hplain] at hcookie
    omega
  have hdrawn : ((r.nonce C).1 : Bytes).length = 24 := (r.nonce C).1.toList_length
  have hsecret : (cookie : Bytes).length = 16 := cookie.toList_length
  have hsealed (iv : ByteArr 24) :
      (C.xaeadSeal (r.nonce C).2.cookieKey iv mac1 cookie).length = 32 := by
    rw [C.length_xaeadSeal, hsecret]
  simp only [splitAt_append htype, splitAt_append hindex, splitAt_append hnonce,
    splitAt_append hcookie, splitAt_append hplain, ok_bind]
  rw [copyFromSlice_eq_ok (by simp [htype]), ok_bind, copyFromSlice_eq_ok (by simp [hindex]),
    ok_bind, copyFromSlice_eq_ok (by rw [hnonce, hdrawn]), ok_bind, tryInto_toList, ok_bind,
    copyFromSlice_eq_ok (by rw [hplain, hsecret]), ok_bind,
    copyFromSlice_eq_ok (by rw [htag, List.length_drop, hsealed]), ok_bind, List.take_append_drop]
  have hreply := hsealed (r.nonce C).1
  have htotal : (u32ToLe msgType ++ (u32ToLe idx ++ ((r.nonce C).1.toList ++
      C.xaeadSeal (r.nonce C).2.cookieKey (r.nonce C).1 mac1 cookie))).length = 64 := by
    simp only [List.length_append, length_u32ToLe, hdrawn, hreply]
  rw [show u32ToLe msgType ++ (u32ToLe idx ++ ((r.nonce C).1.toList ++
      (C.xaeadSeal (r.nonce C).2.cookieKey (r.nonce C).1 mac1 cookie ++ after))) =
    (u32ToLe msgType ++ (u32ToLe idx ++ ((r.nonce C).1.toList ++
      C.xaeadSeal (r.nonce C).2.cookieKey (r.nonce C).1 mac1 cookie))) ++ after by
        simp only [List.append_assoc]]
  rw [sliceTo_eq_ok (by rw [List.length_append, htotal]; exact Nat.le_add_right 64 _), ok_bind,
    List.take_left' htotal]
  rfl

theorem access_verifyMac2 (r : RateLimiter) (srcAddr : Option IpAddr) (packet : Packet)
    (senderIdx : UInt32) (msg mac1 mac2 dst : Bytes) (headerConfig : HeaderConfig) (e : ε) :
    Access.verifyMac2 C r srcAddr packet senderIdx msg mac1 mac2 dst headerConfig e =
      .ok (r.verifyMac2 C srcAddr packet senderIdx msg mac1 mac2 dst.length headerConfig e) := by
  unfold Access.verifyMac2 verifyMac2
  split
  · rfl
  dsimp only
  split
  · rfl
  · rw [access_formatCookieReply, ok_bind]
    generalize r.formatCookieReply C senderIdx _ mac1 dst.length _ = reply
    obtain ⟨err | cookiePacket, r'⟩ := reply
    · rfl
    · rfl

/-- A handshake message that was parsed has room for its two MACs. -/
theorem parse_handshake_length {src : Bytes} {headerConfig : HeaderConfig} {packet : Packet}
    {senderIdx : UInt32} (hparse : parseIncomingPacketConfig src headerConfig = .ok packet)
    (hsender : packet.handshakeSender = some senderIdx) : 32 ≤ src.length := by
  unfold parseIncomingPacketConfig at hparse
  dsimp only at hparse
  split_ifs at hparse with _ hinit hresponse
  · have hlen : src.length = 148 := hinit.2
    omega
  · have hlen : src.length = 92 := hresponse.2
    omega
  · cases hparse
    cases hsender
  · cases hparse
    cases hsender

/-- **And the rate limiter.** -/
theorem access_verifyPacket (r : RateLimiter) (srcAddr : Option IpAddr) (src dst : Bytes)
    (headerConfig : HeaderConfig) (disableCookies : Bool) (e : ε) :
    Access.verifyPacket C r srcAddr src dst headerConfig disableCookies e =
      .ok (r.verifyPacket C srcAddr src dst.length headerConfig disableCookies e) := by
  rw [Access.verifyPacket, verifyPacket, access_parseIncomingPacketConfig, ok_bind]
  cases hparse : parseIncomingPacketConfig src headerConfig with
  | error err => rfl
  | ok packet =>
    dsimp only
    cases hsender : packet.handshakeSender with
    | none => rfl
    | some senderIdx =>
      have hlen := parse_handshake_length hparse hsender
      have hmacs : 16 ≤ (src.drop (src.length - 32)).length := by
        rw [List.length_drop]
        omega
      have hmac1 : (src.drop (src.length - 32)).take 16 =
          slice src (src.length - 32) (src.length - 16) := by
        rw [slice]
        congr 1
        omega
      have hmac2 : (src.drop (src.length - 32)).drop 16 = src.drop (src.length - 16) := by
        rw [List.drop_drop]
        congr 1
        omega
      dsimp only
      rw [splitAtEnd_eq_ok hlen, ok_bind, splitAt_eq_ok hmacs, ok_bind]
      dsimp only
      rw [hmac1, hmac2]
      split_ifs
      · rfl
      · rfl
      · exact access_verifyMac2 C _ _ _ _ _ _ _ _ _ _
      · rfl

end RateLimiter

/-! ## What a match says about lengths -/

/-- A match of the classifier, and the datagram it was made for.  A message of fixed size is
protected in full and none is longer than an initiation or as short as a transport header. -/
structure Classified.Inside (c : Classified) (src : Bytes) : Prop where
  padding : c.padding ≤ src.length
  transport : c.msgSize = none → c.protectedLen = transportHeaderSz ∧
    c.padding + dataOverheadSz ≤ src.length
  fixed : ∀ size, c.msgSize = some size → c.protectedLen = size ∧ c.padding + size ≤ src.length ∧
    transportHeaderSz < size ∧ size ≤ handshakeInitSz

namespace PacketClassifier

variable {C : Crypto} {c : PacketClassifier} {found : Classified} {src : Bytes}

theorem classify_inside (h : c.classify C src = some found) :
    found.Inside src := by
  rcases classify_eq_some h with ⟨kind, rfl, hroom⟩ | ⟨rfl, hroom, -⟩
  · refine ⟨(Nat.le_add_right _ _).trans hroom, ?_, ?_⟩
    · intro hnone
      cases hnone
    · intro size hsome
      cases hsome
      exact ⟨rfl, hroom, kind.size_bounds⟩
  · refine ⟨(Nat.le_add_right _ _).trans hroom, ?_, ?_⟩
    · intro _
      exact ⟨rfl, hroom⟩
    · intro size hsome
      cases hsome

/-- Where every prefix has room for a nonce, so has that of a match. -/
theorem classify_nonce (h : c.classify C src = some found)
    (hfits : Amnezia3Config.NonceFits c.paddings) : 12 ≤ found.padding := by
  rcases classify_eq_some h with ⟨kind, rfl, -⟩ | ⟨rfl, -, -⟩
  · cases kind with
    | init => exact hfits.s1
    | response => exact hfits.s2
    | cookie => exact hfits.s3
  · exact hfits.s4

end PacketClassifier

/-! ## Cutting a datagram -/

namespace Tunn

variable {C : Crypto} {ε : Type} [Env ε] {t : Tunn C} {padding : Nat}

theorem access_trimTrailer (classified : Option Classified) (payload : Bytes) :
    Access.trimTrailer classified payload = .ok (trimTrailer classified payload) := by
  unfold Access.trimTrailer trimTrailer
  cases classified.bind (·.msgSize) with
  | none => rfl
  | some size =>
    dsimp only
    split
    · rename_i hsize
      exact sliceTo_eq_ok hsize
    · rfl

/-- The header of a transport packet is copied and read where it is. -/
theorem access_unmaskTransport (payload : Bytes) (hlen : transportHeaderSz ≤ payload.length)
    (mask : Bytes) :
    ∃ packet, Access.unmaskTransport payload mask = .ok packet ∧
      unmaskTransport payload mask = .ok packet := by
  have hcopied : (payload.take transportHeaderSz).length = 16 := List.length_take_of_le hlen
  have hheader : (xorBytes (payload.take transportHeaderSz) mask).length = 16 := by
    rw [length_xorBytes, hcopied]
  refine ⟨_, ?_, by rw [unmaskTransport, sliceTo_eq_ok hlen, ok_bind, sliceFrom_eq_ok hlen]; rfl⟩
  rw [Access.unmaskTransport, sliceTo_eq_ok hlen, ok_bind,
    copyFromSlice_eq_ok (by rw [hcopied, List.length_replicate]), ok_bind]
  dsimp only
  rw [arrAt_eq_ok rfl (by omega), ok_bind, arrAt_eq_ok rfl (by omega), ok_bind,
    sliceFrom_eq_ok hlen, ok_bind, toList_field rfl (by omega), toList_field rfl (by omega)]
  rfl

/-- A message of fixed size fits the array it is unmasked in. -/
theorem access_unmaskMessage {datagram : Bytes} {padding protectedLen : Nat} (payload : Bytes)
    (hpadding : padding ≤ datagram.length) (hmax : protectedLen ≤ handshakeInitSz)
    (hnonce : t.headerProtection.isSome → 0 < protectedLen → 12 ≤ padding) :
    ∃ stripped, Access.unmaskMessage t datagram padding protectedLen payload = .ok stripped ∧
      t.unmaskMessage datagram padding protectedLen payload = .ok stripped := by
  unfold Access.unmaskMessage unmaskMessage
  cases hhp : t.headerProtection with
  | none => exact ⟨payload, rfl, rfl⟩
  | some hp =>
    dsimp only
    split
    · rename_i hpos
      have hcovered : min protectedLen payload.length ≤ payload.length := Nat.min_le_right _ _
      have hfits : min protectedLen payload.length ≤ handshakeInitSz :=
        (Nat.min_le_left _ _).trans hmax
      have hprefix : 12 ≤ (datagram.take padding).length := by
        rw [List.length_take_of_le hpadding]
        exact hnonce (by rw [hhp]; rfl) hpos
      obtain ⟨stripped, hstripped⟩ := (hp.apply_returns_iff C (datagram.take padding)
        (payload.take (min protectedLen payload.length))).mpr hprefix
      refine ⟨stripped, ?_, ?_⟩
      · rw [sliceTo_eq_ok (by rw [List.length_replicate]; exact hfits), ok_bind,
          sliceTo_eq_ok hcovered, ok_bind, copyFromSlice_eq_ok ?_, ok_bind, sliceTo_eq_ok hpadding,
          ok_bind, hstripped]
        rw [List.length_take_of_le hcovered,
          List.length_take_of_le (by rw [List.length_replicate]; exact hfits)]
      · rw [sliceTo_eq_ok hcovered, ok_bind, if_neg (Nat.not_lt.mpr hfits), sliceTo_eq_ok hpadding,
          ok_bind, hstripped]
    · exact ⟨payload, rfl, rfl⟩

/-! ## Answering -/

theorem trailerFor_le (t : Tunn C) (packetSize dstLen : Nat) (e : ε) :
    (t.trailerFor packetSize dstLen e).1 ≤ dstLen - packetSize := by
  unfold trailerFor
  split_ifs
  · exact Nat.min_le_right _ _
  · exact Nat.zero_le _

/-- The message of a frame, masked in its buffer or on its own. -/
theorem frame_masked {before : Bytes} (message : Bytes) (hbefore : before.length = padding)
    (hnonce : t.headerProtection.isSome → 12 ≤ padding) (dstLen : Nat) {e e₁ : ε}
    (hdraw : randomBytes padding e = (before, e₁)) :
    ∃ masked, (∀ rest, Access.maskIn t (before ++ (message ++ rest)) padding message = .ok masked) ∧
      masked.length = message.length ∧
      t.frame padding message dstLen e = .ok
        (before ++ (masked ++ (randomBytes (t.trailerFor (padding + message.length) dstLen e₁).1
          (t.trailerFor (padding + message.length) dstLen e₁).2).1),
        (randomBytes (t.trailerFor (padding + message.length) dstLen e₁).1
          (t.trailerFor (padding + message.length) dstLen e₁).2).2) := by
  rw [frame, hdraw]
  unfold Access.maskIn
  cases hhp : t.headerProtection with
  | none => exact ⟨message, fun _ => rfl, rfl, rfl⟩
  | some hp =>
    obtain ⟨nonce, hnonceOf⟩ := HeaderProtection.nonceOf_eq_some
      (show 12 ≤ before.length by rw [hbefore]; exact hnonce (by rw [hhp]; rfl))
    have happly := HeaderProtection.apply_eq_ok C hp hnonceOf message
    refine ⟨xorBytes message (C.keystream hp.key nonce message.length), ?_, length_xorBytes _ _, ?_⟩
    · intro rest
      dsimp only
      rw [splitAt_append hbefore, ok_bind]
      dsimp only
      rw [sliceTo_eq_ok (by simp), ok_bind, List.take_left' rfl, happly]
    · dsimp only
      rw [happly]
      rfl

/-- A framed message stays inside the buffer it is written to. -/
theorem access_frame {message dst : Bytes} (hroom : padding + message.length ≤ dst.length)
    (hnonce : t.headerProtection.isSome → 12 ≤ padding) (e : ε) :
    ∃ r, Access.frame t padding message dst e = .ok r ∧
      t.frame padding message dst.length e = .ok r := by
  have hbefore := length_randomBytes padding e
  generalize hdraw : (randomBytes padding e : Bytes × ε) = drawn at hbefore
  obtain ⟨before, e₁⟩ := drawn
  -- the buffer in pieces: prefix, message, and what a trailer may use
  obtain ⟨d₁, rest, rfl, hd₁⟩ := exists_append (show padding ≤ dst.length by omega)
  rw [List.length_append, hd₁] at hroom
  obtain ⟨d₂, d₃, rfl, hd₂⟩ := exists_append (show message.length ≤ rest.length by omega)
  obtain ⟨masked, hmasked, hlen, hframe⟩ := frame_masked message hbefore hnonce
    (d₁ ++ (d₂ ++ d₃)).length hdraw
  have htotal : (before ++ (masked ++ d₃)).length = (d₁ ++ (d₂ ++ d₃)).length := by
    simp only [List.length_append, hbefore, hlen, hd₁, hd₂]
  have hmade := t.trailerFor_le (padding + message.length) (d₁ ++ (d₂ ++ d₃)).length e₁
  rw [Access.frame, hdraw]
  dsimp only
  rw [show copyAt (d₁ ++ (d₂ ++ d₃)) 0 before = .ok (before ++ (d₂ ++ d₃)) from
      copyAt_append [] d₁ (d₂ ++ d₃) before rfl (by rw [hbefore, hd₁]), ok_bind,
    copyAt_append before d₂ d₃ message hbefore hd₂.symm, ok_bind, hmasked d₃, ok_bind,
    copyAt_append before message d₃ masked hbefore hlen, ok_bind, htotal]
  generalize t.trailerFor (padding + message.length) (d₁ ++ (d₂ ++ d₃)).length e₁ = made at *
  obtain ⟨trailer, e₂⟩ := made
  have hafter := length_randomBytes trailer e₂
  generalize (randomBytes trailer e₂ : Bytes × ε) = tail at *
  obtain ⟨after, e₃⟩ := tail
  refine ⟨_, ?_, hframe⟩
  dsimp only at hmade hafter ⊢
  have hfits : trailer ≤ d₃.length := by
    simp only [List.length_append, hd₁, hd₂] at hmade
    omega
  obtain ⟨d₄, d₅, rfl, hd₄⟩ := exists_append hfits
  have hfront : (before ++ masked).length = padding + message.length := by
    rw [List.length_append, hbefore, hlen]
  have hwritten : (before ++ (masked ++ after)).length = padding + message.length + trailer := by
    simp only [List.length_append, hbefore, hlen, hafter]
    omega
  rw [← List.append_assoc before masked (d₄ ++ d₅),
    copyAt_append (before ++ masked) d₄ d₅ after hfront (by rw [hafter, hd₄]), ok_bind,
    show (before ++ masked) ++ (after ++ d₅) = (before ++ (masked ++ after)) ++ d₅ by
      simp only [List.append_assoc],
    sliceTo_eq_ok (by rw [List.length_append, hwritten]; omega), ok_bind, List.take_left' hwritten]
  rfl

theorem access_verify (hnonce : t.headerProtection.isSome → 12 ≤ t.paddingConfig.s3.toNat)
    (srcAddr : Option IpAddr) (stripped dst : Bytes) (e : ε) :
    ∃ r, Access.verify t srcAddr stripped dst e = .ok r ∧
      t.verify srcAddr stripped dst.length e = .ok r := by
  unfold Access.verify verify
  rw [RateLimiter.access_verifyPacket, ok_bind, List.length_replicate]
  generalize hverify : t.rateLimiter.verifyPacket C srcAddr stripped cookieReplySz t.headerConfig
    t.disableCookies e = verified
  obtain ⟨answer | packet, l, e₁⟩ := verified
  · rcases RateLimiter.verifyPacket_error hverify with ⟨err, rfl⟩ | ⟨cookie, rfl⟩
    · exact ⟨_, rfl, rfl⟩
    · dsimp only
      split
      · exact ⟨_, rfl, rfl⟩
      · rename_i hfits
        obtain ⟨r, haccess, hframe⟩ := access_frame (t := { t with rateLimiter := l })
          (Nat.not_lt.mp hfits) hnonce e₁
        rw [haccess, hframe]
        exact ⟨_, rfl, rfl⟩
  · exact ⟨_, rfl, rfl⟩

/-- **Receiving stays in range.**  For a tunnel whose configuration has been validated, every
datagram and every buffer for an answer, each access of the path from the classifier to the
packet has a result, and what comes out is what the model's `receive` gives.  An access under
header protection has one exactly if its prefix holds a nonce. -/
theorem receive_in_range {cfg : Amnezia3Config} (hvalid : cfg.validate = .ok ())
    (hconfig : t.HasConfig cfg) (srcAddr : Option IpAddr) (datagram dst : Bytes) (e : ε) :
    (∃ r, Access.receive t srcAddr datagram dst e = .ok r ∧
        t.receive srcAddr datagram dst.length e = .ok r) ∧
      ∀ (hp : HeaderProtection) (before message : Bytes),
        (hp.apply C before message).Returns ↔ 12 ≤ before.length := by
  refine ⟨?_, fun hp => hp.apply_returns_iff C⟩
  have hfits : t.headerProtection.isSome → Amnezia3Config.NonceFits t.paddingConfig := by
    intro hsome
    rw [hconfig.headerProtection, Amnezia3Config.headerProtection, Option.isSome_map] at hsome
    rw [hconfig.paddings]
    exact (Amnezia3Config.validate_eq_ok hvalid).2 hsome
  have hverify (stripped : Bytes) := access_verify (fun hsome => (hfits hsome).s3) srcAddr stripped
    dst e
  unfold Access.receive receive
  rw [PacketClassifier.access_classify, ok_bind, determinePadding]
  cases hclassify : t.classifier.classify C datagram with
  | none =>
    obtain ⟨stripped, haccess, hunmask⟩ := access_unmaskMessage (t := t)
      (trimTrailer none (datagram.drop 0)) (Nat.zero_le datagram.length) (Nat.zero_le _)
      (fun _ hpos => absurd hpos (Nat.lt_irrefl 0))
    simp only [Option.map_none, Option.getD_none, sliceFrom_eq_ok (Nat.zero_le datagram.length),
      ok_bind, access_trimTrailer, transportMask, haccess, hunmask]
    exact hverify stripped
  | some found =>
    have hinside := PacketClassifier.classify_inside hclassify
    have hnonce (hsome : t.headerProtection.isSome) : 12 ≤ found.padding :=
      PacketClassifier.classify_nonce hclassify (hfits hsome)
    simp only [Option.map_some, Option.getD_some, sliceFrom_eq_ok hinside.padding, ok_bind,
      access_trimTrailer]
    have hunmasked (hmax : found.protectedLen ≤ handshakeInitSz) :
        ∃ r, (do
          let stripped ← Access.unmaskMessage t datagram found.padding found.protectedLen
            (trimTrailer (some found) (datagram.drop found.padding))
          Access.verify t srcAddr stripped dst e) = .ok r ∧
        (do
          let stripped ← t.unmaskMessage datagram found.padding found.protectedLen
            (trimTrailer (some found) (datagram.drop found.padding))
          t.verify srcAddr stripped dst.length e) = .ok r := by
      obtain ⟨stripped, haccess, hunmask⟩ := access_unmaskMessage (t := t)
        (trimTrailer (some found) (datagram.drop found.padding)) hinside.padding hmax
        (fun hsome _ => hnonce hsome)
      rw [haccess, hunmask, ok_bind, ok_bind]
      exact hverify stripped
    cases hsize : found.msgSize with
    | none =>
      obtain ⟨hprotected, hroom⟩ := hinside.transport hsize
      have hwhole : trimTrailer (some found) (datagram.drop found.padding) =
          datagram.drop found.padding := by
        simp [trimTrailer, hsize]
      cases hmask : found.headerMask with
      | none =>
        simp only [transportMask, hprotected, hmask, if_true]
        rw [← hprotected]
        exact hunmasked (by rw [hprotected]; decide)
      | some mask =>
        simp only [transportMask, hprotected, hmask, if_true, hwhole]
        have hlen : 16 ≤ (datagram.drop found.padding).length := by
          rw [List.length_drop]
          simp only [dataOverheadSz] at hroom
          omega
        obtain ⟨packet, haccess, hunmask⟩ := access_unmaskTransport _ hlen mask
        rw [haccess, hunmask]
        exact ⟨_, rfl, rfl⟩
    | some size =>
      obtain ⟨hprotected, -, hmin, hmax⟩ := hinside.fixed size hsize
      simp only [transportMask, if_neg (show found.protectedLen ≠ transportHeaderSz by omega)]
      exact hunmasked (by rw [hprotected]; exact hmax)

/-- A datagram of zeros under header protection and trailers. -/
theorem receive_in_range_layered :
    let s := Session.new 1 1 zeroKey zeroKey
    layeredConfig.validate = .ok () ∧ (layeredTunn 0 s).HasConfig layeredConfig ∧
      ∃ r, Access.receive (layeredTunn 0 s) none (List.replicate 200 0) []
        ({} : StillMachine) = .ok r := by
  intro s
  have hvalid : layeredConfig.validate = .ok () := by decide +kernel
  have hconfig : (layeredTunn 0 s).HasConfig layeredConfig := ⟨rfl, rfl, rfl, rfl, rfl, rfl⟩
  obtain ⟨⟨r, haccess, -⟩, -⟩ := receive_in_range hvalid hconfig none (List.replicate 200 0) []
    ({} : StillMachine)
  exact ⟨hvalid, hconfig, r, haccess⟩

end Tunn
