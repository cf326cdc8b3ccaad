import AwgTun.Noise.Session

/-!
# The handshake

The Noise IKpsk2 handshake of `handshake.rs`: both ends of the exchange, the
timestamps that order initiations, the MACs and cookies, and the state machine with
its two outgoing initiations in flight.

The initiator's and the responder's transcripts are two separate pieces of code in
the source and are embedded separately here, step by step in the source's order;
that they agree is a theorem of `Noise.Agreement`, not part of the definitions.
-/

open Control Bytes

variable {C : Crypto} {ε : Type} [Env ε]

/-! ## Constants -/

/-- `LABEL_MAC1`, the text `mac1----`. -/
def labelMac1 : Bytes := [109, 97, 99, 49, 45, 45, 45, 45]

/-- `LABEL_COOKIE`, the text `cookie--`. -/
def labelCookie : Bytes := [99, 111, 111, 107, 105, 101, 45, 45]

/-- `INITIAL_CHAIN_KEY`. -/
def initialChainKey : Key :=
  ⟨[96, 226, 109, 174, 243, 39, 239, 192, 46, 195, 53, 226, 160, 37, 210, 208, 22, 235, 66, 6, 248,
    114, 119, 245, 45, 56, 209, 152, 139, 120, 205, 54], rfl⟩

/-- `INITIAL_CHAIN_HASH`. -/
def initialChainHash : Key :=
  ⟨[34, 17, 179, 97, 8, 26, 197, 102, 105, 18, 67, 219, 69, 138, 213, 50, 45, 156, 108, 102, 34,
    147, 232, 183, 14, 225, 156, 101, 186, 7, 158, 243], rfl⟩

/-- `aead_chacha20_seal`. -/
def aeadChacha20Seal (C : Crypto) (key : Key) (counter : UInt64) (data aad : Bytes) : Bytes :=
  C.aeadSeal key (counterNonce counter) aad data

/-- `aead_chacha20_open`. -/
def aeadChacha20Open (C : Crypto) (key : Key) (counter : UInt64) (data aad : Bytes) :
    Except WireGuardError Bytes :=
  match C.aeadOpen key (counterNonce counter) aad data with
  | some plain => .ok plain
  | none => .error .invalidAeadTag

/-! ## Timestamps -/

/-- A TAI64N timestamp. -/
structure Tai64N where
  secs : UInt64
  nano : UInt32
  deriving DecidableEq, Repr

namespace Tai64N

/-- `Tai64N::zero`. -/
def zero : Tai64N := ⟨0, 0⟩

/-- `Tai64N::parse`. -/
def parse (buf : ByteArr 12) : Tai64N where
  secs := UInt64.ofNat (beNat (slice buf 0 8))
  nano := UInt32.ofNat (beNat (slice buf 8 12))

/-- `Tai64N::after`. -/
def after (t other : Tai64N) : Bool :=
  decide (t.secs > other.secs) || (t.secs == other.secs && decide (t.nano > other.nano))

end Tai64N

/-- The clocks read when a handshake object was made. -/
structure TimeStamper where
  durationAtStart : Duration
  instantAtStart : Instant
  deriving DecidableEq, Repr

namespace TimeStamper

variable {ε : Type} [Env ε]

/-- `TimeStamper::new`. -/
def new (e : ε) : TimeStamper × ε :=
  let (durationAtStart, e) := Env.systemTimeNow e
  let (instantAtStart, e) := Env.instantNow e
  (⟨durationAtStart, instantAtStart⟩, e)

/-- `TAI64_BASE`. -/
def tai64Base : UInt64 := ((1 : UInt64) <<< 62) + 10

/-- `TimeStamper::stamp`.  `duration_since` saturates at zero. -/
def stamp (t : TimeStamper) (e : ε) : ByteArr 12 × ε :=
  let (now, e) := Env.instantNow e
  let stamp : Duration := (now - t.instantAtStart) + t.durationAtStart
  let secs := UInt64.ofNat (Duration.asSecs stamp) + tai64Base
  (⟨beBytes 8 secs.toNat ++ beBytes 4 (stamp % 1000000000), by simp⟩, e)

end TimeStamper

/-! ## Parameters -/

/-- The keys of a handshake.  The derived keys are fields, as in the source; that
they are derived is part of the type. -/
structure NoiseParams (C : Crypto) where
  staticPublic : Key
  staticPrivate : Key
  peerStaticPublic : Key
  staticShared : Key
  sendingMac1Key : Key
  presharedKey : Option Key
  public_eq : staticPublic = C.publicKey staticPrivate
  shared_eq : staticShared = C.diffieHellman staticPrivate peerStaticPublic
  mac1_eq : sendingMac1Key = C.b2sHash labelMac1 peerStaticPublic

namespace NoiseParams

/-- `NoiseParams::new`. -/
def new (staticPrivate staticPublic peerStaticPublic : Key) (presharedKey : Option Key)
    (h : staticPublic = C.publicKey staticPrivate) : NoiseParams C where
  staticPublic := staticPublic
  staticPrivate := staticPrivate
  peerStaticPublic := peerStaticPublic
  staticShared := C.diffieHellman staticPrivate peerStaticPublic
  sendingMac1Key := C.b2sHash labelMac1 peerStaticPublic
  presharedKey := presharedKey
  public_eq := h
  shared_eq := rfl
  mac1_eq := rfl

/-- `NoiseParams::set_static_private`: the public key is asserted to match. -/
def setStaticPrivate (p : NoiseParams C) (staticPrivate staticPublic : Key) :
    Outcome (NoiseParams C) :=
  if h : C.publicKey staticPrivate = staticPublic then
    .ok { p with
      staticPrivate := staticPrivate
      staticPublic := staticPublic
      staticShared := C.diffieHellman staticPrivate p.peerStaticPublic
      public_eq := h.symm
      shared_eq := rfl }
  else .panic "assertion failed: `(left == right)`"

end NoiseParams

/-! ## State -/

/-- What is kept of an initiation while its response is awaited. -/
structure HandshakeInitSentState where
  localIndex : UInt32
  hash : Key
  chainingKey : Key
  ephemeralPrivate : Key
  timeSent : Instant
  deriving DecidableEq

/-- The state of one handshake. -/
inductive HandshakeState
  /-- No handshake in process. -/
  | none
  /-- We initiated the handshake. -/
  | initSent (s : HandshakeInitSentState)
  /-- The peer initiated the handshake. -/
  | initReceived (hash chainingKey peerEphemeralPublic : Key) (peerIndex : UInt32)
  /-- The handshake was established too long ago. -/
  | expired
  deriving DecidableEq

/-- The initiation sent with a given index, if that is the state. -/
def HandshakeState.sentWith (state : HandshakeState) (index : UInt32) :
    Option HandshakeInitSentState :=
  match state with
  | .initSent s => if s.localIndex = index then some s else Option.none
  | _ => Option.none

theorem HandshakeState.sentWith_eq_some_iff {state : HandshakeState} {index : UInt32}
    {s : HandshakeInitSentState} :
    state.sentWith index = some s ↔ state = .initSent s ∧ s.localIndex = index := by
  cases state with
  | initSent s' =>
    simp only [sentWith, Option.ite_none_right_eq_some, Option.some.injEq, initSent.injEq]
    constructor
    · rintro ⟨hidx, rfl⟩
      exact ⟨rfl, hidx⟩
    · rintro ⟨rfl, hidx⟩
      exact ⟨hidx, rfl⟩
  | none => simp [sentWith]
  | initReceived hash chainingKey peer index => simp [sentWith]
  | expired => simp [sentWith]

/-- Cookie state of the handshakes sent. -/
structure Cookies where
  lastMac1 : Option (ByteArr 16) := .none
  index : UInt32 := 0
  writeCookie : Option (ByteArr 16) := .none
  deriving DecidableEq

/-- The handshake side of a tunnel. -/
structure Handshake (C : Crypto) where
  params : NoiseParams C
  /-- The index given out last. -/
  nextIndex : UInt32
  /-- The initiation sent before the current one. -/
  previous : HandshakeState
  state : HandshakeState
  cookies : Cookies
  lastHandshakeTimestamp : Tai64N
  stamper : TimeStamper
  lastRtt : Option UInt32

namespace Handshake

/-- `Handshake::new`. -/
def new (staticPrivate staticPublic peerStaticPublic : Key) (globalIdx : UInt32)
    (presharedKey : Option Key) (h : staticPublic = C.publicKey staticPrivate) (e : ε) :
    Handshake C × ε :=
  let (stamper, e) := TimeStamper.new e
  ({ params := NoiseParams.new staticPrivate staticPublic peerStaticPublic presharedKey h
     nextIndex := globalIdx
     previous := .none
     state := .none
     cookies := {}
     lastHandshakeTimestamp := Tai64N.zero
     stamper := stamper
     lastRtt := .none }, e)

/-- `is_in_progress`. -/
def isInProgress (h : Handshake C) : Bool :=
  match h.state with
  | .none => false
  | .expired => false
  | _ => true

/-- `timer`. -/
def timer (h : Handshake C) : Option Instant :=
  match h.state with
  | .initSent s => some s.timeSent
  | _ => .none

/-- `set_expired`. -/
def setExpired (h : Handshake C) : Handshake C := { h with previous := .expired, state := .expired }

/-- `is_expired`. -/
def isExpired (h : Handshake C) : Bool :=
  match h.state with
  | .expired => true
  | _ => false

/-- `has_cookie`. -/
def hasCookie (h : Handshake C) : Bool := h.cookies.writeCookie.isSome

/-- `clear_cookie`. -/
def clearCookie (h : Handshake C) : Handshake C :=
  { h with cookies := { h.cookies with writeCookie := .none } }

/-- The index after `index`: the low byte counts up and wraps, the rest stays. -/
def succIndex (index : UInt32) : UInt32 :=
  (index &&& ~~~0xff) ||| (index.toUInt8 + 1).toUInt32

theorem succIndex_toNat (index : UInt32) :
    (succIndex index).toNat = index.toNat / 256 * 256 + (index.toNat + 1) % 256 := by
  have hmask : (~~~(0xff : UInt32)).toNat = 2 ^ 32 - 2 ^ 8 := by decide
  have hlow : ((index.toUInt8 + 1).toUInt32).toNat = (index.toNat + 1) % 256 := by simp
  rw [succIndex, UInt32.toNat_or, UInt32.toNat_and, hmask,
    and_roundDown index.toNat_lt (by decide), hlow, Nat.mul_comm,
    ← Nat.two_pow_add_eq_or_of_lt (Nat.mod_lt _ (by decide))]
  omega

/-- Two indices given out one after the other differ. -/
theorem succIndex_ne (index : UInt32) : succIndex index ≠ index := by
  intro h
  have htoNat := succIndex_toNat index
  rw [h] at htoNat
  omega

/-- `inc_index`. -/
def incIndex (h : Handshake C) : UInt32 × Handshake C :=
  (succIndex h.nextIndex, { h with nextIndex := succIndex h.nextIndex })

/-- `set_static_private`. -/
def setStaticPrivate (h : Handshake C) (privateKey publicKey : Key) : Outcome (Handshake C) := do
  let params ← h.params.setStaticPrivate privateKey publicKey
  return { h with params := params }

/-! ## Sending -/

/-- `append_mac1_and_mac2`, on the message without its 32 MAC bytes. -/
def appendMac1AndMac2 (h : Handshake C) (localIndex : UInt32) (msg : Bytes) : Bytes × Handshake C :=
  let mac1 := C.b2sKeyedMac16 h.params.sendingMac1Key msg
  let mac2 : ByteArr 16 :=
    match h.cookies.writeCookie with
    | some cookie => C.b2sKeyedMac16 cookie (msg ++ mac1)
    | .none => List.Vector.replicate 16 0
  (msg ++ (mac1 ++ mac2),
    { h with cookies := { h.cookies with index := localIndex, lastMac1 := some mac1 } })

/-- `format_handshake_initiation`: the initiation message for a buffer of `dstLen`
bytes. -/
def formatHandshakeInitiation (h : Handshake C) (dstLen : Nat) (msgType : UInt32) (e : ε) :
    Except WireGuardError Bytes × Handshake C × ε :=
  if dstLen < handshakeInitSz then (.error .destinationBufferTooSmall, h, e)
  else
    let (localIndex, h) := h.incIndex
    let chainingKey := initialChainKey
    let hash := initialChainHash
    let hash := C.b2sHash hash h.params.peerStaticPublic
    let (ephemeralPrivate, e) := Env.randomSecret e
    let unencryptedEphemeral := C.publicKey ephemeralPrivate
    let hash := C.b2sHash hash unencryptedEphemeral
    let chainingKey := C.b2sHmac (C.b2sHmac chainingKey unencryptedEphemeral) [0x01]
    let ephemeralShared := C.diffieHellman ephemeralPrivate h.params.peerStaticPublic
    let temp := C.b2sHmac chainingKey ephemeralShared
    let chainingKey := C.b2sHmac temp [0x01]
    let key := C.b2sHmac2 temp chainingKey [0x02]
    let encryptedStatic := aeadChacha20Seal C key 0 h.params.staticPublic hash
    let hash := C.b2sHash hash encryptedStatic
    let temp := C.b2sHmac chainingKey h.params.staticShared
    let chainingKey := C.b2sHmac temp [0x01]
    let key := C.b2sHmac2 temp chainingKey [0x02]
    let (timestamp, e) := h.stamper.stamp e
    let encryptedTimestamp := aeadChacha20Seal C key 0 timestamp hash
    let hash := C.b2sHash hash encryptedTimestamp
    let (timeNow, e) := Env.instantNow e
    let h := { h with
      previous := h.state
      state := .initSent { localIndex, chainingKey, hash, ephemeralPrivate, timeSent := timeNow } }
    let (message, h) := h.appendMac1AndMac2 localIndex
      (u32ToLe msgType ++ (u32ToLe localIndex ++ (unencryptedEphemeral ++
        (encryptedStatic ++ encryptedTimestamp))))
    (.ok message, h, e)

/-- `format_handshake_response`: the response to the initiation just received, and
the new session. -/
def formatHandshakeResponse (h : Handshake C) (dstLen : Nat) (msgType : UInt32) (e : ε) :
    Outcome (Except WireGuardError (Bytes × Session) × Handshake C × ε) :=
  if dstLen < handshakeRespSz then .ok (.error .destinationBufferTooSmall, h, e)
  else
    match h.state with
    | .initReceived hash chainingKey peerEphemeralPublic peerIndex =>
        let h := { h with state := .none }
        let (ephemeralPrivate, e) := Env.randomSecret e
        let (localIndex, h) := h.incIndex
        let unencryptedEphemeral := C.publicKey ephemeralPrivate
        let hash := C.b2sHash hash unencryptedEphemeral
        let temp := C.b2sHmac chainingKey unencryptedEphemeral
        let chainingKey := C.b2sHmac temp [0x01]
        let ephemeralShared := C.diffieHellman ephemeralPrivate peerEphemeralPublic
        let temp := C.b2sHmac chainingKey ephemeralShared
        let chainingKey := C.b2sHmac temp [0x01]
        let temp := C.b2sHmac chainingKey
          (C.diffieHellman ephemeralPrivate h.params.peerStaticPublic)
        let chainingKey := C.b2sHmac temp [0x01]
        let temp := C.b2sHmac chainingKey (h.params.presharedKey.getD zeroKey)
        let chainingKey := C.b2sHmac temp [0x01]
        let temp2 := C.b2sHmac2 temp chainingKey [0x02]
        let key := C.b2sHmac2 temp temp2 [0x03]
        let hash := C.b2sHash hash temp2
        let encryptedNothing := aeadChacha20Seal C key 0 [] hash
        let temp1 := C.b2sHmac chainingKey []
        let temp2 := C.b2sHmac temp1 [0x01]
        let temp3 := C.b2sHmac2 temp1 temp2 [0x02]
        let (message, h) := h.appendMac1AndMac2 localIndex
          (u32ToLe msgType ++ (u32ToLe localIndex ++ (u32ToLe peerIndex ++
            (unencryptedEphemeral ++ encryptedNothing))))
        .ok (.ok (message, Session.new localIndex peerIndex temp2 temp3), h, e)
    | _ => .panic "Unexpected attempt to call send_handshake_response"

/-! ## Receiving -/

/-- `receive_handshake_initialization`: check an initiation and answer it. -/
def receiveHandshakeInitialization (h : Handshake C) (packet : HandshakeInit) (dstLen : Nat)
    (respMsgType : UInt32) (e : ε) :
    Outcome (Except WireGuardError (Bytes × Session) × Handshake C × ε) :=
  let chainingKey := initialChainKey
  let hash := initialChainHash
  let hash := C.b2sHash hash h.params.staticPublic
  let peerIndex := packet.senderIdx
  let peerEphemeralPublic := packet.unencryptedEphemeral
  let hash := C.b2sHash hash peerEphemeralPublic
  let chainingKey := C.b2sHmac (C.b2sHmac chainingKey peerEphemeralPublic) [0x01]
  let ephemeralShared := C.diffieHellman h.params.staticPrivate peerEphemeralPublic
  let temp := C.b2sHmac chainingKey ephemeralShared
  let chainingKey := C.b2sHmac temp [0x01]
  let key := C.b2sHmac2 temp chainingKey [0x02]
  match aeadChacha20Open C key 0 packet.encryptedStatic hash with
  | .error err => .ok (.error err, h, e)
  | .ok peerStaticPublicDecrypted =>
      if (h.params.peerStaticPublic : Bytes) ≠ peerStaticPublicDecrypted then
        .ok (.error .wrongKey, h, e)
      else
        let hash := C.b2sHash hash packet.encryptedStatic
        let temp := C.b2sHmac chainingKey h.params.staticShared
        let chainingKey := C.b2sHmac temp [0x01]
        let key := C.b2sHmac2 temp chainingKey [0x02]
        match aeadChacha20Open C key 0 packet.encryptedTimestamp hash with
        | .error err => .ok (.error err, h, e)
        | .ok timestamp =>
            let timestamp := Tai64N.parse (toArr 12 timestamp)
            if !timestamp.after h.lastHandshakeTimestamp then
              -- possibly a replay
              .ok (.error .wrongTai64nTimestamp, h, e)
            else
              let hash := C.b2sHash hash packet.encryptedTimestamp
              let h := { h with
                lastHandshakeTimestamp := timestamp
                previous := h.state
                state := .initReceived hash chainingKey peerEphemeralPublic peerIndex }
              h.formatHandshakeResponse dstLen respMsgType e

/-- The initiation a response belongs to, and whether it is the previous one. -/
def awaiting (h : Handshake C) (receiverIdx : UInt32) : Option (HandshakeInitSentState × Bool) :=
  match h.state.sentWith receiverIdx, h.previous.sentWith receiverIdx with
  | some s, _ => some (s, false)
  | .none, some s => some (s, true)
  | .none, .none => .none

/-- `receive_handshake_response`: finish an initiation of ours. -/
def receiveHandshakeResponse (h : Handshake C) (packet : HandshakeResponse) (e : ε) :
    Except WireGuardError Session × Handshake C × ε :=
  match h.awaiting packet.receiverIdx with
  | .none => (.error .unexpectedPacket, h, e)
  | some (state, isPrevious) =>
      let peerIndex := packet.senderIdx
      let localIndex := state.localIndex
      let unencryptedEphemeral := packet.unencryptedEphemeral
      let hash := C.b2sHash state.hash unencryptedEphemeral
      let temp := C.b2sHmac state.chainingKey unencryptedEphemeral
      let chainingKey := C.b2sHmac temp [0x01]
      let ephemeralShared := C.diffieHellman state.ephemeralPrivate unencryptedEphemeral
      let temp := C.b2sHmac chainingKey ephemeralShared
      let chainingKey := C.b2sHmac temp [0x01]
      let temp := C.b2sHmac chainingKey
        (C.diffieHellman h.params.staticPrivate unencryptedEphemeral)
      let chainingKey := C.b2sHmac temp [0x01]
      let temp := C.b2sHmac chainingKey (h.params.presharedKey.getD zeroKey)
      let chainingKey := C.b2sHmac temp [0x01]
      let temp2 := C.b2sHmac2 temp chainingKey [0x02]
      let key := C.b2sHmac2 temp temp2 [0x03]
      let hash := C.b2sHash hash temp2
      match aeadChacha20Open C key 0 packet.encryptedNothing hash with
      | .error err => (.error err, h, e)
      | .ok _ =>
          let temp1 := C.b2sHmac chainingKey []
          let temp2 := C.b2sHmac temp1 [0x01]
          let temp3 := C.b2sHmac2 temp1 temp2 [0x02]
          let (now, e) := Env.instantNow e
          let rttTime : Duration := now - state.timeSent
          let h := { h with lastRtt := some (UInt32.ofNat (rttTime / 1000000)) }
          let h := if isPrevious then { h with previous := .none } else { h with state := .none }
          (.ok (Session.new localIndex peerIndex temp3 temp2), h, e)

/-- `receive_cookie_reply`. -/
def receiveCookieReply (h : Handshake C) (packet : PacketCookieReply) :
    Except WireGuardError Unit × Handshake C :=
  match h.cookies.lastMac1 with
  | .none => (.error .unexpectedPacket, h)
  | some mac1 =>
      if packet.receiverIdx ≠ h.cookies.index then (.error .wrongIndex, h)
      else
        let key := C.b2sHash labelCookie h.params.peerStaticPublic
        match C.xaeadOpen key packet.nonce mac1 packet.encryptedCookie with
        | .none => (.error .invalidAeadTag, h)
        | some plaintext =>
            if hlen : plaintext.length = 16 then
              (.ok (), { h with
                cookies := { h.cookies with writeCookie := some ⟨plaintext, hlen⟩ } })
            else (.error .invalidPacket, h)

end Handshake
