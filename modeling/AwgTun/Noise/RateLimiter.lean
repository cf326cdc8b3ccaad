import AwgTun.Noise.Handshake

/-!
# The rate limiter

`rate_limiter.rs`: handshake messages carry a MAC that anybody who knows the
public key can compute, and, once too many of them have arrived since the last
reset, a second one under a cookie that only the owner of the source address was
given.  Transport packets and cookie replies pass through untouched
(`verifyPacket_of_not_handshake`).

The counters are atomics in the source, since a device shares one limiter between
its peers; one call of `verifyPacket` is one step here.
-/

open Control Bytes

/-- `COOKIE_REFRESH`, in seconds. -/
def cookieRefresh : Nat := 128

/-- `RESET_PERIOD`, in seconds. -/
def resetPeriod : Nat := 1

/-- Limits the handshake messages answered without proof of address. -/
structure RateLimiter where
  /-- Derives the nonces of cookie replies. -/
  nonceKey : Key
  /-- Derives the cookies. -/
  secretKey : ByteArr 16
  startTime : Instant
  nonceCtr : UInt64
  mac1Key : Key
  cookieKey : Key
  limit : UInt64
  /-- Handshake messages since the last reset. -/
  count : UInt64
  lastReset : Instant
  deriving DecidableEq

/-- The sender index of a handshake message. -/
def Packet.handshakeSender : Packet → Option UInt32
  | .handshakeInit p => some p.senderIdx
  | .handshakeResponse p => some p.senderIdx
  | .packetCookieReply _ => none
  | .packetData _ => none

/-- The 16 bytes an address is hashed as. -/
def IpAddr.cookieBytes : IpAddr → Bytes
  | .v4 a => beBytes 4 a.toNat ++ List.replicate 12 0
  | .v6 a => beBytes 16 a.toNat

namespace RateLimiter

variable (C : Crypto) {ε : Type} [Env ε] {headerConfig : HeaderConfig} {r r' : RateLimiter}
  {packet : Packet} {dstLen : Nat} {src : Bytes}

/-- `RateLimiter::new`. -/
def new (publicKey : Key) (limit : UInt64) (e : ε) : RateLimiter × ε :=
  let (secretKey, e) := RandomSource.fillBytes e 16
  let (nonceKey, e) := RandomSource.fillBytes e 32
  let (startTime, e) := Env.instantNow e
  let (lastReset, e) := Env.instantNow e
  ({ nonceKey, secretKey, startTime
     nonceCtr := 0
     mac1Key := C.b2sHash labelMac1 publicKey
     cookieKey := C.b2sHash labelCookie publicKey
     limit
     count := 0
     lastReset }, e)

/-- `reset_count`. -/
def resetCount (r : RateLimiter) (e : ε) : RateLimiter × ε :=
  let (currentTime, e) := Env.instantNow e
  if Duration.asSecs (currentTime - r.lastReset) ≥ resetPeriod then
    ({ r with count := 0, lastReset := currentTime }, e)
  else (r, e)

/-- `current_cookie`: the cookie an address has for now. -/
def currentCookie (r : RateLimiter) (addr : IpAddr) (e : ε) : ByteArr 16 × ε :=
  let (now, e) := Env.instantNow e
  let curCounter := UInt64.ofNat (Duration.asSecs (now - r.startTime) / cookieRefresh)
  (C.b2sKeyedMac16Pair r.secretKey (u64ToLe curCounter) addr.cookieBytes, e)

/-- `nonce`. -/
def nonce (r : RateLimiter) : ByteArr 24 × RateLimiter :=
  (C.b2sMac24 r.nonceKey (u64ToLe r.nonceCtr), { r with nonceCtr := r.nonceCtr + 1 })

/-- `is_under_load`: counts the message as well. -/
def isUnderLoad (r : RateLimiter) : Bool × RateLimiter :=
  (decide (r.count ≥ r.limit), { r with count := r.count + 1 })

/-- `format_cookie_reply`. -/
def formatCookieReply (r : RateLimiter) (idx : UInt32) (cookie : ByteArr 16) (mac1 : Bytes)
    (dstLen : Nat) (msgType : UInt32) : Except WireGuardError Bytes × RateLimiter :=
  if dstLen < cookieReplySz then (.error .destinationBufferTooSmall, r)
  else
    let (nonce, r) := r.nonce C
    (.ok (u32ToLe msgType ++ (u32ToLe idx ++ (nonce ++ C.xaeadSeal r.cookieKey nonce mac1 cookie))),
      r)

/-- The check of the second MAC that a message under load has to pass. -/
def verifyMac2 (r : RateLimiter) (srcAddr : Option IpAddr) (packet : Packet) (senderIdx : UInt32)
    (msg mac1 mac2 : Bytes) (dstLen : Nat) (headerConfig : HeaderConfig) (e : ε) :
    Except TunnResult Packet × RateLimiter × ε :=
  match srcAddr with
  | none => (.error (.err .underLoad), r, e)
  | some addr =>
      let (cookie, e) := r.currentCookie C addr e
      if (C.b2sKeyedMac16Pair cookie msg mac1 : Bytes) = mac2 then (.ok packet, r, e)
      else
        let (cookieMsgType, e) := headerConfig.cookie.generate e
        match r.formatCookieReply C senderIdx cookie mac1 dstLen cookieMsgType with
        | (.error err, r) => (.error (.err err), r, e)
        | (.ok cookiePacket, r) => (.error (.writeToNetwork cookiePacket), r, e)

/-- `verify_packet`: the packet, or what to answer instead of handling it. -/
def verifyPacket (r : RateLimiter) (srcAddr : Option IpAddr) (src : Bytes) (dstLen : Nat)
    (headerConfig : HeaderConfig) (disableCookies : Bool) (e : ε) :
    Except TunnResult Packet × RateLimiter × ε :=
  match parseIncomingPacketConfig src headerConfig with
  | .error err => (.error (.err err), r, e)
  | .ok packet =>
      match packet.handshakeSender with
      | none => (.ok packet, r, e)
      | some senderIdx =>
          let msg := src.take (src.length - 32)
          let mac1 := slice src (src.length - 32) (src.length - 16)
          let mac2 := src.drop (src.length - 16)
          if (C.b2sKeyedMac16 r.mac1Key msg : Bytes) ≠ mac1 then (.error (.err .invalidMac), r, e)
          else if disableCookies then (.ok packet, r, e)
          else
            let (underLoad, r) := r.isUnderLoad
            if underLoad then
              r.verifyMac2 C srcAddr packet senderIdx msg mac1 mac2 dstLen headerConfig e
            else (.ok packet, r, e)

variable {C}

/-- A packet that is not a handshake message is neither checked nor counted. -/
theorem verifyPacket_of_not_handshake (r : RateLimiter) (srcAddr : Option IpAddr) (dstLen : Nat)
    (disableCookies : Bool) (e : ε)
    (hparse : parseIncomingPacketConfig src headerConfig = .ok packet)
    (hkind : packet.handshakeSender = none) :
    r.verifyPacket C srcAddr src dstLen headerConfig disableCookies e = (.ok packet, r, e) := by
  simp [verifyPacket, hparse, hkind]

/-- A packet that passes is the one that was parsed. -/
theorem verifyPacket_ok {srcAddr : Option IpAddr} {disableCookies : Bool} {e e' : ε}
    (h : r.verifyPacket C srcAddr src dstLen headerConfig disableCookies e = (.ok packet, r', e')) :
    parseIncomingPacketConfig src headerConfig = .ok packet := by
  unfold verifyPacket at h
  split at h
  · cases h
  · rename_i parsed hparse
    suffices packet = parsed by rw [this, hparse]
    split at h
    · cases h
      rfl
    · simp only [verifyMac2] at h
      grind

/-! ## What a check leaves alone -/

/-- The keys, the limit and the start are the same; the counters may differ. -/
structure SameButCounts (r r' : RateLimiter) : Prop where
  nonceKey : r'.nonceKey = r.nonceKey
  secretKey : r'.secretKey = r.secretKey
  startTime : r'.startTime = r.startTime
  mac1Key : r'.mac1Key = r.mac1Key
  cookieKey : r'.cookieKey = r.cookieKey
  limit : r'.limit = r.limit

theorem SameButCounts.refl (r : RateLimiter) : r.SameButCounts r := ⟨rfl, rfl, rfl, rfl, rfl, rfl⟩

theorem SameButCounts.trans {r r' r'' : RateLimiter} (h : r.SameButCounts r')
    (h' : r'.SameButCounts r'') : r.SameButCounts r'' where
  nonceKey := h'.nonceKey.trans h.nonceKey
  secretKey := h'.secretKey.trans h.secretKey
  startTime := h'.startTime.trans h.startTime
  mac1Key := h'.mac1Key.trans h.mac1Key
  cookieKey := h'.cookieKey.trans h.cookieKey
  limit := h'.limit.trans h.limit

theorem sameButCounts_resetCount (r : RateLimiter) (e : ε) :
    r.SameButCounts (r.resetCount e).1 := by
  simp only [resetCount]
  split_ifs
  · exact ⟨rfl, rfl, rfl, rfl, rfl, rfl⟩
  · exact .refl r

theorem sameButCounts_formatCookieReply {idx : UInt32} {cookie : ByteArr 16} {mac1 : Bytes}
    {msgType : UInt32} {result : Except WireGuardError Bytes}
    (h : r.formatCookieReply C idx cookie mac1 dstLen msgType = (result, r')) :
    r.SameButCounts r' := by
  unfold formatCookieReply at h
  split_ifs at h
  · cases h
    exact .refl r
  · cases h
    exact ⟨rfl, rfl, rfl, rfl, rfl, rfl⟩

theorem sameButCounts_verifyMac2 (r : RateLimiter) (srcAddr : Option IpAddr) (packet : Packet)
    (senderIdx : UInt32) (msg mac1 mac2 : Bytes) (dstLen : Nat)
    (headerConfig : HeaderConfig) (e : ε) :
    r.SameButCounts
      (r.verifyMac2 C srcAddr packet senderIdx msg mac1 mac2 dstLen headerConfig e).2.1 := by
  unfold verifyMac2
  split
  · exact .refl r
  · simp only
    split_ifs
    · exact .refl r
    · split
      · rename_i hreply
        exact sameButCounts_formatCookieReply hreply
      · rename_i hreply
        exact sameButCounts_formatCookieReply hreply

theorem sameButCounts_verifyPacket (r : RateLimiter) (srcAddr : Option IpAddr) (src : Bytes)
    (dstLen : Nat) (headerConfig : HeaderConfig) (disableCookies : Bool) (e : ε) :
    r.SameButCounts (r.verifyPacket C srcAddr src dstLen headerConfig disableCookies e).2.1 := by
  have hcount : r.SameButCounts r.isUnderLoad.2 := ⟨rfl, rfl, rfl, rfl, rfl, rfl⟩
  unfold verifyPacket
  split
  · exact .refl r
  · split
    · exact .refl r
    · simp only
      split_ifs
      · exact .refl r
      · exact .refl r
      · exact hcount.trans (sameButCounts_verifyMac2 _ _ _ _ _ _ _ _ _ _)
      · exact hcount

end RateLimiter
