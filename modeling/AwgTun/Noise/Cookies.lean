import AwgTun.Noise.Machine

/-!
# Cookies

A responder under load answers a handshake message with a cookie, sealed with the first MAC of
that message; whoever gets it puts a second MAC, under the cookie, on the messages that follow.

* `Handshake.AnsweredBy` — the cookie reply belongs to the last handshake message.
* `Handshake.answeredBy_sealed` — who has seen that message can make one.
* `Tunn.second_reply_refused_iff` — that a cookie reply has been accepted makes no difference to
  the next one: it is refused exactly if it does not belong to the last message either.
* `Tunn.cookie_reply_accepted_again` — the same one, a second later.
* `Handshake.cookie_exchange` — both sides mean the same cookie: with it, an initiation passes
  a limiter under any load.
-/

open Control Bytes

variable {C : Crypto} {ε : Type} [Env ε]

/-- The extended-nonce cipher opens what it has sealed. -/
def Crypto.XOpenUndoesSeal (C : Crypto) : Prop :=
  ∀ k n a p, C.xaeadOpen k n a (C.xaeadSeal k n a p) = some p

namespace Handshake

variable {packet : PacketCookieReply}

/-- The cookie reply has the index of the last handshake message and opens with its MAC. -/
def AnsweredBy (h : Handshake C) (packet : PacketCookieReply) : Prop :=
  ∃ mac1 plaintext, h.cookies.lastMac1 = some mac1 ∧ packet.receiverIdx = h.cookies.index ∧
    C.xaeadOpen (C.b2sHash labelCookie h.params.peerStaticPublic) packet.nonce mac1
      packet.encryptedCookie = some plaintext ∧ plaintext.length = 16

theorem receiveCookieReply_ok_iff {h : Handshake C} :
    (h.receiveCookieReply packet).1 = .ok () ↔ h.AnsweredBy packet := by
  unfold receiveCookieReply AnsweredBy
  cases hmac : h.cookies.lastMac1 with
  | none => simp
  | some mac1 =>
    by_cases hindex : packet.receiverIdx = h.cookies.index
    · simp only [ne_eq, hindex, not_true_eq_false, if_false]
      cases hopen : C.xaeadOpen (C.b2sHash labelCookie h.params.peerStaticPublic) packet.nonce mac1
          packet.encryptedCookie with
      | none => simp [hopen]
      | some plaintext =>
        by_cases hlen : plaintext.length = 16
        · simp [hlen, hopen]
        · simp [hlen, hopen]
    · simp [hindex]

/-- The public key of the peer, and the index and the MAC of the last message, are all it takes
to make a cookie reply. -/
theorem answeredBy_sealed (hopen : C.XOpenUndoesSeal) {h : Handshake C} {mac1 : ByteArr 16}
    (hmac : h.cookies.lastMac1 = some mac1) (cookie : ByteArr 16)
    (hindex : packet.receiverIdx = h.cookies.index)
    (hsealed : packet.encryptedCookie.toList =
      C.xaeadSeal (C.b2sHash labelCookie h.params.peerStaticPublic) packet.nonce mac1 cookie) :
    h.AnsweredBy packet := by
  refine ⟨mac1, cookie, hmac, hindex, ?_, cookie.length_val⟩
  rw [hsealed, hopen]

/-- The last handshake message sent is the same, and so is the peer. -/
structure SameMessage (h h' : Handshake C) : Prop where
  lastMac1 : h'.cookies.lastMac1 = h.cookies.lastMac1
  index : h'.cookies.index = h.cookies.index
  peer : h'.params.peerStaticPublic = h.params.peerStaticPublic

theorem SameMessage.refl (h : Handshake C) : SameMessage h h := ⟨rfl, rfl, rfl⟩

variable {ε : Type} [Env ε] {h h' h'' : Handshake C}

omit [Env ε] in
theorem SameMessage.trans (a : SameMessage h h') (b : SameMessage h' h'') : SameMessage h h'' where
  lastMac1 := b.lastMac1.trans a.lastMac1
  index := b.index.trans a.index
  peer := b.peer.trans a.peer

omit [Env ε] in
/-- The same cookie replies belong to it. -/
theorem SameMessage.answeredBy_iff (hsame : SameMessage h h') (packet : PacketCookieReply) :
    h'.AnsweredBy packet ↔ h.AnsweredBy packet := by
  rw [AnsweredBy, AnsweredBy, hsame.lastMac1, hsame.index, hsame.peer]

omit [Env ε] in
theorem Cleared.sameMessage (hcleared : Cleared h h') : SameMessage h h' := by
  rcases hcleared with rfl | rfl
  · exact .refl _
  · exact ⟨rfl, rfl, rfl⟩

omit [Env ε] in
theorem setStaticPrivate_sameMessage {staticPrivate staticPublic : Key}
    (hr : h.setStaticPrivate staticPrivate staticPublic = .ok h') : SameMessage h h' := by
  have hpeer := (setStaticPrivate_moved hr).2.peer
  obtain ⟨params, rfl⟩ := setStaticPrivate_ok hr
  exact ⟨rfl, rfl, hpeer⟩

omit [Env ε] in
theorem receiveCookieReply_sameMessage
    (hr : h.receiveCookieReply packet = (.ok (), h')) : SameMessage h h' := by
  obtain ⟨cookie, rfl⟩ := receiveCookieReply_ok hr
  exact ⟨rfl, rfl, rfl⟩

theorem receiveHandshakeResponse_sameMessage {packet : HandshakeResponse} {e e' : ε}
    {session : Session} (hr : h.receiveHandshakeResponse packet e = (.ok session, h', e')) :
    SameMessage h h' := by
  obtain ⟨s, isPrevious, now, -, -, rfl⟩ := receiveHandshakeResponse_ok hr
  cases isPrevious <;> exact ⟨rfl, rfl, rfl⟩

end Handshake

/-! ## One reply and the next -/

namespace Tunn

variable {t t' : Tunn C} {p : PacketCookieReply} {event : Event}

/-- **One step** in which no handshake message is sent leaves the last one the last one. -/
theorem Turn.sameMessage (hturn : Turn ε t event t') (hother : ¬ Begins ε t event t') :
    t.handshake.SameMessage t'.handshake := by
  cases hturn with
  | @sends _ _ h₀ hevent hcleared hsent =>
    rcases Handshake.sends_cases hsent.handshake with hsame | ⟨dstLen, msgType, e, e', message, hr⟩
    · rw [hsame]
      exact hcleared.sameMessage
    · exact absurd (.inl ⟨h₀, dstLen, msgType, e, e', message, hcleared, hr⟩) hother
  | expires _ hcleared hexpired =>
    rw [hexpired]
    exact hcleared.sameMessage.trans ⟨rfl, rfl, rfl⟩
  | rekeys _ hr => exact Handshake.setStaticPrivate_sameMessage hr
  | takesCookie hr => exact Handshake.receiveCookieReply_sameMessage hr
  | @answers _ p => exact absurd (.inr ⟨p, rfl⟩) hother
  | finishes hr => exact Handshake.receiveHandshakeResponse_sameMessage hr

/-- **Any number of them** do. -/
theorem Idles.sameMessage (hidles : Idles ε t t') : t.handshake.SameMessage t'.handshake := by
  induction hidles with
  | refl => exact .refl _
  | tail _ hstep ih =>
    obtain ⟨event, hstep, hother⟩ := hstep
    exact ih.trans (hstep.turn.sameMessage hother)

theorem handleCookieReply_ok {r : TunnResult} (h : t.handleCookieReply p = (.ok r, t')) :
    t.handshake.receiveCookieReply p = (.ok (), t'.handshake) := by
  rcases handleCookieReply_cases h with ⟨err, herr, -⟩ | ⟨handshake, hreceive, -, rfl⟩
  · cases herr
  · exact hreceive

/-- A tunnel refuses the cookie replies that do not belong to its last message, and is then as
it was. -/
theorem handleCookieReply_refused_iff (t : Tunn C) (p : PacketCookieReply) :
    (∃ err, t.handleCookieReply p = (.error err, t)) ↔ ¬ t.handshake.AnsweredBy p := by
  rw [← Handshake.receiveCookieReply_ok_iff]
  constructor
  · rintro ⟨err, herr⟩ hok
    simp [handleCookieReply, hok] at herr
  · intro hnot
    rcases handleCookieReply_cases (t := t) (p := p) rfl with
      ⟨err, herr, hsame⟩ | ⟨handshake, hreceive, -⟩
    · exact ⟨err, Prod.ext herr hsame⟩
    · exact absurd (congrArg Prod.fst hreceive) hnot

/-- One that does belong to it counts as a packet from the peer, and as a new cookie. -/
theorem handleCookieReply_of_answeredBy (h : t.handshake.AnsweredBy p) :
    ∃ t', t.handleCookieReply p = (.ok .done, t') ∧
      t'.timers.timers .timeCookieReceived = t.timers.timers .timeCurrent ∧
      t'.timers.timers .timeLastPacketReceived = t.timers.timers .timeCurrent := by
  have hreceive := Handshake.receiveCookieReply_ok_iff.mpr h
  refine ⟨(t.handleCookieReply p).2, ?_, ?_, ?_⟩
  · simp only [handleCookieReply, hreceive]
  · simp only [handleCookieReply, hreceive]
    rfl
  · simp only [handleCookieReply, hreceive]
    rfl

/-- **When a second cookie reply is refused.**  A tunnel accepts a cookie reply; after that it
may do anything but send a handshake message.  It then refuses a cookie reply, without ticking a
timer, exactly if that reply does not belong to the handshake message that the first one
answered. -/
theorem second_reply_refused_iff {p : PacketCookieReply} {r : TunnResult} {t₀ t₁ t₂ : Tunn C}
    (haccept : t₀.handleCookieReply p = (.ok r, t₁)) (hidles : Idles ε t₁ t₂)
    (q : PacketCookieReply) :
    (∃ err, t₂.handleCookieReply q = (.error err, t₂)) ↔ ¬ t₀.handshake.AnsweredBy q := by
  have hfirst := Handshake.receiveCookieReply_sameMessage (handleCookieReply_ok haccept)
  rw [handleCookieReply_refused_iff, (hfirst.trans hidles.sameMessage).answeredBy_iff]

/-- A cookie for the initiation of `freshAwaiting`. -/
def awaitedReply : PacketCookieReply where
  receiverIdx := freshAwaiting.handshake.cookies.index
  nonce := toArr 24 []
  encryptedCookie := toArr 32 (Crypto.transparent.xaeadSeal zeroKey (toArr 24 []) []
    (List.replicate 16 7))

/-- And one with another index. -/
def strayReply : PacketCookieReply := { awaitedReply with receiverIdx := 7 }

/-- A step that leaves the index sends no handshake message. -/
theorem not_begins_of_index (hturn : Turn ε t event t')
    (hindex : t'.handshake.nextIndex = t.handshake.nextIndex) : ¬ Begins ε t event t' := by
  have hnew : t'.handshake.nextIndex ≠ Handshake.succIndex t.handshake.nextIndex := by
    rw [hindex]
    exact (Handshake.succIndex_ne _).symm
  rintro (⟨h₀, dstLen, msgType, e, e', message, hcleared, hr⟩ | ⟨p, rfl⟩)
  · have hnext :=
      congrArg (fun made => made.2.nextIndex) (Handshake.formatHandshakeInitiation_ok hr)
    refine hnew (hnext.symm.trans ?_)
    rcases hcleared with rfl | rfl <;> rfl
  · cases hturn with
    | answers hr => exact hnew (Handshake.receiveHandshakeInitialization_ok hr).nextIndex
    | sends hevent => cases hevent
    | expires hevent => cases hevent
    | rekeys hevent => cases hevent

/-- The tunnel accepts the cookie, and a second later there is a tick. -/
theorem freshAwaiting_ticks :
    ∃ t₁ t₂ : Tunn Crypto.transparent,
      freshAwaiting.handleCookieReply awaitedReply = (.ok .done, t₁) ∧
      Idles StillMachine t₁ t₂ ∧ t₂.timers.timers .timeCurrent = Duration.fromSecs 1 ∧
      t₂.timers.timers .timeCookieReceived = 0 ∧
      t₂.timers.timers .timeLastPacketReceived = 0 := by
  have hfirst : ∃ t₁, freshAwaiting.handleCookieReply awaitedReply = (.ok .done, t₁) ∧
      Outcome.test (t₁.updateTimers handshakeInitSz
        ({ instant := Duration.fromSecs 1 } : StillMachine)) (fun x =>
          x.2.1.handshake.nextIndex == t₁.handshake.nextIndex &&
            x.2.1.timers.timers .timeCurrent == Duration.fromSecs 1 &&
            x.2.1.timers.timers .timeCookieReceived == 0 &&
            x.2.1.timers.timers .timeLastPacketReceived == 0) = true :=
    ⟨(freshAwaiting.handleCookieReply awaitedReply).2, rfl, by decide +kernel⟩
  obtain ⟨t₁, hfirst, htick⟩ := hfirst
  obtain ⟨⟨r, t₂, e₂⟩, htick, hstate⟩ := Outcome.test_eq_true_iff.mp htick
  simp only [Bool.and_eq_true, beq_iff_eq] at hstate
  obtain ⟨⟨⟨hindex, hnow⟩, hcookie⟩, hheard⟩ := hstate
  have hstep : Step StillMachine t₁ .timed t₂ := .updateTimers htick
  exact ⟨t₁, t₂, hfirst, .single ⟨.timed, hstep, not_begins_of_index hstep.turn hindex⟩, hnow,
    hcookie, hheard⟩

/-- A reply to another message is refused. -/
theorem second_reply_refused_iff_stray :
    ∃ t₁ t₂, freshAwaiting.handleCookieReply awaitedReply = (.ok .done, t₁) ∧
      Idles StillMachine t₁ t₂ ∧ t₂.timers.timers .timeCurrent = Duration.fromSecs 1 ∧
      ∃ err, t₂.handleCookieReply strayReply = (.error err, t₂) := by
  obtain ⟨t₁, t₂, haccept, hidles, hnow, -, -⟩ := freshAwaiting_ticks
  refine ⟨t₁, t₂, haccept, hidles, hnow,
    (second_reply_refused_iff haccept hidles strayReply).mpr ?_⟩
  rintro ⟨mac1, plaintext, -, hindex, -⟩
  exact absurd hindex (by decide)

/-- **A cookie reply is accepted again.**  A second after a tunnel has accepted a cookie reply,
with nothing but a tick in between, it accepts the same one; the cookie starts its life over,
and the peer counts as heard. -/
theorem cookie_reply_accepted_again :
    Reached StillMachine freshAwaiting ∧
      ∃ t₁ t₂ t₃ : Tunn Crypto.transparent,
        freshAwaiting.handleCookieReply awaitedReply = (.ok .done, t₁) ∧
        Idles StillMachine t₁ t₂ ∧ t₂.handleCookieReply awaitedReply = (.ok .done, t₃) ∧
        t₂.timers.timers .timeCookieReceived = 0 ∧
        t₃.timers.timers .timeCookieReceived = Duration.fromSecs 1 ∧
        t₂.timers.timers .timeLastPacketReceived = 0 ∧
        t₃.timers.timers .timeLastPacketReceived = Duration.fromSecs 1 := by
  have hanswered : freshAwaiting.handshake.AnsweredBy awaitedReply :=
    ⟨_, List.replicate 16 7, rfl, rfl, by decide +kernel, rfl⟩
  obtain ⟨t₁, t₂, hfirst, hidles, hnow, hcookie, hheard⟩ := freshAwaiting_ticks
  have hsame := (Handshake.receiveCookieReply_sameMessage (handleCookieReply_ok hfirst)).trans
    hidles.sameMessage
  obtain ⟨t₃, hsecond, hrefreshed, hcounted⟩ :=
    handleCookieReply_of_answeredBy ((hsame.answeredBy_iff _).mpr hanswered)
  obtain ⟨r₀, e₀, hinitiate⟩ := freshTunn_initiates
  exact ⟨freshTunn_reached.step (.initiate hinitiate), t₁, t₂, t₃, hfirst, hidles, hsecond, hcookie,
    hrefreshed.trans hnow, hheard, hcounted.trans hnow⟩

end Tunn

/-! ## Both sides mean the same cookie -/

/-- The keyed MAC of two pieces is that of the one after the other. -/
def Crypto.MacConcatenates (C : Crypto) : Prop :=
  ∀ k a b, C.b2sKeyedMac16Pair k a b = C.b2sKeyedMac16 k (a ++ b)

/-- The fields of a cookie reply are found where they were written. -/
theorem parse_cookieReply {headers : HeaderConfig} {msgType index : UInt32} {nonce : ByteArr 24}
    {sealed : Bytes} (hsealed : sealed.length = 32) {p : PacketCookieReply}
    (h : parseIncomingPacketConfig (u32ToLe msgType ++ (u32ToLe index ++ (nonce ++ sealed))) headers
      = .ok (.packetCookieReply p)) : p = ⟨index, nonce, toArr 32 sealed⟩ := by
  have hnonce : (nonce : Bytes).length = 24 := nonce.toList_length
  unfold parseIncomingPacketConfig at h
  simp only at h
  split_ifs at h <;> cases h
  have hall : sealed.take 32 = sealed := List.take_of_length_le hsealed.le
  simp [slice_skip, slice_zero, hnonce, hall]

/-- The two MACs are the end of a handshake message. -/
theorem macs_split (body : Bytes) (mac1 mac2 : ByteArr 16) :
    let src := body ++ (mac1.toList ++ mac2.toList)
    src.take (src.length - 32) = body ∧ slice src (src.length - 32) (src.length - 16) = mac1 ∧
      src.drop (src.length - 16) = mac2 := by
  have hmac1 : mac1.toList.length = 16 := mac1.toList_length
  have hmac2 : mac2.toList.length = 16 := mac2.toList_length
  refine ⟨?_, ?_, ?_⟩
  · exact List.take_left' (by simp)
  · exact slice_append (by simp) (by simp)
  · rw [← List.append_assoc]
    exact List.drop_left' (by simp)

namespace RateLimiter

variable {r r' : RateLimiter} {mac1 mac2 : ByteArr 16} {headers : HeaderConfig} {addr : IpAddr}
  {body : Bytes}

/-- The cookie of an address, at a time. -/
def cookieAt (C : Crypto) (r : RateLimiter) (addr : IpAddr) (now : Instant) : ByteArr 16 :=
  C.b2sKeyedMac16Pair r.secretKey
    (u64ToLe (UInt64.ofNat (Duration.asSecs (now - r.startTime) / cookieRefresh))) addr.cookieBytes

/-- A cookie lasts for its period. -/
theorem SameButCounts.cookieAt_eq (hsame : r.SameButCounts r') (addr : IpAddr) {now now' : Instant}
    (hperiod : Duration.asSecs (now - r.startTime) / cookieRefresh =
      Duration.asSecs (now' - r.startTime) / cookieRefresh) :
    r'.cookieAt C addr now' = r.cookieAt C addr now := by
  rw [cookieAt, cookieAt, hsame.secretKey, hsame.startTime, hperiod]

/-- A limiter that answers a message itself answers with the cookie of the address, sealed with
the first MAC of the message. -/
theorem verifyPacket_answers {dstLen : Nat} {disableCookies : Bool} {e e' : ε} {reply : Bytes}
    (h : r.verifyPacket C (some addr) (body ++ (mac1.toList ++ mac2.toList)) dstLen headers
      disableCookies e = (.error (.writeToNetwork reply), r', e')) :
    ∃ msgType index nonce, reply = u32ToLe msgType ++ (u32ToLe index ++ (nonce ++
      C.xaeadSeal r.cookieKey nonce mac1 (r.cookieAt C addr (Env.instantNow e).1))) := by
  obtain ⟨hbody, hmac1, hmac2⟩ := macs_split body mac1 mac2
  unfold verifyPacket at h
  split at h
  · cases h
  · split at h
    · cases h
    · simp only [hbody, hmac1, hmac2] at h
      split_ifs at h
      · cases h
      · cases h
      · simp only [verifyMac2] at h
        by_cases hpass : (C.b2sKeyedMac16Pair (r.isUnderLoad.2.currentCookie C addr e).1 body mac1 :
            Bytes) = mac2
        · rw [if_pos hpass] at h
          cases h
        · rw [if_neg hpass] at h
          by_cases hsmall : dstLen < cookieReplySz
          · rw [formatCookieReply, if_pos hsmall] at h
            cases h
          · rw [formatCookieReply, if_neg hsmall] at h
            cases h
            exact ⟨_, _, _, rfl⟩
      · cases h

/-- A handshake message with both MACs passes under any load. -/
theorem verifyPacket_passes {packet : Packet} {e : ε}
    (hparse : parseIncomingPacketConfig (body ++ (mac1.toList ++ mac2.toList)) headers = .ok packet)
    (hmac1 : C.b2sKeyedMac16 r.mac1Key body = mac1)
    (hmac2 : C.b2sKeyedMac16Pair (r.cookieAt C addr (Env.instantNow e).1) body mac1 = mac2)
    (dstLen : Nat) (disableCookies : Bool) :
    ∃ r' e', r.verifyPacket C (some addr) (body ++ (mac1.toList ++ mac2.toList)) dstLen headers
      disableCookies e = (.ok packet, r', e') := by
  obtain ⟨hbody, hfirst, hsecond⟩ := macs_split body mac1 mac2
  unfold verifyPacket
  rw [hparse]
  simp only
  split
  · exact ⟨_, _, rfl⟩
  · simp only [hbody, hfirst, hsecond, hmac1, ne_eq, not_true_eq_false, if_false]
    split_ifs
    · exact ⟨_, _, rfl⟩
    · -- the cookie is the one the second MAC was made with
      have hcookie : C.b2sKeyedMac16Pair (r.isUnderLoad.2.currentCookie C addr e).1 body mac1 =
          mac2 := hmac2
      simp only [verifyMac2, hcookie, if_true]
      exact ⟨_, _, rfl⟩
    · exact ⟨_, _, rfl⟩

end RateLimiter

namespace Handshake

variable {h h' : Handshake C}

/-- The bytes of an initiation, and what is recorded of its first MAC. -/
theorem formatHandshakeInitiation_macs {dstLen : Nat} {msgType : UInt32} {e e' : ε}
    {message : Bytes} (hr : h.formatHandshakeInitiation dstLen msgType e = (.ok message, h', e')) :
    ∃ mac1 mac2 : ByteArr 16, message = h.initiationBody msgType e ++ (mac1.toList ++ mac2.toList) ∧
      mac1 = C.b2sKeyedMac16 h.params.sendingMac1Key (h.initiationBody msgType e) ∧
      h'.cookies.lastMac1 = some mac1 ∧
      ∀ cookie, h.cookies.writeCookie = some cookie →
        mac2 = C.b2sKeyedMac16 cookie (h.initiationBody msgType e ++ mac1) := by
  cases formatHandshakeInitiation_ok hr
  refine ⟨_, _, rfl, rfl, rfl, ?_⟩
  intro cookie hcookie
  have hheld : (h.afterInitiation e).cookies.writeCookie = some cookie := hcookie
  rw [hheld]

omit [Env ε] in
/-- The cookie that comes with an accepted reply. -/
theorem receiveCookieReply_cookie {packet : PacketCookieReply}
    (hr : h.receiveCookieReply packet = (.ok (), h')) :
    ∃ mac1 cookie, h.cookies.lastMac1 = some mac1 ∧
      C.xaeadOpen (C.b2sHash labelCookie h.params.peerStaticPublic) packet.nonce mac1
        packet.encryptedCookie = some (cookie : ByteArr 16).toList ∧
      h'.cookies.writeCookie = some cookie := by
  unfold receiveCookieReply at hr
  split at hr
  · cases hr
  · rename_i mac1 hmac1
    split_ifs at hr
    · cases hr
    · simp only at hr
      split at hr
      · cases hr
      · rename_i plaintext hopen
        split_ifs at hr with hlen
        · cases hr
          exact ⟨mac1, ⟨plaintext, hlen⟩, hmac1, hopen, rfl⟩
        · cases hr

/-- A run of operations that send no handshake message: each of those takes the next index. -/
def Silent (ε : Type) [Env ε] : Handshake C → Handshake C → Prop :=
  Relation.ReflTransGen fun h h' => Step ε h h' ∧ h'.nextIndex = h.nextIndex

/-- One operation that sends no handshake message leaves the last one the last one. -/
theorem Step.sameMessage (hstep : Step ε h h') (hindex : h'.nextIndex = h.nextIndex) :
    SameMessage h h' := by
  have hnew : h'.nextIndex ≠ succIndex h.nextIndex := by
    rw [hindex]
    exact (succIndex_ne _).symm
  cases hstep with
  | formatInitiation dstLen msgType e =>
    rcases sends_cases (sends_formatHandshakeInitiation h dstLen msgType e) with
      hsame | ⟨dstLen, msgType, e, e', message, hr⟩
    · rw [hsame]
      exact .refl h
    · have hnext := congrArg (fun made => made.2.nextIndex) (formatHandshakeInitiation_ok hr)
      exact absurd hnext.symm hnew
  | @receiveInitialization _ _ _ _ _ _ r hr =>
    cases r with
    | ok made => exact absurd (receiveHandshakeInitialization_ok hr).nextIndex hnew
    | error err =>
      rcases receiveHandshakeInitialization_refused hr with rfl | ⟨timestamp, sym, -, -, rfl⟩
      · exact .refl _
      · exact ⟨rfl, rfl, rfl⟩
  | receiveResponse packet e =>
    cases hresult : h.receiveHandshakeResponse packet e with
    | mk result left =>
      cases result with
      | ok session => exact receiveHandshakeResponse_sameMessage hresult
      | error err =>
        rw [receiveHandshakeResponse_error hresult]
        exact .refl h
  | receiveCookieReply packet =>
    cases hresult : h.receiveCookieReply packet with
    | mk result left =>
      cases result with
      | ok _ => exact receiveCookieReply_sameMessage hresult
      | error err =>
        rw [receiveCookieReply_error hresult]
        exact .refl h
  | setExpired => exact ⟨rfl, rfl, rfl⟩
  | clearCookie => exact ⟨rfl, rfl, rfl⟩
  | setStaticPrivate hr => exact setStaticPrivate_sameMessage hr

theorem Silent.sameMessage (hsilent : Silent ε h h') : SameMessage h h' := by
  induction hsilent with
  | refl => exact .refl h
  | tail _ hstep ih => exact ih.trans (hstep.1.sameMessage hstep.2)

/-- **Both sides mean the same cookie.**  A limiter made with the public key of the responder
answers an initiation with a cookie reply, which the initiator accepts before it sends another
handshake message.  As long as it holds that cookie, every initiation it makes passes the
limiter, whatever its load, when it comes from the same address within the period of the
cookie. -/
theorem cookie_exchange (hopen : C.XOpenUndoesSeal) (hconcat : C.MacConcatenates)
    {responder : Key} {limit : UInt64} {e₀ : ε} {L L₁ L₂ : RateLimiter}
    (hbuilt : (RateLimiter.new C responder limit e₀).1.SameButCounts L)
    {I I₁ I₂ I₃ I₄ I₅ : Handshake C} (hpeer : I.params.peerStaticPublic = responder)
    {addr : IpAddr} {headers headersI : HeaderConfig} {eI eI' eL eL' : ε} {dstI dstL : Nat}
    {type₁ : UInt32} {disable₁ : Bool} {message reply : Bytes} {p : PacketCookieReply}
    (hfirst : I.formatHandshakeInitiation dstI type₁ eI = (.ok message, I₁, eI'))
    (hreply : L.verifyPacket C (some addr) message dstL headers disable₁ eL =
      (.error (.writeToNetwork reply), L₁, eL'))
    (hwaits : Silent ε I₁ I₂)
    (hparse : parseIncomingPacketConfig reply headersI = .ok (.packetCookieReply p))
    (haccept : I₂.receiveCookieReply p = (.ok (), I₃))
    {dstI₂ : Nat} {type₂ : UInt32} {eI₂ eI₂' eL₂ : ε} {message₂ : Bytes}
    (hlater : Run ε I₃ I₄) (hheld : I₄.cookies.writeCookie = I₃.cookies.writeCookie)
    (hsecond : I₄.formatHandshakeInitiation dstI₂ type₂ eI₂ = (.ok message₂, I₅, eI₂'))
    (htype : headers.init.contains type₂ = true) (hsame : L.SameButCounts L₂)
    (hperiod : Duration.asSecs ((Env.instantNow eL).1 - L.startTime) / cookieRefresh =
      Duration.asSecs ((Env.instantNow eL₂).1 - L.startTime) / cookieRefresh)
    (dstL₂ : Nat) (disable₂ : Bool) :
    ∃ L₃ eL₃, L₂.verifyPacket C (some addr) message₂ dstL₂ headers disable₂ eL₂ =
      (.ok (.handshakeInit (I₄.initiationPacket eI₂)), L₃, eL₃) := by
  obtain ⟨mac1, mac2, rfl, -, hlast, -⟩ := formatHandshakeInitiation_macs hfirst
  obtain ⟨msgType, index, nonce, rfl⟩ := RateLimiter.verifyPacket_answers hreply
  obtain rfl := parse_cookieReply (by simp) hparse
  have hpeer₁ : I₁.params.peerStaticPublic = responder := by
    have hmade : _ = I₁ := congrArg Prod.snd (formatHandshakeInitiation_ok hfirst)
    rw [← hmade]
    exact hpeer
  -- what the initiator opens is what the limiter sealed
  obtain ⟨mac, cookie, hmac, hopened, hcookie⟩ := receiveCookieReply_cookie haccept
  have hcookie₃ : cookie = L.cookieAt C addr (Env.instantNow eL).1 := by
    have hsealKey : L.cookieKey = C.b2sHash labelCookie I₂.params.peerStaticPublic := by
      rw [hbuilt.cookieKey, hwaits.sameMessage.peer, hpeer₁]
      rfl
    rw [hwaits.sameMessage.lastMac1, hlast] at hmac
    cases hmac
    simp only [toList_toArr (show (C.xaeadSeal L.cookieKey nonce mac1
      (L.cookieAt C addr (Env.instantNow eL).1)).length = 32 by simp), ← hsealKey, hopen _ _ _ _,
      Option.some.injEq] at hopened
    exact (List.Vector.eq _ _ hopened).symm
  -- and the second MAC is made with it
  obtain ⟨mac1', mac2', rfl, hmac1, -, hmac2⟩ := formatHandshakeInitiation_macs hsecond
  have hpeer₄ : I₄.params.peerStaticPublic = responder := by
    rw [hlater.samePeer.peer, (receiveCookieReply_sameMessage haccept).peer,
      hwaits.sameMessage.peer, hpeer₁]
  have hparsed : parseIncomingPacketConfig
      (I₄.initiationBody type₂ eI₂ ++ (mac1'.toList ++ mac2'.toList)) headers =
        .ok (.handshakeInit (I₄.initiationPacket eI₂)) := by
    have hbytes := congrArg Prod.fst (formatHandshakeInitiation_ok hsecond)
    simp only at hbytes
    rw [← hbytes]
    exact I₄.parse_formatHandshakeInitiation htype _ _ eI₂
  refine RateLimiter.verifyPacket_passes hparsed ?_ ?_ dstL₂ disable₂
  · rw [hmac1, hsame.mac1Key, hbuilt.mac1Key, I₄.params.mac1_eq, hpeer₄]
    rfl
  · rw [hmac2 cookie (hheld.trans hcookie), hcookie₃, hconcat, hsame.cookieAt_eq addr hperiod]

/-- Primitives with a MAC that is not the zeros that stand for none. -/
def markingCrypto : Crypto :=
  { Crypto.transparent with
    b2sKeyedMac16 := fun _ _ => ⟨List.replicate 16 1, rfl⟩
    b2sKeyedMac16Pair := fun _ _ _ => ⟨List.replicate 16 1, rfl⟩ }

/-- An initiator at its start. -/
def markingInitiator : Handshake markingCrypto :=
  (Handshake.new zeroKey zeroKey zeroKey 0x100 none rfl ({} : StillMachine)).1

/-- A limiter that is always under load. -/
def busyLimiter : RateLimiter := (RateLimiter.new markingCrypto zeroKey 0 ({} : StillMachine)).1

set_option maxRecDepth 2000 in
/-- The first initiation is answered with a cookie, the second passes. -/
theorem cookie_exchange_busy :
    ∃ message I₁ reply L₁ p I₂ message₂ I₃,
      (markingInitiator.formatHandshakeInitiation 148 1 ({} : StillMachine) =
          (.ok message, I₁, ({} : StillMachine)) ∧
        busyLimiter.verifyPacket markingCrypto (some (.v4 7)) message 64
          ({} : Amnezia3Config).headers false ({} : StillMachine) =
            (.error (.writeToNetwork reply), L₁, ({} : StillMachine)) ∧
        parseIncomingPacketConfig reply ({} : Amnezia3Config).headers =
          .ok (.packetCookieReply p) ∧
        I₁.receiveCookieReply p = (.ok (), I₂) ∧
        I₂.formatHandshakeInitiation 148 1 ({} : StillMachine) =
          (.ok message₂, I₃, ({} : StillMachine))) ∧
      ∃ L₂ e', L₁.verifyPacket markingCrypto (some (.v4 7)) message₂ 64
        ({} : Amnezia3Config).headers false ({} : StillMachine) =
          (.ok (.handshakeInit (I₂.initiationPacket ({} : StillMachine))), L₂, e') := by
  have hrun : ∃ message I₁ reply L₁ p,
      markingInitiator.formatHandshakeInitiation 148 1 ({} : StillMachine) =
          (.ok message, I₁, ({} : StillMachine)) ∧
        busyLimiter.verifyPacket markingCrypto (some (.v4 7)) message 64
          ({} : Amnezia3Config).headers false ({} : StillMachine) =
            (.error (.writeToNetwork reply), L₁, ({} : StillMachine)) ∧
        parseIncomingPacketConfig reply ({} : Amnezia3Config).headers =
          .ok (.packetCookieReply p) ∧
        (I₁.receiveCookieReply p).1.toBool = true :=
    ⟨_, _, _, _, _, rfl, rfl, rfl, by decide +kernel⟩
  obtain ⟨message, I₁, reply, L₁, p, hfirst, hreply, hparse, haccepted⟩ := hrun
  obtain ⟨I₂, haccept⟩ : ∃ I₂, I₁.receiveCookieReply p = (.ok (), I₂) := by
    cases hresult : I₁.receiveCookieReply p with
    | mk result I₂ =>
      cases result with
      | ok _ => exact ⟨I₂, rfl⟩
      | error err => simp [hresult, Except.toBool] at haccepted
  obtain ⟨message₂, I₃, hsecond⟩ : ∃ message₂ I₃,
      I₂.formatHandshakeInitiation 148 1 ({} : StillMachine) =
        (.ok message₂, I₃, ({} : StillMachine)) := ⟨_, _, rfl⟩
  have hsame := RateLimiter.sameButCounts_verifyPacket (C := markingCrypto) busyLimiter
    (some (.v4 7)) message 64 ({} : Amnezia3Config).headers false ({} : StillMachine)
  rw [hreply] at hsame
  have hopen : markingCrypto.XOpenUndoesSeal := by
    intro k n a p
    simp [markingCrypto, Crypto.transparent]
  exact ⟨message, I₁, reply, L₁, p, I₂, message₂, I₃, ⟨hfirst, hreply, hparse, haccept, hsecond⟩,
    cookie_exchange hopen (fun _ _ _ => rfl) (.refl busyLimiter) rfl hfirst hreply .refl hparse
      haccept .refl rfl hsecond rfl hsame rfl 64 false⟩

end Handshake
