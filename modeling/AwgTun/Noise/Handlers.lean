import AwgTun.Noise.Agreement
import AwgTun.Noise.Frame
import AwgTun.Noise.Transport

/-!
# What the packet handlers do

One inversion for the four handlers.  A handshake message or a cookie reply that is refused
changes nothing, and a transport packet that is refused at most widens the window; a packet that
is accepted leaves one of four tunnels.

* `Tunn.Handled` — the result of a packet, and the tunnel after it.
* `Tunn.handlePacket_handled` — there is nothing else.
-/

open Control Bytes

variable {C : Crypto} {ε : Type} [Env ε]

/-! ## What is refused -/

namespace ReceivingKeyCounterValidator

/-- A refused counter changes nothing. -/
theorem markDidReceive_error {v v' : ReceivingKeyCounterValidator} {counter : UInt64}
    {err : WireGuardError} (h : v.markDidReceive counter = (.error err, v')) : v' = v := by
  unfold markDidReceive at h
  split_ifs at h <;> cases h <;> rfl

end ReceivingKeyCounterValidator

namespace Session

/-- A refused counter leaves the session as it was. -/
theorem receivingCounterMark_error {s s' : Session} {counter : UInt64} {err : WireGuardError}
    (h : s.receivingCounterMark counter = (.error err, s')) : s' = s := by
  unfold receivingCounterMark at h
  split at h
  · cases h
  · rename_i v hmark
    cases h
    rw [ReceivingKeyCounterValidator.markDidReceive_error hmark]

/-- A refused packet leaves the session as it was. -/
theorem receivePacketData_error {C : Crypto} {s s' : Session} {packet : PacketData} {dstLen : Nat}
    {err : WireGuardError} (h : s.receivePacketData C packet dstLen = .ok (.error err, s')) :
    s' = s := by
  unfold receivePacketData at h
  split_ifs at h with hdst hidx
  · cases h
  · cases h
    rfl
  · split at h
    · cases h
      rfl
    · split at h
      · cases h
        rfl
      · split at h
        · rename_i hmark
          cases h
          exact receivingCounterMark_error hmark
        · cases h

end Session

namespace Handshake

variable {h h' : Handshake C} {err : WireGuardError} {e e' : ε} {packet : HandshakeInit}
  {respMsgType : UInt32} {dstLen : Nat}

/-- An initiation that is not answered leaves the handshake as it was, or it was to be answered
and there was no room for that. -/
theorem receiveHandshakeInitialization_refused
    (hr : h.receiveHandshakeInitialization packet dstLen respMsgType e = .ok (.error err, h', e')) :
    h' = h ∨ ∃ timestamp sym,
      (Tai64N.parse (toArr 12 timestamp)).after h.lastHandshakeTimestamp = true ∧
      dstLen < handshakeRespSz ∧ h' = h.afterInitialization packet timestamp sym := by
  rcases h.receiveHandshakeInitialization_cases packet dstLen respMsgType e with
    ⟨err, herr⟩ | ⟨timestamp, sym, hafter, hanswer⟩
  · rw [herr] at hr
    cases hr
    exact .inl rfl
  · rw [hanswer, formatHandshakeResponse] at hr
    split_ifs at hr with hsmall
    · cases hr
      exact .inr ⟨timestamp, sym, hafter, hsmall, rfl⟩
    · cases hr

/-- With room for the response, an initiation is refused before anything is written. -/
theorem receiveHandshakeInitialization_error (hfit : handshakeRespSz ≤ dstLen)
    (hr : h.receiveHandshakeInitialization packet dstLen respMsgType e = .ok (.error err, h', e')) :
    h' = h := by
  rcases receiveHandshakeInitialization_refused hr with hsame | ⟨_, _, -, hsmall, -⟩
  · exact hsame
  · omega

theorem receiveHandshakeResponse_error {packet : HandshakeResponse}
    (hr : h.receiveHandshakeResponse packet e = (.error err, h', e')) : h' = h := by
  rw [receiveHandshakeResponse_unfold] at hr
  split at hr
  · cases hr
    rfl
  · simp only at hr
    split at hr
    · cases hr
      rfl
    · cases hr

omit [Env ε] in
theorem receiveCookieReply_error {packet : PacketCookieReply}
    (hr : h.receiveCookieReply packet = (.error err, h')) : h' = h := by
  unfold receiveCookieReply at hr
  split at hr
  · cases hr
    rfl
  · split_ifs at hr
    · cases hr
      rfl
    · simp only at hr
      split at hr
      · cases hr
        rfl
      · split_ifs at hr
        · cases hr
        · cases hr
          rfl

end Handshake

/-! ## Handlers -/

namespace Tunn

variable {t t' : Tunn C}

/-- The size `handle_data` takes a packet's datagram to have had. -/
def observedSize (t : Tunn C) (p : PacketData) : Nat :=
  t.paddingConfig.s4.toNat + transportHeaderSz + p.encryptedEncapsulatedPacket.length

/-- The tunnel that has answered an initiation. -/
def answered (t : Tunn C) (handshake : Handshake C) (session : Session) : Tunn C :=
  let t := { t with handshake := handshake }.storeSession session.localIndex session
  let t := (t.timerTick .timeLastPacketReceived).timerTick .timeLastPacketSent
  { t with timers := t.timers.tickSessionEstablished false session.localIndex }

/-- The tunnel that has finished a handshake of its own and sent a keepalive. -/
def finished (t : Tunn C) (handshake : Handshake C) (session : Session) : Tunn C :=
  let t := { t with handshake := handshake }.storeSession session.localIndex session.sent
  let t := t.timerTick .timeLastPacketReceived
  let t := { t with
    timers := t.timers.tickSessionEstablished true (session.localIndex % nSessions) }
  t.setCurrentSession session.localIndex

/-- The tunnel that has accepted a cookie reply. -/
def supplied (t : Tunn C) (handshake : Handshake C) : Tunn C :=
  (({ t with handshake := handshake } : Tunn C).timerTick .timeLastPacketReceived).timerTick
    .timeCookieReceived

/-- The tunnel that has opened a transport packet, before it looks at what is in it. -/
def opened (t : Tunn C) (p : PacketData) (session : Session) : Tunn C :=
  (((t.observeDatagram (t.observedSize p)).storeSession p.receiverIdx.toNat
    session).setCurrentSession p.receiverIdx.toNat).timerTick .timeLastPacketReceived

theorem answered_handshake (t : Tunn C) (handshake : Handshake C) (session : Session) :
    (t.answered handshake session).handshake = handshake :=
  rfl

/-- What became of a packet, and the tunnel it left behind. -/
inductive Handled (ε : Type) [Env ε] (t : Tunn C) (dstLen : Nat) :
    Packet → Except WireGuardError TunnResult → Tunn C → Prop
  /-- A handshake message or a cookie reply was refused. -/
  | refuses {p : Packet} {err : WireGuardError} (hkind : ∀ data, p ≠ .packetData data) :
      Handled ε t dstLen p (.error err) t
  | answers {p : HandshakeInit} {respType : UInt32} {handshake : Handshake C} {message : Bytes}
      {session : Session} {datagram : Bytes} {e e₁ e₂ : ε}
      (hroom : t.paddingConfig.s2.toNat + handshakeRespSz ≤ dstLen)
      (hreceive : t.handshake.receiveHandshakeInitialization p
        (dstLen - t.paddingConfig.s2.toNat) respType e =
          .ok (.ok (message, session), handshake, e₁))
      (hframe : ({ t with handshake := handshake }.storeSession session.localIndex session).frame
        t.paddingConfig.s2.toNat message dstLen e₁ = .ok (datagram, e₂)) :
      Handled ε t dstLen (.handshakeInit p) (.ok (.writeToNetwork datagram))
        (t.answered handshake session)
  | finishes {p : HandshakeResponse} {handshake : Handshake C} {session : Session}
      {contentPadding : Nat} {datagram : Bytes} {e e₁ e₂ e₃ : ε}
      (hroom : t.paddingConfig.s4.toNat + dataOverheadSz ≤ dstLen)
      (hreceive : t.handshake.receiveHandshakeResponse p e = (.ok session, handshake, e₁))
      (hformat : ({ t with handshake := handshake } : Tunn C).formatTransportPacket session []
        contentPadding dstLen e₂ = .ok (datagram, session.sent, e₃)) :
      Handled ε t dstLen (.handshakeResponse p) (.ok (.writeToNetwork datagram))
        (t.finished handshake session)
  | takesCookie {p : PacketCookieReply} {handshake : Handshake C}
      (hreceive : t.handshake.receiveCookieReply p = (.ok (), handshake)) :
      Handled ε t dstLen (.packetCookieReply p) (.ok .done) (t.supplied handshake)
  /-- There is no session for a transport packet, or the session refuses it. -/
  | drops {p : PacketData} {err : WireGuardError}
      (hreason : t.sessions (slotOf p.receiverIdx.toNat) = none ∧ err = .noCurrentSession ∨
        ∃ session, t.sessions (slotOf p.receiverIdx.toNat) = some session ∧
          session.receivePacketData C p dstLen = .ok (.error err, session)) :
      Handled ε t dstLen (.packetData p) (.error err) (t.observeDatagram (t.observedSize p))
  | opens {p : PacketData} {session session' : Session} {plain : Bytes}
      (hslot : t.sessions (slotOf p.receiverIdx.toNat) = some session)
      (hreceive : session.receivePacketData C p dstLen = .ok (.ok plain, session')) :
      Handled ε t dstLen (.packetData p)
        (.ok ((t.opened p session').validateDecapsulatedPacket plain).1)
        ((t.opened p session').validateDecapsulatedPacket plain).2

/-- Writing back the session a slot holds changes nothing. -/
theorem storeSession_self {idx : Nat} {s : Session} (h : t.sessions (slotOf idx) = some s) :
    t.storeSession idx s = t := by
  rw [storeSession, ← h, Function.update_eq_self]

/-- The session a formatted packet leaves behind. -/
theorem formatTransportPacket_session {s s' : Session} {src datagram : Bytes}
    {contentPadding dstLen : Nat} {e e' : ε}
    (h : t.formatTransportPacket s src contentPadding dstLen e = .ok (datagram, s', e')) :
    s' = s.sent := by
  simp only [formatTransportPacket] at h
  split_ifs at h
  · cases h
  · obtain ⟨⟨packet, s₁⟩, hformat, h⟩ := bind_eq_ok.mp h
    obtain ⟨⟨datagram', e₁⟩, -, h⟩ := bind_eq_ok.mp h
    cases h
    simp only [Session.formatPacketData] at hformat
    split_ifs at hformat
    · cases hformat
    · cases hformat
      rfl

section Inversion

variable {dstLen : Nat} {e e' : ε} {result : Except WireGuardError TunnResult}

theorem handleHandshakeInit_handled {p : HandshakeInit}
    (h : t.handleHandshakeInit p dstLen e = .ok (result, t', e')) :
    Handled ε t dstLen (.handshakeInit p) result t' := by
  simp only [handleHandshakeInit] at h
  split_ifs at h with hsmall
  · cases h
    exact .refuses (by simp)
  · obtain ⟨⟨received, handshake, e₁⟩, hreceive, h⟩ := bind_eq_ok.mp h
    simp only at h
    split at h
    · cases h
      obtain rfl := Handshake.receiveHandshakeInitialization_error (by omega) hreceive
      exact .refuses (by simp)
    · rename_i message session
      obtain ⟨⟨datagram, e₂⟩, hframe, h⟩ := bind_eq_ok.mp h
      cases h
      exact .answers (by omega) hreceive hframe

theorem handleHandshakeResponse_handled {p : HandshakeResponse}
    (h : t.handleHandshakeResponse p dstLen e = .ok (result, t', e')) :
    Handled ε t dstLen (.handshakeResponse p) result t' := by
  simp only [handleHandshakeResponse] at h
  split_ifs at h with hsmall
  · cases h
    exact .refuses (by simp)
  · rcases hreceive : t.handshake.receiveHandshakeResponse p e with ⟨received, handshake, e₁⟩
    simp only [hreceive] at h
    split at h
    · cases h
      obtain rfl := Handshake.receiveHandshakeResponse_error hreceive
      exact .refuses (by simp)
    · rename_i session
      obtain ⟨⟨datagram, session', e₂⟩, hformat, h⟩ := bind_eq_ok.mp h
      obtain rfl := formatTransportPacket_session hformat
      cases h
      exact .finishes (by omega) hreceive hformat

omit [Env ε] in
theorem handleCookieReply_cases {p : PacketCookieReply} (h : t.handleCookieReply p = (result, t')) :
    (∃ err, result = .error err ∧ t' = t) ∨
      ∃ handshake, t.handshake.receiveCookieReply p = (.ok (), handshake) ∧ result = .ok .done ∧
        t' = t.supplied handshake := by
  simp only [handleCookieReply] at h
  rcases hreceive : t.handshake.receiveCookieReply p with ⟨received, handshake⟩
  simp only [hreceive] at h
  split at h
  · cases h
    obtain rfl := Handshake.receiveCookieReply_error hreceive
    exact .inl ⟨_, rfl, rfl⟩
  · cases h
    exact .inr ⟨handshake, rfl, rfl, rfl⟩

theorem handleData_handled {p : PacketData}
    (h : t.handleData p dstLen e = .ok (result, t', e')) :
    Handled ε t dstLen (.packetData p) result t' := by
  simp only [handleData] at h
  split at h
  · rename_i hslot
    cases h
    exact .drops (.inl ⟨hslot, rfl⟩)
  · rename_i session hslot
    obtain ⟨⟨received, session'⟩, hreceive, h⟩ := bind_eq_ok.mp h
    simp only at h
    split at h
    · cases h
      obtain rfl := Session.receivePacketData_error hreceive
      have hsame :
        (t.observeDatagram (t.observedSize p)).storeSession p.receiverIdx.toNat session' =
          t.observeDatagram (t.observedSize p) := storeSession_self hslot
      have hdrops : Handled ε t dstLen (.packetData p) (.error _) _ :=
        .drops (.inr ⟨_, hslot, hreceive⟩)
      rwa [← hsame] at hdrops
    · cases h
      exact .opens hslot hreceive

/-- **What became of a packet.** -/
theorem handlePacket_handled {p : Packet}
    (h : t.handlePacket p dstLen e = .ok (result, t', e')) : Handled ε t dstLen p result t' := by
  cases p with
  | handshakeInit p => exact handleHandshakeInit_handled h
  | handshakeResponse p => exact handleHandshakeResponse_handled h
  | packetCookieReply p =>
    simp only [handlePacket, Except.ok.injEq, Prod.mk.injEq] at h
    rcases handleCookieReply_cases (Prod.ext h.1 h.2.1) with
      ⟨err, rfl, rfl⟩ | ⟨handshake, hreceive, rfl, rfl⟩
    · exact .refuses (by simp)
    · exact .takesCookie hreceive
  | packetData p => exact handleData_handled h

end Inversion

end Tunn
