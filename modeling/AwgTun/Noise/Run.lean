import AwgTun.Noise.Unauthenticated

/-!
# Runs of a tunnel

`Tunn.Step` is one thing a tunnel can be asked to do, with any arguments, any
environment and any result, labelled with what happened.  `decapsulate` on a non-empty
datagram is a step that finds the packet, followed by a step that handles it
(`Tunn.decapsulate_steps`); a device that has found the packet by other means takes
the second step alone.

The second half says what handling a packet does to the sessions: everything but an
accepted handshake message or data packet is `Quiet`, and each of those writes one
slot.
-/

open Control Bytes

variable {C : Crypto} {ε : Type} [Env ε]

namespace Tunn

variable {r : TunnResult} {dstLen : Nat}

/-- What happened in a step. -/
inductive Event
  /-- `encapsulate` was called. -/
  | encapsulated
  /-- `decapsulate` was called with an empty datagram. -/
  | flushed
  /-- `format_handshake_initiation` was called. -/
  | initiated
  /-- `update_timers` was called. -/
  | timed
  /-- A datagram arrived and was looked at. -/
  | received
  /-- A packet was handled without an error. -/
  | accepted (p : Packet)
  /-- A packet was handled and refused. -/
  | refused (p : Packet)
  /-- A setting was changed, or an outgoing datagram taken. -/
  | adjusted

/-- One step of a tunnel. -/
inductive Step (ε : Type) [Env ε] : Tunn C → Event → Tunn C → Prop
  | encapsulate {t t' : Tunn C} {src : Bytes} {dstLen : Nat} {e e' : ε} {r : TunnResult}
      (h : t.encapsulate src dstLen e = .ok (r, t', e')) : Step ε t .encapsulated t'
  | flush {t t' : Tunn C} {dstLen : Nat} {e e' : ε} {r : TunnResult}
      (h : t.sendQueuedPacket dstLen e = .ok (r, t', e')) : Step ε t .flushed t'
  | initiate {t t' : Tunn C} {dstLen : Nat} {force : Bool} {e e' : ε} {r : TunnResult}
      (h : t.formatHandshakeInitiation dstLen force e = .ok (r, t', e')) : Step ε t .initiated t'
  | updateTimers {t t' : Tunn C} {dstLen : Nat} {e e' : ε} {r : TunnResult}
      (h : t.updateTimers dstLen e = .ok (r, t', e')) : Step ε t .timed t'
  | receive {t t' : Tunn C} {srcAddr : Option IpAddr} {datagram : Bytes} {dstLen : Nat} {e e' : ε}
      {received : Received} (h : t.receive srcAddr datagram dstLen e = .ok (received, t', e')) :
      Step ε t .received t'
  | accept {t t' : Tunn C} {p : Packet} {dstLen : Nat} {e e' : ε} {r : TunnResult}
      (h : t.handlePacket p dstLen e = .ok (.ok r, t', e')) : Step ε t (.accepted p) t'
  | refuse {t t' : Tunn C} {p : Packet} {dstLen : Nat} {e e' : ε} {err : WireGuardError}
      (h : t.handlePacket p dstLen e = .ok (.error err, t', e')) : Step ε t (.refused p) t'
  | setStaticPrivate {t t' : Tunn C} {staticPrivate staticPublic : Key}
      {rateLimiter : Option RateLimiter} {e e' : ε}
      (h : t.setStaticPrivate staticPrivate staticPublic rateLimiter e = .ok (t', e')) :
      Step ε t .adjusted t'
  | setMtu (t : Tunn C) (mtu : UInt32) : Step ε t .adjusted (t.setMtu mtu)
  | resetUdpWindow (t : Tunn C) : Step ε t .adjusted t.resetUdpWindow
  | pollOutgoingPacket (t : Tunn C) : Step ε t .adjusted t.pollOutgoingPacket.2

variable {ε : Type} [Env ε] {t t' : Tunn C}

/-- A call of `handle_verified_packet` is one step. -/
theorem handleVerifiedPacket_steps {p : Packet} {e e' : ε}
    (h : t.handleVerifiedPacket p dstLen e = .ok (r, t', e')) :
    Step ε t (.accepted p) t' ∨ Step ε t (.refused p) t' := by
  obtain ⟨⟨result, t₁, e₁⟩, hhandle, h⟩ := bind_eq_ok.mp h
  cases result with
  | ok r =>
    cases h
    exact .inl (.accept hhandle)
  | error err =>
    cases h
    exact .inr (.refuse hhandle)

/-- A call of `decapsulate` is one step or two. -/
theorem decapsulate_steps {srcAddr : Option IpAddr} {datagram : Bytes} {e e' : ε}
    (h : t.decapsulate srcAddr datagram dstLen e = .ok (r, t', e')) :
    Step ε t .flushed t' ∨ Step ε t .received t' ∨
      ∃ t₁ p, Step ε t .received t₁ ∧ (Step ε t₁ (.accepted p) t' ∨ Step ε t₁ (.refused p) t') := by
  rw [decapsulate] at h
  split_ifs at h
  · exact .inl (.flush h)
  · obtain ⟨⟨received, t₁, e₁⟩, hreceive, h⟩ := bind_eq_ok.mp h
    cases received with
    | packet p => exact .inr (.inr ⟨t₁, p, .receive hreceive, handleVerifiedPacket_steps h⟩)
    | reply r =>
      cases h
      exact .inr (.inl (.receive hreceive))

end Tunn

/-! ## Indices of new sessions -/

namespace Handshake

variable {session : Session} {h h' : Handshake C} {message : Bytes} {dstLen : Nat} {e e' : ε}

/-- What an initiation that was answered leaves behind, with the session made. -/
structure Answered (h h' : Handshake C) (session : Session) : Prop where
  state : h'.state = .none
  previous : h'.previous = h.state
  nextIndex : h'.nextIndex = succIndex h.nextIndex
  params : h'.params = h.params
  cookie : h'.cookies.writeCookie = h.cookies.writeCookie
  session : session.receivingIndex = succIndex h.nextIndex
  timestamp : h'.lastHandshakeTimestamp.after h.lastHandshakeTimestamp = true
  index : h'.cookies.index = succIndex h.nextIndex

theorem receiveHandshakeInitialization_ok {packet : HandshakeInit} {respMsgType : UInt32}
    (hr : h.receiveHandshakeInitialization packet dstLen respMsgType e =
      .ok (.ok (message, session), h', e')) : Answered h h' session := by
  rcases h.receiveHandshakeInitialization_cases packet dstLen respMsgType e with
    ⟨err, herr⟩ | ⟨timestamp, sym, hafter, hanswer⟩
  · rw [herr] at hr
    cases hr
  · rw [hanswer, formatHandshakeResponse] at hr
    split_ifs at hr
    · cases hr
    · cases hr
      exact ⟨rfl, rfl, rfl, rfl, rfl, rfl, hafter, rfl⟩

/-- The initiation that a response answers has the index in the response. -/
theorem awaiting_index {index : UInt32} {s : HandshakeInitSentState} {isPrevious : Bool}
    (hs : h.awaiting index = some (s, isPrevious)) : s.localIndex = index := by
  unfold awaiting at hs
  split at hs
  · rename_i hstate
    cases hs
    exact (HandshakeState.sentWith_eq_some_iff.mp hstate).2
  · rename_i hprevious
    cases hs
    exact (HandshakeState.sentWith_eq_some_iff.mp hprevious).2
  · cases hs

/-- What a response that was accepted leaves behind. -/
theorem receiveHandshakeResponse_ok {packet : HandshakeResponse}
    (hr : h.receiveHandshakeResponse packet e = (.ok session, h', e')) :
    ∃ s isPrevious now, h.awaiting packet.receiverIdx = some (s, isPrevious) ∧
      session.receivingIndex = s.localIndex ∧ h' = h.afterResponse s isPrevious now := by
  rw [receiveHandshakeResponse_unfold] at hr
  split at hr
  · cases hr
  · rename_i s isPrevious hawait
    simp only at hr
    split at hr
    · cases hr
    · cases hr
      exact ⟨s, isPrevious, _, hawait, rfl, rfl⟩

/-- An initiator's session has the index of its initiation. -/
theorem receiveHandshakeResponse_index {packet : HandshakeResponse}
    (hr : (h.receiveHandshakeResponse packet e).1 = .ok session) :
    session.receivingIndex = packet.receiverIdx := by
  obtain ⟨s, isPrevious, now, hawait, hindex, -⟩ := receiveHandshakeResponse_ok (Prod.ext hr rfl)
  rw [hindex, awaiting_index hawait]

end Handshake

/-! ## What handling a packet does to the sessions -/

namespace Tunn

variable {t t' : Tunn C} {dstLen : Nat} {e e' : ε} {handshake : Handshake C} {session : Session}
  {p : Packet}

/-- One slot was written; the session in use is the one before, or the one written. -/
structure WritesSlot (t t' : Tunn C) (idx : Nat) : Prop where
  settings : t'.settings = t.settings
  sessions : ∀ i, i ≠ slotOf idx → t'.sessions i = t.sessions i
  current : t'.current = t.current ∨ t'.current = idx

theorem storeSession_ne (t : Tunn C) {idx : Nat} (s : Session) {i : Fin nSessions}
    (hi : i ≠ slotOf idx) : (t.storeSession idx s).sessions i = t.sessions i :=
  Function.update_of_ne hi _ _

theorem setCurrentSession_current (t : Tunn C) (idx : Nat) :
    (t.setCurrentSession idx).current = t.current ∨ (t.setCurrentSession idx).current = idx := by
  unfold setCurrentSession
  split_ifs
  · exact .inl rfl
  · exact .inr rfl
  · exact .inl rfl

theorem setCurrentSession_sessions (t : Tunn C) (idx : Nat) :
    (t.setCurrentSession idx).sessions = t.sessions := by
  unfold setCurrentSession
  split_ifs <;> rfl

theorem setCurrentSession_settings (t : Tunn C) (idx : Nat) :
    (t.setCurrentSession idx).settings = t.settings := by
  unfold setCurrentSession
  split_ifs <;> rfl

/-- An accepted initiation writes the slot of the next index. -/
theorem writesSlot_answered {p : HandshakeInit} {respType : UInt32} {message : Bytes}
    (h : t.handshake.receiveHandshakeInitialization p dstLen respType e =
      .ok (.ok (message, session), handshake, e')) :
    WritesSlot t (t.answered handshake session)
      (Handshake.succIndex t.handshake.nextIndex).toNat := by
  have hindex : session.localIndex = (Handshake.succIndex t.handshake.nextIndex).toNat :=
    congrArg UInt32.toNat (Handshake.receiveHandshakeInitialization_ok h).session
  refine ⟨rfl, ?_, .inl rfl⟩
  intro i hi
  rw [← hindex] at hi
  exact storeSession_ne { t with handshake := handshake } session hi

/-- An accepted response writes the slot of the initiation it answers. -/
theorem writesSlot_finished {p : HandshakeResponse}
    (h : t.handshake.receiveHandshakeResponse p e = (.ok session, handshake, e')) :
    WritesSlot t (t.finished handshake session) p.receiverIdx.toNat := by
  have hindex : session.localIndex = p.receiverIdx.toNat := congrArg UInt32.toNat
    (Handshake.receiveHandshakeResponse_index (congrArg Prod.fst h))
  rw [finished, hindex]
  refine ⟨?_, ?_, setCurrentSession_current _ _⟩
  · rw [setCurrentSession_settings]
    rfl
  · intro i hi
    rw [setCurrentSession_sessions]
    exact storeSession_ne _ session.sent hi

theorem validateDecapsulatedPacket_quiet (t : Tunn C) (packet : Bytes) :
    (t.validateDecapsulatedPacket packet).2.settings = t.settings ∧
      (t.validateDecapsulatedPacket packet).2.sessions = t.sessions ∧
      (t.validateDecapsulatedPacket packet).2.current = t.current := by
  have h := t.validated packet
  generalize t.validateDecapsulatedPacket packet = after at h ⊢
  cases h <;> exact ⟨rfl, rfl, rfl⟩

/-- An accepted data packet writes the slot it names. -/
theorem writesSlot_opened (t : Tunn C) (p : PacketData) (session : Session) (plain : Bytes) :
    WritesSlot t ((t.opened p session).validateDecapsulatedPacket plain).2
      p.receiverIdx.toNat := by
  obtain ⟨hsettings, hsessions, hcurrent⟩ :=
    (t.opened p session).validateDecapsulatedPacket_quiet plain
  refine ⟨hsettings.trans (setCurrentSession_settings _ _), ?_, ?_⟩
  · intro i hi
    refine (congrFun hsessions i).trans ?_
    refine (congrFun (setCurrentSession_sessions _ _) i).trans ?_
    exact storeSession_ne _ session hi
  · rw [hcurrent]
    exact setCurrentSession_current _ _

/-- A refused packet. -/
theorem quiet_handlePacket_error {err : WireGuardError}
    (h : t.handlePacket p dstLen e = .ok (.error err, t', e')) : Quiet t t' := by
  cases handlePacket_handled h with
  | refuses => exact .refl t
  | drops => exact quiet_observeDatagram t _

/-- No packet changes the settings. -/
theorem Handled.settings {result : Except WireGuardError TunnResult}
    (h : Handled ε t dstLen p result t') : t'.settings = t.settings := by
  cases h with
  | refuses => rfl
  | answers => rfl
  | finishes _ hreceive => exact (writesSlot_finished hreceive).settings
  | takesCookie => rfl
  | drops => rfl
  | opens => exact (writesSlot_opened _ _ _ _).settings

end Tunn
