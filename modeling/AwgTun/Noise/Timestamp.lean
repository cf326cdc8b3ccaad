import AwgTun.Noise.Turn

/-!
# The timestamps of accepted initiations

A handshake keeps the timestamp of the last initiation it accepted and accepts only a later
one.  No other operation touches it, so along the life of a tunnel it only moves forward.

* `Tai64N.after` is a strict order.
* `Handshake.readTimestamp` — the timestamp in an initiation, which depends on the keys alone.
* `Handshake.Run.timestamp_mono`, `Tunn.Step.timestamp_mono` — the timestamp moves forward.
-/

open Control Bytes NoisePattern

variable {C : Crypto} {ε : Type} [Env ε]

namespace Tai64N

variable {t t' t'' : Tai64N}

theorem after_iff : t.after t' = true ↔ t'.secs < t.secs ∨ t.secs = t'.secs ∧ t'.nano < t.nano := by
  simp [after]

theorem after_trans (h : t''.after t' = true) (h' : t'.after t = true) : t''.after t = true := by
  rw [after_iff] at h h' ⊢
  rcases h with h | ⟨hsecs, hnano⟩
  · rcases h' with h' | ⟨hsecs', -⟩
    · exact .inl (UInt64.lt_trans h' h)
    · exact .inl (hsecs' ▸ h)
  · rcases h' with h' | ⟨hsecs', hnano'⟩
    · exact .inl (hsecs ▸ h')
    · exact .inr ⟨hsecs.trans hsecs', UInt32.lt_trans hnano' hnano⟩

theorem after_irrefl (t : Tai64N) : t.after t = false := by
  simp [after]

/-- The same timestamp or a later one. -/
def NotBefore (t t' : Tai64N) : Prop := t = t' ∨ t.after t' = true

theorem NotBefore.trans (h : t''.NotBefore t') (h' : t'.NotBefore t) : t''.NotBefore t := by
  rcases h with rfl | h
  · exact h'
  · rcases h' with rfl | h'
    · exact .inr h
    · exact .inr (after_trans h h')

theorem NotBefore.after_trans (h : t''.after t' = true) (h' : t'.NotBefore t) :
    t''.after t = true := by
  rcases h' with rfl | h'
  · exact h
  · exact Tai64N.after_trans h h'

end Tai64N

namespace Handshake

variable {h h' : Handshake C} {r : Except WireGuardError (Bytes × Session)} {dstLen : Nat}
  {e e' : ε}

/-- The timestamp in an initiation, for the one who holds the keys. -/
def readTimestamp (params : NoiseParams C) (packet : HandshakeInit) : Option Tai64N :=
  let opened := initiationKey (suite C) startSym params.staticPublic packet.unencryptedEphemeral
    (C.diffieHellman params.staticPrivate packet.unencryptedEphemeral)
  let mixed := (opened.1.mixHash (suite C) packet.encryptedStatic).mixKeySeal (suite C)
    params.staticShared
  (aeadChacha20Open C mixed.2 0 packet.encryptedTimestamp mixed.1.hash).toOption.map
    fun timestamp => Tai64N.parse (toArr 12 timestamp)

theorem formatHandshakeResponse_timestamp {msgType : UInt32}
    (hr : h.formatHandshakeResponse dstLen msgType e = .ok (r, h', e')) :
    h'.lastHandshakeTimestamp = h.lastHandshakeTimestamp := by
  unfold formatHandshakeResponse at hr
  split_ifs at hr
  · cases hr
    rfl
  · split at hr
    · cases hr
      rfl
    · cases hr

/-- An initiation is refused and leaves the timestamp, or its own is later and takes the place
of the one before. -/
theorem receiveHandshakeInitialization_timestamp {packet : HandshakeInit} {respMsgType : UInt32}
    (hr : h.receiveHandshakeInitialization packet dstLen respMsgType e = .ok (r, h', e')) :
    ((∃ err, r = .error err) ∧ h'.lastHandshakeTimestamp = h.lastHandshakeTimestamp) ∨
      (readTimestamp h.params packet = some h'.lastHandshakeTimestamp ∧
        h'.lastHandshakeTimestamp.after h.lastHandshakeTimestamp = true) := by
  rw [receiveHandshakeInitialization_unfold] at hr
  simp only at hr
  split at hr
  · cases hr
    exact .inl ⟨⟨_, rfl⟩, rfl⟩
  · split_ifs at hr with hkey
    · cases hr
      exact .inl ⟨⟨_, rfl⟩, rfl⟩
    · split at hr
      · cases hr
        exact .inl ⟨⟨_, rfl⟩, rfl⟩
      · rename_i timestamp hopen
        split_ifs at hr with hafter
        · cases hr
          exact .inl ⟨⟨_, rfl⟩, rfl⟩
        · have hstamp : h'.lastHandshakeTimestamp = Tai64N.parse (toArr 12 timestamp) :=
            formatHandshakeResponse_timestamp hr
          refine .inr ⟨?_, ?_⟩
          · simp only [readTimestamp, hopen, hstamp]
            rfl
          · rw [hstamp]
            simpa using hafter

/-- **One operation** keeps the timestamp or moves it forward. -/
theorem Step.timestamp_mono (hstep : Step ε h h') :
    h'.lastHandshakeTimestamp.NotBefore h.lastHandshakeTimestamp := by
  cases hstep with
  | formatInitiation dstLen msgType e =>
    by_cases hdst : handshakeInitSz ≤ dstLen
    · rw [formatHandshakeInitiation_eq h hdst]
      exact .inl rfl
    · rw [formatHandshakeInitiation, if_pos (Nat.not_le.mp hdst)]
      exact .inl rfl
  | receiveInitialization hr =>
    rcases receiveHandshakeInitialization_timestamp hr with ⟨-, hsame⟩ | ⟨-, hafter⟩
    · exact .inl hsame
    · exact .inr hafter
  | receiveResponse packet e =>
    rw [receiveHandshakeResponse_unfold]
    split
    · exact .inl rfl
    · simp only
      split
      · exact .inl rfl
      · left
        unfold afterResponse
        split_ifs <;> rfl
  | receiveCookieReply packet =>
    left
    unfold Handshake.receiveCookieReply
    grind
  | setExpired => exact .inl rfl
  | clearCookie => exact .inl rfl
  | setStaticPrivate hr =>
    obtain ⟨params, -, hret⟩ := bind_eq_ok.mp hr
    cases hret
    exact .inl rfl

/-- **Any number of operations** do. -/
theorem Run.timestamp_mono (hrun : Run ε h h') :
    h'.lastHandshakeTimestamp.NotBefore h.lastHandshakeTimestamp := by
  induction hrun with
  | refl => exact .inl rfl
  | tail _ hstep ih => exact hstep.timestamp_mono.trans ih

end Handshake

namespace Tunn

variable {t t' : Tunn C}

/-- The timestamp of the last initiation the tunnel accepted. -/
def lastTimestamp (t : Tunn C) : Tai64N := t.handshake.lastHandshakeTimestamp

theorem Step.timestamp_mono {event : Event} (hstep : Step ε t event t') :
    t'.lastTimestamp.NotBefore t.lastTimestamp :=
  hstep.handshake.timestamp_mono

/-- An initiation that the tunnel does not answer with an error has a timestamp later than the
last, which takes its place. -/
theorem handleVerifiedPacket_timestamp {packet : HandshakeInit} {dstLen : Nat} {e e' : ε}
    {r : TunnResult} (hgood : ∀ err, r ≠ .err err)
    (h : t.handleVerifiedPacket (.handshakeInit packet) dstLen e = .ok (r, t', e')) :
    Handshake.readTimestamp t.handshake.params packet = some t'.lastTimestamp ∧
      t'.lastTimestamp.after t.lastTimestamp = true := by
  obtain ⟨⟨result, t₁, e₁⟩, hhandle, h⟩ := bind_eq_ok.mp h
  cases result with
  | error err =>
    cases h
    exact absurd rfl (hgood err)
  | ok r₁ =>
    cases h
    simp only [handlePacket, handleHandshakeInit] at hhandle
    split_ifs at hhandle
    · cases hhandle
    · obtain ⟨⟨result, handshake, e₂⟩, hreceive, hhandle⟩ := bind_eq_ok.mp hhandle
      simp only at hhandle
      split at hhandle
      · cases hhandle
      · obtain ⟨⟨datagram, e₃⟩, -, hhandle⟩ := bind_eq_ok.mp hhandle
        cases hhandle
        rcases Handshake.receiveHandshakeInitialization_timestamp hreceive with
          ⟨⟨err, herr⟩, -⟩ | haccepted
        · cases herr
        · exact haccepted

end Tunn
