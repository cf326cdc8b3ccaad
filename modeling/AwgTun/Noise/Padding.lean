import AwgTun.Noise.Transport
import AwgTun.Noise.Frame

/-!
# Padded packets and their buffers

Content padding is bounded by the window, the MTU and the caller's buffer.  Three
places emit transport packets: `encapsulate`, the keepalive of `update_timers`, and
the keepalive that answers a handshake response.  The first two measure the padding
against the datagram they are about to send, and what they send always fits
(`Tunn.encapsulate_fits`, `Tunn.updateTimers_fits`).  The third measures it against a
datagram of size zero; `Tunn.handleHandshakeResponse_fits_iff` says for which draws
its keepalive fits nevertheless.
-/

open Control Bytes

namespace Tunn

variable {C : Crypto} {ε : Type} [Env ε] {t : Tunn C} {range : U32Range} {dstLen : Nat}
  {src : Bytes} {s : Session}

/-- A datagram with a payload of `payload` bytes fits the buffer and, if it was
padded, the size limit. -/
def Fits (t : Tunn C) (payload dstLen : Nat) (datagram : Bytes) : Prop :=
  datagram.length ≤ dstLen ∧ datagram.length ≤ max (t.datagramSize payload) t.sizeLimit

theorem observeDatagram_udpWindow (t : Tunn C) (size : Nat) :
    (t.observeDatagram size).udpWindow.toNat = max t.udpWindow.toNat (min size (2 ^ 32 - 1)) := by
  have hcap : (UInt32.ofNat (min size (2 ^ 32 - 1))).toNat = min size (2 ^ 32 - 1) :=
    UInt32.toNat_ofNat_of_lt' (by simp only [UInt32.size]; omega)
  show (if t.udpWindow ≤ UInt32.ofNat (min size (2 ^ 32 - 1)) then _ else _ : UInt32).toNat = _
  split_ifs with hle
  all_goals rw [UInt32.le_iff_toNat_le, hcap] at hle
  · rw [hcap, max_eq_right hle]
  · rw [max_eq_left (by omega)]

/-- Widening the window to a datagram does not let it be padded beyond the limit that
held before. -/
theorem sizeLimit_observeDatagram_le (t : Tunn C) (size : Nat) :
    (t.observeDatagram size).sizeLimit ≤ max size t.sizeLimit := by
  have hwindow := observeDatagram_udpWindow t size
  have hmtu : (t.observeDatagram size).mtu = t.mtu := rfl
  simp only [sizeLimit, hmtu]
  split_ifs <;> omega

/-! ## The places that measure their datagram -/

theorem sealPacket_fits (hroom : t.NonceRoom) (hrange : t.contentPadding = some range) (s : Session)
    (hfit : t.datagramSize src.length ≤ dstLen) (e : ε) :
    ∃ datagram t' e', t.sealPacket s src dstLen e = .ok (.writeToNetwork datagram, t', e') ∧
      t.Fits src.length dstLen datagram := by
  obtain ⟨datagram, t', e', hseal, hcarries⟩ := sealPacket_spec hroom s hfit e
  refine ⟨datagram, t', e', hseal, ?_⟩
  have hpadding : t.sealPadding src dstLen e = min (range.generate e).1.toNat
      (min ((t.observeDatagram (t.datagramSize src.length)).sizeLimit - t.datagramSize src.length)
        (dstLen - t.datagramSize src.length)) := by
    rw [sealPadding, transportPadding, if_pos (by simp [observeDatagram, hrange])]
    exact contentPaddingAddition_eq (t := t.observeDatagram _) hrange _ _ e
  have hlimit := sizeLimit_observeDatagram_le t (t.datagramSize src.length)
  rw [Fits, hcarries.length_eq]
  omega

/-- `encapsulate` with a session: nothing but the packet itself has to fit. -/
theorem encapsulate_fits (hroom : t.NonceRoom) (hrange : t.contentPadding = some range)
    (hs : t.sessions (slotOf t.current) = some s) (hfit : t.datagramSize src.length ≤ dstLen)
    (e : ε) :
    ∃ datagram t' e', t.encapsulate src dstLen e = .ok (.writeToNetwork datagram, t', e') ∧
      t.Fits src.length dstLen datagram := by
  rw [encapsulate, hs]
  exact sealPacket_fits hroom hrange s hfit e

/-- Aging leaves the sizes alone. -/
theorem Aged.sizes {t' : Tunn C} (h : Aged t t') :
    t'.NonceRoom = t.NonceRoom ∧ t'.contentPadding = t.contentPadding ∧
      (∀ n, t'.datagramSize n = t.datagramSize n) ∧ t'.sizeLimit = t.sizeLimit := by
  have hpaddings : t'.paddingConfig = t.paddingConfig := congrArg Settings.paddingConfig h.settings
  have hprotection : t'.headerProtection = t.headerProtection :=
    congrArg Settings.headerProtection h.settings
  have hmtu : t'.mtu = t.mtu := congrArg Settings.mtu h.settings
  refine ⟨?_, congrArg Settings.contentPadding h.settings, ?_, ?_⟩
  · rw [NonceRoom, NonceRoom, hpaddings, hprotection]
  · intro n
    rw [datagramSize, datagramSize, hpaddings]
  · rw [sizeLimit, sizeLimit, hmtu, h.udpWindow]

/-- The keepalive of `update_timers`. -/
theorem updateTimers_fits (hroom : t.NonceRoom) (hrange : t.contentPadding = some range)
    (hfit : t.datagramSize 0 ≤ dstLen) {now : Duration} {e e₁ e₂ : ε} {t₁ t₂ : Tunn C}
    (hstart : t.startTimers e = .ok (now, t₁, e₁))
    (haction : t₁.timerAction now e₁ = .ok (.keepalive, t₂, e₂))
    (hs : t₂.sessions (slotOf t₂.current) = some s) :
    ∃ datagram t' e', t.updateTimers dstLen e = .ok (.writeToNetwork datagram, t', e') ∧
      t.Fits 0 dstLen datagram := by
  obtain ⟨hroom', hrange', hsize, hlimit⟩ :=
    ((aged_startTimers hstart).trans (aged_timerAction haction)).sizes
  obtain ⟨datagram, t', e', hencapsulate, hfits⟩ := encapsulate_fits (hroom' ▸ hroom)
    (hrange'.trans hrange) hs (show t₂.datagramSize ([] : Bytes).length ≤ dstLen by
      rw [hsize]; exact hfit) e₂
  refine ⟨datagram, t', e', ?_, ?_⟩
  · simp only [updateTimers, hstart, haction, ok_bind]
    exact hencapsulate
  · rw [Fits, ← hsize, ← hlimit]
    exact hfits

/-! ## The place that does not -/

/-- The keepalive that answers a response: what it draws must either come out as no
padding at all or leave room for the datagram around it. -/
theorem handleHandshakeResponse_fits_iff (hroom : t.NonceRoom)
    (hrange : t.contentPadding = some range) (hfit : t.datagramSize 0 ≤ dstLen)
    {p : HandshakeResponse} {e e₁ : ε} {session : Session} {h : Handshake C}
    (hresponse : t.handshake.receiveHandshakeResponse p e = (.ok session, h, e₁)) :
    (∃ datagram t' e', t.handleHandshakeResponse p dstLen e
        = .ok (.ok (.writeToNetwork datagram), t', e') ∧ t.Fits 0 dstLen datagram) ↔
      (range.generate e₁).1.toNat = 0 ∨ t.sizeLimit = 0 ∨
        t.datagramSize 0 + (range.generate e₁).1.toNat ≤ min t.sizeLimit dstLen := by
  have hsmall : ¬ t.paddingConfig.s4.toNat + dataOverheadSz > dstLen := Nat.not_lt.mpr hfit
  have hpadding := contentPaddingAddition_eq
    (show ({ t with handshake := h } : Tunn C).contentPadding = some range from hrange) 0 dstLen e₁
  rcases hdraw : ({ t with handshake := h } : Tunn C).contentPaddingAddition 0 dstLen e₁
    with ⟨contentPadding, e₂⟩
  rw [hdraw] at hpadding
  have hlimit : ({ t with handshake := h } : Tunn C).sizeLimit = t.sizeLimit := rfl
  simp only [hlimit, Nat.sub_zero] at hpadding
  have hpos : 0 < t.datagramSize 0 := by
    simp only [datagramSize, dataOverheadSz]
    omega
  simp only [handleHandshakeResponse, if_neg hsmall, hresponse, hdraw]
  rcases Nat.lt_or_ge dstLen (t.datagramSize 0 + contentPadding) with htoo | hroomy
  · -- the buffer is too small for the padded keepalive
    obtain ⟨message, hpanic⟩ :=
      formatTransportPacket_panics (t := { t with handshake := h }) session
      (show dstLen < t.datagramSize ([] : Bytes).length + contentPadding from htoo) e₂
    rw [hpanic]
    refine iff_of_false ?_ (by omega)
    rintro ⟨datagram, t', e', hok, -⟩
    cases hok
  · obtain ⟨datagram, e₃, hformat, hcarries⟩ :=
      formatTransportPacket_spec (t := { t with handshake := h })
      hroom session (show t.datagramSize ([] : Bytes).length + contentPadding ≤
        dstLen from hroomy) e₂
    have hlen : datagram.length = t.datagramSize 0 + contentPadding := hcarries.length_eq
    rw [hformat]
    constructor
    · rintro ⟨datagram', t', e', hok, -, hmax⟩
      obtain rfl : datagram = datagram' := by cases hok; rfl
      omega
    · intro hcond
      exact ⟨datagram, _, _, rfl, by omega, by omega⟩

/-- **Padded transport packets and their buffers.**  For a valid configuration with
content padding and a buffer that holds the unpadded packet: `encapsulate` and the
keepalive of `update_timers` return a datagram that fits, whatever the window, the MTU
and the draw; the keepalive that answers a response does exactly when the draw is
zero, or the limit is, or the draw fits beside the datagram. -/
theorem padded_packets_fit_iff {cfg : Amnezia3Config} (hvalid : cfg.validate = .ok ())
    (ht : t.HasConfig cfg) {range : U32Range} (hrange : cfg.contentPaddingAddition = some range)
    (dstLen : Nat) :
    (∀ (s : Session) (src : Bytes) (e : ε), t.sessions (slotOf t.current) = some s →
      t.datagramSize src.length ≤ dstLen →
      ∃ datagram t' e', t.encapsulate src dstLen e = .ok (.writeToNetwork datagram, t', e') ∧
        t.Fits src.length dstLen datagram) ∧
    (∀ (now : Duration) (e e₁ e₂ : ε) (t₁ t₂ : Tunn C) (s : Session),
      t.startTimers e = .ok (now, t₁, e₁) → t₁.timerAction now e₁ = .ok (.keepalive, t₂, e₂) →
      t₂.sessions (slotOf t₂.current) = some s → t.datagramSize 0 ≤ dstLen →
      ∃ datagram t' e', t.updateTimers dstLen e = .ok (.writeToNetwork datagram, t', e') ∧
        t.Fits 0 dstLen datagram) ∧
    (∀ (p : HandshakeResponse) (e e₁ : ε) (session : Session) (h : Handshake C),
      t.handshake.receiveHandshakeResponse p e = (.ok session, h, e₁) → t.datagramSize 0 ≤ dstLen →
      ((∃ datagram t' e', t.handleHandshakeResponse p dstLen e
          = .ok (.ok (.writeToNetwork datagram), t', e') ∧ t.Fits 0 dstLen datagram) ↔
        (range.generate e₁).1.toNat = 0 ∨ t.sizeLimit = 0 ∨
          t.datagramSize 0 + (range.generate e₁).1.toNat ≤ min t.sizeLimit dstLen)) := by
  have hroom := ht.nonceRoom (Amnezia3Config.validate_eq_ok hvalid).2
  have hrange' : t.contentPadding = some range := ht.contentPadding.trans hrange
  refine ⟨?_, ?_, ?_⟩
  · intro s src e hs hfit
    exact encapsulate_fits hroom hrange' hs hfit e
  · intro now e e₁ e₂ t₁ t₂ s hstart haction hs hfit
    exact updateTimers_fits hroom hrange' hfit hstart haction hs
  · intro p e e₁ session h hresponse hfit
    exact handleHandshakeResponse_fits_iff hroom hrange' hfit hresponse

/-- A valid configuration that always draws 100 bytes of padding. -/
def hundredConfig : Amnezia3Config := { contentPaddingAddition := some ⟨100, 100⟩ }

/-- A tunnel of that configuration as it is made. -/
def hundredTunn : Tunn Crypto.transparent :=
  (ofConfig zeroKey zeroKey none none 1 none hundredConfig ({} : StillMachine)).1

/-- That tunnel after it has sent an initiation. -/
def hundredTunnAwaiting : Tunn Crypto.transparent :=
  match hundredTunn.formatHandshakeInitiation 148 false ({} : StillMachine) with
  | .ok (_, t, _) => t
  | .error _ => hundredTunn

/-- A response to that initiation. -/
def hundredResponse : HandshakeResponse where
  senderIdx := 9
  receiverIdx := 257
  unencryptedEphemeral := zeroKey
  encryptedNothing := List.Vector.replicate 16 0

/-- In a buffer of 1500 bytes both a keepalive of `encapsulate` and the one that answers
the response fit. -/
theorem padded_packets_fit_iff_hundred :
    hundredConfig.validate = .ok () ∧
      (∃ datagram t' e', (hundredTunn.storeSession 0 (.new 1 1 zeroKey zeroKey)).encapsulate [] 1500
        ({} : StillMachine) = .ok (.writeToNetwork datagram, t', e') ∧ datagram.length ≤ 1500) ∧
      ∃ datagram t' e', hundredTunnAwaiting.handleHandshakeResponse hundredResponse 1500
        ({} : StillMachine) = .ok (.ok (.writeToNetwork datagram), t', e') ∧
          datagram.length ≤ 1500 := by
  have hvalid : hundredConfig.validate = .ok () := by decide
  obtain ⟨hsend, -⟩ := padded_packets_fit_iff (ε := StillMachine) hvalid
    (t := hundredTunn.storeSession 0 (.new 1 1 zeroKey zeroKey))
    ⟨rfl, rfl, rfl, rfl, rfl, rfl⟩ rfl 1500
  obtain ⟨-, -, hanswer⟩ := padded_packets_fit_iff (ε := StillMachine) hvalid
    (t := hundredTunnAwaiting) ⟨rfl, rfl, rfl, rfl, rfl, rfl⟩ rfl 1500
  obtain ⟨datagram, t', e', hok, hfits, -⟩ := hsend _ [] {} rfl (by decide)
  obtain ⟨keepalive, t'', e'', hok', hfits', -⟩ :=
    (hanswer hundredResponse {} _ _ _ rfl (by decide)).mpr (.inr (.inr (by decide)))
  exact ⟨hvalid, ⟨datagram, t', e', hok, hfits⟩, keepalive, t'', e'', hok', hfits'⟩

/-- A buffer of 64 bytes holds the 32-byte keepalive, but the padding is measured
against all 64 of them: the response panics. -/
theorem response_keepalive_panics :
    hundredConfig.validate = .ok () ∧
      (∃ datagram e', hundredTunn.formatHandshakeInitiation 148 false ({} : StillMachine)
        = .ok (.writeToNetwork datagram, hundredTunnAwaiting, e')) ∧
      hundredTunnAwaiting.datagramSize 0 ≤ 64 ∧
      hundredTunnAwaiting.handleHandshakeResponse hundredResponse 64 ({} : StillMachine)
        = .panic "The destination buffer is too small" :=
  ⟨by decide, ⟨_, _, rfl⟩, by decide, rfl⟩

end Tunn
