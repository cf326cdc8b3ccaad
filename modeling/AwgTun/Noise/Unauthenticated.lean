import AwgTun.Noise.Handlers
import AwgTun.Noise.Padding

/-!
# Transport packets that no session accepts

A transport packet that fails its checks leaves the sessions, their replay windows,
the queues, the handshake, the timers and the counters as they were.  The one thing
`handle_data` does before the checks is to widen the UDP window to the size of the
packet.  `Tunn.decapsulate_unauthenticated_iff` says what the tunnel is afterwards, and
that it is the tunnel before exactly when the packet was no larger than the window.
-/

open Control Bytes

namespace Tunn

variable {C : Crypto} {ε : Type} [Env ε] {t t' t₁ : Tunn C} {err : WireGuardError} {dstLen : Nat}
  {p : PacketData}

/-- The window already covers a datagram that is no larger. -/
theorem observeDatagram_eq_self_iff (t : Tunn C) (size : Nat) :
    t.observeDatagram size = t ↔ min size (2 ^ 32 - 1) ≤ t.udpWindow.toNat := by
  have hwindow := observeDatagram_udpWindow t size
  constructor
  · intro h
    rw [h] at hwindow
    omega
  · intro h
    have hsame : (t.observeDatagram size).udpWindow = t.udpWindow :=
      UInt32.toNat_inj.mp (by omega)
    calc t.observeDatagram size
        = { t with udpWindow := (t.observeDatagram size).udpWindow } := rfl
      _ = t := by rw [hsame]

/-- A refused transport packet widens the window and does nothing else. -/
theorem handleData_error {e e' : ε} (h : t.handleData p dstLen e = .ok (.error err, t', e')) :
    t' = t.observeDatagram (t.observedSize p) := by
  cases handleData_handled h with
  | refuses hkind => exact absurd rfl (hkind p)
  | drops => rfl

/-- Finding a transport packet in a datagram changes nothing. -/
theorem receive_packetData {srcAddr : Option IpAddr} {datagram : Bytes} {e e₁ : ε}
    (h : t.receive srcAddr datagram dstLen e = .ok (.packet (.packetData p), t₁, e₁)) :
    t₁ = t := by
  simp only [receive] at h
  obtain ⟨payload, -, h⟩ := bind_eq_ok.mp h
  split at h
  · obtain ⟨packet, -, h⟩ := bind_eq_ok.mp h
    cases h
    rfl
  · obtain ⟨stripped, -, h⟩ := bind_eq_ok.mp h
    rw [verify_of_not_handshake t srcAddr dstLen e (verify_packet h) rfl] at h
    cases h
    rfl

/-- The only error of an accepted packet is a bad inner packet. -/
theorem validateDecapsulatedPacket_err {packet : Bytes}
    (h : (t.validateDecapsulatedPacket packet).1 = .err err) : err = .invalidPacket := by
  have hafter := t.validated packet
  generalize t.validateDecapsulatedPacket packet = after at h hafter
  cases hafter <;> cases h
  rfl

/-- The only error among the results of a handler is a bad inner packet. -/
theorem Handled.ok_err {p : Packet} {result : Except WireGuardError TunnResult}
    (h : Handled ε t dstLen p result t') (herr : result = .ok (.err err)) :
    err = .invalidPacket := by
  cases h with
  | opens => exact validateDecapsulatedPacket_err (Except.ok.inj herr)
  | refuses => cases herr
  | answers => cases herr
  | finishes => cases herr
  | takesCookie => cases herr
  | drops => cases herr

/-- The errors of a transport packet that no session accepts. -/
def unauthenticatedErrors : List WireGuardError :=
  [.noCurrentSession, .wrongIndex, .invalidCounter, .duplicateCounter, .invalidAeadTag]

/-- **What an unauthenticated transport packet changes.**  In any state, a non-empty
datagram that is taken for a transport packet and that no session accepts widens the
window to its size; so it changes nothing exactly when the window covered it. -/
theorem decapsulate_unauthenticated_iff {srcAddr : Option IpAddr} {datagram : Bytes} {dstLen : Nat}
    {e e₁ e' : ε} {p : PacketData} {err : WireGuardError} (hdatagram : datagram ≠ [])
    (hreceive : t.receive srcAddr datagram dstLen e = .ok (.packet (.packetData p), t₁, e₁))
    (h : t.decapsulate srcAddr datagram dstLen e = .ok (.err err, t', e'))
    (herr : err ∈ unauthenticatedErrors) :
    t' = t.observeDatagram (t.observedSize p) ∧
      (t' = t ↔ min (t.observedSize p) (2 ^ 32 - 1) ≤ t.udpWindow.toNat) := by
  have hchanged : t' = t.observeDatagram (t.observedSize p) := by
    obtain rfl := receive_packetData hreceive
    rw [decapsulate, if_neg (by simpa using hdatagram), hreceive, ok_bind] at h
    obtain ⟨⟨result, t₂, e₂⟩, hhandle, h⟩ := bind_eq_ok.mp h
    cases result with
    | error err' =>
      cases h
      exact handleData_error hhandle
    | ok r =>
      cases h
      have hinvalid := (handleData_handled hhandle).ok_err rfl
      rw [hinvalid] at herr
      exact absurd herr (by decide)
  exact ⟨hchanged, by rw [hchanged, observeDatagram_eq_self_iff]⟩

/-- A tunnel with the default configuration, as it is made. -/
def freshTunn : Tunn Crypto.transparent :=
  (ofConfig zeroKey zeroKey none none 1 none {} ({} : StillMachine)).1

/-- `n` zero bytes behind the standard transport type. -/
def forgedDatagram (n : Nat) : Bytes := [4, 0, 0, 0] ++ List.replicate n 0

/-- 32 bytes from nowhere leave a fresh tunnel as it is. -/
theorem decapsulate_unauthenticated_iff_short :
    ∃ t' e', freshTunn.decapsulate none (forgedDatagram 28) 1500 ({} : StillMachine)
      = .ok (.err .noCurrentSession, t', e') ∧ t' = freshTunn := by
  have hreceive : freshTunn.receive none (forgedDatagram 28) 1500 ({} : StillMachine)
      = .ok (.packet (.packetData ⟨0, 0, List.replicate 16 0⟩), freshTunn, {}) := rfl
  have h : ∃ t' e', freshTunn.decapsulate none (forgedDatagram 28) 1500 ({} : StillMachine)
      = .ok (.err .noCurrentSession, t', e') := ⟨_, _, rfl⟩
  obtain ⟨t', e', h⟩ := h
  exact ⟨t', e', h, (decapsulate_unauthenticated_iff (by decide) hreceive h (by decide)).2.mpr
    (by decide)⟩

/-- 501 bytes from nowhere widen its window from 500 to 501. -/
theorem forged_datagram_widens_window :
    ∃ t' e', freshTunn.decapsulate none (forgedDatagram 497) 1500 ({} : StillMachine)
      = .ok (.err .noCurrentSession, t', e') ∧
      freshTunn.udpWindow = 500 ∧ t'.udpWindow = 501 ∧ t' ≠ freshTunn := by
  have hrun : Outcome.test (freshTunn.decapsulate none (forgedDatagram 497) 1500
      ({} : StillMachine)) (fun x => x.1 == .err .noCurrentSession && x.2.1.udpWindow == 501) =
        true := by decide +kernel
  obtain ⟨⟨r, t', e'⟩, h, hrun⟩ := Outcome.test_eq_true_iff.mp hrun
  simp only [Bool.and_eq_true, beq_iff_eq] at hrun
  obtain ⟨rfl, hwindow⟩ := hrun
  refine ⟨t', e', h, rfl, hwindow, ?_⟩
  rintro rfl
  exact absurd hwindow (by decide)

end Tunn
