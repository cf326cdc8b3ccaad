import AwgTun.Noise.Machine
import AwgTun.Noise.Queue

/-!
# Flushing the queue of blocked packets

Callers flush by calling `decapsulate` with an empty datagram again and again for as long as it
has something to send.  A flush re-enters `encapsulate`, which without a session puts the packet
back and starts a handshake, so the queue alone does not measure the progress made.
`Tunn.flushesLeft` does: with a session it is the length of the queue, and without one it is one
until a handshake is in progress.

* `Tunn.flush_cases`: what a flush with something to send can have done.
* `Tunn.flushing_terminates`: the loop is over after one call more than there are packets, starts
  at most one handshake, and keeps the queue within its bound.
-/

open Control Bytes

namespace Tunn

variable {C : Crypto} {ε : Type} [Env ε] {t t' t'' : Tunn C} {dstLen : Nat} {e e' : ε}

/-- The arguments of a call that flushes: the buffer, and the source of random bytes and of the
time as this call finds it. -/
structure FlushCall (ε : Type) where
  srcAddr : Option IpAddr
  dstLen : Nat
  env : ε

/-- A call of `decapsulate` with an empty datagram that returned `WriteToNetwork`. -/
def Flush (t : Tunn C) (call : FlushCall ε) (t' : Tunn C) : Prop :=
  ∃ datagram e', t.decapsulate call.srcAddr [] call.dstLen call.env =
    .ok (.writeToNetwork datagram, t', e')

/-- Such calls one after the other, and the number of handshakes they started. -/
inductive Flushes : Tunn C → List (FlushCall ε) → Nat → Tunn C → Prop
  | nil (t : Tunn C) : Flushes t [] 0 t
  | sealed {t t' t'' : Tunn C} {call : FlushCall ε} {calls : List (FlushCall ε)} {starts : Nat}
      (h : t.Flush call t') (hsame : t'.handshake = t.handshake)
      (hrest : Flushes t' calls starts t'') : Flushes t (call :: calls) starts t''
  | started {t t' t'' : Tunn C} {call : FlushCall ε} {calls : List (FlushCall ε)} {starts : Nat}
      (h : t.Flush call t') (hnew : t'.handshake ≠ t.handshake)
      (hrest : Flushes t' calls starts t'') : Flushes t (call :: calls) (starts + 1) t''

/-! ## One call -/

/-- A packet that was sealed leaves the session in use where it is. -/
theorem sealPacket_writes {s : Session} {src datagram : Bytes}
    (h : t.sealPacket s src dstLen e = .ok (.writeToNetwork datagram, t', e')) :
    t'.handshake = t.handshake ∧ (t'.sessions (slotOf t'.current)).isSome := by
  rcases sealPacket_cases h with ⟨hr, -⟩ | ⟨made, s', -, rfl, -⟩
  · cases hr
  · exact ⟨rfl, by simp [afterSealing, observeDatagram]⟩

/-- An initiation that was sent is in progress. -/
theorem formatHandshakeInitiation_writes {datagram : Bytes}
    (h : t.formatHandshakeInitiation dstLen false e = .ok (.writeToNetwork datagram, t', e')) :
    t.handshake.isInProgress = false ∧ t'.handshake.isInProgress = true ∧
      t'.sessions = t.sessions ∧ t'.current = t.current := by
  rcases formatHandshakeInitiation_ends h with ⟨-, hr | hr⟩ | ⟨made, -, hsent⟩
  · cases hr
  · cases hr
  · cases hsent with
    | sent hgo hroom hprepare hmade =>
      obtain ⟨timers, queue, rfl⟩ := prepareInitiation_eq hprepare
      rw [Handshake.formatHandshakeInitiation_eq _ hroom] at hmade
      cases hmade
      exact ⟨hgo rfl, rfl, rfl, rfl⟩

/-- What a flush with something to send has done. -/
inductive Flushed (t t' : Tunn C) : Prop
  /-- It sealed the packet at the head of the queue. -/
  | sealed {packet : Bytes} (hqueue : t.packetQueue = packet :: t'.packetQueue)
      (hbefore : (t.sessions (slotOf t.current)).isSome)
      (hafter : (t'.sessions (slotOf t'.current)).isSome) (hsame : t'.handshake = t.handshake)
  /-- It started a handshake; the packet waits. -/
  | started (hqueue : 0 < t.packetQueue.length)
      (hbefore : t.sessions (slotOf t.current) = none)
      (hafter : t'.sessions (slotOf t'.current) = none)
      (hidle : t.handshake.isInProgress = false) (hprogress : t'.handshake.isInProgress = true)

theorem flush_cases (hbound : t.QueueBounded) {call : FlushCall ε} (h : t.Flush call t') :
    Flushed t t' := by
  obtain ⟨datagram, e', h⟩ := h
  cases hqueue : t.packetQueue with
  | nil =>
    simp only [decapsulate, sendQueuedPacket, hqueue, List.isEmpty_nil, if_true] at h
    cases h
  | cons packet rest =>
    cases hs : t.sessions (slotOf t.current) with
    | some s =>
      simp only [decapsulate, List.isEmpty_nil, if_true, sendQueuedPacket, hqueue, encapsulate,
        hs] at h
      obtain ⟨⟨r, t₁, e₁⟩, hseal, h⟩ := bind_eq_ok.mp h
      cases r <;> cases h
      obtain ⟨hsame, hafter⟩ := sealPacket_writes hseal
      exact .sealed (by rw [hqueue, sealPacket_packetQueue hseal]) (by simp [hs]) hafter hsame
    | none =>
      rw [flush_eq_initiation hbound hs hqueue] at h
      obtain ⟨⟨r, t₁, e₁⟩, hcall, h⟩ := bind_eq_ok.mp h
      cases r <;> cases h
      obtain ⟨hidle, hprogress, hsessions, hcurrent⟩ := formatHandshakeInitiation_writes hcall
      exact .started (by simp [hqueue]) hs (by rw [hsessions, hcurrent]; exact hs) hidle hprogress

theorem Flush.queueBounded (hbound : t.QueueBounded) {call : FlushCall ε} (h : t.Flush call t') :
    t'.QueueBounded := by
  obtain ⟨datagram, e', h⟩ := h
  simp only [decapsulate, List.isEmpty_nil, if_true] at h
  exact queueBounded_sendQueuedPacket hbound h

/-! ## The measure -/

/-- The handshakes that flushing can still start. -/
def startsLeft (t : Tunn C) : Nat :=
  if (t.sessions (slotOf t.current)).isSome || t.handshake.isInProgress then 0 else 1

/-- The calls that can still send something. -/
def flushesLeft (t : Tunn C) : Nat :=
  if (t.sessions (slotOf t.current)).isSome then t.packetQueue.length
  else min t.startsLeft t.packetQueue.length

theorem startsLeft_le (t : Tunn C) : t.startsLeft ≤ 1 := by
  unfold startsLeft
  split_ifs <;> omega

theorem flushesLeft_le (t : Tunn C) : t.flushesLeft ≤ t.packetQueue.length := by
  unfold flushesLeft
  split_ifs <;> omega

theorem Flushed.flushesLeft (h : Flushed t t') : t'.flushesLeft + 1 ≤ t.flushesLeft := by
  cases h with
  | sealed hqueue hbefore hafter =>
    simp [Tunn.flushesLeft, hbefore, hafter, hqueue]
  | started hqueue hbefore hafter hidle hprogress =>
    have hone : 1 ≤ t.packetQueue.length := hqueue
    simp [Tunn.flushesLeft, startsLeft, hbefore, hafter, hidle, hprogress, hone]

/-- A call that changes the handshake uses up the one start there is. -/
theorem Flushed.startsLeft (h : Flushed t t') :
    t'.startsLeft ≤ t.startsLeft ∧
      (t'.handshake ≠ t.handshake → t'.startsLeft + 1 ≤ t.startsLeft) := by
  cases h with
  | sealed hqueue hbefore hafter hsame =>
    exact ⟨by simp [Tunn.startsLeft, hafter], fun hnew => absurd hsame hnew⟩
  | started hqueue hbefore hafter hidle hprogress =>
    simp [Tunn.startsLeft, hbefore, hidle, hprogress]

/-! ## The loop -/

/-- **Any number of calls** that send something uses up the measure. -/
theorem Flushes.bounds {calls : List (FlushCall ε)} {starts : Nat}
    (h : Flushes t calls starts t') (hbound : t.QueueBounded) :
    calls.length ≤ t.flushesLeft ∧ starts ≤ t.startsLeft ∧ t'.QueueBounded := by
  induction h with
  | nil t => exact ⟨Nat.zero_le _, Nat.zero_le _, hbound⟩
  | sealed hflush hsame _ ih =>
    have hflushed := flush_cases hbound hflush
    obtain ⟨hcalls, hstarts, hafter⟩ := ih (hflush.queueBounded hbound)
    refine ⟨?_, hstarts.trans hflushed.startsLeft.1, hafter⟩
    have hless := hflushed.flushesLeft
    rw [List.length_cons]
    omega
  | started hflush hnew _ ih =>
    have hflushed := flush_cases hbound hflush
    obtain ⟨hcalls, hstarts, hafter⟩ := ih (hflush.queueBounded hbound)
    refine ⟨?_, ?_, hafter⟩
    · have hless := hflushed.flushesLeft
      rw [List.length_cons]
      omega
    · have hless := hflushed.startsLeft.2 hnew
      omega

/-- The loop comes to a call that has nothing to send. -/
theorem exists_flushes {left : Nat} (calls : Nat → FlushCall ε) (hbound : t.QueueBounded)
    (hleft : t.flushesLeft ≤ left) :
    ∃ n ≤ left, ∃ starts t', Flushes t ((List.range n).map calls) starts t' ∧
      ∀ t'', ¬ t'.Flush (calls n) t'' := by
  -- on what is left of the measure, for the calls from any one on
  induction left generalizing t calls with
  | zero =>
    refine ⟨0, le_rfl, 0, t, .nil t, ?_⟩
    intro t'' hflush
    have hless := (flush_cases hbound hflush).flushesLeft
    omega
  | succ left ih =>
    by_cases hflush : ∃ t₁, t.Flush (calls 0) t₁
    · obtain ⟨t₁, hflush⟩ := hflush
      have hless := (flush_cases hbound hflush).flushesLeft
      obtain ⟨n, hn, starts, t', hrest, hend⟩ :=
        ih (fun n => calls (n + 1)) (hflush.queueBounded hbound) (by omega)
      have hcalls : (List.range (n + 1)).map calls =
          calls 0 :: (List.range n).map fun n => calls (n + 1) := by
        rw [List.range_succ_eq_map, List.map_cons, List.map_map]
        rfl
      by_cases hsame : t₁.handshake = t.handshake
      · exact ⟨n + 1, by omega, starts, t', hcalls ▸ .sealed hflush hsame hrest, hend⟩
      · exact ⟨n + 1, by omega, starts + 1, t', hcalls ▸ .started hflush hsame hrest, hend⟩
    · exact ⟨0, Nat.zero_le _, 0, t, .nil t, fun t'' h => hflush ⟨t'', h⟩⟩

theorem Reached.queueBounded (h : Reached ε t) : t.QueueBounded :=
  h.invariant (P := QueueBounded) (fun _ _ _ _ _ _ _ _ _ => Nat.zero_le _)
    fun _ _ _ hstep hbound => hstep.queueBounded hbound

/-- **Flushing terminates.**  From a tunnel that can be reached, whatever buffers, random bytes
and times the calls find: as many calls can send something as there are packets in the queue, so
that the call that ends the loop is at most one more; at most one of them starts a handshake; and
the queue stays within its bound through all of them. -/
theorem flushing_terminates (h : Reached ε t) :
    (∀ (calls : List (FlushCall ε)) (starts : Nat) (t' : Tunn C), Flushes t calls starts t' →
      calls.length ≤ t.packetQueue.length ∧ starts ≤ 1 ∧ t'.packetQueue.length ≤ maxQueueDepth) ∧
    ∀ calls : Nat → FlushCall ε, ∃ n ≤ t.packetQueue.length, ∃ starts t',
      Flushes t ((List.range n).map calls) starts t' ∧
      ∀ r t'' e', t'.decapsulate (calls n).srcAddr [] (calls n).dstLen (calls n).env =
          .ok (r, t'', e') →
        (∀ datagram, r ≠ .writeToNetwork datagram) ∧ t''.packetQueue.length ≤ maxQueueDepth := by
  have hbound := h.queueBounded
  constructor
  · intro calls starts t' hflushes
    obtain ⟨hcalls, hstarts, hafter⟩ := hflushes.bounds hbound
    exact ⟨hcalls.trans t.flushesLeft_le, hstarts.trans t.startsLeft_le, hafter⟩
  · intro calls
    obtain ⟨n, hn, starts, t', hflushes, hend⟩ := exists_flushes calls hbound t.flushesLeft_le
    refine ⟨n, hn, starts, t', hflushes, ?_⟩
    intro r t'' e' hcall
    constructor
    · rintro datagram rfl
      exact hend t'' ⟨datagram, e', hcall⟩
    · simp only [decapsulate, List.isEmpty_nil, if_true] at hcall
      exact queueBounded_sendQueuedPacket (hflushes.bounds hbound).2.2 hcall

/-- The packet that `blockedTunn` holds takes one call, which starts a handshake, and no
more. -/
theorem flushing_terminates_blocked :
    Reached StillMachine blockedTunn ∧
    ∃ t', Flushes blockedTunn [(⟨none, 148, {}⟩ : FlushCall StillMachine)] 1 t' ∧
      ∀ (call : FlushCall StillMachine) (t'' : Tunn Crypto.transparent), ¬ t'.Flush call t'' := by
  have hoffer : freshTunn.encapsulate [1] 10 ({} : StillMachine) =
      .ok (.err .destinationBufferTooSmall, blockedTunn, {}) := rfl
  have hreached : Reached StillMachine blockedTunn := freshTunn_reached.step (.encapsulate hoffer)
  have hcall : ∃ t', blockedTunn.Flush (⟨none, 148, {}⟩ : FlushCall StillMachine) t' :=
    ⟨_, _, _, rfl⟩
  obtain ⟨t₁, hcall⟩ := hcall
  have hprogress : t₁.handshake.isInProgress = true := by
    cases flush_cases hreached.queueBounded hcall with
    | sealed _ hbefore => cases hbefore
    | started _ _ _ _ hprogress => exact hprogress
  have hnew : t₁.handshake ≠ blockedTunn.handshake := by
    intro hsame
    rw [hsame] at hprogress
    cases hprogress
  have hone := Flushes.started hcall hnew (.nil t₁)
  refine ⟨hreached, t₁, hone, ?_⟩
  intro call t₂ hcall₂
  have htwo : ∃ starts, Flushes blockedTunn [⟨none, 148, {}⟩, call] starts t₂ := by
    by_cases hsame : t₂.handshake = t₁.handshake
    · exact ⟨_, .started hcall hnew (.sealed hcall₂ hsame (.nil t₂))⟩
    · exact ⟨_, .started hcall hnew (.started hcall₂ hsame (.nil t₂))⟩
  obtain ⟨starts, htwo⟩ := htwo
  have hlen := ((flushing_terminates hreached).1 _ _ _ htwo).1
  simp [blockedTunn] at hlen

end Tunn
