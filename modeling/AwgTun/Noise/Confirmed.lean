import AwgTun.Noise.Run

/-!
# Which session carries outgoing data

A responder must not send with a session before the peer has shown that it has it.
A `Ledger` follows a run and notes for each slot whether its session is confirmed: it
answers an initiation of ours, or a data packet has been authenticated with it since
it was made.

Sessions are stored by index modulo eight and `encapsulate` takes the one in the slot
of `current`, so what counts is whether the slot of the next index is that of
`current`.  `Tunn.sealing_session_confirmed` — in a run in which no accepted initiation
finds it so, every session that `encapsulate` seals with is confirmed.
`Tunn.unconfirmed_session_seals` — eight initiations in a row do find it so, and the
eighth session is used at once.
-/

open Control Bytes

namespace Tunn

variable {C : Crypto} {idx : Nat}

/-- For each slot: is the session in it confirmed? -/
abbrev Ledger := Fin nSessions → Bool

/-- What an event on a tunnel says about the session of a slot. -/
def Ledger.after (g : Ledger) (t : Tunn C) : Event → Ledger
  -- a responder's session is new and not confirmed
  | .accepted (.handshakeInit _) =>
      Function.update g (slotOf (Handshake.succIndex t.handshake.nextIndex).toNat) false
  -- an initiator's session is, from the start
  | .accepted (.handshakeResponse p) => Function.update g (slotOf p.receiverIdx.toNat) true
  -- a data packet confirms the session it was opened with
  | .accepted (.packetData p) => Function.update g (slotOf p.receiverIdx.toNat) true
  | _ => g

/-- The tunnels that runs from a new one lead to, with their ledgers, when every
accepted initiation finds the tunnel in a state that satisfies `P`. -/
inductive Tracked (ε : Type) [Env ε] (P : Tunn C → Prop) : Tunn C → Ledger → Prop
  | start {staticPrivate peerStaticPublic : Key} {presharedKey : Option Key}
      {persistentKeepalive : Option UInt16} {index : UInt32} {rateLimiter : Option RateLimiter}
      {amnezia : Amnezia3Config} {e e' : ε} {t : Tunn C}
      (h : newWithAmnezia3 staticPrivate peerStaticPublic presharedKey persistentKeepalive index
        rateLimiter amnezia e = (.ok t, e')) : Tracked ε P t (fun _ => false)
  | step {t t' : Tunn C} {g : Ledger} {event : Event} (h : Tracked ε P t g)
      (hstep : Step ε t event t') (hinit : ∀ p, event = .accepted (.handshakeInit p) → P t) :
      Tracked ε P t' (g.after t event)

/-- The next session will not be stored where the session in use is looked up. -/
def NextSlotFree (t : Tunn C) : Prop :=
  slotOf (Handshake.succIndex t.handshake.nextIndex).toNat ≠ slotOf t.current

/-- The session in use, if there is one, is confirmed. -/
def Safe (t : Tunn C) (g : Ledger) : Prop :=
  (t.sessions (slotOf t.current)).isSome → g (slotOf t.current) = true

variable {ε : Type} [Env ε] {t t' : Tunn C} {g : Ledger}

theorem Safe.quiet (h : Safe t g) (hquiet : Quiet t t') : Safe t' g := by
  intro hsome
  rw [hquiet.current] at hsome ⊢
  exact h (hquiet.sessions _ hsome)

/-- Writing a slot and confirming it. -/
theorem Safe.confirm (h : Safe t g) (hwrites : WritesSlot t t' idx) :
    Safe t' (Function.update g (slotOf idx) true) := by
  intro hsome
  by_cases hslot : slotOf t'.current = slotOf idx
  · rw [hslot, Function.update_self]
  · have hcurrent : t'.current = t.current :=
      hwrites.current.resolve_right fun heq => hslot (by rw [heq])
    rw [Function.update_of_ne hslot, hcurrent]
    rw [hwrites.sessions _ hslot, hcurrent] at hsome
    exact h hsome

/-- Writing a slot other than that of the session in use. -/
theorem Safe.write (h : Safe t g) (hwrites : WritesSlot t t' idx)
    (hcurrent : t'.current = t.current) (hfree : slotOf idx ≠ slotOf t.current) :
    Safe t' (Function.update g (slotOf idx) false) := by
  intro hsome
  rw [hcurrent] at hsome ⊢
  rw [Function.update_of_ne hfree.symm]
  rw [hwrites.sessions _ hfree.symm] at hsome
  exact h hsome

/-- **One step** keeps the session in use confirmed, provided an accepted initiation
finds the next slot free. -/
theorem Safe.step {event : Event} (h : Safe t g) (hstep : Step ε t event t')
    (hinit : ∀ p, event = .accepted (.handshakeInit p) → NextSlotFree t) :
    Safe t' (g.after t event) := by
  cases hstep with
  | encapsulate hr => exact h.quiet (quiet_encapsulate hr)
  | flush hr => exact h.quiet (quiet_sendQueuedPacket hr)
  | initiate hr => exact h.quiet (quiet_formatHandshakeInitiation hr)
  | updateTimers hr => exact h.quiet (quiet_updateTimers hr)
  | receive hr => exact h.quiet (quiet_receive hr)
  | refuse hr => exact h.quiet (quiet_handlePacket_error hr)
  | accept hr =>
    cases handlePacket_handled hr with
    | @answers p _ _ _ _ _ _ _ _ _ hreceive =>
      exact h.write (writesSlot_answered hreceive) rfl (hinit p rfl)
    | finishes _ hreceive => exact h.confirm (writesSlot_finished hreceive)
    | takesCookie => exact h.quiet ⟨rfl, rfl, fun _ hsome => hsome⟩
    | opens => exact h.confirm (writesSlot_opened _ _ _ _)
  | setStaticPrivate hr =>
    simp only [setStaticPrivate] at hr
    obtain ⟨handshake, -, hr⟩ := bind_eq_ok.mp hr
    cases hr
    exact fun hsome => absurd hsome Bool.false_ne_true
  | setMtu mtu => exact h
  | resetUdpWindow => exact h
  | pollOutgoingPacket =>
    unfold pollOutgoingPacket
    split
    · exact h
    · exact h

/-- **A whole run** does. -/
theorem Tracked.safe (h : Tracked ε NextSlotFree t g) : Safe t g := by
  induction h with
  | start hnew =>
    obtain ⟨-, rfl⟩ := newWithAmnezia3_eq_ok hnew
    exact fun hsome => absurd hsome Bool.false_ne_true
  | step _ hstep hinit ih => exact ih.step hstep hinit

/-- The calls of `encapsulate` an operation on a tunnel makes, by the state of the
tunnel at the call. -/
inductive Encapsulates (ε : Type) [Env ε] (t : Tunn C) : Tunn C → Prop
  | direct : Encapsulates ε t t
  | flush {packet : Bytes} {rest : List Bytes} (h : t.packetQueue = packet :: rest) :
      Encapsulates ε t { t with packetQueue := rest }
  | keepalive {now : Duration} {e e₁ e₂ : ε} {t₁ t₂ : Tunn C}
      (hstart : t.startTimers e = .ok (now, t₁, e₁))
      (haction : t₁.timerAction now e₁ = .ok (.keepalive, t₂, e₂)) : Encapsulates ε t t₂

/-- Nothing happens to the sessions before the call. -/
theorem Encapsulates.quiet {t₀ : Tunn C} (h : Encapsulates ε t t₀) : Quiet t t₀ := by
  cases h with
  | direct => exact .refl t
  | flush => exact ⟨rfl, rfl, fun _ h => h⟩
  | keepalive hstart haction =>
    exact ((aged_startTimers hstart).trans (aged_timerAction haction)).toQuiet

/-- **Only confirmed sessions seal.**  In a run of a tunnel in which no accepted
initiation finds the slot of `current` next, every call of `encapsulate` that has a
session to seal with has a confirmed one. -/
theorem sealing_session_confirmed (h : Tracked ε NextSlotFree t g) {t₀ : Tunn C}
    (hcall : Encapsulates ε t t₀) {s : Session} (hs : t₀.sessions (slotOf t₀.current) = some s) :
    g (slotOf t₀.current) = true :=
  h.safe.quiet hcall.quiet (by rw [hs]; rfl)

/-- `freshTunn` after it has sent an initiation. -/
def freshAwaiting : Tunn Crypto.transparent :=
  match freshTunn.formatHandshakeInitiation handshakeInitSz false ({} : StillMachine) with
  | .ok (_, t, _) => t
  | .error _ => freshTunn

/-- And after the response to it. -/
def freshAnswered : Tunn Crypto.transparent :=
  match freshAwaiting.handlePacket (.handshakeResponse hundredResponse) 64 ({} : StillMachine) with
  | .ok (_, t, _) => t
  | .error _ => freshAwaiting

theorem freshTunn_initiates : ∃ r e', freshTunn.formatHandshakeInitiation handshakeInitSz false
    ({} : StillMachine) = .ok (r, freshAwaiting, e') := ⟨_, _, rfl⟩

theorem freshAwaiting_answered : ∃ r e', freshAwaiting.handlePacket
    (.handshakeResponse hundredResponse) 64 ({} : StillMachine) = .ok (.ok r, freshAnswered, e') :=
  ⟨_, _, rfl⟩

theorem freshTunn_tracked (P : Tunn Crypto.transparent → Prop) :
    Tracked StillMachine P freshTunn (fun _ => false) :=
  .start (show newWithAmnezia3 zeroKey zeroKey none none 1 none {} ({} : StillMachine)
    = (.ok freshTunn, {}) from rfl)

/-- A valid initiation for `freshTunn` with a given second in its timestamp. -/
def numberedInit (n : UInt8) : HandshakeInit where
  senderIdx := 5
  unencryptedEphemeral := zeroKey
  encryptedStatic := ⟨List.replicate 48 0, rfl⟩
  encryptedTimestamp := ⟨List.replicate 7 0 ++ n :: List.replicate 20 0, rfl⟩

/-- The session of an initiator is in use and confirmed as soon as it exists.  That of an initiation
it accepts then is neither. -/
theorem sealing_session_confirmed_answering :
    ∃ (t : Tunn Crypto.transparent) (g : Ledger) (slot : Fin nSessions),
      Tracked StillMachine NextSlotFree t g ∧ (t.sessions slot).isSome ∧ g slot = false ∧
      (t.sessions (slotOf t.current)).isSome ∧ g (slotOf t.current) = true := by
  obtain ⟨r₁, e₁, hinitiate⟩ := freshTunn_initiates
  obtain ⟨r₂, e₂, hanswer⟩ := freshAwaiting_answered
  have hrun := ((freshTunn_tracked NextSlotFree).step (.initiate hinitiate) (by simp)).step
    (.accept hanswer) (by simp)
  have htest : Outcome.test (freshAnswered.handlePacket (.handshakeInit (numberedInit 1))
      handshakeRespSz ({} : StillMachine)) (fun x => x.1.isOk &&
        ((x.2.1.sessions 2).isSome && (x.2.1.sessions (slotOf x.2.1.current)).isSome)) = true := by
    decide +kernel
  obtain ⟨⟨result, t, e₃⟩, haccept, hstate⟩ := Outcome.test_eq_true_iff.mp htest
  cases result with
  | error err => cases hstate
  | ok r =>
    obtain ⟨-, hnew, hsome⟩ := by simpa only [Bool.and_eq_true] using hstate
    have hrun := hrun.step (.accept haccept) fun _ _ => show _ ≠ _ by decide +kernel
    obtain ⟨s, hs⟩ := Option.isSome_iff_exists.mp hsome
    exact ⟨t, _, 2, hrun, hnew, by decide +kernel, hsome,
      sealing_session_confirmed hrun .direct hs⟩

/-! ## Initiations in a row -/

/-- Have a tunnel accept some initiations. -/
def acceptInits : Tunn Crypto.transparent → List HandshakeInit → Option (Tunn Crypto.transparent)
  | t, [] => some t
  | t, p :: ps =>
      match t.handlePacket (.handshakeInit p) handshakeRespSz ({} : StillMachine) with
      | .ok (.ok _, t', _) => acceptInits t' ps
      | _ => none

/-- Accepting initiations confirms nothing. -/
theorem acceptInits_tracked {t t' : Tunn Crypto.transparent} {ps : List HandshakeInit}
    (ht : Tracked StillMachine (fun _ => True) t (fun _ => false))
    (h : acceptInits t ps = some t') :
    Tracked StillMachine (fun _ => True) t' (fun _ => false) := by
  induction ps generalizing t with
  | nil =>
    obtain rfl := Option.some.inj h
    exact ht
  | cons p ps ih =>
    rw [acceptInits] at h
    split at h
    · rename_i r t₁ e₁ haccept
      have hstep := ht.step (.accept haccept) fun _ _ => trivial
      rw [Ledger.after, Function.update_eq_self] at hstep
      exact ih hstep h
    · cases h

/-- **A responder sends too early.**  A fresh tunnel that accepts eight initiations
stores the eighth session in slot 0, where it looks up the session in use; nothing has
confirmed that session, and `encapsulate` seals with it. -/
theorem unconfirmed_session_seals :
    ∃ (t : Tunn Crypto.transparent) (g : Ledger), Tracked StillMachine (fun _ => True) t g ∧
      (∃ s, t.sessions (slotOf t.current) = some s) ∧ g (slotOf t.current) = false ∧
      ∃ datagram t' e', t.encapsulate [] 64 ({} : StillMachine)
        = .ok (.writeToNetwork datagram, t', e') := by
  have hrun :
    (acceptInits freshTunn ((List.range 8).map fun n => numberedInit (.ofNat (n + 1)))).map
      (fun t => ((t.sessions (slotOf t.current)).isSome, t.headerProtection.isSome,
        decide (t.datagramSize 0 ≤ 64))) = some (true, false, true) := by decide +kernel
  obtain ⟨t, haccept, hstate⟩ := Option.map_eq_some_iff.mp hrun
  simp only [Prod.mk.injEq, decide_eq_true_eq] at hstate
  obtain ⟨hsome, hprotection, hfit⟩ := hstate
  obtain ⟨s, hs⟩ := Option.isSome_iff_exists.mp hsome
  obtain ⟨datagram, t', e', hseal, -⟩ := sealPacket_spec (t := t)
    (fun hp => absurd hp (by simp [hprotection])) s
    (show t.datagramSize ([] : Bytes).length ≤ 64 from hfit) ({} : StillMachine)
  refine ⟨t, _, acceptInits_tracked (freshTunn_tracked _) haccept, ⟨s, hs⟩, rfl,
    datagram, t', e', ?_⟩
  rw [encapsulate, hs]
  exact hseal

end Tunn
