import AwgTun.Noise.Framing
import AwgTun.Noise.Confirmed
import AwgTun.Noise.Turn

/-!
# The queue of blocked packets

`encapsulate` puts a packet that has no session yet at the back of `packet_queue`.  The
flush step, `decapsulate` on an empty datagram, takes the packet at the head and calls
`encapsulate` for it.  With a session this sends the packet or puts it back.  Without one
`encapsulate` queues the packet itself, at the back, before it starts a handshake, finds
one in progress, or is refused; and if it is refused, the flush puts the packet back a
second time.

* `Tunn.Step.queueBounded`, `Tunn.Tracked.queueBounded` — no operation lets the queue grow
  beyond its depth.
* `Tunn.flush_without_session` — what a flush makes of the queue when there is no session.
* `Tunn.flush_keeps_queue_iff` — when a flush sends the head or leaves the queue alone.
* `Tunn.flush_disturbs_queue` — two flushes that do neither.
-/

open Control Bytes

/-- Moving the head of a list to its end changes nothing exactly if all elements are equal. -/
theorem rotate_eq_self_iff {α : Type} {a : α} {as : List α} :
    as ++ [a] = a :: as ↔ ∀ b ∈ as, b = a := by
  induction as with
  | nil => simp
  | cons b as ih =>
    rw [List.cons_append, List.cons.injEq, List.forall_mem_cons]
    constructor
    · rintro ⟨rfl, hrest⟩
      exact ⟨rfl, ih.mp hrest⟩
    · rintro ⟨rfl, hrest⟩
      exact ⟨rfl, ih.mpr hrest⟩

namespace Tunn

variable {C : Crypto} {ε : Type} [Env ε] {t t' : Tunn C} {dstLen : Nat} {e e' : ε} {r : TunnResult}
  {rest : List Bytes} {packet : Bytes} {force : Bool} {s : Session} {src : Bytes}

/-! ## The depth of the queue -/

/-- The queue holds no more than it may. -/
def QueueBounded (t : Tunn C) : Prop := t.packetQueue.length ≤ maxQueueDepth

instance (t : Tunn C) : Decidable t.QueueBounded :=
  inferInstanceAs (Decidable (t.packetQueue.length ≤ maxQueueDepth))

theorem formatHandshakeInitiation_packetQueue
    (h : t.formatHandshakeInitiation dstLen force e = .ok (r, t', e')) :
    t'.packetQueue = t.packetQueue := by
  obtain ⟨handshake, timers, queue, rfl⟩ := formatHandshakeInitiation_changes h
  rfl

theorem sealPacket_packetQueue (h : t.sealPacket s src dstLen e = .ok (r, t', e')) :
    t'.packetQueue = t.packetQueue := by
  rcases sealPacket_cases h with ⟨-, rfl⟩ | ⟨datagram, s', -, rfl, -⟩ <;> rfl

theorem queueBounded_queuePacket (h : t.QueueBounded) (packet : Bytes) :
    (t.queuePacket packet).QueueBounded := by
  unfold queuePacket
  split_ifs with hroom
  · simpa [QueueBounded] using hroom
  · exact h

theorem queueBounded_requeuePacket (h : t.QueueBounded) (packet : Bytes) :
    (t.requeuePacket packet).QueueBounded := by
  unfold requeuePacket
  split_ifs with hroom
  · simpa [QueueBounded] using hroom
  · exact h

theorem queueBounded_encapsulate (hbound : t.QueueBounded)
    (h : t.encapsulate src dstLen e = .ok (r, t', e')) :
    t'.QueueBounded := by
  rw [encapsulate] at h
  split at h
  · rw [QueueBounded, sealPacket_packetQueue h]
    exact hbound
  · rw [QueueBounded, formatHandshakeInitiation_packetQueue h]
    exact queueBounded_queuePacket hbound src

theorem queueBounded_sendQueuedPacket (hbound : t.QueueBounded)
    (h : t.sendQueuedPacket dstLen e = .ok (r, t', e')) :
    t'.QueueBounded := by
  rw [sendQueuedPacket] at h
  split at h
  · cases h
    exact hbound
  · rename_i packet rest hqueue
    obtain ⟨⟨r₁, t₁, e₁⟩, hencapsulate, h⟩ := bind_eq_ok.mp h
    have hrest : ({ t with packetQueue := rest } : Tunn C).QueueBounded := by
      simp only [QueueBounded, hqueue, List.length_cons] at hbound ⊢
      omega
    have hbound₁ := queueBounded_encapsulate hrest hencapsulate
    simp only at h
    split at h
    · cases h
      exact queueBounded_requeuePacket hbound₁ packet
    · cases h
      exact hbound₁

/-- The decisions of a tick leave the queue alone or empty it. -/
theorem timerAction_packetQueue {now : Duration} {action : TimerAction}
    (h : t.timerAction now e = .ok (action, t', e')) :
    t'.packetQueue = t.packetQueue ∨ t'.packetQueue = [] := by
  rcases timerAction_cases h with ⟨-, rfl, -⟩ | ⟨cookieOld, -, hdecides⟩
  · exact .inl rfl
  · cases hdecides with
    | gaveUp => exact .inr rfl
    | inFlight => exact .inl rfl
    | idle _ h =>
      obtain ⟨-, timers, rfl, -⟩ := idleAction_timers h
      exact .inl rfl

theorem queueBounded_updateTimers (hbound : t.QueueBounded)
    (h : t.updateTimers dstLen e = .ok (r, t', e')) :
    t'.QueueBounded := by
  obtain ⟨⟨now, t₁, e₁⟩, hstart, h⟩ := bind_eq_ok.mp h
  obtain ⟨⟨action, t₂, e₂⟩, haction, h⟩ := bind_eq_ok.mp h
  have hqueue₁ : t₁.packetQueue = t.packetQueue := by
    obtain ⟨-, -, hsessions⟩ := startTimers_eq_ok hstart
    obtain ⟨-, rfl⟩ := updateSessionTimers_eq_ok hsessions
    rfl
  have hbound₂ : t₂.QueueBounded := by
    unfold QueueBounded at *
    rcases timerAction_packetQueue haction with hsame | hempty
    · rw [hsame, hqueue₁]
      exact hbound
    · simp [hempty]
  cases action with
  | nothing =>
    cases h
    exact hbound₂
  | expired =>
    cases h
    exact hbound₂
  | handshake =>
    rw [QueueBounded, formatHandshakeInitiation_packetQueue h]
    exact hbound₂
  | keepalive => exact queueBounded_encapsulate hbound₂ h

theorem receive_packetQueue {srcAddr : Option IpAddr} {datagram : Bytes} {received : Received}
    (h : t.receive srcAddr datagram dstLen e = .ok (received, t', e')) :
    t'.packetQueue = t.packetQueue := by
  obtain ⟨rateLimiter, rfl⟩ := receive_eq h
  rfl

theorem validateDecapsulatedPacket_packetQueue (t : Tunn C) (packet : Bytes) :
    (t.validateDecapsulatedPacket packet).2.packetQueue = t.packetQueue := by
  have h := t.validated packet
  generalize t.validateDecapsulatedPacket packet = after at h ⊢
  cases h <;> rfl

theorem setCurrentSession_packetQueue (t : Tunn C) (idx : Nat) :
    (t.setCurrentSession idx).packetQueue = t.packetQueue := by
  unfold setCurrentSession
  split_ifs <;> rfl

/-- Handling a packet never touches the queue. -/
theorem handlePacket_packetQueue {p : Packet} {result : Except WireGuardError TunnResult}
    (h : t.handlePacket p dstLen e = .ok (result, t', e')) : t'.packetQueue = t.packetQueue := by
  cases p with
  | handshakeInit p =>
    simp only [handlePacket, handleHandshakeInit] at h
    split_ifs at h
    · cases h
      rfl
    · obtain ⟨⟨result, handshake, e₁⟩, -, h⟩ := bind_eq_ok.mp h
      simp only at h
      split at h
      · cases h
        rfl
      · obtain ⟨⟨datagram, e₂⟩, -, h⟩ := bind_eq_ok.mp h
        cases h
        rfl
  | handshakeResponse p =>
    simp only [handlePacket, handleHandshakeResponse] at h
    split_ifs at h
    · cases h
      rfl
    · split at h
      · cases h
        rfl
      · obtain ⟨⟨datagram, session', e₂⟩, -, h⟩ := bind_eq_ok.mp h
        cases h
        exact setCurrentSession_packetQueue _ _
  | packetCookieReply p =>
    simp only [handlePacket, handleCookieReply] at h
    split at h
    · cases h
      rfl
    · cases h
      rfl
  | packetData p =>
    simp only [handlePacket, handleData] at h
    split at h
    · cases h
      rfl
    · obtain ⟨⟨result, s'⟩, -, h⟩ := bind_eq_ok.mp h
      simp only at h
      split at h
      · cases h
        rfl
      · cases h
        exact (validateDecapsulatedPacket_packetQueue _ _).trans (setCurrentSession_packetQueue _ _)

/-- **One step** leaves the queue within its depth. -/
theorem Step.queueBounded {event : Event} (hstep : Step ε t event t') (h : t.QueueBounded) :
    t'.QueueBounded := by
  have hsame (hqueue : t'.packetQueue = t.packetQueue) : t'.QueueBounded := by
    rw [QueueBounded, hqueue]
    exact h
  cases hstep with
  | encapsulate hr => exact queueBounded_encapsulate h hr
  | flush hr => exact queueBounded_sendQueuedPacket h hr
  | initiate hr => exact hsame (formatHandshakeInitiation_packetQueue hr)
  | updateTimers hr => exact queueBounded_updateTimers h hr
  | receive hr => exact hsame (receive_packetQueue hr)
  | accept hr => exact hsame (handlePacket_packetQueue hr)
  | refuse hr => exact hsame (handlePacket_packetQueue hr)
  | setStaticPrivate hr =>
    simp only [Tunn.setStaticPrivate] at hr
    obtain ⟨handshake, -, hr⟩ := bind_eq_ok.mp hr
    cases hr
    exact h
  | setMtu mtu => exact h
  | resetUdpWindow => exact h
  | pollOutgoingPacket =>
    unfold Tunn.pollOutgoingPacket
    split
    · exact h
    · exact h

/-- **A whole run** does. -/
theorem Tracked.queueBounded {P : Tunn C → Prop} {g : Ledger} (h : Tracked ε P t g) :
    t.QueueBounded := by
  induction h with
  | start hnew =>
    obtain ⟨-, rfl⟩ := newWithAmnezia3_eq_ok hnew
    exact Nat.zero_le _
  | step _ hstep _ ih => exact hstep.queueBounded ih

/-! ## Initiations -/

theorem formatHandshakeInitiation_inProgress (h : t.handshake.isInProgress = true) (dstLen : Nat)
    (e : ε) : t.formatHandshakeInitiation dstLen false e = .ok (.done, t, e) := by
  simp [formatHandshakeInitiation, h]

theorem formatHandshakeInitiation_tooSmall (h : t.handshake.isInProgress = false)
    (hsmall : dstLen < t.paddingConfig.s1.toNat + handshakeInitSz) (e : ε) :
    t.formatHandshakeInitiation dstLen false e = .ok (.err .destinationBufferTooSmall, t, e) := by
  simp [formatHandshakeInitiation, h, hsmall]

/-- With room for it, an initiation that nothing holds back is sent exactly if its I-packets
can be made, and nothing else can come of the call. -/
theorem formatHandshakeInitiation_fits (h : (t.handshake.isInProgress && !force) = false)
    (hfit : t.paddingConfig.s1.toNat + handshakeInitSz ≤ dstLen)
    (hroom : t.headerProtection.isSome → 12 ≤ t.paddingConfig.s1.toNat) (e : ε) :
    ((t.formatHandshakeInitiation dstLen force e).Returns → t.ChainsGenerable) ∧
      (t.ChainsGenerable → ∃ datagram t' e' s, t.formatHandshakeInitiation dstLen force e =
        .ok (.writeToNetwork datagram, t', e') ∧ t'.handshake.state = .initSent s ∧
          s.localIndex = Handshake.succIndex t.handshake.nextIndex) := by
  have hcall := formatHandshakeInitiation.eq_1 t dstLen force e
  rw [h, if_neg Bool.false_ne_true, if_neg (by omega)] at hcall
  constructor
  · rintro ⟨x, hx⟩
    rw [hcall] at hx
    obtain ⟨⟨t₁, e₁⟩, hprepare, -⟩ := bind_eq_ok.mp hx
    exact (prepareInitiation_keeps hprepare).1
  · intro hchains
    have hreturns : (t.prepareInitiation (!t.handshake.isInProgress) e).Returns :=
      (queuePreHandshakePackets_returns_iff _ _).mpr hchains
    obtain ⟨⟨t₁, e₁⟩, hprepare⟩ := hreturns
    obtain ⟨timers, queue, rfl⟩ := prepareInitiation_eq hprepare
    rw [hcall]
    simp only [hprepare, ok_bind, Handshake.formatHandshakeInitiation_eq _
      (show handshakeInitSz ≤ dstLen - t.paddingConfig.s1.toNat by omega)]
    generalize hafter : (t.handshake.afterInitiation (_ : ε)).appendMac1AndMac2 _ _ = made
    generalize hleft : (Env.instantNow (_ : ε)).2 = e₃
    obtain ⟨datagram, e₄, hframe⟩ := frame_returns (t := { t with
      handshake := made.2, timers := timers, networkOutgoing := queue }) hroom made.1 dstLen e₃
    rw [hframe, ok_bind, ← hafter]
    refine ⟨datagram, _, e₄, t.handshake.initiationState (t.headerConfig.init.generate e₁).2, rfl,
      ?_,
      rfl⟩
    split_ifs <;> rfl

/-! ## Flushing -/

/-- A flush does one of two things: it sends the packet at the head, sealed by the session
in use, and removes it; or it leaves the queue as it was. -/
def FlushKeeps (t : Tunn C) (srcAddr : Option IpAddr) (dstLen : Nat) (e : ε) : Prop :=
  ∃ r t' e', t.decapsulate srcAddr [] dstLen e = .ok (r, t', e') ∧
    ((∃ packet rest s contentPadding datagram, t.packetQueue = packet :: rest ∧
        t'.packetQueue = rest ∧ t.sessions (slotOf t.current) = some s ∧
        r = .writeToNetwork datagram ∧ t.Carries s packet contentPadding datagram) ∨
      t'.packetQueue = t.packetQueue)

/-- With a session, a flush sends the head or puts it back. -/
theorem flushKeeps_of_session (hroom : t.NonceRoom) (hbound : t.QueueBounded)
    (hs : t.sessions (slotOf t.current) = some s) (srcAddr : Option IpAddr) (dstLen : Nat) (e : ε) :
    t.FlushKeeps srcAddr dstLen e := by
  cases hqueue : t.packetQueue with
  | nil => exact ⟨.done, t, e, by simp [decapsulate, sendQueuedPacket, hqueue], .inr rfl⟩
  | cons packet rest =>
    have hflush : t.decapsulate srcAddr [] dstLen e = t.sendQueuedPacket dstLen e := rfl
    have hpacket : ({ t with packetQueue := rest } : Tunn C).encapsulate packet dstLen e =
        ({ t with packetQueue := rest } : Tunn C).sealPacket s packet dstLen e := by
      simp only [encapsulate, hs]
    by_cases hfit : t.datagramSize packet.length ≤ dstLen
    · obtain ⟨datagram, t', e', hseal, hcarries⟩ := sealPacket_spec
        (t := { t with packetQueue := rest }) hroom s hfit e
      refine ⟨.writeToNetwork datagram, t', e', ?_, .inl ⟨packet, rest, s, _, datagram, hqueue,
        sealPacket_packetQueue hseal, hs, rfl, hcarries⟩⟩
      simp only [hflush, sendQueuedPacket, hqueue, hpacket, hseal]
      rfl
    · refine ⟨.done, t, e, ?_, .inr rfl⟩
      have hlen : rest.length < maxQueueDepth := by
        simpa [QueueBounded, hqueue] using hbound
      have hseal :=
        sealPacket_tooSmall (t := { t with packetQueue := rest }) s (Nat.not_le.mp hfit) e
      simp only [hflush, sendQueuedPacket, hqueue, hpacket, hseal, ok_bind,
        requeuePacket, if_pos hlen]
      rw [← hqueue]
      rfl

/-- Without a session, `encapsulate` moves the head of the queue to the back and calls for
a handshake. -/
theorem flush_eq_initiation (hbound : t.QueueBounded) (hs : t.sessions (slotOf t.current) = none)
    (hqueue : t.packetQueue = packet :: rest) (srcAddr : Option IpAddr) (dstLen : Nat) (e : ε) :
    t.decapsulate srcAddr [] dstLen e =
      ({ t with packetQueue := rest ++ [packet] } : Tunn C).formatHandshakeInitiation dstLen false e
        >>= fun x => match x.1 with
          | .err _ => .ok (.done, x.2.1.requeuePacket packet, x.2.2)
          | r => .ok (r, x.2.1, x.2.2) := by
  have hlen : rest.length < maxQueueDepth := by
    simpa [QueueBounded, hqueue] using hbound
  simp only [decapsulate, List.isEmpty_nil, if_true, sendQueuedPacket, hqueue, encapsulate, hs,
    queuePacket, if_pos hlen]
  rfl

/-- What a flush without a session makes of a queue with `packet` at its head: when the
initiation is refused, a second copy goes to the front. -/
def flushedQueue (t : Tunn C) (packet : Bytes) (rest : List Bytes) (dstLen : Nat) : List Bytes :=
  if t.handshake.isInProgress = false ∧ dstLen < t.paddingConfig.s1.toNat + handshakeInitSz ∧
      rest.length + 1 < maxQueueDepth then packet :: (rest ++ [packet])
  else rest ++ [packet]

/-- **A flush without a session.**  It returns unless it is to start a handshake whose
I-packets cannot be made, and leaves `flushedQueue`. -/
theorem flush_without_session (hbound : t.QueueBounded)
    (hroom : t.headerProtection.isSome → 12 ≤ t.paddingConfig.s1.toNat)
    (hs : t.sessions (slotOf t.current) = none) (hqueue : t.packetQueue = packet :: rest)
    (srcAddr : Option IpAddr) (dstLen : Nat) (e : ε) :
    ((t.decapsulate srcAddr [] dstLen e).Returns ↔ t.handshake.isInProgress = true ∨
      dstLen < t.paddingConfig.s1.toNat + handshakeInitSz ∨ t.ChainsGenerable) ∧
    ∀ r t' e', t.decapsulate srcAddr [] dstLen e = .ok (r, t', e') →
      t'.packetQueue = t.flushedQueue packet rest dstLen := by
  rw [flush_eq_initiation hbound hs hqueue]
  let t₁ : Tunn C := { t with packetQueue := rest ++ [packet] }
  by_cases hprogress : t.handshake.isInProgress = true
  · -- the packet stays at the back
    rw [formatHandshakeInitiation_inProgress (t := t₁) hprogress, ok_bind]
    refine ⟨by simp [hprogress], ?_⟩
    intro r t' e' hr
    cases hr
    simp [flushedQueue, hprogress, t₁]
  · have hidle : t.handshake.isInProgress = false := by simpa using hprogress
    by_cases hsmall : dstLen < t.paddingConfig.s1.toNat + handshakeInitSz
    · -- and is put back at the front as well, if there is room
      rw [formatHandshakeInitiation_tooSmall (t := t₁) hidle hsmall, ok_bind]
      refine ⟨by simp [hsmall], ?_⟩
      intro r t' e' hr
      cases hr
      by_cases hroom' : rest.length + 1 < maxQueueDepth
      · simp [flushedQueue, requeuePacket, hidle, hsmall, hroom', t₁]
      · simp [flushedQueue, requeuePacket, hroom', t₁]
    · -- or a handshake is started
      obtain ⟨hchains, hsend⟩ := formatHandshakeInitiation_fits (t := t₁)
        (show (t₁.handshake.isInProgress && !false) = false by simpa using hidle)
        (Nat.not_lt.mp hsmall) hroom e
      constructor
      · constructor
        · rintro ⟨x, hx⟩
          obtain ⟨y, hy, -⟩ := bind_eq_ok.mp hx
          exact .inr (.inr (hchains ⟨y, hy⟩))
        · rintro (hp | hs | hg)
          · exact absurd hp hprogress
          · exact absurd hs hsmall
          · obtain ⟨datagram, t', e', -, hcall, -⟩ := hsend hg
            rw [hcall]
            exact ⟨_, rfl⟩
      · intro r t' e' hr
        obtain ⟨y, hy, hr⟩ := bind_eq_ok.mp hr
        obtain ⟨datagram, t'', e'', -, hcall, -⟩ := hsend (hchains ⟨y, hy⟩)
        have hkeep := formatHandshakeInitiation_packetQueue hcall
        rw [hcall] at hy
        cases hy
        cases hr
        rw [hkeep]
        simp [flushedQueue, hsmall, t₁]

theorem flushedQueue_eq_iff :
    t.flushedQueue packet rest dstLen = packet :: rest ↔
      (∀ q ∈ rest, q = packet) ∧ (t.handshake.isInProgress = true ∨
        t.paddingConfig.s1.toNat + handshakeInitSz ≤ dstLen ∨ maxQueueDepth ≤ rest.length + 1) := by
  unfold flushedQueue
  split_ifs with hcopy
  · obtain ⟨hidle, hsmall, hroom⟩ := hcopy
    refine iff_of_false ?_ ?_
    · intro heq
      have hlen := congrArg List.length heq
      simp at hlen
    · rintro ⟨-, hp | hfit | hfull⟩
      · simp [hidle] at hp
      · omega
      · omega
  · rw [rotate_eq_self_iff, iff_self_and]
    intro _
    by_contra hno
    push Not at hno
    exact hcopy ⟨by simpa using hno.1, hno.2.1, hno.2.2⟩

/-- When a flush behaves: there is nothing to flush, or there is a session, or all the
packets that wait are equal and the initiation is not refused with room left in the
queue. -/
def FlushSafe (t : Tunn C) (dstLen : Nat) : Prop :=
  t.packetQueue = [] ∨ (t.sessions (slotOf t.current)).isSome ∨
    ((∀ p ∈ t.packetQueue, ∀ q ∈ t.packetQueue, p = q) ∧
      (t.handshake.isInProgress = true ∨
        (t.paddingConfig.s1.toNat + handshakeInitSz ≤ dstLen ∧ t.ChainsGenerable) ∨
        (dstLen < t.paddingConfig.s1.toNat + handshakeInitSz ∧
          t.packetQueue.length = maxQueueDepth)))

/-- **When a flush keeps the queue.**  For every tunnel with a valid configuration whose
queue is within its depth: a flush sends the packet at the head and removes it, or leaves
the queue as it was, exactly in the states of `FlushSafe`. -/
theorem flush_keeps_queue_iff {cfg : Amnezia3Config} (hcfg : t.HasConfig cfg)
    (hvalid : cfg.validate = .ok ()) (hbound : t.QueueBounded) (srcAddr : Option IpAddr)
    (dstLen : Nat) (e : ε) : t.FlushKeeps srcAddr dstLen e ↔ t.FlushSafe dstLen := by
  have hnonce := (Amnezia3Config.validate_eq_ok hvalid).2
  cases hqueue : t.packetQueue with
  | nil =>
    refine iff_of_true ⟨.done, t, e, ?_, .inr rfl⟩ (.inl hqueue)
    simp [decapsulate, sendQueuedPacket, hqueue]
  | cons packet rest =>
    cases hs : t.sessions (slotOf t.current) with
    | some s =>
      exact iff_of_true (flushKeeps_of_session (hcfg.nonceRoom hnonce) hbound hs srcAddr dstLen e)
        (.inr (.inl (by simp [hs])))
    | none =>
      have hroom : t.headerProtection.isSome → 12 ≤ t.paddingConfig.s1.toNat := by
        intro hsome
        rw [hcfg.headerProtection, Amnezia3Config.headerProtection, Option.isSome_map] at hsome
        rw [hcfg.paddings]
        exact (hnonce hsome).s1
      obtain ⟨hreturns, hafter⟩ := flush_without_session hbound hroom hs hqueue srcAddr dstLen e
      have hkeeps : t.FlushKeeps srcAddr dstLen e ↔
          (t.decapsulate srcAddr [] dstLen e).Returns ∧
            t.flushedQueue packet rest dstLen = packet :: rest := by
        constructor
        · rintro ⟨r, t', e', hflush, ⟨_, _, s, _, _, -, -, hsome, -⟩ | hsame⟩
          · rw [hs] at hsome
            cases hsome
          · exact ⟨⟨_, hflush⟩, by rw [← hafter r t' e' hflush, hsame, hqueue]⟩
        · rintro ⟨⟨⟨r, t', e'⟩, hflush⟩, hsame⟩
          exact ⟨r, t', e', hflush, .inr (by rw [hafter r t' e' hflush, hsame, hqueue])⟩
      have hequal : (∀ p ∈ t.packetQueue, ∀ q ∈ t.packetQueue, p = q) ↔ ∀ q ∈ rest, q = packet := by
        rw [hqueue]
        constructor
        · intro hall q hq
          exact hall q (List.mem_cons_of_mem _ hq) packet List.mem_cons_self
        · intro hall p hp q hq
          have hone : ∀ x ∈ packet :: rest, x = packet := List.forall_mem_cons.mpr ⟨rfl, hall⟩
          rw [hone p hp, hone q hq]
      have hdepth : rest.length + 1 ≤ maxQueueDepth := by
        simpa [QueueBounded, hqueue] using hbound
      rw [hkeeps, hreturns, flushedQueue_eq_iff, FlushSafe, hequal, hs, hqueue]
      simp only [List.length_cons, reduceCtorEq, Option.isSome_none, Bool.false_eq_true, false_or]
      have hfull : maxQueueDepth ≤ rest.length + 1 ↔ rest.length + 1 = maxQueueDepth := by omega
      rw [hfull]
      rcases Nat.lt_or_ge dstLen (t.paddingConfig.s1.toNat + handshakeInitSz) with hsmall | hfit
      · have hno := Nat.not_le.mpr hsmall
        simp only [hsmall, hno, false_and, true_and, false_or, true_or, or_true]
      · have hno := Nat.not_lt.mpr hfit
        simp only [hfit, hno, false_and, true_and, false_or, true_or, or_true, or_false, and_true]
        exact and_comm

/-- `freshAnswered` with two packets that wait. -/
def answeredTunn : Tunn Crypto.transparent := { freshAnswered with packetQueue := [[1], [2]] }

/-- A packet that waits while there is a session goes out or stays. -/
theorem flush_keeps_queue_iff_answered :
    answeredTunn.FlushKeeps none 64 ({} : StillMachine) := by
  have hcfg : answeredTunn.HasConfig {} := ⟨rfl, rfl, rfl, rfl, rfl, rfl⟩
  exact (flush_keeps_queue_iff hcfg (by decide +kernel) (by decide) none 64
    ({} : StillMachine)).mpr (.inr (.inl rfl))

/-- A packet has been offered to `freshTunn` with a buffer that is too small. -/
def blockedTunn : Tunn Crypto.transparent := { freshTunn with packetQueue := [[1]] }

/-- **A flush that is refused duplicates a packet, and one without a session reorders them.**
Both tunnels come from `freshTunn` by calls of `encapsulate`: in the first the buffer was too
small for an initiation, in the second the handshake is in progress. -/
theorem flush_disturbs_queue :
    (freshTunn.encapsulate [1] 10 ({} : StillMachine) =
        .ok (.err .destinationBufferTooSmall, blockedTunn, {}) ∧
      blockedTunn.packetQueue = [[1]] ∧
      ∃ t' e', blockedTunn.decapsulate none [] 10 ({} : StillMachine) = .ok (.done, t', e') ∧
        t'.packetQueue = [[1], [1]]) ∧
    ∃ r₁ t₁ e₁ t₂ e₂, freshTunn.encapsulate [1] 148 ({} : StillMachine) = .ok (r₁, t₁, e₁) ∧
      t₁.encapsulate [2] 148 e₁ = .ok (.done, t₂, e₂) ∧ t₂.packetQueue = [[1], [2]] ∧
      ∃ t' e', t₂.decapsulate none [] 148 e₂ = .ok (.done, t', e') ∧
        t'.packetQueue = [[2], [1]] :=
  ⟨⟨rfl, rfl, _, _, rfl, rfl⟩, _, _, _, _, _, rfl, rfl, rfl, _, _, rfl, rfl⟩

end Tunn
