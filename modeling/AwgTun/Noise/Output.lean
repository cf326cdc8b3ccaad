import AwgTun.Noise.Queue
import AwgTun.Noise.Transport

/-!
# What a call puts out

A call of a tunnel hands its caller at most one datagram, in its result; the I-packets and the
junk that have to go before an initiation wait in `network_outgoing`, from where the caller
takes them with `poll_outgoing_packet`.  One inversion lemma for each operation says what the
datagram is and what has become of that queue.

* `Tunn.coverTraffic` — what `queue_pre_handshake_packets` queues.
* `Tunn.Initiates` — an initiation, with the cover traffic that was queued for it.
* `Tunn.Yields` — the other results: none of them adds to the queue.
* `Tunn.Output` — either of the two.
* `Tunn.Step.outgoing` — whatever waits in the queue after a step waited there before, or is cover
  traffic.
-/

open Control Bytes

namespace Tunn

variable {C : Crypto} {ε : Type} [Env ε] {t t' t₀ : Tunn C} {r : TunnResult} {e e' : ε}
  {dstLen : Nat} {srcAddr : Option IpAddr} {datagram : Bytes} {force : Bool} {src : Bytes}
  {p : Packet}

/-! ## Cover traffic -/

/-- What `queue_pre_handshake_packets` queues: the I-packets, then the junk. -/
def coverTraffic (t : Tunn C) (e : ε) : Outcome (List Bytes × ε) := do
  let (packets, e) ← queueChains t.initPacketConfig.activeChains [] e
  let (junk, e) := t.junkConfig.generateJunkPackets e
  return (packets ++ junk, e)

/-- The I-packets follow what was queued before. -/
theorem queueChains_eq (chains : List CpsChain) (queue : List Bytes) (e : ε) :
    queueChains chains queue e =
      queueChains chains [] e >>= fun r => .ok (queue ++ r.1, r.2) := by
  induction chains generalizing queue e with
  | nil => simp [queueChains]
  | cons chain chains ih =>
    simp only [queueChains, bind_assoc]
    congr 1
    funext r
    rw [ih, ih (if r.1.isEmpty = true then [] else [] ++ [r.1]), bind_assoc]
    congr 1
    funext rest
    split_ifs <;> simp

theorem queuePreHandshakePackets_eq_ok (h : t.queuePreHandshakePackets e = .ok (t', e')) :
    ∃ cover, t.coverTraffic e = .ok (cover, e') ∧
      t' = { t with networkOutgoing := t.networkOutgoing ++ cover } := by
  rw [queuePreHandshakePackets, queueChains_eq, bind_assoc] at h
  obtain ⟨⟨packets, e₁⟩, hchains, h⟩ := bind_eq_ok.mp h
  rcases hjunk : t.junkConfig.generateJunkPackets e₁ with ⟨junk, e₂⟩
  simp only [ok_bind, hjunk] at h
  cases h
  refine ⟨packets ++ junk, ?_, by simp⟩
  simp only [coverTraffic, hchains, ok_bind, hjunk]
  rfl

/-- What precedes an initiation: new timers, and cover traffic at the end of the queue. -/
theorem prepareInitiation_cover {starting : Bool}
    (h : t.prepareInitiation starting e = .ok (t', e')) :
    ∃ timers cover, t' = { t with timers, networkOutgoing := t.networkOutgoing ++ cover } ∧
      ∃ e₀ e₁ : ε, t.coverTraffic e₀ = .ok (cover, e₁) := by
  simp only [prepareInitiation] at h
  obtain ⟨cover, hcover, rfl⟩ := queuePreHandshakePackets_eq_ok h
  -- the chains and the junk do not depend on the timers
  exact ⟨_, cover, rfl, _, _, hcover⟩

/-- An initiation was made, and cover traffic was queued for it. -/
structure Initiates (ε : Type) [Env ε] (t t' : Tunn C) (cover : List Bytes) (datagram : Bytes) :
    Prop where
  call : ∃ (dstLen : Nat) (force : Bool) (e e' : ε),
    t.formatHandshakeInitiation dstLen force e = .ok (.writeToNetwork datagram, t', e')
  traffic : ∃ e e' : ε, t.coverTraffic e = .ok (cover, e')
  queue : t'.networkOutgoing = t.networkOutgoing ++ cover

/-! ## Results without an initiation -/

/-- The two ways in which the padding of a transport packet is drawn. -/
def DrawsPadding (ε : Type) [Env ε] (t : Tunn C) (src : Bytes) (padding : Nat) : Prop :=
  ∃ (dstLen : Nat) (e : ε), padding = (t.contentPaddingAddition 0 dstLen e).1 ∨
    padding = (t.transportPadding src.length dstLen e).1

/-- The same settings and the same datagrams waiting. -/
structure SameWire (t t' : Tunn C) : Prop where
  settings : t'.settings = t.settings
  queue : t'.networkOutgoing = t.networkOutgoing

theorem SameWire.refl (t : Tunn C) : SameWire t t := ⟨rfl, rfl⟩

theorem SameWire.trans {t'' : Tunn C} (h : SameWire t t') (h' : SameWire t' t'') : SameWire t t'' :=
  ⟨h'.settings.trans h.settings, h'.queue.trans h.queue⟩

/-- A result that is not an initiation.  The datagram was made by a tunnel with the same
settings; the packet in it is one of `payloads`. -/
inductive Yields (ε : Type) [Env ε] (t : Tunn C) (payloads : List Bytes) :
    TunnResult → Tunn C → Prop
  /-- No datagram.  The queue is as it was, or it went with the connection. -/
  | nothing {r : TunnResult} {t' : Tunn C} (hr : ∀ datagram, r ≠ .writeToNetwork datagram)
      (hqueue : t'.networkOutgoing = t.networkOutgoing ∨ t'.networkOutgoing = []) :
      Yields ε t payloads r t'
  /-- A response or a cookie reply. -/
  | answer {t₀ t' : Tunn C} {kind : FramedKind} {datagram : Bytes}
      (hsettings : t₀.settings = t.settings) (hkind : kind ≠ .init) (h : Emits ε t₀ kind datagram)
      (hqueue : t'.networkOutgoing = t.networkOutgoing) :
      Yields ε t payloads (.writeToNetwork datagram) t'
  /-- A transport packet. -/
  | sealed {t₀ t' : Tunn C} {src : Bytes} {s s' : Session} {padding dstLen : Nat} {e e' : ε}
      {datagram : Bytes} (hsettings : t₀.settings = t.settings) (hsrc : src ∈ payloads)
      (hpadding : DrawsPadding ε t₀ src padding)
      (h : t₀.formatTransportPacket s src padding dstLen e = .ok (datagram, s', e'))
      (hqueue : t'.networkOutgoing = t.networkOutgoing) :
      Yields ε t payloads (.writeToNetwork datagram) t'

/-- What a call may return. -/
inductive Output (ε : Type) [Env ε] (t : Tunn C) (payloads : List Bytes) :
    TunnResult → Tunn C → Prop
  | yields {r : TunnResult} {t' : Tunn C} (h : Yields ε t payloads r t') : Output ε t payloads r t'
  | initiation {t₀ t' : Tunn C} {cover : List Bytes} {datagram : Bytes} (hsame : SameWire t t₀)
      (h : Initiates ε t₀ t' cover datagram) : Output ε t payloads (.writeToNetwork datagram) t'

section Transfer

variable {payloads payloads' : List Bytes} {r : TunnResult}

/-- A result of a tunnel with the same settings and queue. -/
theorem Yields.of_same (hsame : SameWire t t₀) (hsub : payloads ⊆ payloads')
    (h : Yields ε t₀ payloads r t') : Yields ε t payloads' r t' := by
  cases h with
  | nothing hr hqueue => exact .nothing hr (hsame.queue ▸ hqueue)
  | answer hsettings hkind h hqueue =>
    exact .answer (hsettings.trans hsame.settings) hkind h (hqueue.trans hsame.queue)
  | sealed hsettings hsrc hpadding h hqueue =>
    exact .sealed (hsettings.trans hsame.settings) (hsub hsrc) hpadding h (hqueue.trans hsame.queue)

theorem Output.of_same (hsame : SameWire t t₀) (hsub : payloads ⊆ payloads')
    (h : Output ε t₀ payloads r t') : Output ε t payloads' r t' := by
  cases h with
  | yields h => exact .yields (h.of_same hsame hsub)
  | initiation hsame' h => exact .initiation (hsame.trans hsame') h

/-- The tunnel afterwards may differ where nothing is sent from. -/
theorem Output.then_same {t'' : Tunn C} (h : Output ε t payloads r t')
    (hr : ∀ datagram, r ≠ .writeToNetwork datagram)
    (hqueue : t''.networkOutgoing = t'.networkOutgoing) {r' : TunnResult}
    (hr' : ∀ datagram, r' ≠ .writeToNetwork datagram) : Output ε t payloads r' t'' := by
  cases h with
  | yields h =>
    cases h with
    | nothing _ hsame => exact .yields (.nothing hr' (hqueue ▸ hsame))
    | answer => exact absurd rfl (hr _)
    | sealed => exact absurd rfl (hr _)
  | initiation => exact absurd rfl (hr _)

end Transfer

/-! ## Sending -/

theorem sameWire_queuePacket (t : Tunn C) (packet : Bytes) : SameWire t (t.queuePacket packet) := by
  unfold queuePacket
  split_ifs <;> exact ⟨rfl, rfl⟩

theorem requeuePacket_networkOutgoing (t : Tunn C) (packet : Bytes) :
    (t.requeuePacket packet).networkOutgoing = t.networkOutgoing := by
  unfold requeuePacket
  split_ifs <;> rfl

/-- An initiation adds its cover traffic to the queue; a call that makes none does nothing. -/
theorem formatHandshakeInitiation_cases
    (h : t.formatHandshakeInitiation dstLen force e = .ok (r, t', e')) :
    (t' = t ∧ ∀ datagram, r ≠ .writeToNetwork datagram) ∨
      ∃ cover datagram, r = .writeToNetwork datagram ∧ Initiates ε t t' cover datagram := by
  rcases formatHandshakeInitiation_ends h with ⟨rfl, hr⟩ | ⟨datagram, rfl, hsent⟩
  · exact .inl ⟨rfl, by rcases hr with rfl | rfl <;> simp⟩
  · cases hsent with
    | sent _ _ hprepare =>
      obtain ⟨timers, cover, rfl, hcover⟩ := prepareInitiation_cover hprepare
      exact .inr ⟨cover, datagram, rfl, ⟨_, _, _, _, h⟩, hcover, rfl⟩

theorem output_formatHandshakeInitiation (payloads : List Bytes)
    (h : t.formatHandshakeInitiation dstLen force e = .ok (r, t', e')) :
    Output ε t payloads r t' := by
  rcases formatHandshakeInitiation_cases h with ⟨rfl, hr⟩ | ⟨cover, datagram, rfl, hinitiates⟩
  · exact .yields (.nothing hr (.inl rfl))
  · exact .initiation (.refl t) hinitiates

/-- Sealing a packet leaves the queue alone. -/
theorem yields_sealPacket {s : Session} (h : t.sealPacket s src dstLen e = .ok (r, t', e')) :
    Yields ε t [src] r t' := by
  rcases sealPacket_cases h with ⟨rfl, rfl⟩ | ⟨datagram, s', rfl, rfl, hformat⟩
  · exact .nothing (by simp) (.inl rfl)
  · have hsettings : (t.observeDatagram (t.datagramSize src.length)).settings = t.settings := rfl
    exact .sealed hsettings (by simp) ⟨dstLen, e, .inr rfl⟩ hformat rfl

theorem output_encapsulate (h : t.encapsulate src dstLen e = .ok (r, t', e')) :
    Output ε t [src] r t' := by
  rw [encapsulate] at h
  split at h
  · exact .yields (yields_sealPacket h)
  · exact (output_formatHandshakeInitiation [src] h).of_same (sameWire_queuePacket t src) (by simp)

/-- A flush seals a queued packet, or starts a handshake for it. -/
theorem output_sendQueuedPacket (h : t.sendQueuedPacket dstLen e = .ok (r, t', e')) :
    Output ε t t.packetQueue r t' := by
  rw [sendQueuedPacket] at h
  split at h
  · cases h
    exact .yields (.nothing (by simp) (.inl rfl))
  · rename_i packet rest hqueue
    obtain ⟨⟨r₁, t₁, e₁⟩, hencapsulate, h⟩ := bind_eq_ok.mp h
    have hsame : SameWire t { t with packetQueue := rest } := ⟨rfl, rfl⟩
    have houtput : Output ε t t.packetQueue r₁ t₁ :=
      (output_encapsulate hencapsulate).of_same hsame (by simp [hqueue])
    simp only at h
    split at h
    · cases h
      exact houtput.then_same (by simp) (requeuePacket_networkOutgoing t₁ packet) (by simp)
    · cases h
      exact houtput

/-! ## Receiving -/

theorem validateDecapsulatedPacket_yields (t : Tunn C) (packet : Bytes) (payloads : List Bytes) :
    Yields ε t payloads (t.validateDecapsulatedPacket packet).1
      (t.validateDecapsulatedPacket packet).2 := by
  have h := t.validated packet
  generalize t.validateDecapsulatedPacket packet = after at h ⊢
  cases h <;> exact .nothing (by simp) (.inl rfl)

theorem sameWire_setCurrentSession (t : Tunn C) (idx : Nat) :
    SameWire t (t.setCurrentSession idx) := by
  unfold setCurrentSession
  split_ifs <;> exact ⟨rfl, rfl⟩

/-- A response that is accepted is answered with an empty transport packet. -/
theorem handleHandshakeResponse_yields {p : HandshakeResponse}
    (h : t.handleHandshakeResponse p dstLen e = .ok (.ok r, t', e')) :
    Yields ε t [[]] r t' := by
  simp only [handleHandshakeResponse] at h
  split_ifs at h
  · cases h
  · rcases hreceive : t.handshake.receiveHandshakeResponse p e with ⟨received, handshake, e₁⟩
    simp only [hreceive] at h
    split at h
    · cases h
    · obtain ⟨⟨datagram, session', e₂⟩, hformat, h⟩ := bind_eq_ok.mp h
      cases h
      have hkept : ({ t with handshake := handshake } : Tunn C).settings = t.settings := rfl
      exact .sealed hkept (List.mem_singleton_self []) ⟨dstLen, e₁, .inl rfl⟩ hformat
        (sameWire_setCurrentSession _ _).queue

/-- Handling a packet never starts a handshake. -/
theorem yields_handlePacket {result : Except WireGuardError TunnResult}
    (h : t.handlePacket p dstLen e = .ok (result, t', e')) :
    Yields ε t [[]] (match result with | .ok r => r | .error err => .err err) t' := by
  have hhandled := handlePacket_handled h
  cases result with
  | error err =>
    refine .nothing (by simp) (.inl ?_)
    cases hhandled with
    | refuses => rfl
    | drops => rfl
  | ok r =>
    cases p with
    | handshakeInit p =>
      cases hhandled with
      | answers => exact .answer rfl (by simp) (.response h) rfl
    | handshakeResponse p => exact handleHandshakeResponse_yields h
    | packetCookieReply p =>
      cases hhandled with
      | takesCookie => exact .nothing (by simp) (.inl rfl)
    | packetData p =>
      cases hhandled with
      | @opens _ _ session' plain =>
        have hcurrent := sameWire_setCurrentSession
          ((t.observeDatagram (t.observedSize p)).storeSession p.receiverIdx.toNat session')
          p.receiverIdx.toNat
        have hopened : SameWire t (t.opened p session') := ⟨hcurrent.settings, hcurrent.queue⟩
        exact (validateDecapsulatedPacket_yields _ plain [[]]).of_same hopened (by simp)

theorem yields_handleVerifiedPacket (h : t.handleVerifiedPacket p dstLen e = .ok (r, t', e')) :
    Yields ε t [[]] r t' := by
  obtain ⟨⟨result, t₁, e₁⟩, hhandle, h⟩ := bind_eq_ok.mp h
  have hyields := yields_handlePacket hhandle
  cases result with
  | ok r₁ =>
    cases h
    exact hyields
  | error err =>
    cases h
    exact hyields

/-- What comes in is looked at; the limiter may have a cookie reply. -/
theorem yields_receive {received : Received}
    (h : t.receive srcAddr datagram dstLen e = .ok (received, t', e')) :
    SameWire t t' ∧ ∀ r payloads, received = .reply r → Yields ε t payloads r t' := by
  have hemits := h
  rw [receive_eq_unframe] at h
  obtain ⟨u, -, h⟩ := bind_eq_ok.mp h
  cases u with
  | packet p =>
    cases h
    exact ⟨.refl t, by simp⟩
  | message bytes =>
    obtain ⟨_, _, _, -, rfl, ⟨_, -, rfl⟩ | ⟨_, -, rfl⟩ | ⟨_, -, rfl | ⟨_, -, rfl⟩⟩⟩ :=
      verify_cases h
    · exact ⟨⟨rfl, rfl⟩, by simp⟩
    all_goals
      refine ⟨⟨rfl, rfl⟩, ?_⟩
      rintro r payloads ⟨⟩
    · exact .nothing (by simp) (.inl rfl)
    · exact .nothing (by simp) (.inl rfl)
    · exact .answer rfl (by simp) (.cookieReply hemits) rfl

/-- A datagram with something in it never starts a handshake. -/
theorem yields_decapsulate (hsome : datagram ≠ [])
    (h : t.decapsulate srcAddr datagram dstLen e = .ok (r, t', e')) : Yields ε t [[]] r t' := by
  rw [decapsulate, if_neg (by simpa using hsome)] at h
  obtain ⟨⟨received, t₁, e₁⟩, hreceive, h⟩ := bind_eq_ok.mp h
  obtain ⟨hsame, hreply⟩ := yields_receive hreceive
  cases received with
  | packet p => exact (yields_handleVerifiedPacket h).of_same hsame (by simp)
  | reply r₁ =>
    cases h
    exact hreply r [[]] rfl

/-- An empty one is a flush. -/
theorem output_decapsulate (h : t.decapsulate srcAddr datagram dstLen e = .ok (r, t', e')) :
    Output ε t ([] :: t.packetQueue) r t' := by
  cases datagram with
  | nil => exact (output_sendQueuedPacket h).of_same (.refl t) (by simp)
  | cons byte rest =>
    exact .yields ((yields_decapsulate (List.cons_ne_nil byte rest) h).of_same (.refl t) (by simp))

/-! ## Timers -/

/-- The decisions of a tick leave the queue alone or empty it; they empty it only when the
connection is given up. -/
theorem timerAction_networkOutgoing {now : Duration} {action : TimerAction}
    (h : t.timerAction now e = .ok (action, t', e')) :
    t'.networkOutgoing = t.networkOutgoing ∨
      (t'.networkOutgoing = [] ∧ action = .expired) := by
  rcases timerAction_cases h with ⟨-, rfl, -⟩ | ⟨cookieOld, -, hdecides⟩
  · exact .inl rfl
  · cases hdecides with
    | gaveUp => exact .inr ⟨rfl, rfl⟩
    | inFlight => exact .inl rfl
    | idle _ h =>
      obtain ⟨-, timers, rfl, -⟩ := idleAction_timers h
      exact .inl rfl

theorem output_updateTimers (h : t.updateTimers dstLen e = .ok (r, t', e')) :
    Output ε t [[]] r t' := by
  obtain ⟨⟨now, t₁, e₁⟩, hstart, h⟩ := bind_eq_ok.mp h
  obtain ⟨⟨action, t₂, e₂⟩, haction, h⟩ := bind_eq_ok.mp h
  have hqueue₁ : t₁.networkOutgoing = t.networkOutgoing := by
    obtain ⟨-, -, hsessions⟩ := startTimers_eq_ok hstart
    obtain ⟨-, rfl⟩ := updateSessionTimers_eq_ok hsessions
    rfl
  have hsettings : t₂.settings = t.settings :=
    ((aged_startTimers hstart).trans (aged_timerAction haction)).settings
  have hqueue₂ := timerAction_networkOutgoing haction
  rw [hqueue₁] at hqueue₂
  have hsame (hnot : action ≠ .expired) : SameWire t t₂ :=
    ⟨hsettings, hqueue₂.resolve_right fun hempty => hnot hempty.2⟩
  cases action with
  | nothing =>
    cases h
    exact .yields (.nothing (by simp) (.inl (hsame (by simp)).queue))
  | expired =>
    cases h
    exact .yields (.nothing (by simp) (hqueue₂.imp_right And.left))
  | handshake =>
    exact (output_formatHandshakeInitiation [[]] h).of_same (hsame (by simp)) (by simp)
  | keepalive => exact (output_encapsulate h).of_same (hsame (by simp)) (by simp)

/-! ## Steps -/

/-- The datagram is cover traffic of a tunnel with these settings. -/
def Covers (ε : Type) [Env ε] (t : Tunn C) (datagram : Bytes) : Prop :=
  ∃ (t₀ : Tunn C) (cover : List Bytes) (e e' : ε), t₀.settings = t.settings ∧
    t₀.coverTraffic e = .ok (cover, e') ∧ datagram ∈ cover

theorem Output.outgoing {payloads : List Bytes} (h : Output ε t payloads r t') :
    ∀ datagram ∈ t'.networkOutgoing, datagram ∈ t.networkOutgoing ∨ t.Covers ε datagram := by
  intro datagram hmem
  cases h with
  | yields h =>
    left
    cases h with
    | nothing _ hqueue =>
      rcases hqueue with hsame | hempty
      · rwa [hsame] at hmem
      · simp [hempty] at hmem
    | answer _ _ _ hqueue => rwa [hqueue] at hmem
    | sealed _ _ _ _ hqueue => rwa [hqueue] at hmem
  | @initiation t₀ _ cover _ hsame h =>
    rw [h.queue, hsame.queue] at hmem
    obtain ⟨e, e', hcover⟩ := h.traffic
    exact (List.mem_append.mp hmem).imp_right fun hnew =>
      ⟨t₀, cover, e, e', hsame.settings, hcover, hnew⟩

/-- **What a step leaves in the queue.** -/
theorem Step.outgoing {event : Event} (hstep : Step ε t event t') :
    ∀ datagram ∈ t'.networkOutgoing, datagram ∈ t.networkOutgoing ∨ t.Covers ε datagram := by
  cases hstep with
  | encapsulate hr => exact (output_encapsulate hr).outgoing
  | flush hr => exact (output_sendQueuedPacket hr).outgoing
  | initiate hr => exact (output_formatHandshakeInitiation [] hr).outgoing
  | updateTimers hr => exact (output_updateTimers hr).outgoing
  | receive hr =>
    rw [(yields_receive hr).1.queue]
    exact fun _ => .inl
  | accept hr => exact (Output.yields (yields_handlePacket hr)).outgoing
  | refuse hr => exact (Output.yields (yields_handlePacket hr)).outgoing
  | setStaticPrivate hr =>
    simp only [Tunn.setStaticPrivate] at hr
    obtain ⟨handshake, -, hr⟩ := bind_eq_ok.mp hr
    cases hr
    exact fun _ => .inl
  | setMtu mtu => exact fun _ => .inl
  | resetUdpWindow => exact fun _ => .inl
  | pollOutgoingPacket =>
    intro datagram hmem
    left
    rw [Tunn.pollOutgoingPacket] at hmem
    split at hmem
    · exact hmem
    · rename_i packet rest hqueue
      rw [hqueue]
      exact List.mem_cons_of_mem _ hmem

end Tunn
