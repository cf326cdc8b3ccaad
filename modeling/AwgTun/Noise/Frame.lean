import AwgTun.Noise.Decapsulate

/-!
# What the operations leave alone

Frame lemmas of the tunnel.  `Tunn.Quiet` says that the settings are the same before
and after, that no session has appeared and that the one in use is still the one in
use.  It holds of everything a tunnel does except handling an accepted packet.

Each lemma is about one function and cites the lemmas of the functions it calls.  How the functions
with several outcomes end is said once: `formatHandshakeInitiation_ends`, `sealPacket_cases`,
`startTimers_eq_ok`, `timerAction_cases` and `verify_cases`.
-/

open Control Bytes

namespace Tunn

variable {C : Crypto} {ε : Type} [Env ε] {e e' : ε} {dstLen : Nat} {r : TunnResult} {now : Duration}
  {action : TimerAction} {s : Session} {src : Bytes} {srcAddr : Option IpAddr} {received : Received}
  {starting : Bool} {force : Bool}

/-- The part of a tunnel that is fixed when it is made. -/
structure Settings where
  headerConfig : HeaderConfig
  paddingConfig : PaddingConfig
  junkConfig : JunkConfig
  initPacketConfig : InitPacketConfig
  headerProtection : Option HeaderProtection
  contentPadding : Option U32Range
  mtu : UInt32
  randomTrailers : Bool
  disableCookies : Bool

/-- The settings of a tunnel. -/
def settings (t : Tunn C) : Settings where
  headerConfig := t.headerConfig
  paddingConfig := t.paddingConfig
  junkConfig := t.junkConfig
  initPacketConfig := t.initPacketConfig
  headerProtection := t.headerProtection
  contentPadding := t.contentPadding
  mtu := t.mtu
  randomTrailers := t.randomTrailers
  disableCookies := t.disableCookies

/-- The same settings, no new session, and the same one in use. -/
structure Quiet (t t' : Tunn C) : Prop where
  settings : t'.settings = t.settings
  current : t'.current = t.current
  sessions : ∀ i, (t'.sessions i).isSome → (t.sessions i).isSome

variable {t t' t'' : Tunn C}

theorem HasConfig.of_settings {cfg : Amnezia3Config} (h : t.HasConfig cfg)
    (hsettings : t'.settings = t.settings) : t'.HasConfig cfg where
  headers := (congrArg Settings.headerConfig hsettings).trans h.headers
  paddings := (congrArg Settings.paddingConfig hsettings).trans h.paddings
  headerProtection := (congrArg Settings.headerProtection hsettings).trans h.headerProtection
  contentPadding := (congrArg Settings.contentPadding hsettings).trans h.contentPadding
  randomTrailers := (congrArg Settings.randomTrailers hsettings).trans h.randomTrailers
  disableCookies := (congrArg Settings.disableCookies hsettings).trans h.disableCookies

theorem Quiet.refl (t : Tunn C) : Quiet t t := ⟨rfl, rfl, fun _ h => h⟩

theorem Quiet.trans (h : Quiet t t') (h' : Quiet t' t'') : Quiet t t'' where
  settings := h'.settings.trans h.settings
  current := h'.current.trans h.current
  sessions := fun i hi => h.sessions i (h'.sessions i hi)

/-- Writing to a slot that holds a session adds none. -/
theorem quiet_storeSession {idx : Nat} (s' : Session) (h : t.sessions (slotOf idx) = some s) :
    Quiet t (t.storeSession idx s') := by
  refine ⟨rfl, rfl, ?_⟩
  intro i hi
  by_cases heq : i = slotOf idx
  · rw [heq, h]
    rfl
  · simpa [storeSession, Function.update_of_ne heq] using hi

theorem quiet_observeDatagram (t : Tunn C) (size : Nat) : Quiet t (t.observeDatagram size) :=
  ⟨rfl, rfl, fun _ h => h⟩

/-! ## Sending -/

/-- Before an initiation, only the timers and the outgoing queue change. -/
theorem prepareInitiation_eq (h : t.prepareInitiation starting e = .ok (t', e')) :
    ∃ timers queue, t' = { t with timers := timers, networkOutgoing := queue } := by
  simp only [prepareInitiation, queuePreHandshakePackets] at h
  obtain ⟨⟨queue, e₁⟩, -, h⟩ := bind_eq_ok.mp h
  cases h
  exact ⟨_, _, rfl⟩

/-- The timers once an initiation was sent. -/
def initiationTimers (t : Tunn C) (starting : Bool) : Timers :=
  (if starting then t.timers.tick .timeLastHandshakeStarted else t.timers).tick .timeLastPacketSent

theorem initiationTimers_same (t : Tunn C) (starting : Bool) :
    (t.initiationTimers starting).sessionTimers = t.timers.sessionTimers ∧
      (t.initiationTimers starting).timingRanges = t.timers.timingRanges := by
  cases starting <;> exact ⟨rfl, rfl⟩

/-- An initiation is made and sent: the tunnel is prepared, the handshake writes the message, and
the message is framed. -/
inductive Initiated (t : Tunn C) (dstLen : Nat) (force : Bool) (e : ε) : Bytes → Tunn C → ε → Prop
  | sent {t₁ : Tunn C} {e₁ e₂ e' : ε} {message datagram : Bytes} {handshake : Handshake C}
      (hgo : force = false → t.handshake.isInProgress = false)
      (hroom : handshakeInitSz ≤ dstLen - t.paddingConfig.s1.toNat)
      (hprepare : t.prepareInitiation (!t.handshake.isInProgress) e = .ok (t₁, e₁))
      (hmade : t₁.handshake.formatHandshakeInitiation (dstLen - t.paddingConfig.s1.toNat)
        (t₁.headerConfig.init.generate e₁).1 (t₁.headerConfig.init.generate e₁).2 =
          (.ok message, handshake, e₂))
      (hframe : ({ t₁ with handshake := handshake } : Tunn C).frame t.paddingConfig.s1.toNat message
        dstLen e₂ = .ok (datagram, e')) :
      Initiated t dstLen force e datagram
        { t₁ with
          handshake := handshake
          timers := t₁.initiationTimers (!t.handshake.isInProgress) } e'

/-- **How a call for an initiation ends**: none is made, or one is sent. -/
theorem formatHandshakeInitiation_ends
    (h : t.formatHandshakeInitiation dstLen force e = .ok (r, t', e')) :
    (t' = t ∧ (r = .done ∨ r = .err .destinationBufferTooSmall)) ∨
      ∃ datagram, r = .writeToNetwork datagram ∧ t.Initiated dstLen force e datagram t' e' := by
  rw [formatHandshakeInitiation] at h
  split_ifs at h with hdone hsmall
  · cases h
    exact .inl ⟨rfl, .inl rfl⟩
  · cases h
    exact .inl ⟨rfl, .inr rfl⟩
  · obtain ⟨⟨t₁, e₁⟩, hprepare, h⟩ := bind_eq_ok.mp h
    have hroom : handshakeInitSz ≤ dstLen - t.paddingConfig.s1.toNat := by omega
    rcases hmade : t₁.handshake.formatHandshakeInitiation (dstLen - t.paddingConfig.s1.toNat)
      (t₁.headerConfig.init.generate e₁).1 (t₁.headerConfig.init.generate e₁).2 with
      ⟨result, handshake, e₂⟩
    simp only [hmade] at h
    cases result with
    | error err =>
      -- the handshake only asks for room
      simp [Handshake.formatHandshakeInitiation, Nat.not_lt.mpr hroom] at hmade
    | ok message =>
      obtain ⟨⟨datagram, e₃⟩, hframe, h⟩ := bind_eq_ok.mp h
      cases h
      refine .inr ⟨datagram, rfl, ?_⟩
      have hgo : force = false → t.handshake.isInProgress = false := by
        rintro rfl
        simpa using hdone
      have hsent := Initiated.sent hgo hroom hprepare hmade hframe
      revert hsent
      cases t.handshake.isInProgress <;> exact id

/-- What an initiation changes of a tunnel. -/
theorem formatHandshakeInitiation_changes
    (h : t.formatHandshakeInitiation dstLen force e = .ok (r, t', e')) :
    ∃ handshake timers queue,
      t' = { t with handshake := handshake, timers := timers, networkOutgoing := queue } := by
  rcases formatHandshakeInitiation_ends h with ⟨rfl, -⟩ | ⟨datagram, -, hsent⟩
  · exact ⟨_, _, _, rfl⟩
  · cases hsent with
    | sent _ _ hprepare =>
      obtain ⟨timers, queue, rfl⟩ := prepareInitiation_eq hprepare
      exact ⟨_, _, _, rfl⟩

theorem quiet_formatHandshakeInitiation
    (h : t.formatHandshakeInitiation dstLen force e = .ok (r, t', e')) : Quiet t t' := by
  obtain ⟨handshake, timers, queue, rfl⟩ := formatHandshakeInitiation_changes h
  exact ⟨rfl, rfl, fun _ h => h⟩

/-- The timers once a packet was sent. -/
def sentTimers (t : Tunn C) (src : Bytes) : Timers :=
  let timers := t.timers.tick .timeLastPacketSent
  if src.isEmpty then timers else timers.tick .timeLastDataPacketSent

/-- The tunnel once a packet was sealed, with the session as that leaves it. -/
def afterSealing (t : Tunn C) (src : Bytes) (session : Session) : Tunn C :=
  { t.observeDatagram (t.datagramSize src.length) with
    sessions := Function.update t.sessions (slotOf t.current) (some session)
    timers := t.sentTimers src
    txBytes := t.txBytes + src.length }

/-- **How sealing ends**: the packet is refused, or sent. -/
theorem sealPacket_cases (h : t.sealPacket s src dstLen e = .ok (r, t', e')) :
    (r = .err .destinationBufferTooSmall ∧ t' = t) ∨
      ∃ datagram s', r = .writeToNetwork datagram ∧ t' = t.afterSealing src s' ∧
        (t.observeDatagram (t.datagramSize src.length)).formatTransportPacket s src
          ((t.observeDatagram (t.datagramSize src.length)).transportPadding src.length dstLen e).1
          dstLen
          ((t.observeDatagram (t.datagramSize src.length)).transportPadding src.length dstLen e).2 =
            .ok (datagram, s', e') := by
  rw [sealPacket] at h
  by_cases hsmall : t.datagramSize src.length > dstLen
  · rw [if_pos hsmall] at h
    cases h
    exact .inl ⟨rfl, rfl⟩
  · rw [if_neg hsmall] at h
    simp only at h
    obtain ⟨⟨datagram, s', e₂⟩, hformat, h⟩ := bind_eq_ok.mp h
    cases h
    refine .inr ⟨datagram, s', rfl, ?_, hformat⟩
    simp only [afterSealing, sentTimers]
    split_ifs <;> rfl

theorem quiet_sealPacket (hs : t.sessions (slotOf t.current) = some s)
    (h : t.sealPacket s src dstLen e = .ok (r, t', e')) : Quiet t t' := by
  rcases sealPacket_cases h with ⟨-, rfl⟩ | ⟨datagram, s', -, rfl, -⟩
  · exact .refl t'
  · exact ⟨rfl, rfl, (quiet_storeSession s' hs).sessions⟩

theorem quiet_queuePacket (packet : Bytes) : Quiet t (t.queuePacket packet) := by
  unfold queuePacket
  split_ifs
  · exact ⟨rfl, rfl, fun _ h => h⟩
  · exact .refl t

theorem quiet_encapsulate (h : t.encapsulate src dstLen e = .ok (r, t', e')) : Quiet t t' := by
  rw [encapsulate] at h
  split at h
  · rename_i s hs
    exact quiet_sealPacket hs h
  · exact (quiet_queuePacket src).trans (quiet_formatHandshakeInitiation h)

theorem quiet_requeuePacket (packet : Bytes) : Quiet t (t.requeuePacket packet) := by
  unfold requeuePacket
  split_ifs
  · exact ⟨rfl, rfl, fun _ h => h⟩
  · exact .refl t

theorem quiet_sendQueuedPacket (h : t.sendQueuedPacket dstLen e = .ok (r, t', e')) :
    Quiet t t' := by
  rw [sendQueuedPacket] at h
  split at h
  · cases h
    exact .refl t
  · rename_i packet rest hqueue
    obtain ⟨⟨r₁, t₁, e₁⟩, hencapsulate, h⟩ := bind_eq_ok.mp h
    have hdequeue : Quiet t { t with packetQueue := rest } := ⟨rfl, rfl, fun _ h => h⟩
    have hquiet : Quiet t t₁ := hdequeue.trans (quiet_encapsulate hencapsulate)
    simp only at h
    split at h
    · cases h
      exact hquiet.trans (quiet_requeuePacket packet)
    · cases h
      exact hquiet

/-! ## Timers -/

/-- What the decisions of `update_timers` do to a tunnel: sessions may go. -/
structure Aged (t t' : Tunn C) : Prop extends Quiet t t' where
  udpWindow : t'.udpWindow = t.udpWindow

theorem Aged.refl (t : Tunn C) : Aged t t := ⟨.refl t, rfl⟩

theorem Aged.trans (h : Aged t t') (h' : Aged t' t'') : Aged t t'' :=
  ⟨h.toQuiet.trans h'.toQuiet, h'.udpWindow.trans h.udpWindow⟩

theorem aged_withTimers (t : Tunn C) (timers : Timers) : Aged t { t with timers := timers } :=
  ⟨⟨rfl, rfl, fun _ h => h⟩, rfl⟩

theorem aged_expire (t : Tunn C) (e : ε) : Aged t (t.expire e).1 :=
  ⟨⟨rfl, rfl, fun _ h => absurd h (by simp [expire, clearAll])⟩, rfl⟩

/-- With a clock that has not run backwards, each slot is emptied or kept. -/
theorem updateSessionTimers_eq_ok (h : t.updateSessionTimers now = .ok t') :
    (∀ i, t.timers.sessionTimers i ≤ now) ∧
      t' = { t with
        sessions := fun i => if t.timers.sessionExpired now i then none else t.sessions i
        timers := { t.timers with
          sessionTimers := fun i =>
            if t.timers.sessionExpired now i then now else t.timers.sessionTimers i } } := by
  unfold updateSessionTimers at h
  split at h
  · exact ⟨‹_›, (Except.ok.inj h).symm⟩
  · exact absurd h (Outcome.panic_ne_ok _ _)

theorem aged_updateSessionTimers (h : t.updateSessionTimers now = .ok t') :
    Aged t t' := by
  obtain ⟨-, rfl⟩ := updateSessionTimers_eq_ok h
  refine ⟨⟨by simp only [settings], rfl, ?_⟩, rfl⟩
  intro i hi
  by_cases hold : t.timers.sessionExpired now i = true
  · simp [hold] at hi
  · simpa [hold] using hi

/-- The tunnel once `update_timers` has read the clock and reset the limiter. -/
def tickStart (t : Tunn C) (e : ε) : Tunn C × ε :=
  let (time, e) := Env.instantNow e
  let (rateLimiter, e) :=
    if t.timers.shouldResetRr then t.rateLimiter.resetCount e else (t.rateLimiter, e)
  ({ t with rateLimiter, timers := t.timers.set .timeCurrent (time - t.timers.timeStarted) }, e)

/-- The clock of a tunnel, as last read. -/
abbrev clock (t : Tunn C) : Duration := t.timers.timers .timeCurrent

theorem startTimers_eq_ok (h : t.startTimers e = .ok (now, t', e')) :
    now = (t.tickStart e).1.clock ∧ e' = (t.tickStart e).2 ∧
      (t.tickStart e).1.updateSessionTimers now = .ok t' := by
  simp only [startTimers] at h
  obtain ⟨t₁, hsessions, h⟩ := bind_eq_ok.mp h
  cases h
  exact ⟨rfl, rfl, hsessions⟩

theorem aged_startTimers (h : t.startTimers e = .ok (now, t', e')) :
    Aged t t' := by
  obtain ⟨-, -, hsessions⟩ := startTimers_eq_ok h
  have hclock := aged_updateSessionTimers hsessions
  exact ⟨⟨hclock.settings, hclock.current, hclock.sessions⟩, hclock.udpWindow⟩

/-- With no initiation in flight, a tick looks at the timers and changes nothing else. -/
theorem idleAction_timers (h : t.idleAction now e = .ok (action, t', e')) :
    action ≠ .expired ∧ ∃ timers, t' = { t with timers := timers } ∧
      timers.sessionTimers = t.timers.sessionTimers ∧ timers.timingRanges =
        t.timers.timingRanges := by
  simp only [idleAction] at h
  obtain ⟨⟨rekey, e₁⟩, -, h⟩ := bind_eq_ok.mp h
  obtain ⟨⟨silent, timers₁, e₂⟩, hsilent, h⟩ := bind_eq_ok.mp h
  have hsame₁ : timers₁.sessionTimers = t.timers.sessionTimers ∧
      timers₁.timingRanges = t.timers.timingRanges := by
    simp only [Timers.newHandshakeDue] at hsilent
    obtain ⟨due, -, hsilent⟩ := bind_eq_ok.mp hsilent
    cases hsilent
    exact ⟨rfl, rfl⟩
  simp only at h
  split_ifs at h
  · cases h
    exact ⟨by simp, timers₁, rfl, hsame₁⟩
  · obtain ⟨⟨keepalive, timers₂, e₃⟩, hkeepalive, h⟩ := bind_eq_ok.mp h
    obtain ⟨⟨persistent, timers₃, e₄⟩, hpersistent, h⟩ := bind_eq_ok.mp h
    cases h
    have hsame₂ : timers₂.sessionTimers = timers₁.sessionTimers ∧
        timers₂.timingRanges = timers₁.timingRanges := by
      simp only [Timers.keepaliveDue] at hkeepalive
      obtain ⟨due, -, hkeepalive⟩ := bind_eq_ok.mp hkeepalive
      cases hkeepalive
      exact ⟨rfl, rfl⟩
    have hsame₃ : timers₃.sessionTimers = timers₂.sessionTimers ∧
        timers₃.timingRanges = timers₂.timingRanges := by
      simp only [Timers.persistentKeepaliveDue] at hpersistent
      split_ifs at hpersistent
      all_goals
        obtain ⟨due, -, hpersistent⟩ := bind_eq_ok.mp hpersistent
        cases due <;> cases hpersistent <;> exact ⟨rfl, rfl⟩
    exact ⟨by split_ifs <;> simp, timers₃, rfl, hsame₃.1.trans (hsame₂.1.trans hsame₁.1),
      hsame₃.2.trans (hsame₂.2.trans hsame₁.2)⟩

/-- The tunnel once an old cookie is dropped and the timers are looked at. -/
def decided (t : Tunn C) (cookieOld : Bool) (timers : Timers) : Tunn C :=
  { t with
    handshake := if cookieOld then t.handshake.clearCookie else t.handshake
    timers := timers }

@[simp] theorem decided_sessions (t : Tunn C) (cookieOld : Bool) (timers : Timers) :
    (t.decided cookieOld timers).sessions = t.sessions := rfl

@[simp] theorem decided_current (t : Tunn C) (cookieOld : Bool) (timers : Timers) :
    (t.decided cookieOld timers).current = t.current := rfl

/-- What a tick decides once it is known whether the cookie is old. -/
inductive Decides (t : Tunn C) (now : Duration) (e : ε) (cookieOld : Bool) :
    TimerAction → Tunn C → ε → Prop
  /-- The connection is given up. -/
  | gaveUp : Decides t now e cookieOld .expired ((t.decided cookieOld t.timers).expire e).1
      ((t.decided cookieOld t.timers).expire e).2
  /-- An initiation is in flight, and is sent again or not. -/
  | inFlight {action : TimerAction} {e' : ε} (hflight : t.handshake.timer.isSome)
      (haction : action = .handshake ∨ action = .nothing) :
      Decides t now e cookieOld action (t.decided cookieOld t.timers) e'
  /-- The timers decide. -/
  | idle {action : TimerAction} {t' : Tunn C} {e' : ε} (hidle : t.handshake.timer = none)
      (h : (t.decided cookieOld t.timers).idleAction now e = .ok (action, t', e')) :
      Decides t now e cookieOld action t' e'

/-- **What a tick decides**: nothing if the connection was given up before. -/
theorem timerAction_cases (h : t.timerAction now e = .ok (action, t', e')) :
    (action = .expired ∧ t' = t ∧ e' = e) ∨
      ∃ cookieOld, dueAfter t.handshake.hasCookie now (t.timers.timers .timeCookieReceived)
          cookieExpirationTime = .ok cookieOld ∧ Decides t now e cookieOld action t' e' := by
  rw [timerAction] at h
  split_ifs at h with hexpired
  · cases h
    exact .inl ⟨rfl, rfl, rfl⟩
  · obtain ⟨cookieOld, hcookie, h⟩ := bind_eq_ok.mp h
    have hdrop : (if cookieOld = true then { t with handshake := t.handshake.clearCookie } else t) =
        t.decided cookieOld t.timers := by
      cases cookieOld <;> rfl
    have htimer : (t.decided cookieOld t.timers).handshake.timer = t.handshake.timer := by
      cases cookieOld <;> rfl
    simp only [hdrop] at h
    refine .inr ⟨cookieOld, hcookie, ?_⟩
    obtain ⟨dead, -, h⟩ := bind_eq_ok.mp h
    by_cases hdead : dead = true
    · rw [if_pos hdead] at h
      cases h
      exact .gaveUp
    · rw [if_neg hdead, htimer] at h
      cases hflight : t.handshake.timer with
      | none =>
        rw [hflight] at h
        exact .idle hflight h
      | some sent =>
        rw [hflight] at h
        simp only [retryAction] at h
        obtain ⟨giveUp, -, h⟩ := bind_eq_ok.mp h
        by_cases hgive : giveUp = true
        · rw [if_pos hgive] at h
          cases h
          exact .gaveUp
        · rw [if_neg hgive] at h
          cases h
          exact .inFlight (by rw [hflight]; rfl) (by split_ifs <;> simp)

theorem aged_decided (t : Tunn C) (cookieOld : Bool) (timers : Timers) :
    Aged t (t.decided cookieOld timers) :=
  ⟨⟨rfl, rfl, fun _ h => h⟩, rfl⟩

theorem aged_timerAction (h : t.timerAction now e = .ok (action, t', e')) : Aged t t' := by
  rcases timerAction_cases h with ⟨-, rfl, -⟩ | ⟨cookieOld, -, hdecides⟩
  · exact .refl t'
  · have hcookie := aged_decided t cookieOld t.timers
    cases hdecides with
    | gaveUp => exact hcookie.trans (aged_expire _ e)
    | inFlight => exact hcookie
    | idle _ h =>
      obtain ⟨-, timers, rfl, -⟩ := idleAction_timers h
      exact hcookie.trans (aged_withTimers _ timers)

theorem quiet_updateTimers (h : t.updateTimers dstLen e = .ok (r, t', e')) : Quiet t t' := by
  obtain ⟨⟨now, t₁, e₁⟩, hstart, h⟩ := bind_eq_ok.mp h
  obtain ⟨⟨action, t₂, e₂⟩, haction, h⟩ := bind_eq_ok.mp h
  have haged := ((aged_startTimers hstart).trans (aged_timerAction haction)).toQuiet
  cases action with
  | nothing =>
    cases h
    exact haged
  | expired =>
    cases h
    exact haged
  | handshake => exact haged.trans (quiet_formatHandshakeInitiation h)
  | keepalive => exact haged.trans (quiet_encapsulate h)

/-! ## Receiving -/

/-- The first stage only counts. -/
theorem receive_eq {datagram : Bytes}
    (h : t.receive srcAddr datagram dstLen e = .ok (received, t', e')) :
    ∃ rateLimiter, t' = { t with rateLimiter := rateLimiter } := by
  simp only [receive] at h
  obtain ⟨payload, -, h⟩ := bind_eq_ok.mp h
  split at h
  · obtain ⟨packet, -, h⟩ := bind_eq_ok.mp h
    cases h
    exact ⟨t.rateLimiter, rfl⟩
  · obtain ⟨stripped, -, h⟩ := bind_eq_ok.mp h
    obtain ⟨_, rateLimiter, _, -, rfl, -⟩ := verify_cases h
    exact ⟨rateLimiter, rfl⟩

theorem quiet_receive {datagram : Bytes}
    (h : t.receive srcAddr datagram dstLen e = .ok (received, t', e')) : Quiet t t' := by
  obtain ⟨rateLimiter, rfl⟩ := receive_eq h
  exact ⟨rfl, rfl, fun _ h => h⟩

end Tunn
