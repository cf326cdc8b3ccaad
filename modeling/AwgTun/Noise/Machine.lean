import AwgTun.Noise.Retry

/-!
# The handshake machine

Three properties of the states a tunnel can be found in between two calls.

* A handshake message that is refused leaves no trace, and one that is accepted keeps the
  initiation in flight answerable (`Tunn.refused_handshake_traceless`).
* No initiation is left half answered: `InitReceived` is gone when the call that installed it
  returns, so what is in progress is an initiation of our own, and a tick sends it again or
  gives the connection up (`Tunn.inProgress_sent_or_expired`).
* An expired tunnel has no keys, and none before an initiation is sent or received
  (`Tunn.expired_without_keys`).

Each is an invariant: one lemma for a step, by the cases of `Tunn.Turn`, and one for a run.
-/

open Control Bytes

variable {C : Crypto} {ε : Type} [Env ε]

namespace HandshakeState

/-- An initiation was received and not answered yet. -/
def HalfAnswered (state : HandshakeState) : Prop :=
  ∃ hash chainingKey peerEphemeralPublic peerIndex,
    state = .initReceived hash chainingKey peerEphemeralPublic peerIndex

theorem not_halfAnswered_none : ¬ HandshakeState.none.HalfAnswered := by
  rintro ⟨_, _, _, _, h⟩
  cases h

theorem not_halfAnswered_initSent (s : HandshakeInitSentState) :
    ¬ (HandshakeState.initSent s).HalfAnswered := by
  rintro ⟨_, _, _, _, h⟩
  cases h

theorem not_halfAnswered_expired : ¬ HandshakeState.expired.HalfAnswered := by
  rintro ⟨_, _, _, _, h⟩
  cases h

end HandshakeState

namespace Handshake

variable {h h' : Handshake C}

/-! ## Nothing is half answered -/

/-- Neither of the two states is that of an initiation received and not answered. -/
structure Settled (h : Handshake C) : Prop where
  state : ¬ h.state.HalfAnswered
  previous : ¬ h.previous.HalfAnswered

omit [Env ε] in
theorem Settled.cleared (hsettled : h.Settled) (hcleared : h.Cleared h') : h'.Settled := by
  rcases hcleared with rfl | rfl
  · exact hsettled
  · exact ⟨hsettled.state, hsettled.previous⟩

theorem Settled.sends (hsettled : h.Settled) (hsends : Sends ε h h') : h'.Settled := by
  cases hsends with
  | nothing => exact hsettled
  | initiation hr =>
    cases formatHandshakeInitiation_ok hr
    exact ⟨HandshakeState.not_halfAnswered_initSent _, hsettled.state⟩

omit [Env ε] in
theorem Settled.afterResponse (hsettled : h.Settled) (s : HandshakeInitSentState)
    (isPrevious : Bool) (now : Instant) : (h.afterResponse s isPrevious now).Settled := by
  cases isPrevious
  · exact ⟨HandshakeState.not_halfAnswered_none, hsettled.previous⟩
  · exact ⟨hsettled.state, HandshakeState.not_halfAnswered_none⟩

/-- **One step.** -/
theorem Settled.turn {t t' : Tunn C} {event : Tunn.Event} (hsettled : t.handshake.Settled)
    (hturn : Tunn.Turn ε t event t') : t'.handshake.Settled := by
  cases hturn with
  | sends _ hcleared hsent => exact (hsettled.cleared hcleared).sends hsent.handshake
  | expires _ _ hexpired =>
    rw [hexpired]
    exact ⟨HandshakeState.not_halfAnswered_expired, HandshakeState.not_halfAnswered_expired⟩
  | rekeys _ hr =>
    obtain ⟨params, heq⟩ := setStaticPrivate_ok hr
    rw [heq]
    exact ⟨hsettled.state, hsettled.previous⟩
  | takesCookie hr =>
    obtain ⟨cookie, heq⟩ := receiveCookieReply_ok hr
    rw [heq]
    exact ⟨hsettled.state, hsettled.previous⟩
  | answers hr =>
    -- the response was made in the same call, and took the state away again
    have hanswered := receiveHandshakeInitialization_ok hr
    refine ⟨?_, ?_⟩
    · rw [hanswered.state]
      exact HandshakeState.not_halfAnswered_none
    · rw [hanswered.previous]
      exact hsettled.state
  | finishes hr =>
    obtain ⟨s, isPrevious, now, -, -, heq⟩ := receiveHandshakeResponse_ok hr
    rw [heq]
    exact hsettled.afterResponse s isPrevious now

omit [Env ε] in
/-- What is in progress is an initiation of ours. -/
theorem Settled.isInProgress_iff (hsettled : h.Settled) :
    h.isInProgress = true ↔ h.timer.isSome = true := by
  unfold isInProgress timer
  cases hstate : h.state with
  | none => simp
  | expired => simp
  | initSent s => simp
  | initReceived hash chainingKey peer index =>
    exact absurd ⟨hash, chainingKey, peer, index, hstate⟩ hsettled.state

omit [Env ε] in
theorem timer_eq_some {sent : Instant} (htimer : h.timer = some sent) :
    ∃ s, h.state = .initSent s ∧ s.timeSent = sent := by
  unfold timer at htimer
  cases hstate : h.state with
  | initSent s =>
    rw [hstate] at htimer
    exact ⟨s, rfl, Option.some.inj htimer⟩
  | none => simp [hstate] at htimer
  | expired => simp [hstate] at htimer
  | initReceived hash chainingKey peer index => simp [hstate] at htimer

/-- The panic of `format_handshake_response` is out of reach: its one caller has just put the
state there that it asks for. -/
theorem receiveHandshakeInitialization_returns (h : Handshake C) (packet : HandshakeInit)
    (dstLen : Nat) (respMsgType : UInt32) (e : ε) :
    (h.receiveHandshakeInitialization packet dstLen respMsgType e).Returns := by
  rcases h.receiveHandshakeInitialization_cases packet dstLen respMsgType e with
    ⟨err, herr⟩ | ⟨timestamp, sym, -, hanswer⟩
  · exact ⟨_, herr⟩
  · rw [hanswer, formatHandshakeResponse]
    split_ifs
    · exact ⟨_, rfl⟩
    · exact ⟨_, rfl⟩

/-! ## Expired -/

omit [Env ε] in
theorem isExpired_iff : h.isExpired = true ↔ h.state = .expired := by
  unfold isExpired
  cases h.state <;> simp

omit [Env ε] in
/-- With both states expired no response is awaited. -/
theorem awaiting_of_expired (hstate : h.state = .expired) (hprevious : h.previous = .expired)
    (index : UInt32) : h.awaiting index = none := by
  rw [awaiting, hstate, hprevious]
  rfl

end Handshake

namespace Tunn

variable {t t' : Tunn C} {event : Event} {e : ε} {sent : Instant}

/-! ## Refused messages -/

/-- **A refused handshake message leaves no trace.**  Whatever the buffer, `handle_handshake_init`
and `handle_handshake_response` fail with the tunnel as it was.  An initiation that is accepted
has a later timestamp than any before, and the initiation in flight, if there was one, can
still be answered. -/
theorem refused_handshake_traceless (t : Tunn C) :
    (∀ (p : HandshakeInit) (dstLen : Nat) (e e' : ε) (err : WireGuardError) (t' : Tunn C),
        t.handleHandshakeInit p dstLen e = .ok (.error err, t', e') → t' = t) ∧
      (∀ (p : HandshakeResponse) (dstLen : Nat) (e e' : ε) (err : WireGuardError) (t' : Tunn C),
        t.handleHandshakeResponse p dstLen e = .ok (.error err, t', e') → t' = t) ∧
      ∀ (p : HandshakeInit) (dstLen : Nat) (e e' : ε) (r : TunnResult) (t' : Tunn C),
        t.handleHandshakeInit p dstLen e = .ok (.ok r, t', e') →
          t'.handshake.lastHandshakeTimestamp.after t.handshake.lastHandshakeTimestamp = true ∧
            ∀ s, t.handshake.state = .initSent s → t'.handshake.previous = .initSent s ∧
              t'.handshake.awaiting s.localIndex = some (s, true) := by
  refine ⟨?_, ?_, ?_⟩
  · intro p dstLen e e' err t' h
    cases handleHandshakeInit_handled h with
    | refuses => rfl
  · intro p dstLen e e' err t' h
    cases handleHandshakeResponse_handled h with
    | refuses => rfl
  · intro p dstLen e e' r t' h
    cases handleHandshakeInit_handled h with
    | answers _ hreceive =>
      have hanswered := Handshake.receiveHandshakeInitialization_ok hreceive
      refine ⟨hanswered.timestamp, ?_⟩
      intro s hs
      have hprevious := hanswered.previous.trans hs
      refine ⟨hprevious, ?_⟩
      rw [Handshake.awaiting, answered_handshake, hanswered.state, hprevious]
      simp [HandshakeState.sentWith]

/-- An initiation from the peer while our own is in flight, and a response to none. -/
theorem refused_handshake_traceless_fresh :
    (∃ r t' e', freshAwaiting.handleHandshakeInit (numberedInit 1) handshakeRespSz
        ({} : StillMachine) = .ok (.ok r, t', e') ∧
      t'.handshake.lastHandshakeTimestamp.after freshAwaiting.handshake.lastHandshakeTimestamp =
        true ∧ ∃ s, t'.handshake.awaiting s.localIndex = some (s, true)) ∧
      ∃ err t' e', freshTunn.handleHandshakeResponse hundredResponse 64 ({} : StillMachine) =
        .ok (.error err, t', e') ∧ t' = freshTunn := by
  have haccept : ∃ r t' e', freshAwaiting.handleHandshakeInit (numberedInit 1) handshakeRespSz
      ({} : StillMachine) = .ok (.ok r, t', e') := ⟨_, _, _, rfl⟩
  have hrefuse : ∃ err t' e', freshTunn.handleHandshakeResponse hundredResponse 64
      ({} : StillMachine) = .ok (.error err, t', e') := ⟨_, _, _, rfl⟩
  have hflight : ∃ s, freshAwaiting.handshake.state = .initSent s := ⟨_, rfl⟩
  obtain ⟨r, t', e', haccept⟩ := haccept
  obtain ⟨err, t'', e'', hrefuse⟩ := hrefuse
  obtain ⟨s, hs⟩ := hflight
  obtain ⟨hafter, hheld⟩ := (refused_handshake_traceless freshAwaiting).2.2 _ _ _ _ _ _ haccept
  exact ⟨⟨r, t', e', haccept, hafter, s, (hheld s hs).2⟩, err, t'', e'', hrefuse,
    (refused_handshake_traceless freshTunn).2.1 _ _ _ _ _ _ hrefuse⟩

/-! ## Runs -/

/-- **A whole run** leaves nothing half answered. -/
theorem Reached.settled (h : Reached ε t) : t.handshake.Settled :=
  h.invariant (P := fun t => t.handshake.Settled)
    (fun _ _ _ _ _ _ _ _ _ =>
      ⟨HandshakeState.not_halfAnswered_none, HandshakeState.not_halfAnswered_none⟩)
    fun _ _ _ hstep hsettled => hsettled.turn hstep.turn

/-- With header protection on, the S1 prefix holds a nonce. -/
theorem Reached.initRoom (h : Reached ε t) :
    t.headerProtection.isSome → 12 ≤ t.paddingConfig.s1.toNat := by
  refine h.invariant (P := fun t => t.headerProtection.isSome → 12 ≤ t.paddingConfig.s1.toNat) ?_ ?_
  · intro _ _ _ _ _ _ amnezia _ hvalid hsome
    have hkey : amnezia.headerProtectionKey.isSome := by
      have hmap : amnezia.headerProtection.isSome := hsome
      rwa [Amnezia3Config.headerProtection, Option.isSome_map] at hmap
    exact ((Amnezia3Config.validate_eq_ok hvalid).2 hkey).s1
  · intro t t' event hstep hroom
    have hsettings := hstep.settings
    have hprotection : t'.headerProtection = t.headerProtection :=
      congrArg Settings.headerProtection hsettings
    have hpadding : t'.paddingConfig = t.paddingConfig := congrArg Settings.paddingConfig hsettings
    rw [hprotection, hpadding]
    exact hroom

/-- An initiation in flight had its I-packets made, and those of the next can be made as
well. -/
theorem Reached.chains (h : Reached ε t) :
    t.handshake.isInProgress = true → t.ChainsGenerable := by
  refine h.invariant (P := fun t => t.handshake.isInProgress = true → t.ChainsGenerable) ?_ ?_
  · intro _ _ _ _ _ _ _ _ _ hprogress
    cases hprogress
  · intro t t' event hstep hchains hprogress
    have hconfig : t'.initPacketConfig = t.initPacketConfig :=
      congrArg Settings.initPacketConfig hstep.settings
    rw [ChainsGenerable, hconfig]
    have hkept (hstate : t'.handshake.state = t.handshake.state) : t.ChainsGenerable :=
      hchains (by rwa [Handshake.isInProgress, hstate] at hprogress)
    cases hstep.turn with
    | sends _ hcleared hsent =>
      rcases hsent.chains with hsame | hmade
      · refine hkept ?_
        rcases hcleared with rfl | rfl
        · rw [hsame]
        · rw [hsame]
          rfl
      · exact hmade
    | expires _ _ hexpired =>
      rw [hexpired] at hprogress
      cases hprogress
    | rekeys _ hr =>
      obtain ⟨params, heq⟩ := Handshake.setStaticPrivate_ok hr
      exact hkept (by rw [heq])
    | takesCookie hr =>
      obtain ⟨cookie, heq⟩ := Handshake.receiveCookieReply_ok hr
      exact hkept (by rw [heq])
    | answers hr =>
      rw [Handshake.isInProgress,
        (Handshake.receiveHandshakeInitialization_ok hr).state] at hprogress
      cases hprogress
    | finishes hr =>
      obtain ⟨s, isPrevious, now, -, -, heq⟩ := Handshake.receiveHandshakeResponse_ok hr
      cases isPrevious
      · rw [Handshake.isInProgress, heq] at hprogress
        cases hprogress
      · exact hkept (by rw [heq]; rfl)

/-! ## An initiation in flight -/

theorem dueAfter_returns (cond : Bool) {now since : Duration} (hle : since ≤ now)
    (limit : Duration) : ∃ due, dueAfter cond now since limit = .ok due := by
  unfold dueAfter
  split_ifs
  · rw [Duration.sub, if_pos hle]
    exact ⟨_, rfl⟩
  · exact ⟨_, rfl⟩

/-- The clock has not run backwards: no timer is later than a time. -/
structure ClockReached (t : Tunn C) (now : Duration) : Prop where
  timers : ∀ name, t.timers.timers name ≤ now
  sessions : ∀ i, t.timers.sessionTimers i ≤ now

/-- A tick with an initiation in flight that has waited long enough decides to give up or to
send again. -/
theorem timerAction_inProgress {now : Duration} (hclock : t.ClockReached now)
    (htimer : t.handshake.timer = some sent)
    (hdue : t.timers.rekeyTimeoutCurrent ≤ (Env.instantNow e).1 - sent) :
    (∃ t' e', t.timerAction now e = .ok (.expired, t', e') ∧ t'.handshake.state = .expired) ∨
      ∃ h₀ e', t.handshake.Cleared h₀ ∧
        t.timerAction now e = .ok (.handshake, { t with handshake := h₀ }, e') := by
  have hnot : t.handshake.isExpired = false := by
    obtain ⟨s, hstate, -⟩ := Handshake.timer_eq_some htimer
    rw [Handshake.isExpired, hstate]
  obtain ⟨cookieOld, hcookie⟩ := dueAfter_returns t.handshake.hasCookie
    (hclock.timers .timeCookieReceived) cookieExpirationTime
  obtain ⟨dead, hdead⟩ := dueAfter_returns true
    (hclock.timers .timeSessionEstablished) (t.timers.rejectAfterTime * 3)
  obtain ⟨giveUp, hgive⟩ := dueAfter_returns true
    (hclock.timers .timeLastHandshakeStarted) t.timers.rekeyAttemptDeadline
  obtain ⟨h₀, hcleared, heq⟩ : ∃ h₀, t.handshake.Cleared h₀ ∧
      (if cookieOld = true then { t with handshake := t.handshake.clearCookie } else t) =
        { t with handshake := h₀ } := by
    split_ifs
    · exact ⟨_, .inr rfl, rfl⟩
    · exact ⟨_, .inl rfl, rfl⟩
  have htimer₀ : h₀.timer = some sent := by
    rcases hcleared with rfl | rfl
    · exact htimer
    · exact htimer
  have haction : t.timerAction now e = if dead = true then
        .ok (.expired, (({ t with handshake := h₀ } : Tunn C).expire e).1,
          (({ t with handshake := h₀ } : Tunn C).expire e).2)
      else ({ t with handshake := h₀ } : Tunn C).retryAction now sent e := by
    rw [timerAction, hnot, if_neg Bool.false_ne_true, hcookie, ok_bind]
    simp only [heq, hdead, ok_bind, htimer₀]
    rfl
  rw [haction]
  split_ifs
  · exact .inl ⟨_, _, rfl, rfl⟩
  · rw [retryAction, hgive, ok_bind]
    split_ifs
    · exact .inl ⟨_, _, rfl, rfl⟩
    · refine .inr ⟨h₀, (Env.instantNow e).2, hcleared, ?_⟩
      simp only [ge_iff_le, hdue, if_true]
      rfl

/-- With a clock that has not run backwards, a tick gets to its decisions. -/
theorem startTimers_returns (hclock : t.ClockReached (t.tickStart e).1.clock) :
    ∃ t₁, t.startTimers e = .ok ((t.tickStart e).1.clock, t₁, (t.tickStart e).2) ∧
      t₁.handshake = t.handshake ∧
      t₁.timers.rekeyTimeoutCurrent = t.timers.rekeyTimeoutCurrent ∧
      t₁.ClockReached (t.tickStart e).1.clock := by
  obtain ⟨t₁, hsessions⟩ : ∃ t₁, (t.tickStart e).1.updateSessionTimers (t.tickStart e).1.clock =
    .ok t₁ := ⟨_, if_pos hclock.sessions⟩
  have hstart : t.startTimers e = .ok ((t.tickStart e).1.clock, t₁, (t.tickStart e).2) :=
    bind_eq_ok.mpr ⟨t₁, hsessions, rfl⟩
  obtain ⟨-, heq⟩ := updateSessionTimers_eq_ok hsessions
  refine ⟨t₁, hstart, ?_, ?_, ?_, ?_⟩
  · rw [heq]
    rfl
  · rw [heq]
    rfl
  · intro name
    rw [heq]
    by_cases hname : name = .timeCurrent
    · rw [hname]
    · have hsame : (t.tickStart e).1.timers.timers name = t.timers.timers name :=
        Function.update_of_ne hname _ _
      exact hsame.trans_le (hclock.timers name)
  · intro i
    rw [heq]
    simp only
    split_ifs
    · exact Nat.le_refl _
    · exact hclock.sessions i

/-- **A tick sends an initiation in flight again, or gives the connection up**, once it has
waited for the timeout drawn for it. -/
theorem updateTimers_inProgress {dstLen : Nat}
    (hroom : t.headerProtection.isSome → 12 ≤ t.paddingConfig.s1.toNat)
    (hchains : t.ChainsGenerable) (htimer : t.handshake.timer = some sent)
    (hfit : t.paddingConfig.s1.toNat + handshakeInitSz ≤ dstLen)
    (hclock : t.ClockReached (t.tickStart e).1.clock)
    (hdue : t.timers.rekeyTimeoutCurrent ≤ (Env.instantNow (t.tickStart e).2).1 - sent) :
    (∃ t' e', t.updateTimers dstLen e = .ok (.err .connectionExpired, t', e') ∧
        t'.handshake.state = .expired) ∨
      ∃ datagram t' e' s, t.updateTimers dstLen e = .ok (.writeToNetwork datagram, t', e') ∧
        t'.handshake.state = .initSent s ∧
        s.localIndex = Handshake.succIndex t.handshake.nextIndex := by
  obtain ⟨t₁, hstart, hsame, htimeout, hclock₁⟩ := startTimers_returns hclock
  have hsettings := (aged_startTimers hstart).settings
  rw [← hsame] at htimer
  rw [← htimeout] at hdue
  rw [updateTimers, hstart, ok_bind]
  rcases timerAction_inProgress hclock₁ htimer hdue with
    ⟨t', e', haction, hexpired⟩ | ⟨h₀, e', hcleared, haction⟩
  · left
    simp only [haction, ok_bind]
    exact ⟨t', e', rfl, hexpired⟩
  · right
    simp only [haction, ok_bind]
    have hpadding : t₁.paddingConfig = t.paddingConfig := congrArg Settings.paddingConfig hsettings
    have hprotection : t₁.headerProtection = t.headerProtection :=
      congrArg Settings.headerProtection hsettings
    have hchains₁ : t₁.ChainsGenerable := by
      have hconfig : t₁.initPacketConfig = t.initPacketConfig :=
        congrArg Settings.initPacketConfig hsettings
      rwa [ChainsGenerable, hconfig]
    have hindex : h₀.nextIndex = t.handshake.nextIndex := by
      rcases hcleared with rfl | rfl
      · rw [hsame]
      · rw [← hsame]
        rfl
    rw [← hindex]
    rw [← hpadding] at hfit hroom
    rw [← hprotection] at hroom
    obtain ⟨datagram, t', e'', s, hsends, hstate, hlocal⟩ :=
      (formatHandshakeInitiation_fits (t := { t₁ with handshake := h₀ })
        (show (h₀.isInProgress && !true) = false from Bool.and_false _) hfit hroom e').2 hchains₁
    exact ⟨datagram, t', e'', s, hsends, hstate, hlocal⟩

/-- **The handshake machine is never stuck half answered.**  Between calls a tunnel is not in
`InitReceived`; it is in progress exactly if `timer` gives the time of an initiation of its
own; a tick at which that initiation has waited long enough, with a clock that has not run
backwards and room for an initiation, sends it again or gives the connection up; and the panic
of `format_handshake_response` is out of reach. -/
theorem inProgress_sent_or_expired (h : Reached ε t) :
    ¬ t.handshake.state.HalfAnswered ∧
      (t.handshake.isInProgress = true ↔ t.handshake.timer.isSome = true) ∧
      (∀ (sent : Instant) (dstLen : Nat) (e : ε), t.handshake.timer = some sent →
        t.paddingConfig.s1.toNat + handshakeInitSz ≤ dstLen →
        t.ClockReached (t.tickStart e).1.clock →
        t.timers.rekeyTimeoutCurrent ≤ (Env.instantNow (t.tickStart e).2).1 - sent →
        (∃ t' e', t.updateTimers dstLen e = .ok (.err .connectionExpired, t', e') ∧
            t'.handshake.state = .expired) ∨
          ∃ datagram t' e' s, t.updateTimers dstLen e = .ok (.writeToNetwork datagram, t', e') ∧
            t'.handshake.state = .initSent s ∧
            s.localIndex = Handshake.succIndex t.handshake.nextIndex) ∧
      ∀ (p : HandshakeInit) (dstLen : Nat) (respType : UInt32) (e : ε),
        (t.handshake.receiveHandshakeInitialization p dstLen respType e).Returns := by
  have hsettled := h.settled
  refine ⟨hsettled.state, hsettled.isInProgress_iff, ?_, ?_⟩
  · intro sent dstLen e htimer hfit hclock hdue
    have hprogress : t.handshake.isInProgress = true :=
      hsettled.isInProgress_iff.mpr (by simp [htimer])
    exact updateTimers_inProgress h.initRoom (h.chains hprogress) htimer hfit hclock hdue
  · intro p dstLen respType e
    exact t.handshake.receiveHandshakeInitialization_returns p dstLen respType e

theorem freshTunn_reached : Reached StillMachine freshTunn :=
  .start (show newWithAmnezia3 zeroKey zeroKey none none 1 none {} ({} : StillMachine)
    = (.ok freshTunn, {}) from rfl)

/-- Six seconds after it was sent, the initiation of `freshAwaiting` has waited for its timeout
of five. -/
theorem inProgress_sent_or_expired_awaiting :
    Reached StillMachine freshAwaiting ∧ freshAwaiting.handshake.timer = some 0 ∧
      let e : StillMachine := { instant := Duration.fromSecs 6 }
      (∃ t' e', freshAwaiting.updateTimers handshakeInitSz e =
          .ok (.err .connectionExpired, t', e') ∧ t'.handshake.state = .expired) ∨
        ∃ datagram t' e' s, freshAwaiting.updateTimers handshakeInitSz e =
            .ok (.writeToNetwork datagram, t', e') ∧ t'.handshake.state = .initSent s ∧
          s.localIndex = Handshake.succIndex freshAwaiting.handshake.nextIndex := by
  obtain ⟨r, e', hinitiate⟩ := freshTunn_initiates
  have hreached := freshTunn_reached.step (.initiate hinitiate)
  have hclock : freshAwaiting.ClockReached (Duration.fromSecs 6) := by
    refine ⟨?_, ?_⟩
    · intro name
      cases name <;> decide
    · decide
  refine ⟨hreached, rfl, ?_⟩
  exact (inProgress_sent_or_expired hreached).2.2.1 0 handshakeInitSz
    { instant := Duration.fromSecs 6 } rfl (by decide) hclock (by decide)

/-! ## Expired -/

/-- If the tunnel has expired, it has no session and awaits no response. -/
def Lapsed (t : Tunn C) : Prop :=
  t.handshake.state = .expired → (∀ i, t.sessions i = none) ∧ t.handshake.previous = .expired

theorem Keeps.none (hkeeps : Keeps t t') (hnone : ∀ i, t.sessions i = none) (i : Fin nSessions) :
    t'.sessions i = none := by
  cases hs : t'.sessions i with
  | none => rfl
  | some s' =>
    obtain ⟨s, hs, -⟩ := hkeeps.sessions i s' hs
    rw [hnone i] at hs
    cases hs

/-- A step that leaves both states of the handshake keeps an expired tunnel without keys. -/
theorem Lapsed.kept (hlapsed : t.Lapsed) (hstate : t'.handshake.state = t.handshake.state)
    (hprevious : t'.handshake.previous = t.handshake.previous)
    (hsessions : (∀ i, t.sessions i = none) → ∀ i, t'.sessions i = none) : t'.Lapsed := by
  intro hexpired
  rw [hstate] at hexpired
  obtain ⟨hnone, hold⟩ := hlapsed hexpired
  exact ⟨hsessions hnone, hprevious.trans hold⟩

/-- **One step.** -/
theorem Lapsed.turn (hlapsed : t.Lapsed) (hturn : Turn ε t event t') :
    t'.Lapsed := by
  cases hturn with
  | sends _ hcleared hsent =>
    rcases Handshake.sends_cases hsent.handshake with hsame | ⟨dstLen, msgType, e, e', message, hr⟩
    · rcases hcleared with rfl | rfl
      · exact hlapsed.kept (by rw [hsame]) (by rw [hsame]) hsent.keeps.none
      · exact hlapsed.kept (by rw [hsame]; rfl) (by rw [hsame]; rfl) hsent.keeps.none
    · have hstate := congrArg (fun made => made.2.state) (Handshake.formatHandshakeInitiation_ok hr)
      intro hexpired
      rw [← hstate] at hexpired
      cases hexpired
  | expires _ _ hexpired hnone =>
    intro _
    rw [hexpired]
    exact ⟨hnone, rfl⟩
  | rekeys _ hr hnone =>
    obtain ⟨params, heq⟩ := Handshake.setStaticPrivate_ok hr
    exact hlapsed.kept (by rw [heq]) (by rw [heq]) fun _ => hnone
  | takesCookie hr hkeeps =>
    obtain ⟨cookie, heq⟩ := Handshake.receiveCookieReply_ok hr
    exact hlapsed.kept (by rw [heq]) (by rw [heq]) hkeeps.none
  | answers hr =>
    intro hexpired
    rw [(Handshake.receiveHandshakeInitialization_ok hr).state] at hexpired
    cases hexpired
  | finishes hr =>
    obtain ⟨s, isPrevious, now, hawait, -, heq⟩ := Handshake.receiveHandshakeResponse_ok hr
    intro hexpired
    rw [heq] at hexpired
    cases isPrevious
    · cases hexpired
    · -- an expired tunnel awaits no response
      have hstate : t.handshake.state = .expired := hexpired
      rw [Handshake.awaiting_of_expired hstate (hlapsed hstate).2] at hawait
      cases hawait

/-- **A whole run.** -/
theorem Reached.lapsed (h : Reached ε t) : t.Lapsed :=
  h.invariant (P := Lapsed) (fun _ _ _ _ _ _ _ _ _ => nofun)
    fun _ _ _ hstep hlapsed => hlapsed.turn hstep.turn

/-- A step in which an initiation was sent, or one was accepted. -/
def Begins (ε : Type) [Env ε] (t : Tunn C) (event : Event) (t' : Tunn C) : Prop :=
  (∃ (h₀ : Handshake C) (dstLen : Nat) (msgType : UInt32) (e e' : ε) (message : Bytes),
      t.handshake.Cleared h₀ ∧
      h₀.formatHandshakeInitiation dstLen msgType e = (.ok message, t'.handshake, e')) ∨
    ∃ p, event = .accepted (.handshakeInit p)

/-- Such a step ends the expiry. -/
theorem Begins.not_expired (hbegins : Begins ε t event t') (hturn : Turn ε t event t') :
    t'.handshake.state ≠ .expired := by
  rcases hbegins with ⟨h₀, dstLen, msgType, e, e', message, -, hr⟩ | ⟨p, rfl⟩
  · have hstate := congrArg (fun made => made.2.state) (Handshake.formatHandshakeInitiation_ok hr)
    intro hexpired
    rw [← hstate] at hexpired
    cases hexpired
  · cases hturn with
    | answers hr =>
      rw [(Handshake.receiveHandshakeInitialization_ok hr).state]
      simp
    | sends hevent => cases hevent
    | expires hevent => cases hevent
    | rekeys hevent => cases hevent

/-- Any other leaves an expired tunnel expired. -/
theorem Turn.expired (hlapsed : t.Lapsed) (hexpired : t.handshake.state = .expired)
    (hturn : Turn ε t event t') (hother : ¬ Begins ε t event t') :
    t'.handshake.state = .expired := by
  cases hturn with
  | @sends _ _ h₀ hevent hcleared hsent =>
    have hstate : h₀.state = .expired := by
      rcases hcleared with rfl | rfl
      · exact hexpired
      · exact hexpired
    rcases Handshake.sends_cases hsent.handshake with hsame | ⟨dstLen, msgType, e, e', message, hr⟩
    · rw [hsame]
      exact hstate
    · exact absurd (.inl ⟨h₀, dstLen, msgType, e, e', message, hcleared, hr⟩) hother
  | expires _ _ hgone =>
    rw [hgone]
    rfl
  | rekeys _ hr =>
    obtain ⟨params, heq⟩ := Handshake.setStaticPrivate_ok hr
    rw [heq]
    exact hexpired
  | takesCookie hr =>
    obtain ⟨cookie, heq⟩ := Handshake.receiveCookieReply_ok hr
    rw [heq]
    exact hexpired
  | @answers _ p => exact absurd (.inr ⟨p, rfl⟩) hother
  | finishes hr =>
    obtain ⟨s, isPrevious, now, hawait, -, -⟩ := Handshake.receiveHandshakeResponse_ok hr
    rw [Handshake.awaiting_of_expired hexpired (hlapsed hexpired).2] at hawait
    cases hawait

/-- A run in which no initiation is sent or accepted. -/
def Idles (ε : Type) [Env ε] : Tunn C → Tunn C → Prop :=
  Relation.ReflTransGen fun t t' => ∃ event, Step ε t event t' ∧ ¬ Begins ε t event t'

theorem Idles.expired (hidles : Idles ε t t') (h : Reached ε t)
    (hexpired : t.handshake.state = .expired) :
    Reached ε t' ∧ t'.handshake.state = .expired := by
  induction hidles with
  | refl => exact ⟨h, hexpired⟩
  | tail _ hstep ih =>
    obtain ⟨event, hstep, hother⟩ := hstep
    exact ⟨ih.1.step hstep, hstep.turn.expired ih.1.lapsed ih.2 hother⟩

/-- Without a session nothing is sealed: `encapsulate` goes for a handshake. -/
theorem encapsulate_of_none (hnone : ∀ i, t.sessions i = none) (src : Bytes)
    (dstLen : Nat) (e : ε) :
    t.encapsulate src dstLen e = (t.queuePacket src).formatHandshakeInitiation dstLen false e := by
  rw [encapsulate, hnone]

omit [Env ε] in
/-- And nothing is opened. -/
theorem handleData_of_none (hnone : ∀ i, t.sessions i = none) (p : PacketData) (dstLen : Nat)
    (e : ε) : t.handleData p dstLen e =
      .ok (.error .noCurrentSession, t.observeDatagram (t.observedSize p), e) := by
  simp only [handleData]
  split
  · rfl
  · rename_i hs
    cases (hnone _).symm.trans hs

/-- **Expired means no keys.**  An expired tunnel has no session and awaits no response, and so
it stays until an initiation is sent or accepted: nothing is sealed, opened or turned into a
session before.  A step in which that happens ends the expiry. -/
theorem expired_without_keys (h : Reached ε t) (hexpired : t.handshake.isExpired = true) :
    (∀ t', Idles ε t t' → t'.handshake.isExpired = true ∧ (∀ i, t'.sessions i = none) ∧
        t'.handshake.previous = .expired ∧
        (∀ (src : Bytes) (dstLen : Nat) (e : ε), t'.encapsulate src dstLen e =
          (t'.queuePacket src).formatHandshakeInitiation dstLen false e) ∧
        (∀ (p : PacketData) (dstLen : Nat) (e : ε), t'.handleData p dstLen e =
          .ok (.error .noCurrentSession, t'.observeDatagram (t'.observedSize p), e)) ∧
        ∀ (p : HandshakeResponse) (e : ε), t'.handshake.receiveHandshakeResponse p e =
          (.error .unexpectedPacket, t'.handshake, e)) ∧
      ∀ event t', Step ε t event t' → (Begins ε t event t' ↔ t'.handshake.isExpired = false) := by
  rw [Handshake.isExpired_iff] at hexpired
  constructor
  · intro t' hidles
    obtain ⟨hreached, hstate⟩ := hidles.expired h hexpired
    obtain ⟨hnone, hprevious⟩ := hreached.lapsed hstate
    refine ⟨Handshake.isExpired_iff.mpr hstate, hnone, hprevious, ?_, ?_, ?_⟩
    · exact encapsulate_of_none hnone
    · exact handleData_of_none hnone
    · intro p e
      rw [Handshake.receiveHandshakeResponse, Handshake.awaiting_of_expired hstate hprevious]
  · intro event t' hstep
    rw [← Bool.not_eq_true, Handshake.isExpired_iff]
    constructor
    · intro hbegins
      exact hbegins.not_expired hstep.turn
    · intro hgone
      by_contra hother
      exact hgone (hstep.turn.expired h.lapsed hexpired hother)

/-- A new tunnel that never gets a session is given up after ten minutes. -/
theorem expired_without_keys_fresh :
    ∃ t : Tunn Crypto.transparent, Reached StillMachine t ∧ t.handshake.isExpired = true ∧
      (∀ i, t.sessions i = none) ∧ t.handshake.previous = .expired := by
  have htick : ∃ t e', freshTunn.updateTimers handshakeInitSz
      ({ instant := Duration.fromSecs 600 } : StillMachine) =
        .ok (.err .connectionExpired, t, e') ∧ t.handshake.isExpired = true := by
    have hrun : Outcome.test (freshTunn.updateTimers handshakeInitSz
        ({ instant := Duration.fromSecs 600 } : StillMachine))
        (fun x => x.1 == .err .connectionExpired && x.2.1.handshake.isExpired) = true := by
      decide +kernel
    obtain ⟨⟨r, t, e'⟩, h, hrun⟩ := Outcome.test_eq_true_iff.mp hrun
    simp only [Bool.and_eq_true, beq_iff_eq] at hrun
    obtain ⟨rfl, hexpired⟩ := hrun
    exact ⟨t, e', h, hexpired⟩
  obtain ⟨t, e', htick, hexpired⟩ := htick
  have hreached := freshTunn_reached.step (.updateTimers htick)
  obtain ⟨-, hnone, hprevious, -⟩ := (expired_without_keys hreached hexpired).1 t .refl
  exact ⟨t, hreached, hexpired, hnone, hprevious⟩

end Tunn
