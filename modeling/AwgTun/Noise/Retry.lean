import AwgTun.Noise.Queue
import AwgTun.Noise.Turn

/-!
# Calls that are refused for want of room

`encapsulate`, `format_handshake_initiation`, `decapsulate` and `update_timers` refuse a
buffer that cannot hold what they have to write with `DestinationBufferTooSmall`.  A caller
who repeats the call with a larger buffer relies on the refused call having done nothing.

* `Tunn.SameButClock` — nothing but the clock reading and the limiter's counters differs.
* `Timers.idleSpends` — does a tick with no initiation in flight use up a one-shot flag, or
  restart the persistent keepalive?
* `Tunn.refused_call_retryable_iff` — for each call, when a refusal has done nothing.
* `Tunn.refused_tick_spends_keepalive` — a refused tick after which the keepalive that it
  owed is never sent.
-/

open Control Bytes

/-! ## Messages that are refused -/

/-- A transport packet is refused for other reasons: what cannot be opened for want of room
panics. -/
theorem Session.receivePacketData_ne_tooSmall {C : Crypto} {s s' : Session} {packet : PacketData}
    {dstLen : Nat} {err : WireGuardError}
    (h : s.receivePacketData C packet dstLen = .ok (.error err, s')) :
    err ≠ .destinationBufferTooSmall := by
  unfold receivePacketData at h
  split_ifs at h with hdst hidx
  · cases h
  · cases h
    simp
  · split at h
    · rename_i hcheck
      cases h
      unfold receivingCounterQuickCheck ReceivingKeyCounterValidator.willAccept at hcheck
      split_ifs at hcheck <;> cases hcheck <;> simp
    · split at h
      · cases h
        simp
      · split at h
        · rename_i hmark
          cases h
          unfold receivingCounterMark ReceivingKeyCounterValidator.markDidReceive at hmark
          split at hmark
          · cases hmark
          · rename_i hdid
            split_ifs at hdid <;> cases hdid <;> cases hmark <;> simp
        · cases h

/-! ## What a tick spends -/

/-- What `cond && now - since >= limit` has found when it holds. -/
theorem dueAfter_true {cond : Bool} {now since limit : Duration}
    (h : dueAfter cond now since limit = .ok true) :
    cond = true ∧ since ≤ now ∧ limit ≤ now - since := by
  unfold dueAfter at h
  split_ifs at h with hcond
  · obtain ⟨elapsed, hsub, h⟩ := bind_eq_ok.mp h
    unfold Duration.sub at hsub
    split_ifs at hsub with hle
    · cases hsub
      exact ⟨hcond, hle, of_decide_eq_true (Except.ok.inj h)⟩
    · cases hsub
  · cases h

namespace Timers

variable {ε : Type} [Env ε] {t t' : Timers} {now : Duration} {e e' : ε}

/-- The persistent keepalive fires a second time at one clock reading: its interval was
drawn from a range as zero, twice. -/
def persistentRepeats (t : Timers) (now : Duration) (e : ε) : Bool :=
  !t.timingRanges.persistentKeepalive.isZero && t.timers .timePersistentKeepalive == now &&
    t.persistentKeepaliveNext ==
      Duration.fromSecs (t.timingRanges.persistentKeepalive.generate e).1.toNat

/-- Does a tick with no initiation in flight use up `want_handshake` or `want_keepalive`, or
restart the persistent keepalive? -/
def idleSpends (t : Timers) (now : Duration) (e : ε) : Outcome Bool := do
  let (rekey, e) ← t.rekeyDue now e
  let (silent, t, e) ← t.newHandshakeDue now e
  if rekey || silent then return silent
  else
    let (keepalive, t, e) ← t.keepaliveDue now e
    let (persistent, _, _) ← t.persistentKeepaliveDue now e
    return keepalive || (persistent && !t.persistentRepeats now e)

/-- The silence timer uses up the flag when it fires, and changes nothing else. -/
theorem newHandshakeDue_eq {silent : Bool} (h : t.newHandshakeDue now e = .ok (silent, t', e')) :
    t' = { t with wantHandshake := t.wantHandshake && !silent } ∧
      (silent = true → t.wantHandshake = true) := by
  simp only [newHandshakeDue] at h
  obtain ⟨due, -, h⟩ := bind_eq_ok.mp h
  cases h
  cases due <;> cases hwant : t.wantHandshake <;> simp

/-- So does the keepalive timer. -/
theorem keepaliveDue_eq {keepalive : Bool} (h : t.keepaliveDue now e = .ok (keepalive, t', e')) :
    t' = { t with wantKeepalive := t.wantKeepalive && !keepalive } ∧
      (keepalive = true → t.wantKeepalive = true) := by
  simp only [keepaliveDue] at h
  obtain ⟨due, -, h⟩ := bind_eq_ok.mp h
  cases h
  cases due <;> cases hwant : t.wantKeepalive <;> simp

/-- The persistent keepalive, when it fires, changes its own timer and its next interval,
unless both were what they become. -/
theorem persistentKeepaliveDue_eq {persistent : Bool} (hcurrent : t.timers .timeCurrent = now)
    (h : t.persistentKeepaliveDue now e = .ok (persistent, t', e')) :
    t'.sessionTimers = t.sessionTimers ∧ t'.wantKeepalive = t.wantKeepalive ∧
      t'.timers .timeCurrent = now ∧
      (t' = t ↔ (persistent && !t.persistentRepeats now e) = false) := by
  have hfire (next : Duration) :
      ({ t with persistentKeepaliveNext := next } : Timers).tick .timePersistentKeepalive = t ↔
        next = t.persistentKeepaliveNext ∧ t.timers .timePersistentKeepalive = now := by
    constructor
    · intro heq
      have htimers : Function.update t.timers .timePersistentKeepalive (t.timers .timeCurrent) =
          t.timers := congrArg Timers.timers heq
      have hlast := congrFun htimers .timePersistentKeepalive
      rw [Function.update_self, hcurrent] at hlast
      exact ⟨congrArg persistentKeepaliveNext heq, hlast.symm⟩
    · rintro ⟨rfl, hlast⟩
      have htimers : Function.update t.timers .timePersistentKeepalive (t.timers .timeCurrent) =
          t.timers := by rw [hcurrent, ← hlast, Function.update_eq_self]
      exact congrArg (fun f => ({ t with timers := f } : Timers)) htimers
  simp only [persistentKeepaliveDue] at h
  by_cases hrange : t.timingRanges.persistentKeepalive.isZero = true
  · rw [if_neg (by simp [hrange])] at h
    obtain ⟨due, hdue, h⟩ := bind_eq_ok.mp h
    cases due with
    | false =>
      cases h
      simp [hcurrent]
    | true =>
      cases h
      obtain ⟨hpositive, hle, hlimit⟩ := dueAfter_true hdue
      refine ⟨rfl, rfl, hcurrent, iff_of_false ?_ (by simp [persistentRepeats, hrange])⟩
      intro heq
      have hnow := ((hfire t.persistentKeepaliveNext).mp heq).2
      simp only [decide_eq_true_eq, hnow, Nat.sub_self, Nat.le_zero] at hpositive hlimit
      simp [Duration.fromSecs] at hlimit
      omega
  · rw [if_pos (by simpa using hrange)] at h
    obtain ⟨due, hdue, h⟩ := bind_eq_ok.mp h
    cases due with
    | false =>
      cases h
      simp [hcurrent]
    | true =>
      cases h
      refine ⟨rfl, rfl, hcurrent, (hfire _).trans ?_⟩
      rw [Bool.true_and, Bool.not_eq_false', persistentRepeats]
      simp only [Bool.and_eq_true, beq_iff_eq, Bool.not_eq_true']
      constructor
      · rintro ⟨hnext, hlast⟩
        exact ⟨⟨by simpa using hrange, hlast⟩, hnext.symm⟩
      · rintro ⟨⟨-, hlast⟩, hnext⟩
        exact ⟨hnext.symm, hlast⟩

end Timers

namespace Tunn

variable {C : Crypto} {ε : Type} [Env ε] {t t' : Tunn C} {e e' : ε} {dstLen : Nat} {now : Duration}
  {action : TimerAction} {srcAddr : Option IpAddr} {datagram : Bytes} {t₀ : Tunn C} {src : Bytes}
  {p : Packet}

/-- With no initiation in flight a tick changes nothing but the timers, and these exactly if
it spends something; if it spends nothing, a handshake is due exactly if the session is old. -/
theorem idleAction_eq (h : t.idleAction now e = .ok (action, t', e'))
    (hcurrent : t.timers.timers .timeCurrent = now) :
    ∃ rekey e₁ spends timers, t.timers.rekeyDue now e = .ok (rekey, e₁) ∧
      t.timers.idleSpends now e = .ok spends ∧ t' = { t with timers := timers } ∧
      timers.sessionTimers = t.timers.sessionTimers ∧ timers.timers .timeCurrent = now ∧
        (timers = t.timers ↔ spends = false) ∧
      (spends = false → (action = .handshake ↔ rekey = true)) := by
  simp only [idleAction] at h
  obtain ⟨⟨rekey, e₁⟩, hrekey, h⟩ := bind_eq_ok.mp h
  obtain ⟨⟨silent, timers₁, e₂⟩, hsilent, h⟩ := bind_eq_ok.mp h
  obtain ⟨htimers₁, hwant⟩ := Timers.newHandshakeDue_eq hsilent
  simp only at h
  by_cases hdue : (rekey || silent) = true
  · rw [if_pos hdue] at h
    cases h
    refine ⟨rekey, e₁, silent, timers₁, hrekey, ?_, rfl, by rw [htimers₁],
      by rw [htimers₁]; exact hcurrent, ?_, ?_⟩
    · simp only [Timers.idleSpends, hrekey, hsilent, ok_bind, if_pos hdue]
      rfl
    · rw [htimers₁]
      cases silent with
      | false => simp
      | true =>
        refine iff_of_false ?_ (by simp)
        intro heq
        have hflag := congrArg Timers.wantHandshake heq
        simp [hwant rfl] at hflag
    · intro hspends
      simp only [hspends, Bool.or_false] at hdue
      exact iff_of_true rfl hdue
  · rw [if_neg hdue] at h
    obtain ⟨⟨keepalive, timers₂, e₃⟩, hkeepalive, h⟩ := bind_eq_ok.mp h
    obtain ⟨⟨persistent, timers₃, e₄⟩, hpersistent, h⟩ := bind_eq_ok.mp h
    cases h
    obtain ⟨hrekeyF, hsilentF⟩ : rekey = false ∧ silent = false := by simpa using hdue
    obtain ⟨htimers₂, hwant₂⟩ := Timers.keepaliveDue_eq hkeepalive
    obtain rfl : timers₁ = t.timers := by simp [htimers₁, hsilentF]
    have hcurrent₂ : timers₂.timers .timeCurrent = now := by
      rw [htimers₂]
      exact hcurrent
    obtain ⟨hsessions₃, hkeep₃, hcurrent₃, hsame₃⟩ :=
      Timers.persistentKeepaliveDue_eq hcurrent₂ hpersistent
    refine ⟨rekey, e₁, keepalive || (persistent && !timers₂.persistentRepeats now e₃), timers₃,
      hrekey, ?_, rfl, by rw [hsessions₃, htimers₂], hcurrent₃, ?_, ?_⟩
    · simp only [Timers.idleSpends, hrekey, hsilent, ok_bind, if_neg hdue, hkeepalive, hpersistent]
      rfl
    · cases keepalive with
      | false =>
        obtain rfl : timers₂ = t.timers := by simp [htimers₂]
        simpa using hsame₃
      | true =>
        refine iff_of_false ?_ (by simp)
        intro heq
        rw [heq, htimers₂] at hkeep₃
        simp [hwant₂ rfl] at hkeep₃
    · intro _
      refine iff_of_false ?_ (by simp [hrekeyF])
      split_ifs <;> simp

/-- Dropping a cookie shows. -/
theorem decided_eq_iff {cookieOld : Bool} {timers : Timers}
    (hcookie : cookieOld = true → t.handshake.hasCookie = true) :
    t.decided cookieOld timers = t ↔ cookieOld = false ∧ timers = t.timers := by
  cases cookieOld with
  | false =>
    constructor
    · intro heq
      exact ⟨rfl, congrArg Tunn.timers heq⟩
    · rintro ⟨-, rfl⟩
      rfl
  | true =>
    refine iff_of_false ?_ (by simp)
    intro heq
    have hgone : (t.decided true timers).handshake.hasCookie = false := rfl
    rw [heq, hcookie rfl] at hgone
    cases hgone

/-- A tick that has something to send: an old cookie is dropped, and either an initiation is
in flight and is sent again, or the timers decide. -/
theorem timerAction_sends (h : t.timerAction now e = .ok (action, t', e'))
    (hsend : action = .handshake ∨ action = .keepalive) :
    ∃ cookieOld, dueAfter t.handshake.hasCookie now (t.timers.timers .timeCookieReceived)
        cookieExpirationTime = .ok cookieOld ∧
      ((t.handshake.timer.isSome ∧ action = .handshake ∧ t' = t.decided cookieOld t.timers) ∨
        (t.handshake.timer = none ∧
          (t.decided cookieOld t.timers).idleAction now e = .ok (action, t', e'))) := by
  rcases timerAction_cases h with ⟨rfl, -, -⟩ | ⟨cookieOld, hcookie, hdecides⟩
  · simp at hsend
  · refine ⟨cookieOld, hcookie, ?_⟩
    cases hdecides with
    | gaveUp => simp at hsend
    | inFlight hflight haction =>
      exact .inl ⟨hflight, haction.resolve_right (by rintro rfl; simp at hsend), rfl⟩
    | idle hidle h => exact .inr ⟨hidle, h⟩

/-- Such a tick changes the timers exactly if none is in flight and it spends something. -/
theorem timerAction_spends (hcurrent : t.timers.timers .timeCurrent = now)
    (h : t.timerAction now e = .ok (action, t', e'))
    (hsend : action = .handshake ∨ action = .keepalive) :
    ∃ cookieOld timers, dueAfter t.handshake.hasCookie now (t.timers.timers .timeCookieReceived)
        cookieExpirationTime = .ok cookieOld ∧ t' = t.decided cookieOld timers ∧
      timers.sessionTimers = t.timers.sessionTimers ∧ timers.timers .timeCurrent = now ∧
      (timers = t.timers ↔ (t.handshake.timer = none → t.timers.idleSpends now e = .ok false)) ∧
      (timers = t.timers → (action = .handshake ↔
        (t.handshake.timer = none → ∃ e', t.timers.rekeyDue now e = .ok (true, e')))) := by
  obtain ⟨cookieOld, hcookie, ⟨hflight, haction, rfl⟩ | ⟨hidle, h⟩⟩ := timerAction_sends h hsend
  · have hsome : t.handshake.timer ≠ none := Option.isSome_iff_ne_none.mp hflight
    exact ⟨cookieOld, t.timers, hcookie, rfl, rfl, hcurrent, by simp [hsome],
      by simp [hsome, haction]⟩
  · obtain ⟨rekey, e₁, spends, timers, hrekey, hspends, rfl, hsessions, hclock, hsame, hstart⟩ :=
      idleAction_eq h hcurrent
    refine ⟨cookieOld, timers, hcookie, rfl, hsessions, hclock, ?_, ?_⟩
    · have hspends' : t.timers.idleSpends now e = .ok spends := hspends
      have hsame' : timers = t.timers ↔ spends = false := hsame
      simp [hsame', hidle, hspends']
    · intro htimers
      have hrekey' : t.timers.rekeyDue now e = .ok (rekey, e₁) := hrekey
      rw [hstart (hsame.mp htimers)]
      simp [hidle, hrekey']

/-! ## Refusals -/

theorem formatHandshakeInitiation_refused {force : Bool}
    (h : t.formatHandshakeInitiation dstLen force e =
      .ok (.err .destinationBufferTooSmall, t', e')) : t' = t := by
  rcases formatHandshakeInitiation_ends h with ⟨rfl, -⟩ | ⟨datagram, hr, -⟩
  · rfl
  · cases hr

theorem sealPacket_refused {s : Session}
    (h : t.sealPacket s src dstLen e = .ok (.err .destinationBufferTooSmall, t', e')) : t' = t := by
  rcases sealPacket_cases h with ⟨-, rfl⟩ | ⟨datagram, s', hr, -⟩
  · rfl
  · cases hr

/-- With a session `encapsulate` refuses without a trace; without one it has queued the
packet. -/
theorem encapsulate_refused
    (h : t.encapsulate src dstLen e = .ok (.err .destinationBufferTooSmall, t', e')) :
    t' = if (t.sessions (slotOf t.current)).isSome then t else t.queuePacket src := by
  rw [encapsulate] at h
  split at h
  · rename_i s hs
    rw [hs, sealPacket_refused h]
    rfl
  · rename_i hs
    rw [hs, formatHandshakeInitiation_refused h]
    rfl

/-- Queueing a packet shows, unless the queue is full. -/
theorem queuePacket_eq_iff (hqueue : t.packetQueue = t₀.packetQueue) (packet : Bytes) :
    t.queuePacket packet = t₀ ↔ t = t₀ ∧ maxQueueDepth ≤ t₀.packetQueue.length := by
  unfold queuePacket
  split_ifs with hroom
  · refine iff_of_false ?_ ?_
    · rintro rfl
      simp at hqueue
    · rw [← hqueue]
      omega
  · rw [← hqueue, iff_self_and]
    intro _
    exact Nat.not_lt.mp hroom

/-- A handler that refuses a packet for want of room has done nothing. -/
theorem handlePacket_refused
    (h : t.handlePacket p dstLen e = .ok (.error .destinationBufferTooSmall, t', e')) : t' = t := by
  cases handlePacket_handled h with
  | refuses => rfl
  | drops hreason =>
    rcases hreason with ⟨-, herr⟩ | ⟨session, -, hreceive⟩
    · cases herr
    · exact absurd rfl (Session.receivePacketData_ne_tooSmall hreceive)

/-- The only error among the results of a handler is a bad inner packet. -/
theorem handlePacket_ok_err {err : WireGuardError}
    (h : t.handlePacket p dstLen e = .ok (.ok (.err err), t', e')) : err = .invalidPacket :=
  (handlePacket_handled h).ok_err rfl

/-- The same tunnel, but for the reading of the clock and the limiter's counters. -/
structure SameButClock (t t' : Tunn C) : Prop where
  limiter : t.rateLimiter.SameButCounts t'.rateLimiter
  rest : t' = { t with
    rateLimiter := t'.rateLimiter
    timers := t.timers.set .timeCurrent (t'.timers.timers .timeCurrent) }

/-! ## Ticks -/

theorem sameButClock_tickStart (t : Tunn C) (e : ε) : t.SameButClock (t.tickStart e).1 where
  limiter := by
    simp only [tickStart]
    split_ifs
    · exact RateLimiter.sameButCounts_resetCount _ _
    · exact .refl _
  rest := by simp [tickStart, Timers.set]

/-- A tunnel that agrees with another on clock and limiter is the same but for these exactly
if it is equal to it. -/
theorem sameButClock_iff_eq (h₀ : t.SameButClock t₀) (hclock : t'.clock = t₀.clock)
    (hlimiter : t'.rateLimiter = t₀.rateLimiter) : t.SameButClock t' ↔ t' = t₀ := by
  constructor
  · intro h
    rw [h.rest, h₀.rest, hlimiter]
    simp only [clock] at hclock
    rw [hclock]
  · rintro rfl
    exact h₀

/-- When a tick that is refused has done nothing.  No session and no cookie may have
expired; and if no initiation is in flight, the tick uses up no flag and restarts no timer,
and it has a handshake to start, or a session, or a full queue. -/
def TickKeeps (t : Tunn C) (e : ε) : Prop :=
  let (t, e) := t.tickStart e
  (∀ i, t.timers.sessionExpired t.clock i = false) ∧
    dueAfter t.handshake.hasCookie t.clock (t.timers.timers .timeCookieReceived)
      cookieExpirationTime = .ok false ∧
    (t.handshake.timer = none → t.timers.idleSpends t.clock e = .ok false ∧
      ((∃ e', t.timers.rekeyDue t.clock e = .ok (true, e')) ∨
        (t.sessions (slotOf t.current)).isSome ∨ maxQueueDepth ≤ t.packetQueue.length))

/-- Ageing the sessions changes nothing exactly if none has expired. -/
theorem updateSessionTimers_cases (h : t.updateSessionTimers now = .ok t') :
    (t' = t ∧ ∀ i, t.timers.sessionExpired now i = false) ∨
      ((∃ i, t.timers.sessionExpired now i = true) ∧
        t'.timers.sessionTimers ≠ t.timers.sessionTimers) := by
  obtain ⟨hle, rfl⟩ := updateSessionTimers_eq_ok h
  by_cases hold : ∃ i, t.timers.sessionExpired now i = true
  · refine .inr ⟨hold, ?_⟩
    obtain ⟨i, hi⟩ := hold
    intro heq
    have hslot := congrFun heq i
    simp only [hi, if_true] at hslot
    have hage : now - t.timers.sessionTimers i > t.timers.rejectAfterTime := of_decide_eq_true hi
    rw [← hslot, Nat.sub_self] at hage
    exact absurd hage (Nat.not_lt_zero _)
  · push Not at hold
    have hnone : ∀ i, t.timers.sessionExpired now i = false := by simpa using hold
    exact .inl ⟨by simp [hnone], hnone⟩

/-- What a tick that is refused has done. -/
theorem updateTimers_refused
    (h : t.updateTimers dstLen e = .ok (.err .destinationBufferTooSmall, t', e')) :
    t.SameButClock t' ↔ t.TickKeeps e := by
  obtain ⟨⟨now, t₁, e₁⟩, hstart, h⟩ := bind_eq_ok.mp h
  obtain ⟨⟨action, t₂, e₂⟩, haction, h⟩ := bind_eq_ok.mp h
  obtain ⟨rfl, rfl, hsessions⟩ := startTimers_eq_ok hstart
  have hsame := t.sameButClock_tickStart e
  unfold TickKeeps
  generalize t.tickStart e = start at *
  obtain ⟨t₀, e₀⟩ := start
  simp only at *
  have hsend : action = .handshake ∨ action = .keepalive := by
    cases action with
    | nothing => cases h
    | expired => cases h
    | handshake => exact .inl rfl
    | keepalive => exact .inr rfl
  have hclock₁ : t₁.timers.timers .timeCurrent = t₀.clock := by
    rw [(updateSessionTimers_eq_ok hsessions).2]
  obtain ⟨cookieOld, timers, hcookie, rfl, hslots, hclock, hspends, hrekey⟩ :=
    timerAction_spends hclock₁ haction hsend
  -- what the last call makes of the decision
  have hlast : t' = if action = .handshake ∨ (t₁.sessions (slotOf t₁.current)).isSome then
      t₁.decided cookieOld timers else (t₁.decided cookieOld timers).queuePacket [] := by
    cases action with
    | nothing => simp at hsend
    | expired => simp at hsend
    | handshake => simpa using formatHandshakeInitiation_refused h
    | keepalive =>
      rw [encapsulate_refused h]
      exact if_congr (by simp) rfl rfl
  have htimers : t'.timers = timers := by
    rw [hlast]
    unfold queuePacket
    split_ifs <;> rfl
  have hlimiter : t'.rateLimiter = t₀.rateLimiter := by
    rw [hlast, (updateSessionTimers_eq_ok hsessions).2]
    unfold queuePacket
    split_ifs <;> rfl
  rw [sameButClock_iff_eq hsame (by rw [clock, htimers, hclock]) hlimiter]
  rcases updateSessionTimers_cases hsessions with ⟨rfl, hyoung⟩ | ⟨⟨i, hi⟩, hchanged⟩
  · have hdecided : t₁.decided cookieOld timers = t₁ ↔ cookieOld = false ∧ timers = t₁.timers := by
      apply decided_eq_iff
      rintro rfl
      exact (dueAfter_true hcookie).1
    have hnow : t' = t₁ ↔ (cookieOld = false ∧ timers = t₁.timers) ∧ (action = .handshake ∨
        (t₁.sessions (slotOf t₁.current)).isSome ∨ maxQueueDepth ≤ t₁.packetQueue.length) := by
      rw [hlast]
      split_ifs with hquiet
      · rw [hdecided, iff_self_and]
        intro _
        exact hquiet.imp_right .inl
      · rw [queuePacket_eq_iff
          (show (t₁.decided cookieOld timers).packetQueue = t₁.packetQueue from rfl), hdecided]
        push Not at hquiet
        simp [hquiet]
    rw [hnow, hcookie]
    constructor
    · rintro ⟨⟨hkept, hsameTimers⟩, hdone⟩
      refine ⟨hyoung, by rw [hkept], ?_⟩
      intro hidle
      refine ⟨hspends.mp hsameTimers hidle, hdone.imp_left ?_⟩
      intro haction
      exact (hrekey hsameTimers).mp haction hidle
    · rintro ⟨-, hkept, hidle⟩
      have hsameTimers : timers = t₁.timers := hspends.mpr fun hnone => (hidle hnone).1
      refine ⟨⟨Except.ok.inj hkept, hsameTimers⟩, ?_⟩
      by_cases hnone : t₁.handshake.timer = none
      · exact (hidle hnone).2.imp_left fun hdue => (hrekey hsameTimers).mpr fun _ => hdue
      · exact .inl ((hrekey hsameTimers).mpr fun h => absurd h hnone)
  · refine iff_of_false ?_ ?_
    · rintro rfl
      rw [htimers] at hchanged
      exact hchanged hslots.symm
    · rintro ⟨hyoung, -⟩
      rw [hyoung i] at hi
      cases hi

/-! ## Calls -/

/-- A call that writes into a buffer. -/
inductive Call
  | encapsulate (src : Bytes)
  | formatHandshakeInitiation (forceResend : Bool)
  | decapsulate (srcAddr : Option IpAddr) (datagram : Bytes)
  | updateTimers

/-- The call, with a buffer of `dstLen` bytes. -/
def Call.run (call : Call) (t : Tunn C) (dstLen : Nat) (e : ε) :
    Outcome (TunnResult × Tunn C × ε) :=
  match call with
  | .encapsulate src => t.encapsulate src dstLen e
  | .formatHandshakeInitiation forceResend => t.formatHandshakeInitiation dstLen forceResend e
  | .decapsulate srcAddr datagram => t.decapsulate srcAddr datagram dstLen e
  | .updateTimers => t.updateTimers dstLen e

/-- The states in which a refused call has done nothing: `encapsulate` has queued its packet
unless there is a session or no room, and a tick may have done several things. -/
def Call.Retryable (call : Call) (t : Tunn C) (e : ε) : Prop :=
  match call with
  | .encapsulate _ =>
      (t.sessions (slotOf t.current)).isSome ∨ maxQueueDepth ≤ t.packetQueue.length
  | .formatHandshakeInitiation _ => True
  | .decapsulate _ _ => True
  | .updateTimers => t.TickKeeps e

theorem SameButClock.refl (t : Tunn C) : t.SameButClock t where
  limiter := .refl _
  rest := by simp [Timers.set]

/-- The first stage of `decapsulate` counts, and does nothing else. -/
theorem sameButClock_receive {received : Received}
    (h : t.receive srcAddr datagram dstLen e = .ok (received, t', e')) :
    t.SameButClock t' := by
  rw [receive_eq_unframe] at h
  obtain ⟨u, -, h⟩ := bind_eq_ok.mp h
  cases u with
  | packet p =>
    cases h
    exact .refl t
  | message bytes =>
    have hverify := RateLimiter.sameButCounts_verifyPacket t.rateLimiter (C := C) srcAddr bytes
      cookieReplySz t.headerConfig t.disableCookies e
    obtain ⟨_, _, _, hverified, rfl, -⟩ := verify_cases h
    rw [hverified] at hverify
    exact ⟨hverify, by simp [Timers.set]⟩

/-- A datagram that is refused for want of room has been counted, and nothing else. -/
theorem decapsulate_refused (h : t.decapsulate srcAddr datagram dstLen e =
      .ok (.err .destinationBufferTooSmall, t', e')) : t.SameButClock t' := by
  rw [decapsulate] at h
  split_ifs at h with hempty
  · -- a flush turns every error into `Done`
    rw [sendQueuedPacket] at h
    split at h
    · cases h
    · obtain ⟨⟨r, t₁, e₁⟩, -, h⟩ := bind_eq_ok.mp h
      simp only at h
      split at h
      · cases h
      · rename_i hnot
        cases h
        exact absurd rfl (hnot _)
  · obtain ⟨⟨received, t₁, e₁⟩, hreceive, h⟩ := bind_eq_ok.mp h
    have hsame := sameButClock_receive hreceive
    cases received with
    | reply r =>
      cases h
      exact hsame
    | packet p =>
      obtain ⟨⟨result, t₂, e₂⟩, hhandle, h⟩ := bind_eq_ok.mp h
      cases result with
      | error err =>
        cases h
        rw [handlePacket_refused hhandle]
        exact hsame
      | ok r =>
        cases h
        exact absurd (handlePacket_ok_err hhandle) (by simp)

/-- **When a call refused for want of room can be repeated.**  In every state, a call that
returns `DestinationBufferTooSmall` has left the tunnel as it was, but for the clock reading
and the limiter's counters, exactly in the states of `Call.Retryable`. -/
theorem refused_call_retryable_iff {call : Call} {dstLen : Nat} {e e' : ε}
    (h : call.run t dstLen e = .ok (.err .destinationBufferTooSmall, t', e')) :
    t.SameButClock t' ↔ call.Retryable t e := by
  cases call with
  | encapsulate src =>
    rw [encapsulate_refused h, Call.Retryable]
    split_ifs with hsession
    · exact iff_of_true (.refl t) (.inl hsession)
    · rw [sameButClock_iff_eq (.refl t) (by unfold queuePacket; split_ifs <;> rfl)
        (by unfold queuePacket; split_ifs <;> rfl), queuePacket_eq_iff rfl]
      simp [hsession]
  | formatHandshakeInitiation force =>
    rw [formatHandshakeInitiation_refused h]
    exact iff_of_true (.refl t) trivial
  | decapsulate srcAddr datagram => exact iff_of_true (decapsulate_refused h) trivial
  | updateTimers => exact updateTimers_refused h

/-- A tunnel with a persistent keepalive of 25 seconds. -/
def keptTunn : Tunn Crypto.transparent :=
  (ofConfig zeroKey zeroKey none (some 25) 1 none {} ({} : StillMachine)).1

/-- With a session, a packet that does not fit leaves no trace. -/
theorem refused_call_retryable_iff_answered :
    freshAnswered.encapsulate [1] 10 ({} : StillMachine) =
        .ok (.err .destinationBufferTooSmall, freshAnswered, {}) ∧
      freshAnswered.SameButClock freshAnswered := by
  have hrefused : Call.run (.encapsulate [1]) freshAnswered 10 ({} : StillMachine) =
      .ok (.err .destinationBufferTooSmall, freshAnswered, {}) := rfl
  exact ⟨hrefused, (refused_call_retryable_iff hrefused).mpr (.inl rfl)⟩

/-- **A refused tick spends the keepalive.**  After half a minute the keepalive of a new
tunnel is due.  A tick with a buffer of ten bytes is refused; repeated with room for an
initiation it returns `Done`, where a first tick with that room starts a handshake. -/
theorem refused_tick_spends_keepalive :
    newWithAmnezia3 zeroKey zeroKey none (some 25) 1 none {} ({} : StillMachine) =
        (.ok keptTunn, {}) ∧
      ∃ t' e', keptTunn.updateTimers 10 ({ instant := Duration.fromSecs 30 } : StillMachine) =
          .ok (.err .destinationBufferTooSmall, t', e') ∧
        ¬ keptTunn.SameButClock t' ∧
        (∃ t₂ e₂, t'.updateTimers 148 e' = .ok (.done, t₂, e₂)) ∧
        ∃ datagram t₁ e₁, keptTunn.updateTimers 148
          ({ instant := Duration.fromSecs 30 } : StillMachine) =
            .ok (.writeToNetwork datagram, t₁, e₁) := by
  refine ⟨rfl, _, _, rfl, ?_, ⟨_, _, rfl⟩, _, _, _, rfl⟩
  intro hsame
  have hqueue := congrArg Tunn.packetQueue hsame.rest
  cases hqueue

end Tunn
