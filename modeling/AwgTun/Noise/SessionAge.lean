import AwgTun.Noise.Confirmed
import AwgTun.Noise.Turn

/-!
# How long a session lives

The age of a session is kept next to it, in `session_timers`, at the index of its slot.  Two
handlers store sessions there and tick the timer; ticks empty slots and rewrite their timers;
expiry and key changes empty slots and leave the timers.  `Births` follows a run and notes for
each slot when a session was last stored in it, so that the question is whether the timer of
an occupied slot is that time.

* `Tunn.Dated.turn`, `Tunn.Aging.dated` — it is, after one step and after any run.
* `Tunn.session_age_bounded` — just after a tick no session is older than the upper bound of
  `reject_after_time`.
-/

open Control Bytes

namespace Tunn

variable {C : Crypto} {now : Duration} {event : Event}

/-- For each slot: the value of `TimeCurrent` when a session was last stored in it. -/
abbrev Births := Fin nSessions → Duration

/-- What an event on a tunnel stores, and where. -/
def Births.after (births : Births) (t : Tunn C) : Event → Births
  | .accepted (.handshakeInit _) =>
      Function.update births (slotOf (Handshake.succIndex t.handshake.nextIndex).toNat)
        (t.timers.timers .timeCurrent)
  | .accepted (.handshakeResponse p) =>
      Function.update births (slotOf p.receiverIdx.toNat) (t.timers.timers .timeCurrent)
  | _ => births

/-- The tunnels that runs from a new one lead to, with the times at which their sessions were
stored. -/
inductive Aging (ε : Type) [Env ε] : Tunn C → Births → Prop
  | start {staticPrivate peerStaticPublic : Key} {presharedKey : Option Key}
      {persistentKeepalive : Option UInt16} {index : UInt32} {rateLimiter : Option RateLimiter}
      {amnezia : Amnezia3Config} {e e' : ε} {t : Tunn C} (births : Births)
      (h : newWithAmnezia3 staticPrivate peerStaticPublic presharedKey persistentKeepalive index
        rateLimiter amnezia e = (.ok t, e')) : Aging ε t births
  | step {t t' : Tunn C} {births : Births} {event : Event} (h : Aging ε t births)
      (hstep : Step ε t event t') : Aging ε t' (births.after t event)

variable {ε : Type} [Env ε] {t t' : Tunn C} {births : Births}

theorem Births.after_of_not_stores (hevent : event.stores = false) :
    births.after t event = births := by
  cases event with
  | accepted p =>
    cases p with
    | handshakeInit p => cases hevent
    | handshakeResponse p => cases hevent
    | packetCookieReply p => rfl
    | packetData p => rfl
  | _ => rfl

/-! ## Slots and their times -/

/-- The timer of every occupied slot is the time at which its session was stored. -/
def Dated (t : Tunn C) (births : Births) : Prop :=
  ∀ i, (t.sessions i).isSome → t.timers.sessionTimers i = births i

theorem Dated.of_none (hnone : ∀ i, t.sessions i = none) (births : Births) : t.Dated births := by
  intro i hi
  rw [hnone i] at hi
  cases hi

theorem Dated.keeps (hdated : t.Dated births) (hkeeps : Keeps t t') : t'.Dated births := by
  intro i hi
  obtain ⟨s', hs'⟩ := Option.isSome_iff_exists.mp hi
  obtain ⟨s, hs, -⟩ := hkeeps.sessions i s' hs'
  rw [hkeeps.sessionTimers i hi]
  exact hdated i (by simp [hs])

/-- A session that is stored takes the place of the one before it, and so does its time. -/
theorem Dated.stores (hdated : t.Dated births) {session : Session} (hstores : Stores t t' session)
    {idx : Nat} (hidx : session.localIndex = idx) :
    t'.Dated (Function.update births (slotOf idx) (t.timers.timers .timeCurrent)) := by
  obtain ⟨s', -, hsessions⟩ := hstores.sessions
  intro i hi
  rw [hstores.sessionTimers, hidx]
  rw [hsessions, hidx] at hi
  by_cases hslot : i = slotOf idx
  · rw [hslot, Function.update_self, Function.update_self]
  · rw [Function.update_of_ne hslot] at hi
    rw [Function.update_of_ne hslot, Function.update_of_ne hslot]
    exact hdated i hi

/-- **One step.** -/
theorem Dated.turn (hdated : t.Dated births) (hturn : Turn ε t event t') :
    t'.Dated (births.after t event) := by
  cases hturn with
  | sends hevent _ hsent =>
    rw [Births.after_of_not_stores hevent]
    exact hdated.keeps hsent.keeps
  | expires _ _ _ hnone => exact .of_none hnone _
  | rekeys _ _ hnone => exact .of_none hnone _
  | takesCookie _ hkeeps => exact hdated.keeps hkeeps
  | answers hr hstores =>
    refine hdated.stores hstores ?_
    exact congrArg UInt32.toNat (Handshake.receiveHandshakeInitialization_ok hr).session
  | finishes hr hstores =>
    refine hdated.stores hstores ?_
    obtain ⟨s, isPrevious, now, hawait, hindex, -⟩ := Handshake.receiveHandshakeResponse_ok hr
    exact congrArg UInt32.toNat (hindex.trans (Handshake.awaiting_index hawait))

/-- **A whole run**, from a tunnel without sessions. -/
theorem Aging.dated (h : Aging ε t births) : t.Dated births := by
  induction h with
  | start births hnew =>
    obtain ⟨-, rfl⟩ := newWithAmnezia3_eq_ok hnew
    exact .of_none (fun _ => rfl) births
  | step _ hstep ih => exact ih.turn hstep.turn

/-! ## Ticks -/

/-- A session that survives `update_session_timers` is not too old. -/
theorem updateSessionTimers_young (h : t.updateSessionTimers now = .ok t') {i : Fin nSessions}
    (hi : (t'.sessions i).isSome) :
    t.timers.sessionTimers i ≤ now ∧ now - t.timers.sessionTimers i ≤ t.timers.rejectAfterTime := by
  obtain ⟨hle, rfl⟩ := updateSessionTimers_eq_ok h
  refine ⟨hle i, ?_⟩
  by_contra hold
  have hexpired : t.timers.sessionExpired now i = true := decide_eq_true (Nat.not_le.mp hold)
  simp [hexpired] at hi

theorem startTimers_young {e e' : ε} (h : t.startTimers e = .ok (now, t', e')) {i : Fin nSessions}
    (hi : (t'.sessions i).isSome) :
    now = (Env.instantNow e).1 - t.timers.timeStarted ∧ t.timers.sessionTimers i ≤ now ∧
      now - t.timers.sessionTimers i ≤ t.timers.rejectAfterTime := by
  obtain ⟨hnow, -, hsessions⟩ := startTimers_eq_ok h
  exact ⟨hnow, updateSessionTimers_young hsessions hi⟩

/-- What a tick does after it has looked at the sessions adds none. -/
theorem updateTimers_keeps {dstLen : Nat} {e e' : ε} {r : TunnResult}
    (h : t.updateTimers dstLen e = .ok (r, t', e')) :
    ∃ now t₁ e₁, t.startTimers e = .ok (now, t₁, e₁) ∧ Keeps t₁ t' := by
  obtain ⟨⟨now, t₁, e₁⟩, hstart, h⟩ := bind_eq_ok.mp h
  obtain ⟨⟨action, t₂, e₂⟩, haction, h⟩ := bind_eq_ok.mp h
  refine ⟨now, t₁, e₁, hstart, ?_⟩
  have hdecided : Keeps t₁ t₂ := by
    obtain ⟨h₀, -, ⟨-, hkeeps⟩ | ⟨-, -, hnone, hranges⟩⟩ := timerAction_turn haction
    · exact hkeeps
    · exact .of_none hnone hranges
  cases action with
  | nothing =>
    cases h
    exact hdecided
  | expired =>
    cases h
    exact hdecided
  | handshake => exact hdecided.trans (formatHandshakeInitiation_sent h).keeps
  | keepalive => exact hdecided.trans (encapsulate_sent h).keeps

/-- **Session keys have a bounded life.**  In every run the timer of an occupied slot is the
time at which the session in it was stored.  Just after a tick at `now`, no session was stored
longer ago than the upper bound of `reject_after_time`, or three minutes if that is not set. -/
theorem session_age_bounded (h : Aging ε t births) :
    (∀ i, (t.sessions i).isSome → t.timers.sessionTimers i = births i) ∧
      ∀ (dstLen : Nat) (e e' : ε) (r : TunnResult) (t' : Tunn C),
        t.updateTimers dstLen e = .ok (r, t', e') → ∀ i, (t'.sessions i).isSome →
          t'.timers.sessionTimers i = births i ∧
            births i ≤ (Env.instantNow e).1 - t.timers.timeStarted ∧
            (Env.instantNow e).1 - t.timers.timeStarted - births i ≤
              Duration.fromSecs (t.timers.timingRanges.rejectAfterTime.hiOr 180).toNat := by
  refine ⟨h.dated, ?_⟩
  intro dstLen e e' r t' htick i hi
  have hdated' := (h.step (.updateTimers htick)).dated i hi
  obtain ⟨now, t₁, e₁, hstart, hkeeps⟩ := updateTimers_keeps htick
  obtain ⟨s', hs'⟩ := Option.isSome_iff_exists.mp hi
  obtain ⟨s₁, hs₁, -⟩ := hkeeps.sessions i s' hs'
  obtain ⟨s, hs, -⟩ := (startTimers_turn hstart).2.sessions i s₁ hs₁
  obtain ⟨rfl, hle, hyoung⟩ := startTimers_young hstart (i := i) (by simp [hs₁])
  rw [h.dated i (by simp [hs])] at hle hyoung
  exact ⟨hdated', hle, hyoung⟩

/-- The session of an initiator, six seconds after it was stored. -/
theorem session_age_bounded_initiator :
    ∃ births, Aging StillMachine freshAnswered births ∧
      ∃ r t' e', freshAnswered.updateTimers 64
          ({ instant := Duration.fromSecs 6 } : StillMachine) = .ok (r, t', e') ∧
        ∃ i, (t'.sessions i).isSome ∧ births i = 0 ∧
          t'.timers.sessionTimers i = births i ∧
          Duration.fromSecs 6 - births i ≤ Duration.fromSecs 180 := by
  obtain ⟨r₁, e₁, hinitiate⟩ := freshTunn_initiates
  obtain ⟨r₂, e₂, hanswer⟩ := freshAwaiting_answered
  have hstart : Aging StillMachine freshTunn (fun _ => 0) :=
    .start _ (show newWithAmnezia3 zeroKey zeroKey none none 1 none {} ({} : StillMachine)
      = (.ok freshTunn, {}) from rfl)
  have hrun := (hstart.step (.initiate hinitiate)).step (.accept hanswer)
  have htick : Outcome.test (freshAnswered.updateTimers 64
      ({ instant := Duration.fromSecs 6 } : StillMachine))
      (fun x => (x.2.1.sessions (slotOf freshAnswered.current)).isSome) = true := by decide +kernel
  obtain ⟨⟨r, t', e'⟩, htick, hlives⟩ := Outcome.test_eq_true_iff.mp htick
  obtain ⟨hsame, -, hyoung⟩ := (session_age_bounded hrun).2 _ _ _ _ _ htick _ hlives
  exact ⟨_, hrun, r, t', e', htick, _, hlives, rfl, hsame, hyoung⟩

end Tunn
