import AwgTun.Noise.RateLimiter

/-!
# Timers

The timer table of a tunnel and the decisions `update_timers` takes from it.
Every time is counted from the start of the tunnel.  `Duration` subtraction panics
when it would go below zero, so each comparison `now - t >= limit` of the source is
an `Outcome`; a condition that the source puts in front of it with `&&` keeps the
subtraction from being evaluated (`dueAfter`).

The part of `update_timers` that touches sessions and the handshake is in
`Noise.Tunn`; the parts that read and write the table alone are here.
-/

open Control Bytes

/-- `N_SESSIONS`. -/
abbrev nSessions : Nat := 8

/-- The slot of a session index: `idx % N_SESSIONS`. -/
def slotOf (idx : Nat) : Fin nSessions := Fin.ofNat nSessions idx

theorem slotOf_eq_iff {i j : Nat} : slotOf i = slotOf j ↔ i % nSessions = j % nSessions := by
  simp [slotOf, Fin.ext_iff]

/-- `REKEY_AFTER_TIME_SECS`. -/
def rekeyAfterTimeSecs : UInt32 := 120

/-- `REJECT_AFTER_TIME_SECS`. -/
def rejectAfterTimeSecs : UInt32 := 180

/-- `REKEY_TIMEOUT_SECS`. -/
def rekeyTimeoutSecs : UInt32 := 5

/-- `KEEPALIVE_TIMEOUT_SECS`. -/
def keepaliveTimeoutSecs : UInt32 := 10

/-- `MAX_TIMER_HANDSHAKES`. -/
def maxTimerHandshakes : UInt32 := 18

/-- `REKEY_ATTEMPT_TIME`. -/
def rekeyAttemptTime : Duration := Duration.fromSecs (rekeyTimeoutSecs * maxTimerHandshakes).toNat

/-- `REKEY_TIMEOUT`. -/
def rekeyTimeout : Duration := Duration.fromSecs rekeyTimeoutSecs.toNat

/-- `REKEY_TIMEOUT_JITTER_MAX_MS`. -/
def rekeyTimeoutJitterMaxMs : UInt32 := 334

/-- `COOKIE_EXPIRATION_TIME`. -/
def cookieExpirationTime : Duration := Duration.fromSecs 120

/-- `Duration - Duration`. -/
def Duration.sub (a b : Duration) : Outcome Duration :=
  if b ≤ a then .ok (a - b) else .panic "overflow when subtracting durations"

/-- `cond && now - since >= limit`. -/
def dueAfter (cond : Bool) (now since limit : Duration) : Outcome Bool :=
  if cond then do
    let elapsed ← Duration.sub now since
    return decide (elapsed ≥ limit)
  else .ok false

/-- The entries of the timer table. -/
inductive TimerName
  | timeCurrent
  | timeSessionEstablished
  | timeLastHandshakeStarted
  | timeLastPacketReceived
  | timeLastPacketSent
  | timeLastDataPacketReceived
  | timeLastDataPacketSent
  | timeCookieReceived
  | timePersistentKeepalive
  deriving DecidableEq, Repr

/-- The timers of a tunnel. -/
structure Timers where
  /-- Did we initiate the last handshake? -/
  isInitiator : Bool
  timeStarted : Instant
  timers : TimerName → Duration
  /-- When the session in each slot was stored. -/
  sessionTimers : Fin nSessions → Duration
  /-- Did we receive data without sending anything back? -/
  wantKeepalive : Bool
  /-- Did we send data without hearing back? -/
  wantHandshake : Bool
  persistentKeepalive : Nat
  timingRanges : TimingRanges
  rekeyTimeoutCurrent : Duration
  rekeyAttemptDeadline : Duration
  persistentKeepaliveNext : Duration
  /-- Is the rate limiter ours alone, so that we reset it? -/
  shouldResetRr : Bool

namespace Timers

variable {ε : Type} [Env ε]

/-- `Timers::new`. -/
def new (persistentKeepalive : Option UInt16) (resetRr : Bool)
    (timingRanges : TimingRanges) (e : ε) :
    Timers × ε :=
  let (timeStarted, e) := Env.instantNow e
  let (next, e) := timingRanges.persistentKeepalive.pickOr e 0
  ({ isInitiator := false
     timeStarted
     timers := fun _ => 0
     sessionTimers := fun _ => 0
     wantKeepalive := false
     wantHandshake := false
     persistentKeepalive := (persistentKeepalive.getD 0).toNat
     timingRanges
     rekeyTimeoutCurrent := rekeyTimeout
     rekeyAttemptDeadline := rekeyAttemptTime
     persistentKeepaliveNext := Duration.fromSecs next.toNat
     shouldResetRr := resetRr }, e)

/-- `roll_handshake_timings`. -/
def rollHandshakeTimings (t : Timers) (startingNewHandshake : Bool) (e : ε) : Timers × ε :=
  let (rekeyTimeout, e) := t.timingRanges.rekeyTimeout.pickOr e rekeyTimeoutSecs
  let (jitterMs, e) := genRangeU32 e 0 (rekeyTimeoutJitterMaxMs - 1)
  let t := { t with
    rekeyTimeoutCurrent :=
      Duration.fromSecs rekeyTimeout.toNat + Duration.fromMillis jitterMs.toNat }
  if startingNewHandshake then
    let (maxAttempts, e) := t.timingRanges.maxHandshakeAttempts.pickOr e maxTimerHandshakes
    ({ t with rekeyAttemptDeadline := Duration.fromSecs (rekeyTimeout.toNat * maxAttempts.toNat) },
      e)
  else (t, e)

/-- `reject_after_time`. -/
def rejectAfterTime (t : Timers) : Duration :=
  Duration.fromSecs (t.timingRanges.rejectAfterTime.hiOr rejectAfterTimeSecs).toNat

/-- Is the session in a slot older than `reject_after_time`? -/
def sessionExpired (t : Timers) (now : Duration) (i : Fin nSessions) : Bool :=
  decide (now - t.sessionTimers i > t.rejectAfterTime)

/-- `Timers::clear`: every entry becomes the current time. -/
def clear (t : Timers) (e : ε) : Timers × ε :=
  let (instant, e) := Env.instantNow e
  let now : Duration := instant - t.timeStarted
  ({ t with timers := fun _ => now, wantHandshake := false, wantKeepalive := false }, e)

/-- Set one entry. -/
def set (t : Timers) (name : TimerName) (time : Duration) : Timers :=
  { t with timers := Function.update t.timers name time }

/-- `timer_tick`. -/
def tick (t : Timers) (name : TimerName) : Timers :=
  let t := match name with
    | .timeLastPacketReceived => { t with wantKeepalive := true, wantHandshake := false }
    | .timeLastPacketSent => { t with wantHandshake := true, wantKeepalive := false }
    | _ => t
  t.set name (t.timers .timeCurrent)

/-- `timer_tick_session_established`. -/
def tickSessionEstablished (t : Timers) (isInitiator : Bool) (sessionIdx : Nat) : Timers :=
  let t := t.tick .timeSessionEstablished
  { t with
    sessionTimers := Function.update t.sessionTimers (slotOf sessionIdx) (t.timers .timeCurrent)
    isInitiator := isInitiator }

/-! ## What is due -/

/-- Has a session we initiated grown old, on sending or on receiving? -/
def rekeyDue (t : Timers) (now : Duration) (e : ε) : Outcome (Bool × ε) :=
  if t.isInitiator then do
    let established := t.timers .timeSessionEstablished
    let (rekeyAfter, e) := t.timingRanges.rekeyAfterTime.pickOr e rekeyAfterTimeSecs
    let onSend ← dueAfter (decide (established < t.timers .timeLastDataPacketSent)) now established
      (Duration.fromSecs rekeyAfter.toNat)
    let (reject, e) := t.timingRanges.rejectAfterTime.pickOr e rejectAfterTimeSecs
    let margin := t.timingRanges.keepaliveTimeout.loOr keepaliveTimeoutSecs
      + t.timingRanges.rekeyTimeout.loOr rekeyTimeoutSecs
    -- `reject.saturating_sub(margin)`
    let onReceive ← dueAfter (decide (established < t.timers .timeLastDataPacketReceived)) now
      established (Duration.fromSecs (reject.toNat - margin.toNat))
    return (onSend || onReceive, e)
  else .ok (false, e)

/-- Has a packet been sent and nothing been heard since? -/
def newHandshakeDue (t : Timers) (now : Duration) (e : ε) : Outcome (Bool × Timers × ε) := do
  let received := t.timers .timeLastPacketReceived
  let (rekeyTimeout, e) := t.timingRanges.rekeyTimeout.pickOr e rekeyTimeoutSecs
  let secs := t.timingRanges.keepaliveTimeout.hiOr keepaliveTimeoutSecs + rekeyTimeout
  let (jitterMs, e) := genRangeU32 e 0 (rekeyTimeoutJitterMaxMs - 1)
  let due ← dueAfter (decide (t.timers .timeLastDataPacketSent > received)) now received
    (Duration.fromSecs secs.toNat + Duration.fromMillis jitterMs.toNat)
  return (due && t.wantHandshake, { t with wantHandshake := !due && t.wantHandshake }, e)

/-- Has data been received and nothing been sent back since? -/
def keepaliveDue (t : Timers) (now : Duration) (e : ε) : Outcome (Bool × Timers × ε) := do
  let sent := t.timers .timeLastPacketSent
  let (keepaliveTimeout, e) := t.timingRanges.keepaliveTimeout.pickOr e keepaliveTimeoutSecs
  let due ← dueAfter (decide (t.timers .timeLastDataPacketReceived > sent)) now sent
    (Duration.fromSecs keepaliveTimeout.toNat)
  return (due && t.wantKeepalive, { t with wantKeepalive := !due && t.wantKeepalive }, e)

/-- Is the persistent keepalive due?  A range takes precedence over a fixed
interval and is drawn from again every time. -/
def persistentKeepaliveDue (t : Timers) (now : Duration) (e : ε) : Outcome (Bool × Timers × ε) := do
  let last := t.timers .timePersistentKeepalive
  let range := t.timingRanges.persistentKeepalive
  if !range.isZero then
    let due ← dueAfter true now last t.persistentKeepaliveNext
    if due then
      let (next, e) := range.generate e
      let t := { t with persistentKeepaliveNext := Duration.fromSecs next.toNat }
      return (true, t.tick .timePersistentKeepalive, e)
    else return (false, t, e)
  else
    let due ← dueAfter (decide (t.persistentKeepalive > 0)) now last
      (Duration.fromSecs t.persistentKeepalive)
    if due then return (true, t.tick .timePersistentKeepalive, e)
    else return (false, t, e)

end Timers
