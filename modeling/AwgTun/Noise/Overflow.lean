import AwgTun.Noise.Clock

/-!
# Randomized timings in machine words

`Timers.rekeyDue`, `Timers.newHandshakeDue` and `Timers.rollHandshakeTimings` add `u32` values with
wrapping and durations without a bound.  Here is the same arithmetic in a build that checks for
overflow: `u32` and `u64` operators panic past their width, a `Duration` past `u64::MAX` seconds.

* `Timers.rollHandshakeTimingsChecked_eq`, `Tunn.timerActionChecked_eq`: as long as
  `TimingRanges.Fit` holds, none of the checks is ever met.  The product of timeout and attempts,
  the jitter and three times the reject time always fit.
* `Tunn.timings_fit_iff`: the validated ranges for which no tick of any tunnel overflows are the
  ones whose two upper bounds, of the keepalive and of the rekey timeout, have a `u32` sum.
-/

open Control Bytes

open Env (reading)

variable {C : Crypto} {ε : Type} [Env ε]

/-! ## Checked operators -/

/-- `a + b` on `u32`. -/
def addU32 (a b : UInt32) : Outcome UInt32 :=
  if a.toNat + b.toNat < 2 ^ 32 then .ok (a + b) else .panic "attempt to add with overflow"

/-- `a * b` on `u64`. -/
def mulU64 (a b : Nat) : Outcome Nat :=
  if a * b < 2 ^ 64 then .ok (a * b) else .panic "attempt to multiply with overflow"

/-- The first length of time that is no `Duration`: `u64::MAX` seconds and a second. -/
def Duration.limit : Duration := Duration.fromSecs (2 ^ 64)

/-- `Duration + Duration`. -/
def Duration.add (a b : Duration) : Outcome Duration :=
  if a + b < Duration.limit then .ok (a + b) else .panic "overflow when adding durations"

/-- `Duration * u32`. -/
def Duration.mul (a : Duration) (k : Nat) : Outcome Duration :=
  if a * k < Duration.limit then .ok (a * k)
  else .panic "overflow when multiplying duration by scalar"

theorem addU32_eq {a b : UInt32} (h : a.toNat + b.toNat < 2 ^ 32) : addU32 a b = .ok (a + b) :=
  if_pos h

/-- Two 32-bit factors have a 64-bit product. -/
theorem mulU64_eq (a b : UInt32) : mulU64 a.toNat b.toNat = .ok (a.toNat * b.toNat) := by
  have ha := a.toNat_lt
  have hb := b.toNat_lt
  refine if_pos ?_
  calc a.toNat * b.toNat ≤ a.toNat * 2 ^ 32 := Nat.mul_le_mul_left _ hb.le
    _ < 2 ^ 32 * 2 ^ 32 := Nat.mul_lt_mul_of_pos_right ha (by decide)
    _ = 2 ^ 64 := by decide

/-- Seconds and milliseconds from 32 bits each are far from the limit. -/
theorem Duration.add_eq (secs millis : UInt32) :
    Duration.add (Duration.fromSecs secs.toNat) (Duration.fromMillis millis.toNat) =
      .ok (Duration.fromSecs secs.toNat + Duration.fromMillis millis.toNat) := by
  have hsecs := secs.toNat_lt
  have hmillis := millis.toNat_lt
  refine if_pos ?_
  change secs.toNat * 1000000000 + millis.toNat * 1000000 < 2 ^ 64 * 1000000000
  omega

theorem Duration.mul_eq (secs : UInt32) :
    Duration.mul (Duration.fromSecs secs.toNat) 3 = .ok (Duration.fromSecs secs.toNat * 3) := by
  have hsecs := secs.toNat_lt
  refine if_pos ?_
  change secs.toNat * 1000000000 * 3 < 2 ^ 64 * 1000000000
  omega

/-! ## The ranges -/

namespace U32Range

variable {ρ : Type} [RandomSource ρ] {r : U32Range}

theorem validate_eq_ok {field : String} : r.validate field = .ok () ↔ r.lo ≤ r.hi := by
  unfold validate
  split_ifs with h
  · exact iff_of_false (by simp) (by simpa using h)
  · exact iff_of_true rfl (by simpa using h)

/-- A pick is at most the upper bound. -/
theorem pickOr_le (hle : r.lo ≤ r.hi) (rng : ρ) (default : UInt32) :
    (r.pickOr rng default).1 ≤ r.hiOr default := by
  unfold pickOr hiOr
  split_ifs
  · exact UInt32.le_refl _
  · exact (genRangeU32_mem rng hle).2

theorem loOr_le (hle : r.lo ≤ r.hi) (default : UInt32) : r.loOr default ≤ r.hiOr default := by
  unfold loOr hiOr
  split_ifs
  · exact UInt32.le_refl _
  · exact hle

/-- An upper bound is zero only for the fallback zero. -/
theorem hiOr_pos (hle : r.lo ≤ r.hi) {default : UInt32} (hdefault : 0 < default.toNat) :
    0 < (r.hiOr default).toNat := by
  unfold hiOr
  split_ifs with hzero
  · exact hdefault
  · by_contra hhi
    have hhi : r.hi = 0 := UInt32.toNat_inj.mp (by simpa using hhi)
    have hlo : r.lo = 0 := UInt32.toNat_inj.mp (by
      have hle := UInt32.le_iff_toNat_le.mp hle
      rw [hhi] at hle
      simpa using hle)
    simp [isZero, hhi, hlo] at hzero

end U32Range

namespace TimingRanges

/-- The longest silence before a new handshake, in seconds and without the jitter, fits in a
`u32`. -/
def Fit (r : TimingRanges) : Prop :=
  (r.keepaliveTimeout.hiOr keepaliveTimeoutSecs).toNat +
    (r.rekeyTimeout.hiOr rekeyTimeoutSecs).toNat < 2 ^ 32

instance (r : TimingRanges) : Decidable r.Fit := inferInstanceAs (Decidable (_ < _))

/-- In validated ranges no bound is inverted. -/
structure Ordered (r : TimingRanges) : Prop where
  rekeyTimeout : r.rekeyTimeout.lo ≤ r.rekeyTimeout.hi
  rejectAfterTime : r.rejectAfterTime.lo ≤ r.rejectAfterTime.hi
  keepaliveTimeout : r.keepaliveTimeout.lo ≤ r.keepaliveTimeout.hi

theorem ordered_of_validate {r : TimingRanges} (h : r.validate = .ok ()) : r.Ordered := by
  simp only [validate, check_bind_eq_ok, U32Range.validate_eq_ok] at h
  exact ⟨h.2.1, h.2.2.1, h.2.2.2.1⟩

end TimingRanges

/-! ## The timers -/

namespace Timers

variable {ε : Type} [Env ε] {t : Timers} {now : Duration} {e : ε}

/-- `roll_handshake_timings`, checked. -/
def rollHandshakeTimingsChecked (t : Timers) (startingNewHandshake : Bool) (e : ε) :
    Outcome (Timers × ε) := do
  let (rekeyTimeout, e) := t.timingRanges.rekeyTimeout.pickOr e rekeyTimeoutSecs
  let (jitterMs, e) := genRangeU32 e 0 (rekeyTimeoutJitterMaxMs - 1)
  let rekeyTimeoutCurrent ← Duration.add (Duration.fromSecs rekeyTimeout.toNat)
    (Duration.fromMillis jitterMs.toNat)
  let t := { t with rekeyTimeoutCurrent }
  if startingNewHandshake then
    let (maxAttempts, e) := t.timingRanges.maxHandshakeAttempts.pickOr e maxTimerHandshakes
    let secs ← mulU64 rekeyTimeout.toNat maxAttempts.toNat
    return ({ t with rekeyAttemptDeadline := Duration.fromSecs secs }, e)
  else return (t, e)

/-- `rekeyDue`, with the margin checked. -/
def rekeyDueChecked (t : Timers) (now : Duration) (e : ε) : Outcome (Bool × ε) :=
  if t.isInitiator then do
    let established := t.timers .timeSessionEstablished
    let (rekeyAfter, e) := t.timingRanges.rekeyAfterTime.pickOr e rekeyAfterTimeSecs
    let onSend ← dueAfter (decide (established < t.timers .timeLastDataPacketSent)) now established
      (Duration.fromSecs rekeyAfter.toNat)
    let (reject, e) := t.timingRanges.rejectAfterTime.pickOr e rejectAfterTimeSecs
    let margin ← addU32 (t.timingRanges.keepaliveTimeout.loOr keepaliveTimeoutSecs)
      (t.timingRanges.rekeyTimeout.loOr rekeyTimeoutSecs)
    let onReceive ← dueAfter (decide (established < t.timers .timeLastDataPacketReceived)) now
      established (Duration.fromSecs (reject.toNat - margin.toNat))
    return (onSend || onReceive, e)
  else .ok (false, e)

/-- `newHandshakeDue`, with both sums checked.  They are evaluated whether or not anything was
sent. -/
def newHandshakeDueChecked (t : Timers) (now : Duration) (e : ε) :
    Outcome (Bool × Timers × ε) := do
  let received := t.timers .timeLastPacketReceived
  let (rekeyTimeout, e) := t.timingRanges.rekeyTimeout.pickOr e rekeyTimeoutSecs
  let secs ← addU32 (t.timingRanges.keepaliveTimeout.hiOr keepaliveTimeoutSecs) rekeyTimeout
  let (jitterMs, e) := genRangeU32 e 0 (rekeyTimeoutJitterMaxMs - 1)
  let limit ← Duration.add (Duration.fromSecs secs.toNat) (Duration.fromMillis jitterMs.toNat)
  let due ← dueAfter (decide (t.timers .timeLastDataPacketSent > received)) now received limit
  return (due && t.wantHandshake, { t with wantHandshake := !due && t.wantHandshake }, e)

/-- The timings of a handshake never overflow. -/
theorem rollHandshakeTimingsChecked_eq (t : Timers) (startingNewHandshake : Bool) (e : ε) :
    t.rollHandshakeTimingsChecked startingNewHandshake e =
      .ok (t.rollHandshakeTimings startingNewHandshake e) := by
  unfold rollHandshakeTimingsChecked rollHandshakeTimings
  simp only [Duration.add_eq, ok_bind]
  split_ifs
  · simp only [mulU64_eq, ok_bind]
    rfl
  · rfl

theorem rekeyDueChecked_eq (hordered : t.timingRanges.Ordered) (hfit : t.timingRanges.Fit)
    (now : Duration) (e : ε) : t.rekeyDueChecked now e = t.rekeyDue now e := by
  have hmargin : (t.timingRanges.keepaliveTimeout.loOr keepaliveTimeoutSecs).toNat +
      (t.timingRanges.rekeyTimeout.loOr rekeyTimeoutSecs).toNat < 2 ^ 32 := by
    have hkeepalive := UInt32.le_iff_toNat_le.mp
      (U32Range.loOr_le hordered.keepaliveTimeout keepaliveTimeoutSecs)
    have hrekey := UInt32.le_iff_toNat_le.mp
      (U32Range.loOr_le hordered.rekeyTimeout rekeyTimeoutSecs)
    have hsum : _ < 2 ^ 32 := hfit
    omega
  unfold rekeyDueChecked rekeyDue
  simp only [addU32_eq hmargin, ok_bind]

theorem newHandshakeDueChecked_eq (hordered : t.timingRanges.Ordered) (hfit : t.timingRanges.Fit)
    (now : Duration) (e : ε) : t.newHandshakeDueChecked now e = t.newHandshakeDue now e := by
  have hsecs : (t.timingRanges.keepaliveTimeout.hiOr keepaliveTimeoutSecs).toNat +
      (t.timingRanges.rekeyTimeout.pickOr e rekeyTimeoutSecs).1.toNat < 2 ^ 32 := by
    have hpick := UInt32.le_iff_toNat_le.mp
      (U32Range.pickOr_le hordered.rekeyTimeout e rekeyTimeoutSecs)
    have hsum : _ < 2 ^ 32 := hfit
    omega
  unfold newHandshakeDueChecked newHandshakeDue
  simp only [addU32_eq hsecs, Duration.add_eq, ok_bind]

/-- The sum of a bound and a pick that has no `u32`. -/
theorem newHandshakeDueChecked_overflows
    (hsum : ¬ (t.timingRanges.keepaliveTimeout.hiOr keepaliveTimeoutSecs).toNat +
      (t.timingRanges.rekeyTimeout.pickOr e rekeyTimeoutSecs).1.toNat < 2 ^ 32) :
    t.newHandshakeDueChecked now e = .panic "attempt to add with overflow" := by
  simp only [newHandshakeDueChecked, addU32, if_neg hsum]
  rfl

end Timers

/-! ## A tick -/

namespace Tunn

variable {t : Tunn C} {now : Duration} {e : ε}

/-- `idleAction`, checked. -/
def idleActionChecked (t : Tunn C) (now : Duration) (e : ε) :
    Outcome (TimerAction × Tunn C × ε) := do
  let (rekey, e) ← t.timers.rekeyDueChecked now e
  let (silent, timers, e) ← t.timers.newHandshakeDueChecked now e
  if rekey || silent then return (.handshake, { t with timers }, e)
  else
    let (keepalive, timers, e) ← timers.keepaliveDue now e
    let (persistent, timers, e) ← timers.persistentKeepaliveDue now e
    return (if keepalive || persistent then .keepalive else .nothing, { t with timers }, e)

/-- `timerAction`, checked. -/
def timerActionChecked (t : Tunn C) (now : Duration) (e : ε) :
    Outcome (TimerAction × Tunn C × ε) :=
  if t.handshake.isExpired then .ok (.expired, t, e)
  else do
    let cookieOld ← dueAfter t.handshake.hasCookie now (t.timers.timers .timeCookieReceived)
      cookieExpirationTime
    let t := if cookieOld then { t with handshake := t.handshake.clearCookie } else t
    let limit ← Duration.mul t.timers.rejectAfterTime 3
    let dead ← dueAfter true now (t.timers.timers .timeSessionEstablished) limit
    if dead then
      let (t, e) := t.expire e
      return (.expired, t, e)
    else
      match t.handshake.timer with
      | some timeInitSent => t.retryAction now timeInitSent e
      | none => t.idleActionChecked now e

/-- What a tick computes before it sends anything. -/
def tickDecision (t : Tunn C) (e : ε) : Outcome (TimerAction × Tunn C × ε) := do
  let (now, t, e) ← t.startTimers e
  t.timerAction now e

/-- The same, checked. -/
def tickDecisionChecked (t : Tunn C) (e : ε) : Outcome (TimerAction × Tunn C × ε) := do
  let (now, t, e) ← t.startTimers e
  t.timerActionChecked now e

theorem idleActionChecked_eq (hordered : t.timers.timingRanges.Ordered)
    (hfit : t.timers.timingRanges.Fit) (now : Duration) (e : ε) :
    t.idleActionChecked now e = t.idleAction now e := by
  unfold idleActionChecked idleAction
  rw [Timers.rekeyDueChecked_eq hordered hfit]
  simp only [Timers.newHandshakeDueChecked_eq hordered hfit]

/-- With ranges that fit, the checks of a tick are never met. -/
theorem timerActionChecked_eq (hordered : t.timers.timingRanges.Ordered)
    (hfit : t.timers.timingRanges.Fit) (now : Duration) (e : ε) :
    t.timerActionChecked now e = t.timerAction now e := by
  unfold timerActionChecked timerAction
  split_ifs
  · rfl
  · congr 1
    funext cookieOld
    -- a cookie that is dropped leaves the timers alone
    have htimers : (if cookieOld then { t with handshake := t.handshake.clearCookie }
        else t).timers = t.timers := by
      split_ifs <;> rfl
    generalize hcleared :
      (if cookieOld then { t with handshake := t.handshake.clearCookie } else t) = t₁ at htimers ⊢
    rw [← htimers] at hordered hfit
    cases htimer : t₁.handshake.timer with
    | some timeInitSent => simp only [Timers.rejectAfterTime, Duration.mul_eq, ok_bind, htimer]
    | none =>
      simp only [Timers.rejectAfterTime, Duration.mul_eq, ok_bind, htimer,
        idleActionChecked_eq hordered hfit]

theorem tickDecisionChecked_eq (hordered : t.timers.timingRanges.Ordered)
    (hfit : t.timers.timingRanges.Fit) (e : ε) : t.tickDecisionChecked e = t.tickDecision e := by
  refine bind_congr_ok ?_
  rintro ⟨now, t₁, e₁⟩ hstart
  have hranges : t₁.timers.timingRanges = t.timers.timingRanges :=
    (startTimers_turn hstart).2.timingRanges
  rw [← hranges] at hordered hfit
  exact timerActionChecked_eq hordered hfit now e₁

variable [SteadyClock ε]

/-- Under a clock that does not go back, a tick takes its decision. -/
theorem tickDecision_returns (h : Clocked ε t e) : (t.tickDecision e).Returns := by
  have hmeets : (t.tickDecision e).Meets (fun _ => False) fun _ => True := by
    refine (startTimers_meets h.notAhead).bind ?_
    rintro ⟨now, t₁, e₁⟩ - ⟨rfl, hnotAhead, hle⟩
    exact (timerAction_meets hnotAhead hle).mono fun _ _ => trivial
  exact hmeets.returns

end Tunn

/-! ## Draws that reach the upper bound -/

/-- A machine whose clocks stand still and whose first four random bytes are always the same. -/
structure DrawMachine where
  draw : UInt32

instance : Env DrawMachine where
  fillBytes m n := (⟨(u32ToLe m.draw ++ List.replicate n 0).take n, by simp⟩, m)
  instantNow m := (0, m)
  systemTimeNow m := (0, m)
  randomSecret m := (zeroKey, m)

instance : SteadyClock DrawMachine where
  fillBytes _ _ := Nat.le_refl _
  instantNow _ := Nat.le_refl _
  systemTimeNow _ := Nat.le_refl _
  randomSecret _ := Nat.le_refl _

/-- The machine that draws the upper bound of a range. -/
def U32Range.top (r : U32Range) : DrawMachine := ⟨r.hi - r.lo⟩

theorem U32Range.generate_top {r : U32Range} (hle : r.lo ≤ r.hi) : (r.generate r.top).1 = r.hi := by
  have hraw : u32OfLe (RandomSource.fillBytes r.top 4).1.toList = r.hi - r.lo := by
    rw [← u32OfLe_u32ToLe (r.hi - r.lo)]
    rfl
  have hsub := UInt32.toNat_sub_of_le _ _ hle
  have hnat := UInt32.le_iff_toNat_le.mp hle
  have hhi := r.hi.toNat_lt
  unfold generate genRangeU32
  split_ifs with hge
  · exact UInt32.le_antisymm hle hge
  · simp only [checkedAddU32, hraw]
    split_ifs with hsum
    · -- the span is one less than the modulus
      have hmod : (r.hi - r.lo) % (r.hi - r.lo + 1) = r.hi - r.lo := by
        have hone : (r.hi - r.lo + 1).toNat = (r.hi - r.lo).toNat + 1 := by
          rw [UInt32.toNat_add, Nat.mod_eq_of_lt hsum]
          rfl
        rw [← UInt32.toNat_inj, UInt32.toNat_mod, hone, Nat.mod_eq_of_lt (Nat.lt_succ_self _)]
      simp only [hmod]
      rw [← UInt32.toNat_inj, UInt32.toNat_add, hsub, Nat.add_sub_cancel' hnat,
        Nat.mod_eq_of_lt hhi]
    · -- the range has every value
      have hspan : ¬ (r.hi - r.lo).toNat + 1 < 2 ^ 32 := hsum
      rw [← UInt32.toNat_inj, hsub]
      omega

theorem U32Range.pickOr_top {r : U32Range} (hle : r.lo ≤ r.hi) (default : UInt32) :
    (r.pickOr r.top default).1 = r.hiOr default := by
  unfold pickOr hiOr
  split_ifs
  · rfl
  · exact generate_top hle

namespace Tunn

variable {r : TimingRanges}

/-- The sum of the silence that is allowed is computed in every tick without a handshake, on a new
tunnel as well. -/
theorem timerActionChecked_idle {t : Tunn C} {e : ε} {message : String}
    (hexpired : t.handshake.isExpired = false) (hcookie : t.handshake.hasCookie = false)
    (htimer : t.handshake.timer = none) (hinitiator : t.timers.isInitiator = false)
    (hzero : t.timers.timers .timeSessionEstablished = 0) (hordered : t.timers.timingRanges.Ordered)
    (hpanic : t.timers.newHandshakeDueChecked 0 e = .panic message) :
    t.timerActionChecked 0 e = .panic message := by
  have hpos := U32Range.hiOr_pos hordered.rejectAfterTime
    (show 0 < rejectAfterTimeSecs.toNat by decide)
  have hdead : dueAfter true 0 (t.timers.timers .timeSessionEstablished) (Duration.fromSecs
      (t.timers.timingRanges.rejectAfterTime.hiOr rejectAfterTimeSecs).toNat * 3) = .ok false := by
    have hlate : ¬ (0 : Duration) ≥ Duration.fromSecs
        (t.timers.timingRanges.rejectAfterTime.hiOr rejectAfterTimeSecs).toNat * 3 :=
      Nat.not_le.mpr (Nat.mul_pos (Nat.mul_pos hpos (by decide)) (by decide))
    rw [dueAfter, if_pos rfl, hzero, Duration.sub, if_pos (Nat.le_refl 0), ok_bind, Nat.sub_self,
      decide_eq_false hlate]
    rfl
  have hidle : t.idleActionChecked 0 e = .panic message := by
    simp only [idleActionChecked, Timers.rekeyDueChecked, hinitiator, Bool.false_eq_true, if_false,
      ok_bind, hpanic]
    rfl
  have hcold : dueAfter t.handshake.hasCookie 0 (t.timers.timers .timeCookieReceived)
      cookieExpirationTime = .ok false := by
    rw [hcookie]
    rfl
  simp only [timerActionChecked, hexpired, Bool.false_eq_true, if_false, hcold, ok_bind,
    Timers.rejectAfterTime, Duration.mul_eq, hdead, htimer, hidle]

/-- A new tunnel with some ranges, on a machine that draws the upper bound of the rekey
timeout. -/
def atTop (C : Crypto) (r : TimingRanges) : Tunn C :=
  (ofConfig zeroKey zeroKey none none 0 none { timingRanges := r } r.rekeyTimeout.top).1

/-- No draw changes that machine. -/
theorem pickOr_env (r : U32Range) (m : DrawMachine) (default : UInt32) :
    (r.pickOr m default).2 = m := by
  unfold U32Range.pickOr U32Range.generate genRangeU32
  split_ifs
  · rfl
  · rfl
  · dsimp only
    split <;> rfl

theorem resetCount_env (l : RateLimiter) (m : DrawMachine) : (l.resetCount m).2 = m := by
  unfold RateLimiter.resetCount
  dsimp only
  split_ifs <;> rfl

theorem clocked_atTop (hvalid : r.validate = .ok ()) :
    Clocked DrawMachine (atTop C r) r.rekeyTimeout.top := by
  have hconfig : ({ timingRanges := r } : Amnezia3Config).validate = .ok () := by
    simp only [Amnezia3Config.validate, check_bind_eq_ok]
    exact ⟨by decide, rfl, rfl, by decide, rfl, hvalid, rfl⟩
  have hnew : newWithAmnezia3 zeroKey zeroKey none none 0 none { timingRanges := r }
      r.rekeyTimeout.top = (.ok (atTop C r), r.rekeyTimeout.top) := by
    rw [newWithAmnezia3, hconfig]
    refine Prod.ext rfl ?_
    exact pickOr_env r.persistentKeepalive r.rekeyTimeout.top 0
  exact .start hnew

/-- On such a machine a tick begins by changing the time and the sessions only. -/
theorem startTimers_draw {t t' : Tunn C} {now : Duration} {m m' : DrawMachine}
    (h : t.startTimers m = .ok (now, t', m')) :
    now = 0 - t.timers.timeStarted ∧ m' = m ∧ t'.handshake = t.handshake ∧
      t'.timers.isInitiator = t.timers.isInitiator ∧
      t'.timers.timers .timeSessionEstablished = t.timers.timers .timeSessionEstablished ∧
      t'.timers.timingRanges = t.timers.timingRanges := by
  obtain ⟨rfl, rfl, hsessions⟩ := startTimers_eq_ok h
  obtain ⟨-, rfl⟩ := updateSessionTimers_eq_ok hsessions
  refine ⟨rfl, ?_, rfl, rfl, rfl, rfl⟩
  simp only [tickStart]
  split_ifs
  · exact resetCount_env t.rateLimiter m
  · rfl

/-- Its first tick overflows unless the bounds fit. -/
theorem tickDecisionChecked_atTop (hvalid : r.validate = .ok ()) (hfit : ¬ r.Fit) :
    (atTop C r).tickDecisionChecked r.rekeyTimeout.top =
      .panic "attempt to add with overflow" := by
  have hordered := TimingRanges.ordered_of_validate hvalid
  have hclocked := clocked_atTop (C := C) hvalid
  have hmeets : ((atTop C r).startTimers r.rekeyTimeout.top).Meets (fun _ => False) _ :=
    startTimers_meets hclocked.notAhead
  obtain ⟨⟨now, t₁, m⟩, hstart⟩ := hmeets.returns
  obtain ⟨rfl, rfl, hhandshake, hinitiator, hzero, hranges⟩ := startTimers_draw hstart
  rw [tickDecisionChecked, hstart, ok_bind]
  have hordered₁ : t₁.timers.timingRanges.Ordered := by
    rw [hranges]
    exact hordered
  refine timerActionChecked_idle (by rw [hhandshake]; rfl) (by rw [hhandshake]; rfl)
    (by rw [hhandshake]; rfl) hinitiator hzero hordered₁ ?_
  refine Timers.newHandshakeDueChecked_overflows ?_
  rw [hranges]
  change ¬ (r.keepaliveTimeout.hiOr _).toNat + (r.rekeyTimeout.pickOr _ _).1.toNat < _
  rw [U32Range.pickOr_top hordered.rekeyTimeout]
  exact hfit

/-! ## Which ranges fit -/

/-- No arithmetic of the timings overflows: whatever a tunnel with these ranges has been through
and whatever is drawn, a tick comes to its decision, with the checks the one that is computed
without them, and so do the timings of an initiation. -/
def NoOverflow (C : Crypto) (r : TimingRanges) : Prop :=
  ∀ (ε : Type) [Env ε] [SteadyClock ε],
    (∀ (t : Tunn C) (e : ε), Clocked ε t e → t.timers.timingRanges = r →
      (t.tickDecisionChecked e).Returns ∧ t.tickDecisionChecked e = t.tickDecision e) ∧
    ∀ (timers : Timers) (startingNewHandshake : Bool) (e : ε), timers.timingRanges = r →
      timers.rollHandshakeTimingsChecked startingNewHandshake e =
        .ok (timers.rollHandshakeTimings startingNewHandshake e)

/-- **The timings overflow exactly if the upper bounds of the keepalive and the rekey timeout have
no `u32` sum.**  For every validated choice of ranges: no tick and no initiation of any tunnel,
under any clock that does not go back and with any draws, overflows if and only if they have. -/
theorem timings_fit_iff (C : Crypto) {r : TimingRanges} (hvalid : r.validate = .ok ()) :
    NoOverflow C r ↔ (r.keepaliveTimeout.hiOr keepaliveTimeoutSecs).toNat +
      (r.rekeyTimeout.hiOr rekeyTimeoutSecs).toNat < 2 ^ 32 := by
  have hordered := TimingRanges.ordered_of_validate hvalid
  constructor
  · intro h
    by_contra hfit
    obtain ⟨⟨x, hx⟩, -⟩ := (h DrawMachine).1 _ _ (clocked_atTop hvalid) rfl
    rw [tickDecisionChecked_atTop hvalid hfit] at hx
    cases hx
  · intro hfit ε _ _
    constructor
    · rintro t e hclocked rfl
      have heq := tickDecisionChecked_eq hordered hfit e
      exact ⟨heq ▸ tickDecision_returns hclocked, heq⟩
    · intro timers startingNewHandshake e _
      exact timers.rollHandshakeTimingsChecked_eq startingNewHandshake e

/-- A keepalive timeout of up to half a minute, and a rekey timeout of up to eight seconds. -/
def shortTimings : TimingRanges := { keepaliveTimeout := ⟨20, 30⟩, rekeyTimeout := ⟨4, 8⟩ }

theorem timings_fit_iff_short :
    shortTimings.validate = .ok () ∧ NoOverflow Crypto.transparent shortTimings :=
  have hvalid : shortTimings.validate = .ok () := by decide
  ⟨hvalid, (timings_fit_iff Crypto.transparent hvalid).mpr (by decide)⟩

/-- The longest keepalive timeout there is, and the rekey timeout of plain WireGuard. -/
def longKeepalive : TimingRanges := { keepaliveTimeout := .single 4294967295 }

/-- **A validated range makes every tick overflow.**  A build with checks panics in the first tick
of a new tunnel; one without them waits for four seconds in place of 4294967300. -/
theorem long_keepalive_overflows :
    longKeepalive.validate = .ok () ∧
      Clocked DrawMachine (atTop Crypto.transparent longKeepalive) longKeepalive.rekeyTimeout.top ∧
      (atTop Crypto.transparent longKeepalive).tickDecisionChecked longKeepalive.rekeyTimeout.top =
        .panic "attempt to add with overflow" ∧
      longKeepalive.keepaliveTimeout.hiOr keepaliveTimeoutSecs +
        longKeepalive.rekeyTimeout.hiOr rekeyTimeoutSecs = 4 := by
  have hvalid : longKeepalive.validate = .ok () := by decide
  exact ⟨hvalid, clocked_atTop hvalid, tickDecisionChecked_atTop hvalid (by decide), by decide⟩

end Tunn
