import AwgTun.Noise.Confirmed
import AwgTun.Noise.Turn

/-!
# A clock that does not go back

`Timers` keeps every time as a duration since the start of the tunnel and subtracts such
durations without looking; a subtraction that would go below zero panics.  The entries are
written from a cached reading (`TimeCurrent`), from a reading that `Timers::clear` takes for
itself and from the reading of a tick, and they are subtracted from yet another one.

* `Env.reading`, `SteadyClock` — what the clock shows, and that nothing a tunnel does to its
  machine turns it back.
* `Timers.NotAhead` — no entry is later than a reading.  Every operation of a tunnel keeps
  this, in terms of what the clock shows before and after it; each is proved together with the
  operation not panicking over a subtraction (`Outcome.Meets`).
* `Tunn.Clocked` — the tunnels, and machines, that runs under such a clock lead to.
* `Tunn.timers_not_ahead` — in every one of them the subtractions have a result.
-/

open Control Bytes

/-! ## The clock -/

/-- What the clock of a machine shows: what `Instant::now` would return. -/
def Env.reading {ε : Type} [Env ε] (e : ε) : Instant := (Env.instantNow e).1

open Env (reading)

variable {C : Crypto} {ε : Type} [Env ε]

/-- A clock that never goes back, whatever the machine is asked for. -/
class SteadyClock (ε : Type) [Env ε] : Prop where
  fillBytes : ∀ (e : ε) (n : Nat), reading e ≤ reading (RandomSource.fillBytes e n).2
  instantNow : ∀ e : ε, reading e ≤ reading (Env.instantNow e).2
  systemTimeNow : ∀ e : ε, reading e ≤ reading (Env.systemTimeNow e).2
  randomSecret : ∀ e : ε, reading e ≤ reading (Env.randomSecret e).2

instance : SteadyClock StillMachine where
  fillBytes _ _ := Nat.le_refl _
  instantNow _ := Nat.le_refl _
  systemTimeNow _ := Nat.le_refl _
  randomSecret _ := Nat.le_refl _

/-- The panic of a subtraction of durations. -/
def durationOverflow : String := "overflow when subtracting durations"

/-- Every other panic. -/
def OtherPanic (message : String) : Prop := message ≠ durationOverflow

instance (message : String) : Decidable (OtherPanic message) :=
  inferInstanceAs (Decidable (message ≠ durationOverflow))

section Draws

variable [SteadyClock ε]

theorem reading_genRangeU32 (e : ε) (start stop : UInt32) :
    reading e ≤ reading (genRangeU32 e start stop).2 := by
  unfold genRangeU32
  split_ifs
  · exact Nat.le_refl _
  · dsimp only
    split
    · exact SteadyClock.fillBytes e 4
    · exact SteadyClock.fillBytes e 4

theorem reading_pickOr (r : U32Range) (e : ε) (default : UInt32) :
    reading e ≤ reading (r.pickOr e default).2 := by
  unfold U32Range.pickOr
  split_ifs
  · exact Nat.le_refl _
  · exact reading_genRangeU32 e _ _

theorem reading_randomBytes (n : Nat) (e : ε) : reading e ≤ reading (Tunn.randomBytes n e).2 := by
  unfold Tunn.randomBytes
  split_ifs
  · exact SteadyClock.fillBytes e n
  · exact Nat.le_refl _

theorem reading_junkLoop (c : JunkConfig) (n : Nat) (e : ε) :
    reading e ≤ reading (c.junkLoop n e).2 := by
  induction n generalizing e with
  | zero => exact Nat.le_refl _
  | succ n ih =>
    have hpacket : reading e ≤ reading (c.generateJunkPacket e).2 := by
      unfold JunkConfig.generateJunkPacket
      split_ifs
      · exact SteadyClock.fillBytes e _
      · exact (reading_genRangeU32 e _ _).trans (SteadyClock.fillBytes _ _)
    exact hpacket.trans (ih _)

theorem reading_generateJunkPackets (c : JunkConfig) (e : ε) :
    reading e ≤ reading (c.generateJunkPackets e).2 := by
  unfold JunkConfig.generateJunkPackets
  split_ifs
  · exact Nat.le_refl _
  · exact reading_junkLoop c _ e

theorem reading_drawBytes (top : UInt32) (render : Nat → UInt8) (n : Nat) (e : ε) :
    reading e ≤ reading (drawBytes top render n e).2 := by
  induction n generalizing e with
  | zero => exact Nat.le_refl _
  | succ n ih => exact (reading_genRangeU32 e 0 top).trans (ih _)

theorem encoding_meets (data : Bytes) (tag : CpsTag) (e : ε) :
    (tag.encoding data e).Meets OtherPanic fun r => reading e ≤ reading r.2 := by
  cases tag with
  | timestamp => exact SteadyClock.systemTimeNow e
  | randomBytes len => exact SteadyClock.fillBytes e len
  | randomChars len => exact reading_drawBytes _ _ len e
  | randomDigits len => exact reading_drawBytes _ _ len e
  | dataSize len =>
    rw [CpsTag.encoding]
    split_ifs
    · exact Nat.le_refl _
    · exact .panic (by decide)
  | _ => exact Nat.le_refl _

theorem generateLoop_meets (data : Bytes) (tags : List CpsTag) (offset : Nat)
    (out : Bytes) (e : ε) :
    (generateLoop data tags offset out e).Meets OtherPanic fun r => reading e ≤ reading r.2 := by
  induction tags generalizing offset out e with
  | nil => exact Nat.le_refl _
  | cons tag tags ih =>
    have htag : (tag.generate data out offset e).Meets OtherPanic
        fun r => reading e ≤ reading r.2.2 := by
      refine (encoding_meets data tag e).bind ?_
      rintro ⟨bs, e₁⟩ - hle
      have hwrite : (copyAt out offset bs).Meets OtherPanic fun _ => True := by
        unfold copyAt
        split_ifs
        · trivial
        · exact .panic (by decide)
      exact hwrite.bind fun _ _ _ => hle
    refine htag.bind ?_
    rintro ⟨written, out₁, e₁⟩ - hle
    exact (ih (offset + written) out₁ e₁).mono fun r hr => hle.trans hr

theorem apply_meets (hp : HeaderProtection) (before message : Bytes) :
    (hp.apply C before message).Meets OtherPanic fun _ => True := by
  unfold HeaderProtection.apply
  split
  · trivial
  · exact .panic (by decide)

end Draws

/-! ## The table -/

namespace Timers

variable {ε : Type} [Env ε] {t : Timers} {start now now' : Instant} {allowed : String → Prop}

/-- In a table that was started at `start`, no entry is later than a reading of the clock. -/
structure NotAhead (t : Timers) (start now : Instant) : Prop where
  started : t.timeStarted = start
  timers : ∀ name, t.timers name ≤ now - start
  sessions : ∀ i, t.sessionTimers i ≤ now - start

theorem NotAhead.later (h : t.NotAhead start now) (hle : now ≤ now') : t.NotAhead start now' := by
  have hsub : now - start ≤ now' - start := Nat.sub_le_sub_right hle _
  exact ⟨h.started, fun name => (h.timers name).trans hsub, fun i => (h.sessions i).trans hsub⟩

theorem NotAhead.set (h : t.NotAhead start now) (name : TimerName) {time : Duration}
    (htime : time ≤ now - start) : (t.set name time).NotAhead start now := by
  refine ⟨h.started, ?_, h.sessions⟩
  intro other
  change Function.update t.timers name time other ≤ now - start
  by_cases hname : other = name
  · rw [hname, Function.update_self]
    exact htime
  · rw [Function.update_of_ne hname]
    exact h.timers other

/-- An entry that is ticked becomes the last reading that was cached. -/
theorem NotAhead.tick (h : t.NotAhead start now) (name : TimerName) :
    (t.tick name).NotAhead start now := by
  unfold Timers.tick
  cases name with
  | timeLastPacketReceived =>
    exact NotAhead.set (t := { t with wantKeepalive := true, wantHandshake := false })
      ⟨h.started, h.timers, h.sessions⟩ _ (h.timers _)
  | timeLastPacketSent =>
    exact NotAhead.set (t := { t with wantHandshake := true, wantKeepalive := false })
      ⟨h.started, h.timers, h.sessions⟩ _ (h.timers _)
  | _ => exact h.set _ (h.timers _)

theorem NotAhead.tickSessionEstablished (h : t.NotAhead start now)
    (isInitiator : Bool) (idx : Nat) :
    (t.tickSessionEstablished isInitiator idx).NotAhead start now := by
  have htick := h.tick .timeSessionEstablished
  refine ⟨htick.started, htick.timers, ?_⟩
  intro i
  rw [Timers.tickSessionEstablished]
  by_cases hi : i = slotOf idx
  · rw [hi]
    simp only [Function.update_self]
    exact htick.timers _
  · simp only [Function.update_of_ne hi]
    exact htick.sessions i

theorem NotAhead.rollHandshakeTimings (h : t.NotAhead start now) (starting : Bool) (e : ε) :
    (t.rollHandshakeTimings starting e).1.NotAhead start now := by
  -- with the drawn times as variables, which the kernel does not try to compute with
  have hdrawn (timeout deadline : Duration) :
      ({ t with rekeyTimeoutCurrent := timeout, rekeyAttemptDeadline := deadline } :
        Timers).NotAhead start now := ⟨h.started, h.timers, h.sessions⟩
  unfold Timers.rollHandshakeTimings
  dsimp only
  split
  · exact hdrawn _ _
  · exact hdrawn _ _

variable [SteadyClock ε]

/-- `clear` takes a reading of its own, which is no later than the next. -/
theorem NotAhead.clear {e : ε} (h : t.NotAhead start (reading e)) :
    (t.clear e).1.NotAhead start (reading (t.clear e).2) := by
  have hle := SteadyClock.instantNow e
  refine ⟨h.started, ?_, (h.later hle).sessions⟩
  intro name
  have hnow : (t.clear e).1.timers name = reading e - start := by
    rw [← h.started]
    rfl
  rw [hnow]
  exact Nat.sub_le_sub_right hle start

theorem reading_clear (t : Timers) (e : ε) : reading e ≤ reading (t.clear e).2 :=
  SteadyClock.instantNow e

theorem reading_rollHandshakeTimings (t : Timers) (starting : Bool) (e : ε) :
    reading e ≤ reading (t.rollHandshakeTimings starting e).2 := by
  have hdraws := (reading_pickOr t.timingRanges.rekeyTimeout e rekeyTimeoutSecs).trans
    (reading_genRangeU32 _ 0 (rekeyTimeoutJitterMaxMs - 1))
  unfold Timers.rollHandshakeTimings
  dsimp only
  split
  · exact hdraws.trans (reading_pickOr _ _ _)
  · exact hdraws

/-! ## What is due -/

omit [Env ε] [SteadyClock ε] in
/-- A subtraction of an entry that is not ahead has a result; nothing else in the decisions of a
tick can panic. -/
theorem dueAfter_meets (cond : Bool) {time since : Duration} (hle : since ≤ time)
    (limit : Duration) : (dueAfter cond time since limit).Meets allowed fun _ => True := by
  unfold dueAfter
  split_ifs
  · rw [Duration.sub, if_pos hle]
    trivial
  · trivial

theorem rekeyDue_meets (h : t.NotAhead start now) (e : ε) :
    (t.rekeyDue (now - start) e).Meets allowed fun r => reading e ≤ reading r.2 := by
  unfold Timers.rekeyDue
  split_ifs
  · refine (dueAfter_meets _ (h.timers .timeSessionEstablished) _).bind fun _ _ _ => ?_
    refine (dueAfter_meets _ (h.timers .timeSessionEstablished) _).bind fun _ _ _ => ?_
    exact (reading_pickOr _ e _).trans (reading_pickOr _ _ _)
  · exact Nat.le_refl _

theorem newHandshakeDue_meets (h : t.NotAhead start now) (e : ε) :
    (t.newHandshakeDue (now - start) e).Meets allowed
      fun r => r.2.1.NotAhead start now ∧ reading e ≤ reading r.2.2 := by
  have hdraws := (reading_pickOr t.timingRanges.rekeyTimeout e rekeyTimeoutSecs).trans
    (reading_genRangeU32 _ 0 (rekeyTimeoutJitterMaxMs - 1))
  refine (dueAfter_meets _ (h.timers .timeLastPacketReceived) _).bind fun _ _ _ => ?_
  exact ⟨⟨h.started, h.timers, h.sessions⟩, hdraws⟩

theorem keepaliveDue_meets (h : t.NotAhead start now) (e : ε) :
    (t.keepaliveDue (now - start) e).Meets allowed
      fun r => r.2.1.NotAhead start now ∧ reading e ≤ reading r.2.2 := by
  refine (dueAfter_meets _ (h.timers .timeLastPacketSent) _).bind fun _ _ _ => ?_
  exact ⟨⟨h.started, h.timers, h.sessions⟩, reading_pickOr _ e _⟩

theorem persistentKeepaliveDue_meets (h : t.NotAhead start now) (e : ε) :
    (t.persistentKeepaliveDue (now - start) e).Meets allowed
      fun r => r.2.1.NotAhead start now ∧ reading e ≤ reading r.2.2 := by
  have hlast := h.timers .timePersistentKeepalive
  unfold Timers.persistentKeepaliveDue
  dsimp only
  split
  · refine (dueAfter_meets _ hlast _).bind fun due _ _ => ?_
    cases due with
    | false => exact ⟨h, Nat.le_refl _⟩
    | true =>
      have hdrawn (next : Duration) :
          ({ t with persistentKeepaliveNext := next } : Timers).NotAhead start now :=
        ⟨h.started, h.timers, h.sessions⟩
      exact ⟨(hdrawn _).tick .timePersistentKeepalive, reading_genRangeU32 e _ _⟩
  · refine (dueAfter_meets _ hlast _).bind fun due _ _ => ?_
    cases due with
    | false => exact ⟨h, Nat.le_refl _⟩
    | true => exact ⟨h.tick .timePersistentKeepalive, Nat.le_refl _⟩

end Timers

/-! ## Sending -/

namespace Tunn

variable [SteadyClock ε] {start : Instant} {t : Tunn C} {e : ε} {allowed : String → Prop} {e₀ : ε}
  {t' : Tunn C} {e' : ε}

/-- After an operation the table is not ahead of what the clock then shows, which is no less
than before. -/
def InTime (start : Instant) (e : ε) (r : Tunn C × ε) : Prop :=
  r.1.timers.NotAhead start (reading r.2) ∧ reading e ≤ reading r.2

omit [SteadyClock ε] in
theorem InTime.after {e₁ : ε} {r : Tunn C × ε} (h : InTime start e₁ r)
    (hle : reading e ≤ reading e₁) : InTime start e r := ⟨h.1, hle.trans h.2⟩

theorem reading_trailerFor (t : Tunn C) (packetSize dstLen : Nat) (e : ε) :
    reading e ≤ reading (t.trailerFor packetSize dstLen e).2 := by
  unfold trailerFor randomTrailerLen
  split_ifs
  · exact reading_genRangeU32 e _ _
  · exact Nat.le_refl _
  · exact Nat.le_refl _

theorem reading_contentPaddingAddition (t : Tunn C) (size dstLen : Nat) (e : ε) :
    reading e ≤ reading (t.contentPaddingAddition size dstLen e).2 := by
  unfold contentPaddingAddition
  split
  · exact Nat.le_refl _
  · split_ifs
    · exact Nat.le_refl _
    · exact reading_genRangeU32 e _ _
    · exact reading_genRangeU32 e _ _

theorem reading_transportPadding (t : Tunn C) (packetSize dstLen : Nat) (e : ε) :
    reading e ≤ reading (t.transportPadding packetSize dstLen e).2 := by
  unfold transportPadding
  dsimp only
  split_ifs
  · exact reading_contentPaddingAddition t _ dstLen e
  · exact reading_trailerFor t _ dstLen e

theorem drawPrefix_meets (t : Tunn C) (packet : Bytes) (redraws : Nat) (e : ε) :
    (t.drawPrefix packet redraws e).Meets OtherPanic fun r => reading e ≤ reading r.2 := by
  induction redraws generalizing e with
  | zero =>
    unfold drawPrefix
    dsimp only
    split
    · exact reading_randomBytes _ e
    · exact (apply_meets _ _ _).bind fun _ _ _ => reading_randomBytes _ e
  | succ redraws ih =>
    unfold drawPrefix
    dsimp only
    split
    · exact reading_randomBytes _ e
    · refine (apply_meets _ _ _).bind fun _ _ _ => ?_
      split_ifs
      · exact (ih _).mono fun r hr => (reading_randomBytes _ e).trans hr
      · exact reading_randomBytes _ e

theorem formatTransportPacket_meets (t : Tunn C) (session : Session) (src : Bytes)
    (contentPadding dstLen : Nat) (e : ε) :
    (t.formatTransportPacket session src contentPadding dstLen e).Meets OtherPanic
      fun r => reading e ≤ reading r.2.2 := by
  unfold formatTransportPacket
  dsimp only
  split_ifs
  · exact .panic (by decide)
  · have hseal : ∀ msgType, (session.formatPacketData C src
        (dstLen - t.paddingConfig.s4.toNat) msgType contentPadding).Meets OtherPanic
          fun _ => True := by
      intro msgType
      unfold Session.formatPacketData
      dsimp only
      split_ifs
      · exact .panic (by decide)
      · trivial
    refine (hseal _).bind fun packet _ _ => ?_
    refine (drawPrefix_meets t packet.1 _ _).bind fun drawn _ hdrawn => ?_
    exact (reading_genRangeU32 e _ _).trans hdrawn

theorem frame_meets (t : Tunn C) (padding : Nat) (message : Bytes) (dstLen : Nat) (e : ε) :
    (t.frame padding message dstLen e).Meets OtherPanic fun r => reading e ≤ reading r.2 := by
  have hdraws (size trailer : Nat) := (reading_randomBytes padding e).trans
    ((reading_trailerFor t size dstLen _).trans (reading_randomBytes trailer _))
  unfold frame
  dsimp only
  split
  · exact (apply_meets _ _ _).bind fun _ _ _ => hdraws _ _
  · exact hdraws _ _

theorem queueChains_meets (chains : List CpsChain) (queue : List Bytes) (e : ε) :
    (queueChains chains queue e).Meets OtherPanic fun r => reading e ≤ reading r.2 := by
  induction chains generalizing queue e with
  | nil => exact Nat.le_refl _
  | cons chain chains ih =>
    refine (generateLoop_meets [] chain.tags 0 _ e).bind fun made _ hmade => ?_
    exact (ih _ made.2).mono fun r hr => hmade.trans hr

theorem prepareInitiation_meets (h : t.timers.NotAhead start (reading e)) (starting : Bool) :
    (t.prepareInitiation starting e).Meets OtherPanic (InTime start e) := by
  obtain ⟨timers, e₁, hexpired, hnotAhead, hle⟩ : ∃ timers e₁,
      (if t.handshake.isExpired then t.timers.clear e else (t.timers, e)) = (timers, e₁) ∧
        timers.NotAhead start (reading e₁) ∧ reading e ≤ reading e₁ := by
    split_ifs
    · exact ⟨_, _, rfl, h.clear, Timers.reading_clear t.timers e⟩
    · exact ⟨_, _, rfl, h, Nat.le_refl _⟩
  rw [prepareInitiation, hexpired]
  have hroll := Timers.reading_rollHandshakeTimings timers starting e₁
  refine (queueChains_meets _ _ _).bind fun queued _ hqueued => ?_
  have hjunk := hroll.trans
    (hqueued.trans (reading_generateJunkPackets t.junkConfig queued.2))
  exact ⟨(hnotAhead.rollHandshakeTimings starting e₁).later hjunk, hle.trans hjunk⟩

theorem reading_formatInitiation (h : Handshake C) (dstLen : Nat) (msgType : UInt32) (e : ε) :
    reading e ≤ reading (h.formatHandshakeInitiation dstLen msgType e).2.2 := by
  unfold Handshake.formatHandshakeInitiation
  split_ifs
  · exact Nat.le_refl _
  · exact (SteadyClock.randomSecret e).trans
      ((SteadyClock.instantNow _).trans (SteadyClock.instantNow _))

theorem formatHandshakeInitiation_meets (h : t.timers.NotAhead start (reading e)) (dstLen : Nat)
    (force : Bool) :
    (t.formatHandshakeInitiation dstLen force e).Meets OtherPanic
      fun r => InTime start e r.2 := by
  unfold formatHandshakeInitiation
  dsimp only
  split
  · exact ⟨h, Nat.le_refl _⟩
  split
  · exact ⟨h, Nat.le_refl _⟩
  refine (prepareInitiation_meets h _).bind ?_
  rintro ⟨t₁, e₁⟩ - ⟨h₁, hle₁⟩
  have hmade := (reading_genRangeU32 e₁ t₁.headerConfig.init.start t₁.headerConfig.init.stop).trans
    (reading_formatInitiation t₁.handshake (dstLen - t.paddingConfig.s1.toNat)
      (t₁.headerConfig.init.generate e₁).1 (t₁.headerConfig.init.generate e₁).2)
  dsimp only
  split
  · exact ⟨h₁.later hmade, hle₁.trans hmade⟩
  · refine (frame_meets _ _ _ _ _).bind ?_
    rintro ⟨datagram, e₂⟩ - hframe
    have hsent := h₁.later (hmade.trans hframe)
    refine ⟨?_, hle₁.trans (hmade.trans hframe)⟩
    dsimp only
    split
    · exact (hsent.tick .timeLastHandshakeStarted).tick .timeLastPacketSent
    · exact hsent.tick .timeLastPacketSent

theorem sealPacket_meets (h : t.timers.NotAhead start (reading e)) (session : Session) (src : Bytes)
    (dstLen : Nat) :
    (t.sealPacket session src dstLen e).Meets OtherPanic fun r => InTime start e r.2 := by
  unfold sealPacket
  split
  · exact ⟨h, Nat.le_refl _⟩
  dsimp only
  refine (formatTransportPacket_meets _ _ _ _ _ _).bind ?_
  rintro ⟨datagram, session', e₁⟩ - hsealed
  have hle := (reading_transportPadding _ src.length dstLen e).trans hsealed
  have hsent : (t.timers.tick .timeLastPacketSent).NotAhead start (reading e₁) :=
    (h.later hle).tick _
  refine ⟨?_, hle⟩
  dsimp only
  split
  · exact hsent
  · exact hsent.tick .timeLastDataPacketSent

theorem queuePacket_timers (t : Tunn C) (packet : Bytes) :
    (t.queuePacket packet).timers = t.timers := by
  unfold queuePacket
  split_ifs <;> rfl

theorem encapsulate_meets (h : t.timers.NotAhead start (reading e)) (src : Bytes) (dstLen : Nat) :
    (t.encapsulate src dstLen e).Meets OtherPanic fun r => InTime start e r.2 := by
  unfold encapsulate
  split
  · exact sealPacket_meets h _ src dstLen
  · refine formatHandshakeInitiation_meets ?_ dstLen false
    rwa [queuePacket_timers]

theorem sendQueuedPacket_meets (h : t.timers.NotAhead start (reading e)) (dstLen : Nat) :
    (t.sendQueuedPacket dstLen e).Meets OtherPanic fun r => InTime start e r.2 := by
  unfold sendQueuedPacket
  split
  · exact ⟨h, Nat.le_refl _⟩
  · rename_i packet rest _
    have hqueue : ({ t with packetQueue := rest } : Tunn C).timers.NotAhead start (reading e) := h
    refine (encapsulate_meets hqueue packet dstLen).bind ?_
    rintro ⟨r, t₁, e₁⟩ - ⟨h₁, hle⟩
    dsimp only
    split
    · refine ⟨?_, hle⟩
      change (t₁.requeuePacket packet).timers.NotAhead start (reading e₁)
      unfold requeuePacket
      split_ifs
      · exact h₁
      · exact h₁
    · exact ⟨h₁, hle⟩

/-! ## Receiving -/

theorem reading_verifyPacket (l : RateLimiter) (srcAddr : Option IpAddr) (src : Bytes)
    (dstLen : Nat) (headerConfig : HeaderConfig) (disableCookies : Bool) (e : ε) :
    reading e ≤
      reading (l.verifyPacket C srcAddr src dstLen headerConfig disableCookies e).2.2 := by
  have hmac2 (l : RateLimiter) (packet : Packet) (senderIdx : UInt32) (msg mac1 mac2 : Bytes) :
      reading e ≤ reading
        (l.verifyMac2 C srcAddr packet senderIdx msg mac1 mac2 dstLen headerConfig e).2.2 := by
    have hcookie (addr : IpAddr) : reading e ≤ reading (l.currentCookie C addr e).2 :=
      SteadyClock.instantNow e
    unfold RateLimiter.verifyMac2
    split
    · exact Nat.le_refl _
    · rename_i addr
      dsimp only
      split
      · exact hcookie addr
      · split
        · exact (hcookie addr).trans (reading_genRangeU32 _ _ _)
        · exact (hcookie addr).trans (reading_genRangeU32 _ _ _)
  unfold RateLimiter.verifyPacket
  split
  · exact Nat.le_refl _
  split
  · exact Nat.le_refl _
  dsimp only
  split_ifs
  · exact Nat.le_refl _
  · exact Nat.le_refl _
  · exact hmac2 _ _ _ _ _ _
  · exact Nat.le_refl _

theorem verify_meets (h : t.timers.NotAhead start (reading e)) (srcAddr : Option IpAddr)
    (stripped : Bytes) (dstLen : Nat) :
    (t.verify srcAddr stripped dstLen e).Meets OtherPanic fun r => InTime start e r.2 := by
  have hle := reading_verifyPacket (C := C) t.rateLimiter srcAddr stripped cookieReplySz
    t.headerConfig t.disableCookies e
  unfold verify
  dsimp only
  split
  · exact ⟨h.later hle, hle⟩
  · split_ifs
    · exact ⟨h.later hle, hle⟩
    · refine (frame_meets _ _ _ _ _).bind ?_
      rintro ⟨datagram, e₁⟩ - hframe
      exact ⟨h.later (hle.trans hframe), hle.trans hframe⟩
  · exact ⟨h.later hle, hle⟩
  · exact .panic (by decide)

omit [Env ε] [SteadyClock ε] in
theorem sliceTo_meets (bs : Bytes) (n : Nat) : (sliceTo bs n).Meets OtherPanic fun _ => True := by
  unfold sliceTo
  split_ifs
  · trivial
  · exact .panic (by decide)

omit [Env ε] [SteadyClock ε] in
theorem sliceFrom_meets (bs : Bytes) (n : Nat) :
    (sliceFrom bs n).Meets OtherPanic fun _ => True := by
  unfold sliceFrom
  split_ifs
  · trivial
  · exact .panic (by decide)

omit [Env ε] [SteadyClock ε] in
theorem unmaskMessage_meets (t : Tunn C) (datagram : Bytes) (padding protectedLen : Nat)
    (payload : Bytes) :
    (t.unmaskMessage datagram padding protectedLen payload).Meets OtherPanic fun _ => True := by
  unfold unmaskMessage
  split
  · trivial
  split
  · refine (sliceTo_meets _ _).bind fun _ _ _ => ?_
    split
    · exact .panic (by decide)
    · refine (sliceTo_meets _ _).bind fun _ _ _ => ?_
      exact apply_meets _ _ _
  · trivial

theorem receive_meets (h : t.timers.NotAhead start (reading e)) (srcAddr : Option IpAddr)
    (datagram : Bytes) (dstLen : Nat) :
    (t.receive srcAddr datagram dstLen e).Meets OtherPanic fun r => InTime start e r.2 := by
  unfold receive
  refine (sliceFrom_meets _ _).bind fun _ _ _ => ?_
  dsimp only
  split
  · have hunmask (payload mask : Bytes) :
        (unmaskTransport payload mask).Meets OtherPanic fun _ => True := by
      refine (sliceTo_meets _ _).bind fun _ _ _ => ?_
      exact (sliceFrom_meets _ _).bind fun _ _ _ => trivial
    exact (hunmask _ _).bind fun _ _ _ => ⟨h, Nat.le_refl _⟩
  · refine (unmaskMessage_meets _ _ _ _ _).bind fun _ _ _ => ?_
    exact verify_meets h srcAddr _ dstLen

theorem receiveHandshakeInitialization_meets (h : Handshake C) (p : HandshakeInit) (dstLen : Nat)
    (respMsgType : UInt32) (e : ε) :
    (h.receiveHandshakeInitialization p dstLen respMsgType e).Meets OtherPanic
      fun r => reading e ≤ reading r.2.2 := by
  rcases h.receiveHandshakeInitialization_cases p dstLen respMsgType e with
    ⟨err, herr⟩ | ⟨timestamp, sym, -, hanswer⟩
  · rw [herr]
    exact Nat.le_refl _
  · rw [hanswer]
    unfold Handshake.formatHandshakeResponse
    split
    · exact Nat.le_refl _
    · exact SteadyClock.randomSecret e

theorem handleHandshakeInit_meets (h : t.timers.NotAhead start (reading e)) (p : HandshakeInit)
    (dstLen : Nat) :
    (t.handleHandshakeInit p dstLen e).Meets OtherPanic fun r => InTime start e r.2 := by
  have htype := reading_genRangeU32 e t.headerConfig.response.start t.headerConfig.response.stop
  unfold handleHandshakeInit
  dsimp only
  split
  · exact ⟨h.later htype, htype⟩
  refine (receiveHandshakeInitialization_meets t.handshake p _ _ _).bind ?_
  rintro ⟨result, handshake, e₁⟩ - hanswer
  have hle := htype.trans hanswer
  dsimp only
  split
  · exact ⟨h.later hle, hle⟩
  · refine (frame_meets _ _ _ _ _).bind ?_
    rintro ⟨datagram, e₂⟩ - hframe
    have hsent := ((h.later (hle.trans hframe)).tick .timeLastPacketReceived).tick
      .timeLastPacketSent
    exact ⟨hsent.tickSessionEstablished false _, hle.trans hframe⟩

theorem reading_receiveHandshakeResponse (h : Handshake C) (p : HandshakeResponse) (e : ε) :
    reading e ≤ reading (h.receiveHandshakeResponse p e).2.2 := by
  unfold Handshake.receiveHandshakeResponse
  split
  · exact Nat.le_refl _
  · dsimp only
    split
    · exact Nat.le_refl _
    · exact SteadyClock.instantNow e

theorem handleHandshakeResponse_meets (h : t.timers.NotAhead start (reading e))
    (p : HandshakeResponse) (dstLen : Nat) :
    (t.handleHandshakeResponse p dstLen e).Meets OtherPanic fun r => InTime start e r.2 := by
  have hfinish := reading_receiveHandshakeResponse t.handshake p e
  unfold handleHandshakeResponse
  dsimp only
  split
  · exact ⟨h, Nat.le_refl _⟩
  split
  · exact ⟨h.later hfinish, hfinish⟩
  · refine (formatTransportPacket_meets _ _ _ _ _ _).bind ?_
    rintro ⟨keepalive, session, e₁⟩ - hsealed
    have hle := hfinish.trans ((reading_contentPaddingAddition _ 0 dstLen _).trans hsealed)
    refine ⟨?_, hle⟩
    dsimp only
    rw [setCurrentSession_timers]
    exact ((h.later hle).tick .timeLastPacketReceived).tickSessionEstablished true _

omit [SteadyClock ε] in
theorem handleCookieReply_inTime (h : t.timers.NotAhead start (reading e))
    (p : PacketCookieReply) : (t.handleCookieReply p).2.timers.NotAhead start (reading e) := by
  unfold handleCookieReply
  dsimp only
  split
  · exact h
  · exact (h.tick .timeLastPacketReceived).tick .timeCookieReceived

theorem validateDecapsulatedPacket_notAhead {now : Instant} (h : t.timers.NotAhead start now)
    (packet : Bytes) : (t.validateDecapsulatedPacket packet).2.timers.NotAhead start now := by
  have hafter := t.validated packet
  generalize t.validateDecapsulatedPacket packet = after at hafter ⊢
  cases hafter with
  | ignored => exact h
  | invalid => exact h
  | _ => exact h.tick .timeLastDataPacketReceived

omit [SteadyClock ε] in
theorem handleData_meets (h : t.timers.NotAhead start (reading e)) (p : PacketData) (dstLen : Nat) :
    (t.handleData p dstLen e).Meets OtherPanic fun r => InTime start e r.2 := by
  have hopen (session : Session) :
      (session.receivePacketData C p dstLen).Meets OtherPanic fun _ => True := by
    unfold Session.receivePacketData
    split_ifs
    · exact .panic (by decide)
    · trivial
    · split
      · trivial
      · split
        · trivial
        · split <;> trivial
  unfold handleData
  dsimp only
  split
  · exact ⟨h, Nat.le_refl _⟩
  · refine (hopen _).bind ?_
    rintro ⟨result, session⟩ - -
    dsimp only
    split
    · exact ⟨h, Nat.le_refl _⟩
    · refine ⟨validateDecapsulatedPacket_notAhead ?_ _, Nat.le_refl _⟩
      have htick := h.tick .timeLastPacketReceived
      rw [timerTick]
      dsimp only
      rw [setCurrentSession_timers]
      exact htick

theorem handleVerifiedPacket_meets (h : t.timers.NotAhead start (reading e)) (p : Packet)
    (dstLen : Nat) :
    (t.handleVerifiedPacket p dstLen e).Meets OtherPanic fun r => InTime start e r.2 := by
  have hhandle : (t.handlePacket p dstLen e).Meets OtherPanic fun r => InTime start e r.2 := by
    cases p with
    | handshakeInit p => exact handleHandshakeInit_meets h p dstLen
    | handshakeResponse p => exact handleHandshakeResponse_meets h p dstLen
    | packetCookieReply p => exact ⟨handleCookieReply_inTime h p, Nat.le_refl _⟩
    | packetData p => exact handleData_meets h p dstLen
  refine hhandle.bind ?_
  rintro ⟨result, t₁, e₁⟩ - h₁
  cases result with
  | ok r => exact h₁
  | error err => exact h₁

theorem decapsulate_meets (h : t.timers.NotAhead start (reading e)) (srcAddr : Option IpAddr)
    (datagram : Bytes) (dstLen : Nat) :
    (t.decapsulate srcAddr datagram dstLen e).Meets OtherPanic fun r => InTime start e r.2 := by
  unfold decapsulate
  split
  · exact sendQueuedPacket_meets h dstLen
  · refine (receive_meets h srcAddr datagram dstLen).bind ?_
    rintro ⟨received, t₁, e₁⟩ - h₁
    cases received with
    | packet p =>
      exact (handleVerifiedPacket_meets h₁.1 p dstLen).mono fun r hr => hr.after h₁.2
    | reply r => exact h₁

/-! ## Ticks -/

theorem reading_resetCount (l : RateLimiter) (e : ε) : reading e ≤ reading (l.resetCount e).2 := by
  unfold RateLimiter.resetCount
  dsimp only
  split_ifs
  · exact SteadyClock.instantNow e
  · exact SteadyClock.instantNow e

/-- A tick takes the time first, so that what it subtracts from is no earlier than any entry. -/
theorem startTimers_meets (h : t.timers.NotAhead start (reading e)) :
    (t.startTimers e).Meets allowed fun r =>
      r.1 = reading e - start ∧ r.2.1.timers.NotAhead start (reading e) ∧
        reading e ≤ reading r.2.2 := by
  have hnow : (Env.instantNow e).1 - t.timers.timeStarted = reading e - start := by
    rw [h.started]
    rfl
  obtain ⟨l, e₁, hreset, hle⟩ : ∃ l e₁,
      (if t.timers.shouldResetRr then t.rateLimiter.resetCount (Env.instantNow e).2
        else (t.rateLimiter, (Env.instantNow e).2)) = (l, e₁) ∧ reading e ≤ reading e₁ := by
    split_ifs
    · exact ⟨_, _, rfl, (SteadyClock.instantNow e).trans (reading_resetCount _ _)⟩
    · exact ⟨_, _, rfl, SteadyClock.instantNow e⟩
  unfold startTimers
  dsimp only
  rw [hreset, hnow]
  have hset := h.set .timeCurrent (Nat.le_refl (reading e - start))
  unfold updateSessionTimers
  rw [if_pos (show ∀ i, (t.timers.set .timeCurrent (reading e - start)).sessionTimers i ≤
    reading e - start from hset.sessions)]
  refine ⟨rfl, ⟨hset.started, hset.timers, ?_⟩, hle⟩
  intro i
  dsimp only
  split_ifs
  · exact Nat.le_refl _
  · exact hset.sessions i

theorem expire_inTime (h : t.timers.NotAhead start (reading e)) : InTime start e (t.expire e) :=
  ⟨h.clear, Timers.reading_clear t.timers e⟩

theorem retryAction_meets (h : t.timers.NotAhead start (reading e₀)) (hle : reading e₀ ≤ reading e)
    (timeInitSent : Instant) :
    (t.retryAction (reading e₀ - start) timeInitSent e).Meets allowed
      fun r => InTime start e r.2 := by
  refine (Timers.dueAfter_meets _ (h.timers .timeLastHandshakeStarted) _).bind fun giveUp _ _ => ?_
  cases giveUp with
  | true => exact expire_inTime (h.later hle)
  | false =>
    have hread := SteadyClock.instantNow e
    exact ⟨(h.later hle).later hread, hread⟩

theorem idleAction_meets (h : t.timers.NotAhead start (reading e₀)) (hle : reading e₀ ≤ reading e) :
    (t.idleAction (reading e₀ - start) e).Meets allowed fun r => InTime start e r.2 := by
  unfold idleAction
  refine (Timers.rekeyDue_meets h e).bind ?_
  rintro ⟨rekey, e₁⟩ - hrekey
  refine (Timers.newHandshakeDue_meets h e₁).bind ?_
  rintro ⟨silent, timers₂, e₂⟩ - ⟨h₂, hsilent⟩
  have hle₂ := hrekey.trans hsilent
  dsimp only
  split
  · exact ⟨h₂.later (hle.trans hle₂), hle₂⟩
  refine (Timers.keepaliveDue_meets h₂ e₂).bind ?_
  rintro ⟨keepalive, timers₃, e₃⟩ - ⟨h₃, hkeepalive⟩
  refine (Timers.persistentKeepaliveDue_meets h₃ e₃).bind ?_
  rintro ⟨persistent, timers₄, e₄⟩ - ⟨h₄, hpersistent⟩
  have hle₄ := hle₂.trans (hkeepalive.trans hpersistent)
  exact ⟨h₄.later (hle.trans hle₄), hle₄⟩

theorem timerAction_meets (h : t.timers.NotAhead start (reading e₀))
    (hle : reading e₀ ≤ reading e) :
    (t.timerAction (reading e₀ - start) e).Meets allowed fun r => InTime start e r.2 := by
  unfold timerAction
  split
  · exact ⟨h.later hle, Nat.le_refl _⟩
  refine (Timers.dueAfter_meets _ (h.timers .timeCookieReceived) _).bind fun cookieOld _ _ => ?_
  obtain ⟨t₁, heq, htimers⟩ : ∃ t₁ : Tunn C,
      (if cookieOld = true then { t with handshake := t.handshake.clearCookie } else t) = t₁ ∧
        t₁.timers = t.timers := by
    split_ifs
    · exact ⟨_, rfl, rfl⟩
    · exact ⟨_, rfl, rfl⟩
  rw [← htimers] at h
  dsimp only
  rw [heq]
  refine (Timers.dueAfter_meets _ (h.timers .timeSessionEstablished) _).bind fun dead _ _ => ?_
  cases dead with
  | true => exact expire_inTime (h.later hle)
  | false =>
    simp only [Bool.false_eq_true, if_false]
    split
    · exact retryAction_meets h hle _
    · exact idleAction_meets h hle

theorem updateTimers_meets (h : t.timers.NotAhead start (reading e)) (dstLen : Nat) :
    (t.updateTimers dstLen e).Meets OtherPanic fun r => InTime start e r.2 := by
  refine (startTimers_meets h).bind ?_
  rintro ⟨now, t₁, e₁⟩ - ⟨rfl, h₁, hle₁⟩
  refine (timerAction_meets h₁ hle₁).bind ?_
  rintro ⟨action, t₂, e₂⟩ - ⟨h₂, hle₂⟩
  have hle := hle₁.trans hle₂
  cases action with
  | nothing => exact ⟨h₂, hle⟩
  | expired => exact ⟨h₂, hle⟩
  | handshake =>
    exact (formatHandshakeInitiation_meets h₂ dstLen true).mono fun r hr => hr.after hle
  | keepalive => exact (encapsulate_meets h₂ [] dstLen).mono fun r hr => hr.after hle

omit [SteadyClock ε] in
/-- The time since the last handshake can be told. -/
theorem timeSinceLastHandshake_returns (h : t.timers.NotAhead start (reading e)) :
    (t.timeSinceLastHandshake e).Returns := by
  unfold timeSinceLastHandshake
  split_ifs
  · have hle : t.timers.timers .timeSessionEstablished ≤
        (Env.instantNow e).1 - t.timers.timeStarted := by
      rw [h.started]
      exact h.timers _
    dsimp only
    rw [Duration.sub, if_pos hle]
    exact ⟨_, rfl⟩
  · exact ⟨_, rfl⟩

/-! ## Runs -/

/-- What a tunnel can be asked to do. -/
inductive Operation
  | encapsulate (src : Bytes) (dstLen : Nat)
  | decapsulate (srcAddr : Option IpAddr) (datagram : Bytes) (dstLen : Nat)
  | handleVerifiedPacket (packet : Packet) (dstLen : Nat)
  | formatHandshakeInitiation (dstLen : Nat) (forceResend : Bool)
  | updateTimers (dstLen : Nat)
  | setStaticPrivate (staticPrivate staticPublic : Key) (rateLimiter : Option RateLimiter)
  | setMtu (mtu : UInt32)
  | resetUdpWindow
  | pollOutgoingPacket

/-- Do it, and forget the result. -/
def perform (t : Tunn C) (op : Operation) (e : ε) : Outcome (Tunn C × ε) :=
  match op with
  | .encapsulate src dstLen => Prod.snd <$> t.encapsulate src dstLen e
  | .decapsulate srcAddr datagram dstLen => Prod.snd <$> t.decapsulate srcAddr datagram dstLen e
  | .handleVerifiedPacket packet dstLen => Prod.snd <$> t.handleVerifiedPacket packet dstLen e
  | .formatHandshakeInitiation dstLen forceResend =>
      Prod.snd <$> t.formatHandshakeInitiation dstLen forceResend e
  | .updateTimers dstLen => Prod.snd <$> t.updateTimers dstLen e
  | .setStaticPrivate staticPrivate staticPublic rateLimiter =>
      t.setStaticPrivate staticPrivate staticPublic rateLimiter e
  | .setMtu mtu => .ok (t.setMtu mtu, e)
  | .resetUdpWindow => .ok (t.resetUdpWindow, e)
  | .pollOutgoingPacket => .ok (t.pollOutgoingPacket.2, e)

/-- The tunnels, with the machine they run on, that runs lead to.  Between two operations the
machine may do anything that does not turn its clock back. -/
inductive Clocked (ε : Type) [Env ε] : Tunn C → ε → Prop
  | start {staticPrivate peerStaticPublic : Key} {presharedKey : Option Key}
      {persistentKeepalive : Option UInt16} {index : UInt32} {rateLimiter : Option RateLimiter}
      {amnezia : Amnezia3Config} {e e' : ε} {t : Tunn C}
      (h : newWithAmnezia3 staticPrivate peerStaticPublic presharedKey persistentKeepalive index
        rateLimiter amnezia e = (.ok t, e')) : Clocked ε t e'
  | perform {t t' : Tunn C} {e e' : ε} (h : Clocked ε t e) (op : Operation)
      (hop : t.perform op e = .ok (t', e')) : Clocked ε t' e'
  | wait {t : Tunn C} {e e' : ε} (h : Clocked ε t e) (hle : reading e ≤ reading e') :
      Clocked ε t e'

omit [SteadyClock ε] in
theorem inTime_of_map {α : Type} {x : Outcome (α × Tunn C × ε)} {r : Tunn C × ε}
    (hx : x.Meets OtherPanic fun r => InTime start e r.2) (h : Prod.snd <$> x = .ok r) :
    InTime start e r := by
  obtain ⟨y, rfl, rfl⟩ := map_eq_ok.mp h
  exact hx

theorem setStaticPrivate_notAhead (h : t.timers.NotAhead start (reading e))
    {staticPrivate staticPublic : Key} {rateLimiter : Option RateLimiter}
    (hset : t.setStaticPrivate staticPrivate staticPublic rateLimiter e = .ok (t', e')) :
    t'.timers.NotAhead start (reading e') := by
  cases rateLimiter with
  | some l =>
    obtain ⟨handshake, -, hset⟩ := bind_eq_ok.mp hset
    cases hset
    exact ⟨h.started, h.timers, h.sessions⟩
  | none =>
    have hle := ((SteadyClock.fillBytes e 16).trans (SteadyClock.fillBytes _ 32)).trans
      ((SteadyClock.instantNow _).trans (SteadyClock.instantNow _))
    obtain ⟨handshake, -, hset⟩ := bind_eq_ok.mp hset
    cases hset
    exact ⟨h.started, (h.later hle).timers, (h.later hle).sessions⟩

/-- **One operation.** -/
theorem perform_notAhead (h : t.timers.NotAhead start (reading e)) (op : Operation)
    (hop : t.perform op e = .ok (t', e')) : t'.timers.NotAhead start (reading e') := by
  cases op with
  | encapsulate src dstLen => exact (inTime_of_map (encapsulate_meets h src dstLen) hop).1
  | decapsulate srcAddr datagram dstLen =>
    exact (inTime_of_map (decapsulate_meets h srcAddr datagram dstLen) hop).1
  | handleVerifiedPacket packet dstLen =>
    exact (inTime_of_map (handleVerifiedPacket_meets h packet dstLen) hop).1
  | formatHandshakeInitiation dstLen forceResend =>
    exact (inTime_of_map (formatHandshakeInitiation_meets h dstLen forceResend) hop).1
  | updateTimers dstLen => exact (inTime_of_map (updateTimers_meets h dstLen) hop).1
  | setStaticPrivate staticPrivate staticPublic rateLimiter => exact setStaticPrivate_notAhead h hop
  | setMtu mtu =>
    cases hop
    exact h
  | resetUdpWindow =>
    cases hop
    exact h
  | pollOutgoingPacket =>
    cases hop
    unfold Tunn.pollOutgoingPacket
    split
    · exact h
    · exact h

/-- **A whole run.** -/
theorem Clocked.notAhead (h : Clocked ε t e) :
    t.timers.NotAhead t.timers.timeStarted (reading e) := by
  obtain ⟨start, hstart⟩ : ∃ start, t.timers.NotAhead start (reading e) := by
    induction h with
    | start hnew =>
      obtain ⟨-, rfl⟩ := newWithAmnezia3_eq_ok hnew
      exact ⟨_, rfl, fun _ => Nat.zero_le _, fun _ => Nat.zero_le _⟩
    | perform _ op hop ih =>
      obtain ⟨start, hstart⟩ := ih
      exact ⟨start, perform_notAhead hstart op hop⟩
    | wait _ hle ih =>
      obtain ⟨start, hstart⟩ := ih
      exact ⟨start, hstart.later hle⟩
  rwa [hstart.started]

/-- **Timers are never ahead of the clock.**  In every run under a clock that does not go back,
no entry of the two tables is later than the next reading, and so neither `update_timers`, with
`update_session_timers` in it, nor `time_since_last_handshake` panics over a subtraction of
durations. -/
theorem timers_not_ahead (h : Clocked ε t e) :
    (∀ name, t.timers.timers name ≤ (Env.instantNow e).1 - t.timers.timeStarted) ∧
      (∀ i, t.timers.sessionTimers i ≤ (Env.instantNow e).1 - t.timers.timeStarted) ∧
      (∀ dstLen, t.updateTimers dstLen e ≠ .panic "overflow when subtracting durations") ∧
      (t.timeSinceLastHandshake e).Returns := by
  have hnotAhead := h.notAhead
  refine ⟨hnotAhead.timers, hnotAhead.sessions, ?_, timeSinceLastHandshake_returns hnotAhead⟩
  intro dstLen
  exact (updateTimers_meets hnotAhead dstLen).ne_panic (by decide)

/-- Six seconds after its handshake, a tunnel can tell how long ago that was. -/
theorem timers_not_ahead_answered :
    Clocked StillMachine freshAnswered { instant := Duration.fromSecs 6 } ∧
      (freshAnswered.sessions (slotOf freshAnswered.current)).isSome ∧
      (freshAnswered.timeSinceLastHandshake
        ({ instant := Duration.fromSecs 6 } : StillMachine)).Returns := by
  have hnew : Clocked StillMachine freshTunn {} :=
    .start (show newWithAmnezia3 zeroKey zeroKey none none 1 none {} ({} : StillMachine)
      = (.ok freshTunn, {}) from rfl)
  have hinitiate : Clocked StillMachine freshAwaiting {} :=
    hnew.perform (.formatHandshakeInitiation handshakeInitSz false) rfl
  have hanswer : Clocked StillMachine freshAnswered {} :=
    hinitiate.perform (.handleVerifiedPacket (.handshakeResponse hundredResponse) 64) rfl
  have hlater : Clocked StillMachine freshAnswered { instant := Duration.fromSecs 6 } :=
    hanswer.wait (Nat.zero_le _)
  exact ⟨hlater, rfl, (timers_not_ahead hlater).2.2.2⟩

end Tunn
