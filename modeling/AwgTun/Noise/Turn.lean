import AwgTun.Amnezia.Chains
import AwgTun.Noise.Run

/-!
# What a step does to the keys

One inversion lemma for the steps of a tunnel, from which the invariants of its handshake and
of its sessions are derived.

An operation of the handshake that fails leaves it as it was (the first section), so a step is
one operation that succeeds, or none: `Tunn.Turn` lists them, each with what it does to the
sessions.  Only an accepted handshake message stores a session (`Tunn.Stores`); wherever
sessions survive anything else, they are the old ones, in their slots and with their times
(`Tunn.Keeps`).

* `Tunn.Step.turn` — every step is one of these.
* `Tunn.Step.handshake` — as far as the handshake goes, it is a run of its operations.
* `Tunn.Reached` — the tunnels that runs from a new one lead to.
-/

open Control Bytes

variable {C : Crypto} {ε : Type} [Env ε]

/-! ## Operations that succeed -/

namespace Handshake

variable {h h' : Handshake C} {e e' : ε} {dstLen : Nat} {session : Session} {msgType : UInt32}
  {message : Bytes}

/-- An initiation for which there is no room changes nothing. -/
theorem formatHandshakeInitiation_error {err : WireGuardError}
    (hr : h.formatHandshakeInitiation dstLen msgType e = (.error err, h', e')) : h' = h := by
  by_cases hdst : handshakeInitSz ≤ dstLen
  · rw [formatHandshakeInitiation_eq h hdst] at hr
    cases hr
  · rw [formatHandshakeInitiation, if_pos (Nat.not_le.mp hdst)] at hr
    cases hr
    rfl

/-- One initiation was sent, or none. -/
inductive Sends (ε : Type) [Env ε] (h : Handshake C) : Handshake C → Prop
  | nothing : Sends ε h h
  | initiation {h' : Handshake C} {dstLen : Nat} {msgType : UInt32} {e e' : ε} {message : Bytes}
      (hr : h.formatHandshakeInitiation dstLen msgType e = (.ok message, h', e')) : Sends ε h h'

theorem sends_formatHandshakeInitiation (h : Handshake C) (dstLen : Nat)
    (msgType : UInt32) (e : ε) :
    Sends ε h (h.formatHandshakeInitiation dstLen msgType e).2.1 := by
  by_cases hdst : handshakeInitSz ≤ dstLen
  · exact .initiation (by rw [formatHandshakeInitiation_eq h hdst])
  · rw [formatHandshakeInitiation, if_pos (Nat.not_le.mp hdst)]
    exact .nothing

theorem sends_cases (hsends : Sends ε h h') :
    h' = h ∨ ∃ (dstLen : Nat) (msgType : UInt32) (e e' : ε) (message : Bytes),
      h.formatHandshakeInitiation dstLen msgType e = (.ok message, h', e') := by
  cases hsends with
  | nothing => exact .inl rfl
  | initiation hr => exact .inr ⟨_, _, _, _, _, hr⟩

theorem Sends.run (hsends : Sends ε h h') : Run ε h h' := by
  cases hsends with
  | nothing => exact .refl
  | initiation hr =>
    rename_i dstLen msgType e e' message
    have hstep := Step.formatInitiation h dstLen msgType e
    rw [hr] at hstep
    exact .single hstep

/-- What an initiation that was made leaves behind. -/
theorem formatHandshakeInitiation_ok
    (hr : h.formatHandshakeInitiation dstLen msgType e = (.ok message, h', e')) :
    ((h.afterInitiation e).appendMac1AndMac2 (succIndex h.nextIndex)
      (h.initiationBody msgType e)) = (message, h') := by
  by_cases hdst : handshakeInitSz ≤ dstLen
  · rw [formatHandshakeInitiation_eq h hdst] at hr
    cases hr
    rfl
  · rw [formatHandshakeInitiation, if_pos (Nat.not_le.mp hdst)] at hr
    cases hr

omit [Env ε] in
/-- What a cookie reply that was accepted leaves behind. -/
theorem receiveCookieReply_ok {packet : PacketCookieReply}
    (hr : h.receiveCookieReply packet = (.ok (), h')) :
    ∃ cookie, h' = { h with cookies := { h.cookies with writeCookie := some cookie } } := by
  unfold receiveCookieReply at hr
  split at hr
  · cases hr
  · split_ifs at hr
    · cases hr
    · simp only at hr
      split at hr
      · cases hr
      · split_ifs at hr
        · cases hr
          exact ⟨_, rfl⟩
        · cases hr

omit [Env ε] in
theorem setStaticPrivate_ok {staticPrivate staticPublic : Key}
    (hr : h.setStaticPrivate staticPrivate staticPublic = .ok h') :
    ∃ params, h' = { h with params := params } := by
  obtain ⟨params, -, hret⟩ := bind_eq_ok.mp hr
  cases hret
  exact ⟨params, rfl⟩

omit [Env ε] in
/-- Where an initiation that a response belongs to is held. -/
theorem awaiting_cases {index : UInt32} {s : HandshakeInitSentState} {isPrevious : Bool}
    (hs : h.awaiting index = some (s, isPrevious)) :
    (isPrevious = false ∧ h.state = .initSent s) ∨
      (isPrevious = true ∧ h.previous = .initSent s) := by
  unfold awaiting at hs
  split at hs
  · rename_i hstate
    cases hs
    exact .inl ⟨rfl, (HandshakeState.sentWith_eq_some_iff.mp hstate).1⟩
  · rename_i hprevious
    cases hs
    exact .inr ⟨rfl, (HandshakeState.sentWith_eq_some_iff.mp hprevious).1⟩
  · cases hs

/-- The handshake, possibly after an old cookie was dropped. -/
def Cleared (h h₀ : Handshake C) : Prop := h₀ = h ∨ h₀ = h.clearCookie

theorem Cleared.run (hcleared : Cleared h h') : Run ε h h' := by
  rcases hcleared with rfl | rfl
  · exact .refl
  · exact .single (.clearCookie h)

end Handshake

/-! ## Sessions that live on -/

/-- The same session, with its counters moved on. -/
structure Session.Continues (s s' : Session) : Prop where
  receivingIndex : s'.receivingIndex = s.receivingIndex
  sendingIndex : s'.sendingIndex = s.sendingIndex
  receiver : s'.receiver = s.receiver
  sender : s'.sender = s.sender

namespace Session

variable {s s' s'' : Session}

theorem Continues.refl (s : Session) : s.Continues s := ⟨rfl, rfl, rfl, rfl⟩

theorem Continues.trans (h : s.Continues s') (h' : s'.Continues s'') : s.Continues s'' where
  receivingIndex := h'.receivingIndex.trans h.receivingIndex
  sendingIndex := h'.sendingIndex.trans h.sendingIndex
  receiver := h'.receiver.trans h.receiver
  sender := h'.sender.trans h.sender

theorem continues_sent (s : Session) : s.Continues s.sent := ⟨rfl, rfl, rfl, rfl⟩

theorem continues_receivingCounterMark (s : Session) (counter : UInt64) :
    s.Continues (s.receivingCounterMark counter).2 := by
  unfold receivingCounterMark
  split <;> exact ⟨rfl, rfl, rfl, rfl⟩

theorem continues_receivePacketData {packet : PacketData} {dstLen : Nat}
    {result : Except WireGuardError Bytes}
    (h : s.receivePacketData C packet dstLen = .ok (result, s')) : s.Continues s' := by
  have hmark := s.continues_receivingCounterMark packet.counter
  unfold receivePacketData at h
  split_ifs at h
  · cases h
  · cases h
    exact .refl s
  · split at h
    · cases h
      exact .refl s
    · split at h
      · cases h
        exact .refl s
      · split at h
        · rename_i hrun
          cases h
          rwa [hrun] at hmark
        · rename_i hrun
          cases h
          rwa [hrun] at hmark

end Session

namespace Tunn

variable {e e' : ε} {dstLen : Nat} {r : TunnResult} {event : Event} {h₀ : Handshake C}
  {timers timers' : Timers} {srcAddr : Option IpAddr} {received : Received} {datagram : Bytes}
  {starting : Bool} {now : Duration} {src : Bytes} {p : Packet}

/-- Whatever sessions there are afterwards were there before, in their slots and with their
times; and the configured timing is the same. -/
structure Keeps (t t' : Tunn C) : Prop where
  sessions : ∀ i s', t'.sessions i = some s' → ∃ s, t.sessions i = some s ∧ s.Continues s'
  sessionTimers : ∀ i, (t'.sessions i).isSome →
    t'.timers.sessionTimers i = t.timers.sessionTimers i
  timingRanges : t'.timers.timingRanges = t.timers.timingRanges

variable {t t' t'' : Tunn C}

theorem Keeps.of_eq (hsessions : t'.sessions = t.sessions)
    (htimers : t'.timers.sessionTimers = t.timers.sessionTimers)
    (hranges : t'.timers.timingRanges = t.timers.timingRanges) : Keeps t t' where
  sessions := by
    rw [hsessions]
    exact fun _ s' hs' => ⟨s', hs', .refl s'⟩
  sessionTimers := fun i _ => congrFun htimers i
  timingRanges := hranges

theorem Keeps.refl (t : Tunn C) : Keeps t t := .of_eq rfl rfl rfl

theorem Keeps.trans (h : Keeps t t') (h' : Keeps t' t'') : Keeps t t'' where
  sessions := by
    intro i s'' hs''
    obtain ⟨s', hs', hlater⟩ := h'.sessions i s'' hs''
    obtain ⟨s, hs, hearlier⟩ := h.sessions i s' hs'
    exact ⟨s, hs, hearlier.trans hlater⟩
  sessionTimers := by
    intro i hi
    obtain ⟨s'', hs''⟩ := Option.isSome_iff_exists.mp hi
    obtain ⟨s', hs', -⟩ := h'.sessions i s'' hs''
    rw [h'.sessionTimers i hi, h.sessionTimers i (by simp [hs'])]
  timingRanges := h'.timingRanges.trans h.timingRanges

/-- Without sessions there is nothing to keep. -/
theorem Keeps.of_none (hnone : ∀ i, t'.sessions i = none)
    (hranges : t'.timers.timingRanges = t.timers.timingRanges) : Keeps t t' where
  sessions := by
    intro i s' hs'
    rw [hnone i] at hs'
    cases hs'
  sessionTimers := by
    intro i hi
    rw [hnone i] at hi
    cases hi
  timingRanges := hranges

/-- A session is written back to its slot. -/
theorem keeps_storeSession {idx : Nat} {s s' : Session} (hs : t.sessions (slotOf idx) = some s)
    (hcontinues : s.Continues s') : Keeps t (t.storeSession idx s') where
  sessions := by
    intro i s₁ hs₁
    by_cases hi : i = slotOf idx
    · subst hi
      have hs' : (t.storeSession idx s').sessions (slotOf idx) = some s' :=
        Function.update_self _ _ _
      rw [hs', Option.some.injEq] at hs₁
      subst hs₁
      exact ⟨s, hs, hcontinues⟩
    · rw [storeSession_ne t s' hi] at hs₁
      exact ⟨s₁, hs₁, .refl s₁⟩
  sessionTimers := fun _ _ => rfl
  timingRanges := rfl

/-! ## Sending -/

/-- The I-packets can be made. -/
def ChainsGenerable (t : Tunn C) : Prop :=
  ∀ chain ∈ t.initPacketConfig.activeChains, chain.Generable

theorem queueChains_returns_iff (chains : List CpsChain) :
    ∀ (queue : List Bytes) (e : ε),
      (queueChains chains queue e).Returns ↔ ∀ chain ∈ chains, chain.Generable := by
  induction chains with
  | nil =>
    intro queue e
    simp [queueChains]
  | cons chain chains ih =>
    intro queue e
    rw [List.forall_mem_cons, ← chain.generate_returns_iff [] e]
    constructor
    · rintro ⟨x, hx⟩
      rw [queueChains] at hx
      obtain ⟨⟨packet, e₁⟩, hgenerate, hx⟩ := bind_eq_ok.mp hx
      exact ⟨⟨_, hgenerate⟩, (ih _ e₁).mp ⟨x, hx⟩⟩
    · rintro ⟨⟨⟨packet, e₁⟩, hgenerate⟩, hrest⟩
      have hfirst : chain.generateForInit e = .ok (packet, e₁) := hgenerate
      rw [queueChains, hfirst, ok_bind]
      exact (ih _ e₁).mpr hrest

theorem queuePreHandshakePackets_returns_iff (t : Tunn C) (e : ε) :
    (t.queuePreHandshakePackets e).Returns ↔ t.ChainsGenerable := by
  rw [ChainsGenerable, ← queueChains_returns_iff _ t.networkOutgoing e]
  constructor
  · rintro ⟨x, hx⟩
    obtain ⟨y, hy, -⟩ := bind_eq_ok.mp hx
    exact ⟨y, hy⟩
  · rintro ⟨y, hy⟩
    rw [queuePreHandshakePackets, hy]
    exact ⟨_, rfl⟩

/-- At most one initiation was sent, from the handshake `h₀`; its I-packets were made before
it, and the sessions were kept. -/
structure Sent (ε : Type) [Env ε] (t : Tunn C) (h₀ : Handshake C) (t' : Tunn C) : Prop where
  handshake : Handshake.Sends ε h₀ t'.handshake
  chains : t'.handshake = h₀ ∨ t.ChainsGenerable
  keeps : Keeps t t'

theorem Sent.nothing (hsame : t'.handshake = h₀) (hkeeps : Keeps t t') :
    Sent ε t h₀ t' :=
  ⟨hsame ▸ .nothing, .inl hsame, hkeeps⟩

/-- What happens before an initiation. -/
theorem Sent.after (hsettings : t'.settings = t.settings) (hkeeps : Keeps t t')
    (hsent : Sent ε t' h₀ t'') : Sent ε t h₀ t'' where
  handshake := hsent.handshake
  chains := by
    have hchains : t'.initPacketConfig = t.initPacketConfig :=
      congrArg Settings.initPacketConfig hsettings
    have hsame := hsent.chains
    rwa [ChainsGenerable, hchains] at hsame
  keeps := hkeeps.trans hsent.keeps

/-- And after it. -/
theorem Sent.before (hsent : Sent ε t h₀ t') (hsame : t''.handshake = t'.handshake)
    (hkeeps : Keeps t' t'') : Sent ε t h₀ t'' where
  handshake := hsame ▸ hsent.handshake
  chains := hsame ▸ hsent.chains
  keeps := hsent.keeps.trans hkeeps

theorem rollHandshakeTimings_same (h : timers.rollHandshakeTimings starting e = (timers', e')) :
    timers'.sessionTimers = timers.sessionTimers ∧ timers'.timingRanges = timers.timingRanges := by
  simp only [Timers.rollHandshakeTimings] at h
  split_ifs at h
  · cases h
    exact ⟨rfl, rfl⟩
  · cases h
    exact ⟨rfl, rfl⟩

theorem clear_same (h : timers.clear e = (timers', e')) :
    timers'.sessionTimers = timers.sessionTimers ∧ timers'.timingRanges = timers.timingRanges := by
  cases h
  exact ⟨rfl, rfl⟩

theorem prepareInitiation_keeps (h : t.prepareInitiation starting e = .ok (t', e')) :
    t.ChainsGenerable ∧ t'.handshake = t.handshake ∧ Keeps t t' := by
  obtain ⟨⟨timers, e₁⟩, hclear⟩ : ∃ cleared, (if t.handshake.isExpired = true then t.timers.clear e
    else (t.timers, e)) = cleared := ⟨_, rfl⟩
  obtain ⟨⟨timers', e₂⟩, hroll⟩ : ∃ rolled, timers.rollHandshakeTimings starting e₁ = rolled :=
    ⟨_, rfl⟩
  simp only [prepareInitiation, hclear, hroll] at h
  have hchains := (queuePreHandshakePackets_returns_iff _ e₂).mp ⟨_, h⟩
  obtain ⟨⟨queue, e₃⟩, -, h⟩ := bind_eq_ok.mp h
  have hcleared : timers.sessionTimers = t.timers.sessionTimers ∧
      timers.timingRanges = t.timers.timingRanges := by
    split_ifs at hclear
    · exact clear_same hclear
    · cases hclear
      exact ⟨rfl, rfl⟩
  have hrolled := rollHandshakeTimings_same hroll
  cases h
  exact ⟨hchains, rfl, .of_eq rfl (hrolled.1.trans hcleared.1) (hrolled.2.trans hcleared.2)⟩

theorem formatHandshakeInitiation_sent {force : Bool}
    (h : t.formatHandshakeInitiation dstLen force e = .ok (r, t', e')) :
    Sent ε t t.handshake t' := by
  rcases formatHandshakeInitiation_ends h with ⟨rfl, -⟩ | ⟨datagram, -, hsent⟩
  · exact .nothing rfl (.refl t')
  · cases hsent with
    | @sent t₁ _ _ _ _ _ handshake _ _ hprepare hmade =>
      obtain ⟨hchains, hsame, hkeeps⟩ := prepareInitiation_keeps hprepare
      obtain ⟨hsessions, hranges⟩ := t₁.initiationTimers_same (!t.handshake.isInProgress)
      refine ⟨?_, .inr hchains, hkeeps.trans (.of_eq rfl hsessions hranges)⟩
      rw [hsame] at hmade
      obtain rfl : _ = handshake := congrArg (fun x => x.2.1) hmade
      exact Handshake.sends_formatHandshakeInitiation t.handshake _ _ _

theorem sealPacket_sent {s : Session} (hs : t.sessions (slotOf t.current) = some s)
    (h : t.sealPacket s src dstLen e = .ok (r, t', e')) : Sent ε t t.handshake t' := by
  rcases sealPacket_cases h with ⟨-, rfl⟩ | ⟨datagram, s', -, rfl, hformat⟩
  · exact .nothing rfl (.refl t')
  · obtain rfl := formatTransportPacket_session hformat
    have hkeeps := keeps_storeSession hs s.continues_sent
    have htimers : (t.sentTimers src).sessionTimers = t.timers.sessionTimers ∧
        (t.sentTimers src).timingRanges = t.timers.timingRanges := by
      simp only [sentTimers]
      split_ifs <;> exact ⟨rfl, rfl⟩
    refine .nothing rfl ⟨hkeeps.sessions, ?_, htimers.2⟩
    intro i hi
    exact (congrFun htimers.1 i).trans (hkeeps.sessionTimers i hi)

theorem queuePacket_same (t : Tunn C) (packet : Bytes) :
    (t.queuePacket packet).handshake = t.handshake ∧
      (t.queuePacket packet).settings = t.settings ∧ Keeps t (t.queuePacket packet) := by
  unfold queuePacket
  split_ifs
  · exact ⟨rfl, rfl, .of_eq rfl rfl rfl⟩
  · exact ⟨rfl, rfl, .refl t⟩

theorem encapsulate_sent (h : t.encapsulate src dstLen e = .ok (r, t', e')) :
    Sent ε t t.handshake t' := by
  rw [encapsulate] at h
  split at h
  · rename_i s hs
    exact sealPacket_sent hs h
  · obtain ⟨hsame, hsettings, hkeeps⟩ := t.queuePacket_same src
    have hsent := formatHandshakeInitiation_sent h
    rw [hsame] at hsent
    exact hsent.after hsettings hkeeps

theorem sendQueuedPacket_sent (h : t.sendQueuedPacket dstLen e = .ok (r, t', e')) :
    Sent ε t t.handshake t' := by
  rw [sendQueuedPacket] at h
  split at h
  · cases h
    exact .nothing rfl (.refl t)
  · rename_i packet rest hqueue
    obtain ⟨⟨r₁, t₁, e₁⟩, hencapsulate, h⟩ := bind_eq_ok.mp h
    have hdequeue : Keeps t { t with packetQueue := rest } := .of_eq rfl rfl rfl
    have hsettings : { t with packetQueue := rest }.settings = t.settings := rfl
    have hsent : Sent ε t t.handshake t₁ :=
      .after hsettings hdequeue (encapsulate_sent hencapsulate)
    simp only at h
    split at h
    · cases h
      unfold requeuePacket
      split_ifs
      · exact hsent.before rfl (.of_eq rfl rfl rfl)
      · exact hsent
    · cases h
      exact hsent

/-! ## Timers -/

/-- What ages goes; what stays keeps its time. -/
theorem startTimers_turn (h : t.startTimers e = .ok (now, t', e')) :
    t'.handshake = t.handshake ∧ Keeps t t' := by
  obtain ⟨-, -, hsessions⟩ := startTimers_eq_ok h
  obtain ⟨-, rfl⟩ := updateSessionTimers_eq_ok hsessions
  refine ⟨rfl, ⟨?_, ?_, rfl⟩⟩
  · intro i s' hs'
    obtain ⟨-, hs⟩ := ite_eq_iff.mp hs' |>.resolve_left (fun h => by cases h.2)
    exact ⟨s', hs, .refl s'⟩
  · intro i hi
    exact if_neg fun hold => by simp [hold] at hi

/-- The decisions of a tick drop an old cookie; they give the connection up, together with all
its sessions, or leave it. -/
theorem timerAction_turn {action : TimerAction} (h : t.timerAction now e = .ok (action, t', e')) :
    ∃ h₀, t.handshake.Cleared h₀ ∧
      ((t'.handshake = h₀ ∧ Keeps t t') ∨
        (action = .expired ∧ t'.handshake = h₀.setExpired ∧ (∀ i, t'.sessions i = none) ∧
          t'.timers.timingRanges = t.timers.timingRanges)) := by
  rcases timerAction_cases h with ⟨-, rfl, -⟩ | ⟨cookieOld, -, hdecides⟩
  · exact ⟨t'.handshake, .inl rfl, .inl ⟨rfl, .refl t'⟩⟩
  · have hcleared : t.handshake.Cleared (t.decided cookieOld t.timers).handshake := by
      cases cookieOld with
      | false => exact .inl rfl
      | true => exact .inr rfl
    refine ⟨_, hcleared, ?_⟩
    cases hdecides with
    | gaveUp => exact .inr ⟨rfl, rfl, fun _ => rfl, rfl⟩
    | inFlight => exact .inl ⟨rfl, .of_eq rfl rfl rfl⟩
    | idle _ h =>
      obtain ⟨-, timers, rfl, hsessions, hranges⟩ := idleAction_timers h
      exact .inl ⟨rfl, .of_eq rfl hsessions hranges⟩

/-- A tick, after dropping an old cookie, sends at most an initiation, or gives the connection
up. -/
theorem updateTimers_turn (h : t.updateTimers dstLen e = .ok (r, t', e')) :
    ∃ h₀, t.handshake.Cleared h₀ ∧
      (Sent ε t h₀ t' ∨ (t'.handshake = h₀.setExpired ∧ (∀ i, t'.sessions i = none) ∧
        t'.timers.timingRanges = t.timers.timingRanges)) := by
  obtain ⟨⟨now, t₁, e₁⟩, hstart, h⟩ := bind_eq_ok.mp h
  obtain ⟨⟨action, t₂, e₂⟩, haction, h⟩ := bind_eq_ok.mp h
  obtain ⟨hsame₁, hkeeps₁⟩ := startTimers_turn hstart
  obtain ⟨h₀, hcleared, hdecided⟩ := timerAction_turn haction
  rw [hsame₁] at hcleared
  refine ⟨h₀, hcleared, ?_⟩
  rcases hdecided with ⟨rfl, hkeeps₂⟩ | ⟨rfl, hexpired, hnone, hranges⟩
  · left
    have hkeeps := hkeeps₁.trans hkeeps₂
    have hsettings := ((aged_startTimers hstart).trans (aged_timerAction haction)).settings
    cases action with
    | nothing =>
      cases h
      exact .nothing rfl hkeeps
    | expired =>
      cases h
      exact .nothing rfl hkeeps
    | handshake => exact (formatHandshakeInitiation_sent h).after hsettings hkeeps
    | keepalive => exact (encapsulate_sent h).after hsettings hkeeps
  · cases h
    exact .inr ⟨hexpired, hnone, hranges.trans hkeeps₁.timingRanges⟩

/-! ## Receiving -/

theorem receive_handshake (h : t.receive srcAddr datagram dstLen e = .ok (received, t', e')) :
    t'.handshake = t.handshake := by
  obtain ⟨rateLimiter, rfl⟩ := receive_eq h
  rfl

/-- A session was stored in the slot of its index, at the current time. -/
structure Stores (t t' : Tunn C) (session : Session) : Prop where
  sessions : ∃ s', session.Continues s' ∧
    t'.sessions = Function.update t.sessions (slotOf session.localIndex) (some s')
  sessionTimers : t'.timers.sessionTimers = Function.update t.timers.sessionTimers
    (slotOf session.localIndex) (t.timers.timers .timeCurrent)
  timingRanges : t'.timers.timingRanges = t.timers.timingRanges

theorem stores_answered (t : Tunn C) (handshake : Handshake C) (session : Session) :
    Stores t (t.answered handshake session) session :=
  ⟨⟨session, .refl session, rfl⟩, rfl, rfl⟩

theorem setCurrentSession_timers (t : Tunn C) (idx : Nat) :
    (t.setCurrentSession idx).timers = t.timers := by
  unfold setCurrentSession
  split_ifs <;> rfl

theorem keeps_setCurrentSession (t : Tunn C) (idx : Nat) : Keeps t (t.setCurrentSession idx) :=
  .of_eq (t.setCurrentSession_sessions idx)
    (congrArg Timers.sessionTimers (t.setCurrentSession_timers idx))
    (congrArg Timers.timingRanges (t.setCurrentSession_timers idx))

theorem setCurrentSession_handshake (t : Tunn C) (idx : Nat) :
    (t.setCurrentSession idx).handshake = t.handshake := by
  unfold setCurrentSession
  split_ifs <;> rfl

theorem slotOf_mod (idx : Nat) : slotOf (idx % nSessions) = slotOf idx := by
  rw [slotOf_eq_iff, Nat.mod_mod]

theorem finished_handshake (t : Tunn C) (handshake : Handshake C) (session : Session) :
    (t.finished handshake session).handshake = handshake :=
  setCurrentSession_handshake _ _

theorem stores_finished (t : Tunn C) (handshake : Handshake C) (session : Session) :
    Stores t (t.finished handshake session) session := by
  refine ⟨⟨session.sent, session.continues_sent, setCurrentSession_sessions _ _⟩, ?_, ?_⟩
  · rw [finished, setCurrentSession_timers]
    show Function.update _ (slotOf (session.localIndex % nSessions)) _ = _
    rw [slotOf_mod]
    rfl
  · rw [finished, setCurrentSession_timers]
    rfl

theorem validateDecapsulatedPacket_turn (t : Tunn C) (packet : Bytes) :
    (t.validateDecapsulatedPacket packet).2.handshake = t.handshake ∧
      Keeps t (t.validateDecapsulatedPacket packet).2 := by
  have h := t.validated packet
  generalize t.validateDecapsulatedPacket packet = after at h ⊢
  cases h <;> exact ⟨rfl, .of_eq rfl rfl rfl⟩

theorem opened_turn {p : PacketData} {session session' : Session} {plain : Bytes}
    (hslot : t.sessions (slotOf p.receiverIdx.toNat) = some session)
    (hreceive : session.receivePacketData C p dstLen = .ok (.ok plain, session')) :
    (t.opened p session').handshake = t.handshake ∧ Keeps t (t.opened p session') := by
  have hstored := keeps_storeSession hslot (Session.continues_receivePacketData hreceive)
  have hobserved : Keeps t ((t.observeDatagram (t.observedSize p)).storeSession
      p.receiverIdx.toNat session') :=
    ⟨hstored.sessions, hstored.sessionTimers, rfl⟩
  exact ⟨setCurrentSession_handshake _ _,
    (hobserved.trans (keeps_setCurrentSession _ _)).trans (.of_eq rfl rfl rfl)⟩

/-! ## The steps -/

/-- A handshake message was accepted: the event that stores a session. -/
def Event.stores : Event → Bool
  | .accepted (.handshakeInit _) => true
  | .accepted (.handshakeResponse _) => true
  | _ => false

/-- What a step does to the handshake and the sessions. -/
inductive Turn (ε : Type) [Env ε] (t : Tunn C) : Event → Tunn C → Prop
  /-- At most an initiation was sent. -/
  | sends {event : Event} {t' : Tunn C} {h₀ : Handshake C} (hevent : event.stores = false)
      (hcleared : t.handshake.Cleared h₀) (hsent : Sent ε t h₀ t') : Turn ε t event t'
  /-- The connection was given up. -/
  | expires {event : Event} {t' : Tunn C} {h₀ : Handshake C} (hevent : event.stores = false)
      (hcleared : t.handshake.Cleared h₀) (hexpired : t'.handshake = h₀.setExpired)
      (hnone : ∀ i, t'.sessions i = none)
      (hranges : t'.timers.timingRanges = t.timers.timingRanges) : Turn ε t event t'
  /-- The static key was changed. -/
  | rekeys {event : Event} {t' : Tunn C} {staticPrivate staticPublic : Key}
      (hevent : event.stores = false)
      (hr : t.handshake.setStaticPrivate staticPrivate staticPublic = .ok t'.handshake)
      (hnone : ∀ i, t'.sessions i = none)
      (hranges : t'.timers.timingRanges = t.timers.timingRanges) : Turn ε t event t'
  /-- A cookie reply was accepted. -/
  | takesCookie {t' : Tunn C} {p : PacketCookieReply}
      (hr : t.handshake.receiveCookieReply p = (.ok (), t'.handshake)) (hkeeps : Keeps t t') :
      Turn ε t (.accepted (.packetCookieReply p)) t'
  /-- An initiation was accepted. -/
  | answers {t' : Tunn C} {p : HandshakeInit} {dstLen : Nat} {respType : UInt32} {e e' : ε}
      {message : Bytes} {session : Session}
      (hr : t.handshake.receiveHandshakeInitialization p dstLen respType e =
        .ok (.ok (message, session), t'.handshake, e')) (hstores : Stores t t' session) :
      Turn ε t (.accepted (.handshakeInit p)) t'
  /-- A response was accepted. -/
  | finishes {t' : Tunn C} {p : HandshakeResponse} {e e' : ε} {session : Session}
      (hr : t.handshake.receiveHandshakeResponse p e = (.ok session, t'.handshake, e'))
      (hstores : Stores t t' session) : Turn ε t (.accepted (.handshakeResponse p)) t'

/-- A step that leaves the handshake and the sessions alone. -/
theorem Turn.quiet (hevent : event.stores = false) (hhandshake : t'.handshake = t.handshake)
    (hkeeps : Keeps t t') : Turn ε t event t' :=
  .sends hevent (.inl rfl) (.nothing hhandshake hkeeps)

theorem handlePacket_ok_turn (h : t.handlePacket p dstLen e = .ok (.ok r, t', e')) :
    Turn ε t (.accepted p) t' := by
  cases handlePacket_handled h with
  | answers _ hreceive => exact .answers hreceive (t.stores_answered _ _)
  | @finishes _ handshake session _ _ _ _ _ _ _ hreceive =>
    rw [← t.finished_handshake handshake session] at hreceive
    exact .finishes hreceive (t.stores_finished _ _)
  | takesCookie hreceive => exact .takesCookie hreceive (.of_eq rfl rfl rfl)
  | @opens _ _ session' plain hslot hreceive =>
    obtain ⟨hopened, hkeeps⟩ := opened_turn hslot hreceive
    obtain ⟨hsame, hkeeps'⟩ := (t.opened _ session').validateDecapsulatedPacket_turn plain
    exact .quiet rfl (hsame.trans hopened) (hkeeps.trans hkeeps')

/-- A refused packet at most widens the window. -/
theorem handlePacket_error {err : WireGuardError}
    (h : t.handlePacket p dstLen e = .ok (.error err, t', e')) :
    t' = t ∨ ∃ size, t' = t.observeDatagram size := by
  cases handlePacket_handled h with
  | refuses => exact .inl rfl
  | drops => exact .inr ⟨_, rfl⟩

/-- **What a step does to the keys.** -/
theorem Step.turn (hstep : Step ε t event t') : Turn ε t event t' := by
  cases hstep with
  | encapsulate h => exact .sends rfl (.inl rfl) (encapsulate_sent h)
  | flush h => exact .sends rfl (.inl rfl) (sendQueuedPacket_sent h)
  | initiate h => exact .sends rfl (.inl rfl) (formatHandshakeInitiation_sent h)
  | updateTimers h =>
    obtain ⟨h₀, hcleared, hsent | ⟨hexpired, hnone, hranges⟩⟩ := updateTimers_turn h
    · exact .sends rfl hcleared hsent
    · exact .expires rfl hcleared hexpired hnone hranges
  | receive h =>
    obtain ⟨rateLimiter, rfl⟩ := receive_eq h
    exact .quiet rfl rfl (.of_eq rfl rfl rfl)
  | accept h => exact handlePacket_ok_turn h
  | refuse h =>
    rcases handlePacket_error h with rfl | ⟨size, rfl⟩
    · exact .quiet rfl rfl (.refl _)
    · exact .quiet rfl rfl (.of_eq rfl rfl rfl)
  | setStaticPrivate h =>
    simp only [Tunn.setStaticPrivate] at h
    obtain ⟨handshake, hset, h⟩ := bind_eq_ok.mp h
    cases h
    exact .rekeys rfl hset (fun _ => rfl) rfl
  | setMtu mtu => exact .quiet rfl rfl (.of_eq rfl rfl rfl)
  | resetUdpWindow => exact .quiet rfl rfl (.of_eq rfl rfl rfl)
  | pollOutgoingPacket =>
    unfold Tunn.pollOutgoingPacket
    split
    · exact .quiet rfl rfl (.refl _)
    · exact .quiet rfl rfl (.of_eq rfl rfl rfl)

/-- A step changes no setting but the MTU. -/
theorem Step.settings (hstep : Step ε t event t') :
    t'.settings = { t.settings with mtu := t'.mtu } := by
  have hkept (h : t'.settings = t.settings) : t'.settings = { t.settings with mtu := t'.mtu } := by
    have hmtu : t'.mtu = t.mtu := congrArg Settings.mtu h
    rw [h, hmtu]
    rfl
  cases hstep with
  | encapsulate h => exact hkept (quiet_encapsulate h).settings
  | flush h => exact hkept (quiet_sendQueuedPacket h).settings
  | initiate h => exact hkept (quiet_formatHandshakeInitiation h).settings
  | updateTimers h => exact hkept (quiet_updateTimers h).settings
  | receive h => exact hkept (quiet_receive h).settings
  | accept h => exact hkept (handlePacket_handled h).settings
  | refuse h => exact hkept (handlePacket_handled h).settings
  | setStaticPrivate h =>
    simp only [Tunn.setStaticPrivate] at h
    obtain ⟨handshake, -, h⟩ := bind_eq_ok.mp h
    cases h
    exact hkept rfl
  | setMtu mtu => rfl
  | resetUdpWindow => exact hkept rfl
  | pollOutgoingPacket =>
    unfold Tunn.pollOutgoingPacket
    split <;> rfl

/-- Nor the ranges that the timing is drawn from. -/
theorem Turn.timingRanges (hturn : Turn ε t event t') :
    t'.timers.timingRanges = t.timers.timingRanges := by
  cases hturn with
  | sends _ _ hsent => exact hsent.keeps.timingRanges
  | expires _ _ _ _ hranges => exact hranges
  | rekeys _ _ _ hranges => exact hranges
  | takesCookie _ hkeeps => exact hkeeps.timingRanges
  | answers _ hstores => exact hstores.timingRanges
  | finishes _ hstores => exact hstores.timingRanges

/-- As far as the handshake goes, a turn is a run of its operations. -/
theorem Turn.handshake (hturn : Turn ε t event t') :
    Handshake.Run ε t.handshake t'.handshake := by
  cases hturn with
  | sends _ hcleared hsent => exact hcleared.run.trans hsent.handshake.run
  | expires _ hcleared hexpired _ _ =>
    rw [hexpired]
    exact hcleared.run.tail (.setExpired _)
  | rekeys _ hr _ _ => exact .single (.setStaticPrivate hr)
  | takesCookie hr hkeeps =>
    rename_i p
    have hstep : Handshake.Step ε t.handshake _ := .receiveCookieReply t.handshake p
    rw [hr] at hstep
    exact .single hstep
  | answers hr _ => exact .single (.receiveInitialization hr)
  | finishes hr hstores =>
    rename_i p e e' session
    have hstep := Handshake.Step.receiveResponse t.handshake p e
    rw [hr] at hstep
    exact .single hstep

/-- **One step** of a tunnel is any number of operations on its handshake. -/
theorem Step.handshake (hstep : Step ε t event t') :
    Handshake.Run ε t.handshake t'.handshake :=
  hstep.turn.handshake

/-! ## Runs -/

/-- The tunnels that runs from a new one lead to. -/
inductive Reached (ε : Type) [Env ε] : Tunn C → Prop
  | start {staticPrivate peerStaticPublic : Key} {presharedKey : Option Key}
      {persistentKeepalive : Option UInt16} {index : UInt32} {rateLimiter : Option RateLimiter}
      {amnezia : Amnezia3Config} {e e' : ε} {t : Tunn C}
      (h : newWithAmnezia3 staticPrivate peerStaticPublic presharedKey persistentKeepalive index
        rateLimiter amnezia e = (.ok t, e')) : Reached ε t
  | step {t t' : Tunn C} {event : Event} (h : Reached ε t) (hstep : Step ε t event t') :
      Reached ε t'

/-- What holds of new tunnels and survives every step holds of the tunnels that can be
reached. -/
theorem Reached.invariant {P : Tunn C → Prop}
    (hstart : ∀ (staticPrivate peerStaticPublic : Key) (presharedKey : Option Key)
      (persistentKeepalive : Option UInt16) (index : UInt32) (rateLimiter : Option RateLimiter)
      (amnezia : Amnezia3Config) (e : ε), amnezia.validate = .ok () →
      P (ofConfig staticPrivate peerStaticPublic presharedKey persistentKeepalive index rateLimiter
        amnezia e).1)
    (hstep : ∀ (t t' : Tunn C) (event : Event), Step ε t event t' → P t → P t')
    (h : Reached ε t) : P t := by
  induction h with
  | start hnew =>
    obtain ⟨hvalid, rfl⟩ := newWithAmnezia3_eq_ok hnew
    exact hstart _ _ _ _ _ _ _ _ hvalid
  | step _ hs ih => exact hstep _ _ _ hs ih

end Tunn
