import AwgTun.Lib.InFlight
import AwgTun.Noise.Timestamp

/-!
# One session for an initiation

A handshake keeps two initiations, the last one in `state` and the one before it in `previous`,
and tells them apart by an index of which only eight bits change.  Every operation moves them in
its own way.  Here a handshake is run together with a record of the initiations it has sent
(`Handshake.Recorded`), in which they are numbered: the slots hold the initiations the record says
they hold, and the record is sound.

* `Handshake.Recorded.Step.faithful` — one operation keeps the two in agreement.
* `Handshake.Recorded.exists_step` — no operation is left out of the record.
* `Handshake.one_session_per_initiation` — no initiation is answered twice, and at most two can
  be answered, with different indices.
* `Tunn.Reached.recorded` — the handshake of a tunnel is one of these.
-/

open Control Bytes

/-- The slot holds the initiation of that number; without a number, it holds none. -/
inductive HandshakeState.Holds (sent : List HandshakeInitSentState) :
    Option Nat → HandshakeState → Prop
  | initiation {n : Nat} {s : HandshakeInitSentState} (h : sent[n]? = some s) :
      Holds sent (some n) (.initSent s)
  | other {state : HandshakeState} (h : ∀ s, state ≠ .initSent s) : Holds sent .none state

namespace HandshakeState.Holds

variable {sent : List HandshakeInitSentState} {number : Option Nat} {state : HandshakeState}
  {s : HandshakeInitSentState}

theorem append (h : Holds sent number state) (s : HandshakeInitSentState) :
    Holds (sent ++ [s]) number state := by
  cases h with
  | initiation h =>
    have hlt := (List.getElem?_eq_some_iff.mp h).1
    exact .initiation ((List.getElem?_append_left hlt).trans h)
  | other h => exact .other h

theorem none_none : Holds sent Option.none .none := .other fun _ h => HandshakeState.noConfusion h

theorem none_expired : Holds sent Option.none .expired :=
  .other fun _ h => HandshakeState.noConfusion h

/-- An initiation in the slot has a number. -/
theorem number_of_initSent (h : Holds sent number (.initSent s)) :
    ∃ n, number = some n ∧ sent[n]? = some s := by
  cases h with
  | initiation h => exact ⟨_, rfl, h⟩
  | other h => exact absurd rfl (h s)

/-- A number says which initiation is in the slot. -/
theorem initSent_of_number {n : Nat} (h : Holds sent (some n) state) :
    ∃ s, state = .initSent s ∧ sent[n]? = some s := by
  cases h with
  | initiation h => exact ⟨_, rfl, h⟩

end HandshakeState.Holds

namespace Handshake

variable {C : Crypto}

/-- A handshake with the record of its initiations. -/
structure Recorded (C : Crypto) where
  handshake : Handshake C
  inFlight : InFlight HandshakeInitSentState Session := {}

namespace Recorded

/-- The number of the initiation that a response with this index is held against. -/
def answering (r : Recorded C) (receiverIdx : UInt32) : Option Nat :=
  (r.handshake.awaiting receiverIdx).bind fun found =>
    if found.2 then r.inFlight.older else r.inFlight.current

/-- One operation of the handshake, with what it adds to the record. -/
inductive Step (ε : Type) [Env ε] : Recorded C → Recorded C → Prop
  /-- An initiation is sent. -/
  | sends {r : Recorded C} {h' : Handshake C} {s : HandshakeInitSentState} {dstLen : Nat}
      {msgType : UInt32} {e e' : ε} {message : Bytes}
      (hr : r.handshake.formatHandshakeInitiation dstLen msgType e = (.ok message, h', e'))
      (hs : h'.state = .initSent s) : Step ε r ⟨h', r.inFlight.send s⟩
  /-- It does not fit into the buffer. -/
  | sendsNothing {r : Recorded C} {h' : Handshake C} {dstLen : Nat} {msgType : UInt32} {e e' : ε}
      {err : WireGuardError}
      (hr : r.handshake.formatHandshakeInitiation dstLen msgType e = (.error err, h', e')) :
      Step ε r ⟨h', r.inFlight⟩
  /-- An initiation of the peer is answered: the handshake with it takes the place of ours. -/
  | answersPeer {r : Recorded C} {h' : Handshake C} {packet : HandshakeInit} {dstLen : Nat}
      {respMsgType : UInt32} {e e' : ε} {made : Bytes × Session}
      (hr : r.handshake.receiveHandshakeInitialization packet dstLen respMsgType e =
        .ok (.ok made, h', e')) : Step ε r ⟨h', r.inFlight.shift⟩
  /-- It is refused. -/
  | refusesPeer {r : Recorded C} {h' : Handshake C} {packet : HandshakeInit} {dstLen : Nat}
      {respMsgType : UInt32} {e e' : ε} {err : WireGuardError}
      (hr : r.handshake.receiveHandshakeInitialization packet dstLen respMsgType e =
        .ok (.error err, h', e'))
      (hsame : h'.lastHandshakeTimestamp = r.handshake.lastHandshakeTimestamp) :
      Step ε r ⟨h', r.inFlight⟩
  /-- It is accepted, and there is no room for the answer. -/
  | stalls {r : Recorded C} {h' : Handshake C} {packet : HandshakeInit} {dstLen : Nat}
      {respMsgType : UInt32} {e e' : ε} {err : WireGuardError}
      (hr : r.handshake.receiveHandshakeInitialization packet dstLen respMsgType e =
        .ok (.error err, h', e'))
      (hnew : h'.lastHandshakeTimestamp ≠ r.handshake.lastHandshakeTimestamp) :
      Step ε r ⟨h', r.inFlight.shift⟩
  /-- A response is accepted. -/
  | finishes {r : Recorded C} {h' : Handshake C} {packet : HandshakeResponse} {e e' : ε}
      {session : Session} {n : Nat}
      (hr : r.handshake.receiveHandshakeResponse packet e = (.ok session, h', e'))
      (hn : r.answering packet.receiverIdx = some n) : Step ε r ⟨h', r.inFlight.answer n session⟩
  /-- It is refused. -/
  | refusesResponse {r : Recorded C} {h' : Handshake C} {packet : HandshakeResponse} {e e' : ε}
      {err : WireGuardError}
      (hr : r.handshake.receiveHandshakeResponse packet e = (.error err, h', e')) :
      Step ε r ⟨h', r.inFlight⟩
  | receivesCookieReply (r : Recorded C) (packet : PacketCookieReply) :
      Step ε r ⟨(r.handshake.receiveCookieReply packet).2, r.inFlight⟩
  | expires (r : Recorded C) : Step ε r ⟨r.handshake.setExpired, r.inFlight.clear⟩
  | clearsCookie (r : Recorded C) : Step ε r ⟨r.handshake.clearCookie, r.inFlight⟩
  | rekeys {r : Recorded C} {h' : Handshake C} {privateKey publicKey : Key}
      (hr : r.handshake.setStaticPrivate privateKey publicKey = .ok h') :
      Step ε r ⟨h', r.inFlight⟩

/-- What any number of operations make of a new handshake. -/
inductive Reached (ε : Type) [Env ε] : Recorded C → Prop
  | start {staticPrivate staticPublic peerStaticPublic : Key} {globalIdx : UInt32}
      {presharedKey : Option Key} (hpublic : staticPublic = C.publicKey staticPrivate) (e : ε) :
      Reached ε ⟨(Handshake.new staticPrivate staticPublic peerStaticPublic globalIdx presharedKey
        hpublic e).1, {}⟩
  | step {r r' : Recorded C} (h : Reached ε r) (hstep : Step ε r r') : Reached ε r'

/-! ## The record is right -/

/-- The slots hold what the record says, the initiation sent last has the index given out last,
and the two held have different ones. -/
structure Faithful (r : Recorded C) : Prop where
  sound : r.inFlight.Sound
  state : r.handshake.state.Holds r.inFlight.sent r.inFlight.current
  previous : r.handshake.previous.Holds r.inFlight.sent r.inFlight.older
  newest : ∀ s, r.handshake.state = .initSent s → s.localIndex = r.handshake.nextIndex
  apart : ∀ s s', r.handshake.state = .initSent s → r.handshake.previous = .initSent s' →
    s.localIndex ≠ s'.localIndex
  sessions : ∀ n session, (n, session) ∈ r.inFlight.answered →
    ∃ s, r.inFlight.sent[n]? = some s ∧ session.receivingIndex = s.localIndex

variable {ε : Type} [Env ε] {r r' : Recorded C} {h' : Handshake C}

namespace Faithful

variable {s : HandshakeInitSentState} {session : Session} {n : Nat}

/-- Nothing happens to the initiations. -/
theorem kept (h : r.Faithful) (hstate : h'.state = r.handshake.state)
    (hprevious : h'.previous = r.handshake.previous)
    (hindex : h'.nextIndex = r.handshake.nextIndex) : Faithful ⟨h', r.inFlight⟩ where
  sound := h.sound
  state := hstate ▸ h.state
  previous := hprevious ▸ h.previous
  newest s hs := (h.newest s (hstate ▸ hs)).trans hindex.symm
  apart s s' hs hs' := h.apart s s' (hstate ▸ hs) (hprevious ▸ hs')
  sessions := h.sessions

/-- The initiation sent last becomes the older one, without a new one. -/
theorem shifted (h : r.Faithful) (hstate : ∀ s, h'.state ≠ .initSent s)
    (hprevious : h'.previous = r.handshake.state) : Faithful ⟨h', r.inFlight.shift⟩ where
  sound := h.sound.shift
  state := .other hstate
  previous := hprevious ▸ h.state
  newest s hs := absurd hs (hstate s)
  apart s _ hs := absurd hs (hstate s)
  sessions := h.sessions

/-- A new initiation, with the next index: the one before it has the index given out before. -/
theorem sent (h : r.Faithful) (hstate : h'.state = .initSent s)
    (hprevious : h'.previous = r.handshake.state)
    (hnew : s.localIndex = succIndex r.handshake.nextIndex) (hindex : h'.nextIndex = s.localIndex) :
    Faithful ⟨h', r.inFlight.send s⟩ := by
  constructor
  · exact h.sound.send s
  · rw [hstate]
    exact .initiation (List.getElem?_concat_length ..)
  · rw [hprevious]
    exact h.state.append s
  · intro s' hs'
    rw [hstate] at hs'
    cases hs'
    exact hindex.symm
  · intro s₁ s₂ hs₁ hs₂
    rw [hstate] at hs₁
    cases hs₁
    rw [hprevious] at hs₂
    rw [hnew, h.newest s₂ hs₂]
    exact succIndex_ne _
  · intro n session hmem
    obtain ⟨s', hs', hsession⟩ := h.sessions n session hmem
    exact ⟨s', (List.getElem?_append_left (List.getElem?_eq_some_iff.mp hs').1).trans hs', hsession⟩

/-- The sessions on record, with one more. -/
theorem sessions_answer (h : r.Faithful) (hn : r.inFlight.sent[n]? = some s)
    (hsession : session.receivingIndex = s.localIndex) :
    ∀ m made, (m, made) ∈ (r.inFlight.answer n session).answered →
      ∃ s, r.inFlight.sent[m]? = some s ∧ made.receivingIndex = s.localIndex := by
  intro m made hmem
  rcases List.mem_append.mp hmem with hmem | hmem
  · exact h.sessions m made hmem
  · cases List.mem_singleton.mp hmem
    exact ⟨s, hn, hsession⟩

/-- A response is accepted for the initiation in either slot. -/
theorem answered (h : r.Faithful) {isPrevious : Bool} {index : UInt32} (now : Instant)
    (hawait : r.handshake.awaiting index = some (s, isPrevious))
    (hsession : session.receivingIndex = s.localIndex)
    (hn : (if isPrevious then r.inFlight.older else r.inFlight.current) = some n) :
    Faithful ⟨r.handshake.afterResponse s isPrevious now, r.inFlight.answer n session⟩ := by
  rcases awaiting_cases hawait with ⟨rfl, hstate⟩ | ⟨rfl, hprevious⟩
  · have hcurrent : r.inFlight.current = some n := hn
    obtain ⟨hemptied, hkept⟩ := h.sound.answer_current hcurrent session
    have hsent : r.inFlight.sent[n]? = some s := by
      have hholds := h.state
      rw [hstate, hcurrent] at hholds
      cases hholds with
      | initiation hsent => exact hsent
    refine ⟨h.sound.answer (InFlight.mem_pending.mpr (.inl hcurrent)) session, ?_, ?_, ?_, ?_,
      h.sessions_answer hsent hsession⟩
    · show HandshakeState.none.Holds _ (r.inFlight.answer n session).current
      rw [hemptied]
      exact .none_none
    · show r.handshake.previous.Holds _ (r.inFlight.answer n session).older
      rw [hkept]
      exact h.previous
    · exact fun _ hs => HandshakeState.noConfusion hs
    · exact fun _ _ hs => HandshakeState.noConfusion hs
  · have holder : r.inFlight.older = some n := hn
    obtain ⟨hemptied, hkept⟩ := h.sound.answer_older holder session
    have hsent : r.inFlight.sent[n]? = some s := by
      have hholds := h.previous
      rw [hprevious, holder] at hholds
      cases hholds with
      | initiation hsent => exact hsent
    refine ⟨h.sound.answer (InFlight.mem_pending.mpr (.inr holder)) session, ?_, ?_, h.newest, ?_,
      h.sessions_answer hsent hsession⟩
    · show r.handshake.state.Holds _ (r.inFlight.answer n session).current
      rw [hkept]
      exact h.state
    · show HandshakeState.none.Holds _ (r.inFlight.answer n session).older
      rw [hemptied]
      exact .none_none
    · exact fun _ _ _ hs => HandshakeState.noConfusion hs

theorem expired (h : r.Faithful) : Faithful ⟨r.handshake.setExpired, r.inFlight.clear⟩ where
  sound := h.sound.clear
  state := .none_expired
  previous := .none_expired
  newest _ hs := HandshakeState.noConfusion hs
  apart _ _ hs := HandshakeState.noConfusion hs
  sessions := h.sessions

end Faithful

/-- One operation of the handshake keeps the record right. -/
theorem Step.faithful (hstep : Step ε r r') (h : r.Faithful) : r'.Faithful := by
  cases hstep with
  | sends hr hs =>
    cases formatHandshakeInitiation_ok hr
    cases hs
    exact h.sent rfl rfl rfl rfl
  | sendsNothing hr =>
    cases formatHandshakeInitiation_error hr
    exact h.kept rfl rfl rfl
  | answersPeer hr =>
    have hanswered := receiveHandshakeInitialization_ok hr
    exact h.shifted (fun s hs => HandshakeState.noConfusion (hanswered.state.symm.trans hs))
      hanswered.previous
  | refusesPeer hr hsame =>
    rcases receiveHandshakeInitialization_refused hr with rfl | ⟨timestamp, sym, hafter, -, rfl⟩
    · exact h.kept rfl rfl rfl
    · rw [← hsame, show (r.handshake.afterInitialization _ timestamp sym).lastHandshakeTimestamp =
        Tai64N.parse (toArr 12 timestamp) from rfl, Tai64N.after_irrefl] at hafter
      cases hafter
  | stalls hr hnew =>
    rcases receiveHandshakeInitialization_refused hr with rfl | ⟨timestamp, sym, -, -, rfl⟩
    · exact absurd rfl hnew
    · exact h.shifted (fun s hs => HandshakeState.noConfusion hs) rfl
  | finishes hr hn =>
    obtain ⟨s, isPrevious, now, hawait, hsession, rfl⟩ := receiveHandshakeResponse_ok hr
    rw [answering, hawait, Option.bind_some] at hn
    exact h.answered now hawait hsession hn
  | refusesResponse hr =>
    cases receiveHandshakeResponse_error hr
    exact h.kept rfl rfl rfl
  | receivesCookieReply packet =>
    cases hresult : r.handshake.receiveCookieReply packet with
    | mk result left =>
      cases result with
      | ok _ =>
        obtain ⟨cookie, rfl⟩ := receiveCookieReply_ok hresult
        exact h.kept rfl rfl rfl
      | error err =>
        cases receiveCookieReply_error hresult
        exact h.kept rfl rfl rfl
  | expires => exact h.expired
  | clearsCookie => exact h.kept rfl rfl rfl
  | rekeys hr =>
    obtain ⟨params, rfl⟩ := setStaticPrivate_ok hr
    exact h.kept rfl rfl rfl

/-- And so does any number. -/
theorem Reached.faithful (hreached : Reached ε r) : r.Faithful := by
  induction hreached with
  | start hpublic e =>
    exact ⟨InFlight.sound_empty, .none_none, .none_none, fun _ hs => HandshakeState.noConfusion hs,
      fun _ _ hs => HandshakeState.noConfusion hs, fun _ _ hmem => absurd hmem List.not_mem_nil⟩
  | step _ hstep ih => exact hstep.faithful ih

/-- A response is held against an initiation that was sent, with the index it carries. -/
theorem Faithful.answering_of_awaiting (h : r.Faithful) {index : UInt32}
    {s : HandshakeInitSentState} {isPrevious : Bool}
    (hawait : r.handshake.awaiting index = some (s, isPrevious)) :
    ∃ n ∈ r.inFlight.pending, r.answering index = some n ∧ r.inFlight.sent[n]? = some s := by
  simp only [answering, hawait, Option.bind_some]
  rcases awaiting_cases hawait with ⟨rfl, hstate⟩ | ⟨rfl, hprevious⟩
  · obtain ⟨n, hcurrent, hsent⟩ := (hstate ▸ h.state).number_of_initSent
    exact ⟨n, InFlight.mem_pending.mpr (.inl hcurrent), hcurrent, hsent⟩
  · obtain ⟨n, holder, hsent⟩ := (hprevious ▸ h.previous).number_of_initSent
    exact ⟨n, InFlight.mem_pending.mpr (.inr holder), holder, hsent⟩

/-- The initiations held are those a response can answer. -/
theorem Faithful.mem_pending_iff (h : r.Faithful) {n : Nat} :
    n ∈ r.inFlight.pending ↔ ∃ index, r.answering index = some n := by
  constructor
  · intro hn
    rcases InFlight.mem_pending.mp hn with hcurrent | holder
    · obtain ⟨s, hstate, -⟩ := (hcurrent ▸ h.state).initSent_of_number
      refine ⟨s.localIndex, ?_⟩
      have hsent := HandshakeState.sentWith_eq_some_iff.mpr ⟨hstate, rfl⟩
      simp [answering, awaiting, hsent, hcurrent]
    · obtain ⟨s, hprevious, -⟩ := (holder ▸ h.previous).initSent_of_number
      refine ⟨s.localIndex, ?_⟩
      -- the newer one has another index
      have hnewer : r.handshake.state.sentWith s.localIndex = none := by
        rw [Option.eq_none_iff_forall_ne_some]
        intro s' hs'
        obtain ⟨hstate, hindex⟩ := HandshakeState.sentWith_eq_some_iff.mp hs'
        exact h.apart s' s hstate hprevious hindex
      have hsent := HandshakeState.sentWith_eq_some_iff.mpr ⟨hprevious, rfl⟩
      simp [answering, awaiting, hnewer, hsent, holder]
  · rintro ⟨index, hn⟩
    cases hawait : r.handshake.awaiting index with
    | none => simp [answering, hawait] at hn
    | some found =>
      obtain ⟨m, hm, hanswering, -⟩ := h.answering_of_awaiting hawait
      rw [hn] at hanswering
      cases hanswering
      exact hm

/-- No operation is left out of the record. -/
theorem Faithful.exists_step (h : r.Faithful) (hstep : Handshake.Step ε r.handshake h') :
    ∃ r', Step ε r r' ∧ r'.handshake = h' := by
  cases hstep with
  | formatInitiation dstLen msgType e =>
    cases hresult : r.handshake.formatHandshakeInitiation dstLen msgType e with
    | mk result left =>
      obtain ⟨h', e'⟩ := left
      cases result with
      | ok message =>
        have hs : h'.state = .initSent (r.handshake.initiationState e) := by
          cases formatHandshakeInitiation_ok hresult
          rfl
        exact ⟨_, .sends hresult hs, rfl⟩
      | error err => exact ⟨_, .sendsNothing hresult, rfl⟩
  | @receiveInitialization _ _ _ _ _ _ result hr =>
    cases result with
    | ok made => exact ⟨_, .answersPeer hr, rfl⟩
    | error err =>
      by_cases hsame : h'.lastHandshakeTimestamp = r.handshake.lastHandshakeTimestamp
      · exact ⟨_, .refusesPeer hr hsame, rfl⟩
      · exact ⟨_, .stalls hr hsame, rfl⟩
  | receiveResponse packet e =>
    cases hresult : r.handshake.receiveHandshakeResponse packet e with
    | mk result left =>
      obtain ⟨h', e'⟩ := left
      cases result with
      | ok session =>
        obtain ⟨s, isPrevious, now, hawait, -, -⟩ := receiveHandshakeResponse_ok hresult
        obtain ⟨n, -, hn, -⟩ := h.answering_of_awaiting hawait
        exact ⟨_, .finishes hresult hn, rfl⟩
      | error err => exact ⟨_, .refusesResponse hresult, rfl⟩
  | receiveCookieReply packet => exact ⟨_, .receivesCookieReply r packet, rfl⟩
  | setExpired => exact ⟨_, .expires r, rfl⟩
  | clearCookie => exact ⟨_, .clearsCookie r, rfl⟩
  | setStaticPrivate hr => exact ⟨_, .rekeys hr, rfl⟩

/-- Nor is a run. -/
theorem Reached.exists_run (hreached : Reached ε r) (hrun : Run ε r.handshake h') :
    ∃ r', Reached ε r' ∧ r'.handshake = h' := by
  induction hrun with
  | refl => exact ⟨r, hreached, rfl⟩
  | tail _ hstep ih =>
    obtain ⟨r₁, hreached₁, rfl⟩ := ih
    obtain ⟨r', hstep', rfl⟩ := hreached₁.faithful.exists_step hstep
    exact ⟨r', hreached₁.step hstep', rfl⟩

end Recorded

/-! ## One session for an initiation -/

/-- **One session for an initiation.**  Whatever operations a handshake goes through, no
initiation is answered twice; at most two can be answered, each held in one slot only and
with different indices; and a response that is accepted makes a session with the index of the
initiation it is held against.  The record these are read from leaves no operation out. -/
theorem one_session_per_initiation {ε : Type} [Env ε] {r : Recorded C}
    (hreached : Recorded.Reached ε r) :
    r.inFlight.done.Nodup ∧
      (∀ n session, (n, session) ∈ r.inFlight.answered →
        ∃ s, r.inFlight.sent[n]? = some s ∧ session.receivingIndex = s.localIndex) ∧
      (r.inFlight.pending.length ≤ 2 ∧
        ∀ n, n ∈ r.inFlight.pending ↔ ∃ index, r.answering index = some n) ∧
      (∀ n ∈ r.inFlight.pending, n ∉ r.inFlight.done) ∧
      (r.handshake.state.Holds r.inFlight.sent r.inFlight.current ∧
        r.handshake.previous.Holds r.inFlight.sent r.inFlight.older ∧
        ∀ n, ¬ (r.inFlight.current = some n ∧ r.inFlight.older = some n)) ∧
      (∀ s s', r.handshake.state = .initSent s → r.handshake.previous = .initSent s' →
        s.localIndex ≠ s'.localIndex) ∧
      ∀ h', Step ε r.handshake h' → ∃ r', Recorded.Step ε r r' ∧ r'.handshake = h' := by
  have h := hreached.faithful
  refine ⟨h.sound.done_nodup, h.sessions,
    ⟨r.inFlight.pending_length_le, fun n => h.mem_pending_iff⟩, h.sound.open_of_pending,
    ⟨h.state, h.previous, ?_⟩, h.apart, ?_⟩
  · rintro n ⟨hcurrent, holder⟩
    exact h.sound.current_ne_older hcurrent holder rfl
  · exact fun h' hstep => h.exists_step hstep

/-- A new handshake. -/
def newHandshake : Handshake Crypto.transparent :=
  (Handshake.new zeroKey zeroKey zeroKey 0x100 none rfl ({} : StillMachine)).1

/-- A response to the first initiation it sends. -/
def firstResponse : HandshakeResponse :=
  ⟨0x200, 0x101, zeroKey, List.Vector.replicate 16 0⟩

/-- The first initiation is answered after it was sent again; the second one can still be. -/
theorem one_session_per_initiation_resent :
    ∃ r : Recorded Crypto.transparent, r.Reached StillMachine ∧ r.inFlight.done = [0] ∧
      (∃ index, r.answering index = some 1) ∧ ¬ ∃ index, r.answering index = some 0 := by
  have hnew : Recorded.Reached StillMachine ⟨newHandshake, {}⟩ := .start rfl _
  have hruns : ∃ h₁ h₂ h₃ s₁ s₂ session message₁ message₂,
      newHandshake.formatHandshakeInitiation 148 1 ({} : StillMachine) = (.ok message₁, h₁, {}) ∧
      h₁.state = .initSent s₁ ∧
      h₁.formatHandshakeInitiation 148 1 ({} : StillMachine) = (.ok message₂, h₂, {}) ∧
      h₂.state = .initSent s₂ ∧ (∃ s, h₂.awaiting 0x101 = some (s, true)) ∧
      h₂.receiveHandshakeResponse firstResponse ({} : StillMachine) = (.ok session, h₃, {}) :=
    ⟨_, _, _, _, _, _, _, _, rfl, rfl, rfl, rfl, ⟨_, rfl⟩, rfl⟩
  obtain ⟨h₁, h₂, h₃, s₁, s₂, session, message₁, message₂, hfirst, hs₁, hsecond, hs₂,
    ⟨s, hawait⟩, hresponse⟩ := hruns
  have hsent := (hnew.step (.sends hfirst hs₁)).step (.sends hsecond hs₂)
  have hreached := hsent.step (.finishes (n := 0) hresponse
    (by simp [Recorded.answering, firstResponse, hawait, InFlight.send]))
  obtain ⟨-, -, ⟨-, hpending⟩, -⟩ := one_session_per_initiation hreached
  refine ⟨_, hreached, rfl, (hpending 1).mp (List.mem_singleton.mpr rfl), fun hzero => ?_⟩
  have hone : 0 = 1 := List.mem_singleton.mp ((hpending 0).mpr hzero)
  cases hone

end Handshake

/-- The handshake of a tunnel goes through operations of these kinds only. -/
theorem Tunn.Reached.recorded {C : Crypto} {ε : Type} [Env ε] {t : Tunn C} (h : Reached ε t) :
    ∃ r : Handshake.Recorded C, r.Reached ε ∧ r.handshake = t.handshake := by
  refine h.invariant (P := fun t => ∃ r : Handshake.Recorded C, r.Reached ε ∧
    r.handshake = t.handshake) ?_ ?_
  · intro _ _ _ _ _ _ _ e _
    exact ⟨_, .start rfl e, rfl⟩
  · rintro t t' event hstep ⟨r, hreached, hsame⟩
    exact hreached.exists_run (hsame ▸ hstep.handshake)
