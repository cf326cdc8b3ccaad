import AwgTun.Lib.Epochs
import AwgTun.Noise.Turn

/-!
# What a call does under the keys of its sessions

A tunnel seals packets in `encapsulate`, which also serves the queue and the keepalives of
`update_timers`, and in `handle_handshake_response`; it opens them in `handle_data`; and it stores a
session when it accepts a handshake message.  For each of these functions, the first part says what
a call of it does in these respects, as a function of its arguments and its result.

* `Tunn.Act` — a step of a tunnel, together with what it does under the keys.
* `Tunn.Act.changes` — the session table changes in this way and in no other, except that sessions
  are dropped.
-/

open Control Bytes Epochs

variable {C : Crypto} {ε : Type} [Env ε]

/-- Something done under the keys of a session. -/
inductive KeyUse
  /-- A packet was sealed, with zero bytes behind it, and went out in a datagram. -/
  | sealed (key : Key) (counter : UInt64) (src : Bytes) (padding : Nat) (datagram : Bytes)
  /-- A sealed packet was opened. -/
  | opened (key : Key) (counter : UInt64) (ciphertext content : Bytes)

namespace KeyUse

/-- The counter under which a packet was sealed. -/
def sealedCounter : KeyUse → Option UInt64
  | .sealed _ counter _ _ _ => some counter
  | .opened _ _ _ _ => none

/-- The counter under which a packet was opened. -/
def openedCounter : KeyUse → Option UInt64
  | .sealed _ _ _ _ _ => none
  | .opened _ counter _ _ => some counter

end KeyUse

namespace Session

/-- A session as the handshake makes it. -/
structure IsNew (s : Session) : Prop where
  sendingKeyCounter : s.sendingKeyCounter = 0
  receivingKeyCounter : s.receivingKeyCounter = {}

theorem isNew_new (localIndex peerIndex : UInt32) (receivingKey sendingKey : Key) :
    (new localIndex peerIndex receivingKey sendingKey).IsNew :=
  ⟨rfl, rfl⟩

/-- What using a session makes of it. -/
inductive Uses (C : Crypto) : Session → KeyUse → Session → Prop
  | seals {s : Session} {src datagram : Bytes} {padding : Nat}
      (h : s.sealedContent C src padding <:+ datagram) :
      Uses C s (.sealed s.sender s.sendingKeyCounter src padding datagram) s.sent
  | opens {s s' : Session} {p : PacketData} {dstLen : Nat} {content : Bytes}
      (h : s.receivePacketData C p dstLen = .ok (.ok content, s')) :
      Uses C s (.opened s.receiver p.counter p.encryptedEncapsulatedPacket content) s'

end Session

/-- What happens to the session table. -/
abbrev SlotChange := Change (Fin nSessions) Session KeyUse

/-- How the session table changes. -/
abbrev SlotChanges (C : Crypto) :
    (Fin nSessions → Option Session) → List SlotChange → (Fin nSessions → Option Session) → Prop :=
  Changes Session.IsNew (Session.Uses C)

namespace Handshake

variable {h h' : Handshake C} {session : Session} {e e' : ε}

/-- The session of a responder is new. -/
theorem receiveHandshakeInitialization_isNew {packet : HandshakeInit} {dstLen : Nat}
    {respMsgType : UInt32} {message : Bytes}
    (hr : h.receiveHandshakeInitialization packet dstLen respMsgType e =
      .ok (.ok (message, session), h', e')) : session.IsNew := by
  rcases h.receiveHandshakeInitialization_cases packet dstLen respMsgType e with
    ⟨err, herr⟩ | ⟨timestamp, sym, -, hanswer⟩
  · rw [herr] at hr
    cases hr
  · rw [hanswer, formatHandshakeResponse] at hr
    split_ifs at hr
    · cases hr
    · cases hr
      exact Session.isNew_new _ _ _ _

/-- And so is the session of an initiator. -/
theorem receiveHandshakeResponse_isNew {packet : HandshakeResponse}
    (hr : h.receiveHandshakeResponse packet e = (.ok session, h', e')) : session.IsNew := by
  rw [receiveHandshakeResponse_unfold] at hr
  split at hr
  · cases hr
  · simp only at hr
    split at hr
    · cases hr
    · cases hr
      exact Session.isNew_new _ _ _ _

end Handshake

namespace Tunn

variable {e e' : ε} {dstLen : Nat} {result : Except WireGuardError TunnResult} {r : TunnResult}

/-! ## The uses of a call -/

/-- `encapsulate` seals if there is a session, and room for the packet. -/
def encapsulateUses (t : Tunn C) (src : Bytes) (dstLen : Nat) (e : ε) : TunnResult → List SlotChange
  | .writeToNetwork datagram =>
      match t.sessions (slotOf t.current) with
      | some s =>
          [.used (slotOf t.current)
            (.sealed s.sender s.sendingKeyCounter src (t.sealPadding src dstLen e) datagram)]
      | none => []
  | _ => []

/-- `send_queued_packet` seals what it takes from the queue. -/
def flushUses (t : Tunn C) (dstLen : Nat) (e : ε) (r : TunnResult) : List SlotChange :=
  match t.packetQueue with
  | [] => []
  | packet :: rest => { t with packetQueue := rest }.encapsulateUses packet dstLen e r

/-- `update_timers` seals a keepalive if it decides to send one. -/
def tickUses (t : Tunn C) (dstLen : Nat) (e : ε) (r : TunnResult) : List SlotChange :=
  match (do let (now, t, e) ← t.startTimers e; t.timerAction now e) with
  | .ok (.keepalive, t, e) => t.encapsulateUses [] dstLen e r
  | _ => []

/-- `handle_handshake_init` stores the session of an initiation that it answers. -/
def initUses (t : Tunn C) (p : HandshakeInit) (dstLen : Nat) (e : ε) :
    Except WireGuardError TunnResult → List SlotChange
  | .ok _ =>
      let (respType, e) := t.headerConfig.response.generate e
      match t.handshake.receiveHandshakeInitialization p (dstLen - t.paddingConfig.s2.toNat)
          respType e with
      | .ok (.ok (_, session), _, _) => [.stored (slotOf session.localIndex) session]
      | _ => []
  | .error _ => []

/-- `handle_handshake_response` stores the session and seals a first keepalive. -/
def responseUses (t : Tunn C) (p : HandshakeResponse) (dstLen : Nat) (e : ε) :
    Except WireGuardError TunnResult → List SlotChange
  | .ok (.writeToNetwork keepalive) =>
      match t.handshake.receiveHandshakeResponse p e with
      | (.ok session, _, e) =>
          [.stored (slotOf session.localIndex) session,
            .used (slotOf session.localIndex) (.sealed session.sender session.sendingKeyCounter []
              (t.contentPaddingAddition 0 dstLen e).1 keepalive)]
      | _ => []
  | _ => []

/-- `handle_data` opens a packet that its session accepts. -/
def dataUses (t : Tunn C) (p : PacketData) (dstLen : Nat) :
    Except WireGuardError TunnResult → List SlotChange
  | .ok _ =>
      match t.sessions (slotOf p.receiverIdx.toNat) with
      | some s =>
          match s.receivePacketData C p dstLen with
          | .ok (.ok content, _) =>
              [.used (slotOf p.receiverIdx.toNat)
                (.opened s.receiver p.counter p.encryptedEncapsulatedPacket content)]
          | _ => []
      | none => []
  | .error _ => []

/-- `handle_verified_packet`. -/
def handleUses (t : Tunn C) (p : Packet) (dstLen : Nat) (e : ε)
    (result : Except WireGuardError TunnResult) : List SlotChange :=
  match p with
  | .handshakeInit p => t.initUses p dstLen e result
  | .handshakeResponse p => t.responseUses p dstLen e result
  | .packetCookieReply _ => []
  | .packetData p => t.dataUses p dstLen result

/-- One step of a tunnel, with what it does under the keys of the sessions. -/
inductive Act (ε : Type) [Env ε] : Tunn C → List SlotChange → Tunn C → Prop
  | encapsulate {t t' : Tunn C} {src : Bytes} {dstLen : Nat} {e e' : ε} {r : TunnResult}
      (h : t.encapsulate src dstLen e = .ok (r, t', e')) :
      Act ε t (t.encapsulateUses src dstLen e r) t'
  | flush {t t' : Tunn C} {dstLen : Nat} {e e' : ε} {r : TunnResult}
      (h : t.sendQueuedPacket dstLen e = .ok (r, t', e')) : Act ε t (t.flushUses dstLen e r) t'
  | updateTimers {t t' : Tunn C} {dstLen : Nat} {e e' : ε} {r : TunnResult}
      (h : t.updateTimers dstLen e = .ok (r, t', e')) : Act ε t (t.tickUses dstLen e r) t'
  | handle {t t' : Tunn C} {p : Packet} {dstLen : Nat} {e e' : ε}
      {result : Except WireGuardError TunnResult}
      (h : t.handlePacket p dstLen e = .ok (result, t', e')) :
      Act ε t (t.handleUses p dstLen e result) t'
  /-- No other function uses the keys. -/
  | other {t t' : Tunn C} {event : Event} (h : Step ε t event t')
      (hevent : event = .initiated ∨ event = .received ∨ event = .adjusted) : Act ε t [] t'

variable {t t' : Tunn C}

/-! ## Datagrams hold what was sealed -/

/-- However often a prefix is drawn, what follows the header of the packet is left alone. -/
theorem drawPrefix_suffix {packet datagram : Bytes} {redraws : Nat}
    (h : t.drawPrefix packet redraws e = .ok (datagram, e')) :
    packet.drop transportHeaderSz <:+ datagram := by
  rcases hprotection : t.headerProtection with _ | hp
  · cases redraws <;> rw [drawPrefix] at h <;> simp only [hprotection] at h <;> cases h <;>
      exact (List.drop_suffix _ packet).trans (List.suffix_append _ _)
  · induction redraws generalizing e with
    | zero =>
      rw [drawPrefix] at h
      simp only [hprotection] at h
      obtain ⟨keystream, -, h⟩ := bind_eq_ok.mp h
      cases h
      exact (List.suffix_append _ _).trans (List.suffix_append _ _)
    | succ redraws ih =>
      rw [drawPrefix] at h
      simp only [hprotection] at h
      obtain ⟨keystream, -, h⟩ := bind_eq_ok.mp h
      split_ifs at h
      · exact ih h
      · cases h
        exact (List.suffix_append _ _).trans (List.suffix_append _ _)

/-- A datagram that was formatted ends with the sealed content, under the key and the counter of
the session. -/
theorem formatTransportPacket_uses {s s' : Session} {src datagram : Bytes}
    {contentPadding dstLen : Nat}
    (h : t.formatTransportPacket s src contentPadding dstLen e = .ok (datagram, s', e')) :
    s.Uses C (.sealed s.sender s.sendingKeyCounter src contentPadding datagram) s' := by
  obtain rfl := formatTransportPacket_session h
  refine .seals ?_
  simp only [formatTransportPacket] at h
  split_ifs at h
  · cases h
  · obtain ⟨⟨packet, s₁⟩, hformat, h⟩ := bind_eq_ok.mp h
    obtain ⟨⟨datagram', e₁⟩, hdraw, h⟩ := bind_eq_ok.mp h
    cases h
    have hsuffix := drawPrefix_suffix hdraw
    simp only [Session.formatPacketData] at hformat
    split_ifs at hformat
    · cases hformat
    · cases hformat
      exact hsuffix

/-! ## How the session table changes -/

/-- Sessions go, and nothing else happens. -/
theorem changes_drops {T T' : Fin nSessions → Option Session}
    (h : ∀ i, T' i = T i ∨ T' i = none) : SlotChanges C T [] T' :=
  .drops h (.nil T')

theorem changes_same {T T' : Fin nSessions → Option Session} (h : T' = T) :
    SlotChanges C T [] T' := by
  subst h
  exact .nil _

/-- An initiation leaves the sessions alone. -/
theorem formatHandshakeInitiation_sessions {force : Bool}
    (h : t.formatHandshakeInitiation dstLen force e = .ok (r, t', e')) :
    t'.sessions = t.sessions := by
  obtain ⟨handshake, timers, queue, rfl⟩ := formatHandshakeInitiation_changes h
  rfl

theorem encapsulate_changes {src : Bytes} (h : t.encapsulate src dstLen e = .ok (r, t', e')) :
    SlotChanges C t.sessions (t.encapsulateUses src dstLen e r)
      t'.sessions := by
  rw [encapsulate] at h
  split at h
  · rename_i s hs
    rcases sealPacket_cases h with ⟨rfl, rfl⟩ | ⟨datagram, s', rfl, rfl, hformat⟩
    · exact .nil _
    · simp only [encapsulateUses, hs]
      exact .uses hs (formatTransportPacket_uses hformat) (.nil _)
  · rename_i hs
    have hqueue : (t.queuePacket src).sessions = t.sessions := by
      unfold queuePacket
      split_ifs <;> rfl
    have huses : t.encapsulateUses src dstLen e r = [] := by
      cases r <;> simp [encapsulateUses, hs]
    rw [huses]
    exact changes_same ((formatHandshakeInitiation_sessions h).trans hqueue)

theorem sendQueuedPacket_changes (h : t.sendQueuedPacket dstLen e = .ok (r, t', e')) :
    SlotChanges C t.sessions (t.flushUses dstLen e r) t'.sessions := by
  rw [sendQueuedPacket] at h
  split at h
  · rename_i hqueue
    cases h
    simp only [flushUses, hqueue]
    exact .nil _
  · rename_i packet rest hqueue
    obtain ⟨⟨r₁, t₁, e₁⟩, hencapsulate, h⟩ := bind_eq_ok.mp h
    have hchanges := encapsulate_changes hencapsulate
    simp only [flushUses, hqueue]
    simp only at h
    split at h
    · cases h
      have hrequeue : (t₁.requeuePacket packet).sessions = t₁.sessions := by
        unfold requeuePacket
        split_ifs <;> rfl
      rw [hrequeue]
      exact hchanges
    · cases h
      exact hchanges

/-- The timers at most make sessions go. -/
theorem timers_drop {now : Duration} {action : TimerAction} {t₁ t₂ : Tunn C} {e e₁ e₂ : ε}
    (hstart : t.startTimers e = .ok (now, t₁, e₁))
    (haction : t₁.timerAction now e₁ = .ok (action, t₂, e₂)) (i : Fin nSessions) :
    t₂.sessions i = t.sessions i ∨ t₂.sessions i = none := by
  have hfirst : t₁.sessions i = t.sessions i ∨ t₁.sessions i = none := by
    obtain ⟨-, -, hsessions⟩ := startTimers_eq_ok hstart
    obtain ⟨-, rfl⟩ := updateSessionTimers_eq_ok hsessions
    simp only
    split_ifs
    · exact .inr rfl
    · exact .inl rfl
  have hsecond : t₂.sessions i = t₁.sessions i ∨ t₂.sessions i = none := by
    rcases timerAction_cases haction with ⟨-, rfl, -⟩ | ⟨cookieOld, -, hdecides⟩
    · exact .inl rfl
    · cases hdecides with
      | gaveUp => exact .inr rfl
      | inFlight => exact .inl rfl
      | idle _ h =>
        obtain ⟨-, timers, rfl, -⟩ := idleAction_timers h
        exact .inl rfl
  rcases hsecond with hsecond | hsecond
  · rw [hsecond]
    exact hfirst
  · exact .inr hsecond

theorem updateTimers_changes (h : t.updateTimers dstLen e = .ok (r, t', e')) :
    SlotChanges C t.sessions (t.tickUses dstLen e r) t'.sessions := by
  obtain ⟨⟨now, t₁, e₁⟩, hstart, h⟩ := bind_eq_ok.mp h
  obtain ⟨⟨action, t₂, e₂⟩, haction, h⟩ := bind_eq_ok.mp h
  have hdrop := timers_drop hstart haction
  have huses : t.tickUses dstLen e r =
      if action = .keepalive then t₂.encapsulateUses [] dstLen e₂ r else [] := by
    simp only [tickUses, hstart, ok_bind, haction]
    cases action <;> rfl
  rw [huses]
  cases action with
  | nothing =>
    cases h
    exact changes_drops hdrop
  | expired =>
    cases h
    exact changes_drops hdrop
  | handshake =>
    refine Changes.drops hdrop ?_
    exact changes_same (formatHandshakeInitiation_sessions h)
  | keepalive => exact Changes.drops hdrop (encapsulate_changes h)

theorem handleHandshakeInit_changes {p : HandshakeInit}
    (h : t.handleHandshakeInit p dstLen e = .ok (result, t', e')) :
    SlotChanges C t.sessions (t.initUses p dstLen e result)
      t'.sessions := by
  simp only [handleHandshakeInit] at h
  split_ifs at h
  · cases h
    exact .nil _
  · obtain ⟨⟨received, handshake, e₁⟩, hreceive, h⟩ := bind_eq_ok.mp h
    simp only at h
    split at h
    · cases h
      exact .nil _
    · rename_i message session
      obtain ⟨⟨datagram, e₂⟩, -, h⟩ := bind_eq_ok.mp h
      cases h
      simp only [initUses, hreceive]
      exact .stores (Handshake.receiveHandshakeInitialization_isNew hreceive) (.nil _)

theorem handleHandshakeResponse_changes {p : HandshakeResponse}
    (h : t.handleHandshakeResponse p dstLen e = .ok (result, t', e')) :
    SlotChanges C t.sessions (t.responseUses p dstLen e result)
      t'.sessions := by
  simp only [handleHandshakeResponse] at h
  split_ifs at h
  · cases h
    exact .nil _
  · rcases hreceive : t.handshake.receiveHandshakeResponse p e with ⟨received, handshake, e₁⟩
    simp only [hreceive] at h
    split at h
    · cases h
      exact .nil _
    · rename_i session
      obtain ⟨⟨datagram, session', e₂⟩, hformat, h⟩ := bind_eq_ok.mp h
      cases h
      -- the keepalive is sealed before the session is stored
      have hindex : session'.localIndex = session.localIndex := by
        obtain rfl := formatTransportPacket_session hformat
        rfl
      simp only [responseUses, hreceive, setCurrentSession_sessions]
      refine .stores (Handshake.receiveHandshakeResponse_isNew hreceive)
        (.uses (Function.update_self _ _ _) (formatTransportPacket_uses hformat) ?_)
      refine .drops (fun i => .inl ?_) (.nil _)
      rw [Function.update_idem, ← hindex]
      rfl

theorem handleData_changes {p : PacketData} (h : t.handleData p dstLen e = .ok (result, t', e')) :
    SlotChanges C t.sessions (t.dataUses p dstLen result) t'.sessions := by
  cases handleData_handled h with
  | refuses => exact .nil _
  | drops => exact .nil _
  | @opens _ session session' content hslot hreceive =>
    simp only [dataUses, hslot, hreceive]
    refine .uses hslot (.opens hreceive) (.drops (fun i => .inl ?_) (.nil _))
    obtain ⟨-, hsessions, -⟩ := (t.opened p session').validateDecapsulatedPacket_quiet content
    rw [hsessions]
    exact congrFun (setCurrentSession_sessions _ _) i

/-- **What a step does to the session table** is what it does under the keys, and sessions
go. -/
theorem Act.changes {changes : List SlotChange} (h : Act ε t changes t') :
    SlotChanges C t.sessions changes t'.sessions := by
  cases h with
  | encapsulate h => exact encapsulate_changes h
  | flush h => exact sendQueuedPacket_changes h
  | updateTimers h => exact updateTimers_changes h
  | @handle _ p _ _ _ _ h =>
    cases p with
    | handshakeInit p => exact handleHandshakeInit_changes h
    | handshakeResponse p => exact handleHandshakeResponse_changes h
    | packetCookieReply p =>
      simp only [handlePacket, Except.ok.injEq, Prod.mk.injEq] at h
      rcases handleCookieReply_cases (Prod.ext h.1 h.2.1) with
        ⟨err, -, rfl⟩ | ⟨handshake, -, -, rfl⟩
      · exact .nil _
      · exact .nil _
    | packetData p => exact handleData_changes h
  | other h hevent =>
    cases h with
    | initiate h => exact changes_same (formatHandshakeInitiation_sessions h)
    | receive h =>
      obtain ⟨rateLimiter, rfl⟩ := receive_eq h
      exact .nil _
    | setStaticPrivate h =>
      simp only [Tunn.setStaticPrivate] at h
      obtain ⟨handshake, -, h⟩ := bind_eq_ok.mp h
      cases h
      exact changes_drops fun _ => .inr rfl
    | setMtu mtu => exact .nil _
    | resetUdpWindow => exact .nil _
    | pollOutgoingPacket =>
      unfold Tunn.pollOutgoingPacket
      split <;> exact .nil _
    | encapsulate | flush | updateTimers | accept | refuse => simp at hevent

end Tunn
