import AwgTun.Lib.NoisePattern
import AwgTun.Noise.Handshake

/-!
# The two ends of a handshake agree

`handshake.rs` writes the IKpsk2 transcript out four times: two senders and two
receivers.  Each of the four is shown to compute what the general pattern of
`NoisePattern` computes (`formatHandshakeInitiation_eq`,
`receiveHandshakeInitialization_eq`, `formatHandshakeResponse_eq`,
`receiveHandshakeResponse_eq`); the bytes of the messages are shown to parse back
into their fields; and a run lemma about the state machine finds the initiation a
response belongs to, whatever the initiator did in between.  `handshake_agreement`
puts these together.
-/

open Control Bytes NoisePattern

/-- The primitives of the handshake as a suite of the pattern. -/
def suite (C : Crypto) : Suite Key Bytes where
  ofKey := List.Vector.toList
  hash := C.b2sHash
  hmac := C.b2sHmac
  hmac2 := C.b2sHmac2
  sealWith := fun key aad data => aeadChacha20Seal C key 0 data aad
  openWith := fun key aad data => C.aeadOpen key (counterNonce 0) aad data
  one := [0x01]
  two := [0x02]
  three := [0x03]
  empty := []

theorem suite_openUndoesSeal {C : Crypto} (h : C.OpenUndoesSeal) : (suite C).OpenUndoesSeal :=
  fun k aad p => h k (counterNonce 0) aad p

/-- The symmetric state every handshake starts from. -/
def startSym : Sym Key := ⟨initialChainKey, initialChainHash⟩

namespace Handshake

variable {C : Crypto} {ε : Type} [Env ε] {h h' : Handshake C} {s : HandshakeInitSentState}
  {dstLen : Nat} {msgType : UInt32} {sym : Sym Key} {r : Except WireGuardError (Bytes × Session)}
  {packet : HandshakeInit} {headers : HeaderConfig} {e e' : ε}

/-! ## The four transcripts are the pattern -/

/-- The initiation a handshake object writes with an ephemeral key and a timestamp. -/
def initiation (h : Handshake C) (ephemeral : Key) (timestamp : ByteArr 12) :
    Initiation Bytes × Sym Key :=
  writeInitiation (suite C) startSym h.params.peerStaticPublic (C.publicKey ephemeral)
    (C.diffieHellman ephemeral h.params.peerStaticPublic) h.params.staticShared
    h.params.staticPublic timestamp

/-- The ephemeral key an initiation draws. -/
def initiationEphemeral (e : ε) : Key := (Env.randomSecret e).1

/-- The bytes of the timestamp an initiation carries. -/
def initiationStamp (h : Handshake C) (e : ε) : ByteArr 12 :=
  (h.stamper.stamp (Env.randomSecret e).2).1

/-- What is kept of an initiation. -/
def initiationState (h : Handshake C) (e : ε) : HandshakeInitSentState :=
  let sym := (h.initiation (initiationEphemeral e) (h.initiationStamp e)).2
  { localIndex := succIndex h.nextIndex
    hash := sym.hash
    chainingKey := sym.chainingKey
    ephemeralPrivate := initiationEphemeral e
    timeSent := (Env.instantNow (h.stamper.stamp (Env.randomSecret e).2).2).1 }

/-- The bytes of an initiation before its MACs. -/
def initiationBody (h : Handshake C) (msgType : UInt32) (e : ε) : Bytes :=
  let m := (h.initiation (initiationEphemeral e) (h.initiationStamp e)).1
  u32ToLe msgType ++ (u32ToLe (succIndex h.nextIndex) ++ (C.publicKey (initiationEphemeral e) ++
    (m.encryptedStatic ++ m.encryptedPayload)))

/-- The object after an initiation, before the MACs are recorded. -/
def afterInitiation (h : Handshake C) (e : ε) : Handshake C :=
  { h with
    nextIndex := succIndex h.nextIndex
    previous := h.state
    state := .initSent (h.initiationState e) }

theorem formatHandshakeInitiation_eq (h : Handshake C) (hdst : handshakeInitSz ≤ dstLen)
    (msgType : UInt32) (e : ε) :
    h.formatHandshakeInitiation dstLen msgType e =
      (.ok ((h.afterInitiation e).appendMac1AndMac2 (succIndex h.nextIndex)
          (h.initiationBody msgType e)).1,
        ((h.afterInitiation e).appendMac1AndMac2 (succIndex h.nextIndex)
          (h.initiationBody msgType e)).2,
        (Env.instantNow (h.stamper.stamp (Env.randomSecret e).2).2).2) := by
  unfold formatHandshakeInitiation
  rw [if_neg (Nat.not_lt.mpr hdst)]
  rfl

/-- The response to an initiation whose transcript ended in `sym`. -/
def response (h : Handshake C) (sym : Sym Key) (ephemeral peerEphemeral : Key) : Bytes × Sym Key :=
  writeResponse (suite C) sym (C.publicKey ephemeral) (C.diffieHellman ephemeral peerEphemeral)
    (C.diffieHellman ephemeral h.params.peerStaticPublic) (h.params.presharedKey.getD zeroKey)

/-- The MACs are the last 32 bytes of a message. -/
theorem appendMac1AndMac2_eq (h : Handshake C) (index : UInt32) (body : Bytes) :
    ∃ macs, (h.appendMac1AndMac2 index body).1 = body ++ macs ∧ macs.length = 32 := by
  refine ⟨_, rfl, ?_⟩
  rw [List.length_append, List.Vector.toList_length, List.Vector.toList_length]

/-- The bytes of a response before its MACs. -/
def responseBody (h : Handshake C) (msgType : UInt32) (sym : Sym Key) (peerEphemeral : Key)
    (peerIndex : UInt32) (e : ε) : Bytes :=
  u32ToLe msgType ++ (u32ToLe (succIndex h.nextIndex) ++ (u32ToLe peerIndex ++
    (C.publicKey (Env.randomSecret e).1 ++
      (h.response sym (Env.randomSecret e).1 peerEphemeral).1)))

/-- The session that comes with a response. -/
def responseSession (h : Handshake C) (sym : Sym Key) (peerEphemeral : Key) (peerIndex : UInt32)
    (e : ε) : Session :=
  let keys := (h.response sym (Env.randomSecret e).1 peerEphemeral).2.split (suite C)
  Session.new (succIndex h.nextIndex) peerIndex keys.1 keys.2

theorem formatHandshakeResponse_eq (h : Handshake C) (hdst : handshakeRespSz ≤ dstLen)
    (msgType : UInt32) (e : ε) {peerEphemeral : Key} {peerIndex : UInt32}
    (hstate : h.state = .initReceived sym.hash sym.chainingKey peerEphemeral peerIndex) :
    ∃ macs h', macs.length = 32 ∧
      h.formatHandshakeResponse dstLen msgType e =
        .ok (.ok (h.responseBody msgType sym peerEphemeral peerIndex e ++ macs,
          h.responseSession sym peerEphemeral peerIndex e), h', (Env.randomSecret e).2) := by
  let sent := ({ h with state := .none, nextIndex := succIndex h.nextIndex } :
    Handshake C).appendMac1AndMac2 (succIndex h.nextIndex)
      (h.responseBody msgType sym peerEphemeral peerIndex e)
  obtain ⟨macs, hbytes, hmacs⟩ : ∃ macs, sent.1 = _ ++ macs ∧ macs.length = 32 :=
    appendMac1AndMac2_eq _ _ _
  refine ⟨macs, sent.2, hmacs, ?_⟩
  rw [← hbytes, formatHandshakeResponse, if_neg (Nat.not_lt.mpr hdst), hstate]
  rfl

theorem aeadChacha20Open_eq_ok {key hash : Key} {data plain : Bytes}
    (h : (suite C).openWith key ((suite C).ofKey hash) data = some plain) :
    aeadChacha20Open C key 0 data hash = .ok plain := by
  have hopen : C.aeadOpen key (counterNonce 0) hash data = some plain := h
  rw [aeadChacha20Open, hopen]

/-- The state a responder keeps of an initiation it accepted. -/
def afterInitialization (h : Handshake C) (packet : HandshakeInit) (timestamp : Bytes)
    (sym : Sym Key) : Handshake C :=
  { h with
    lastHandshakeTimestamp := Tai64N.parse (toArr 12 timestamp)
    previous := h.state
    state := .initReceived sym.hash sym.chainingKey packet.unencryptedEphemeral packet.senderIdx }

/-- The transcript of the receiver of an initiation, in the words of the pattern. -/
theorem receiveHandshakeInitialization_unfold (h : Handshake C) (packet : HandshakeInit)
    (dstLen : Nat) (respMsgType : UInt32) (e : ε) :
    h.receiveHandshakeInitialization packet dstLen respMsgType e =
      let opened := initiationKey (suite C) startSym h.params.staticPublic
        packet.unencryptedEphemeral
        (C.diffieHellman h.params.staticPrivate packet.unencryptedEphemeral)
      match aeadChacha20Open C opened.2 0 packet.encryptedStatic opened.1.hash with
      | .error err => .ok (.error err, h, e)
      | .ok static =>
          if (h.params.peerStaticPublic : Bytes) ≠ static then .ok (.error .wrongKey, h, e)
          else
            let mixed := (opened.1.mixHash (suite C) packet.encryptedStatic).mixKeySeal (suite C)
              h.params.staticShared
            match aeadChacha20Open C mixed.2 0 packet.encryptedTimestamp mixed.1.hash with
            | .error err => .ok (.error err, h, e)
            | .ok timestamp =>
                if !(Tai64N.parse (toArr 12 timestamp)).after h.lastHandshakeTimestamp then
                  .ok (.error .wrongTai64nTimestamp, h, e)
                else
                  (h.afterInitialization packet timestamp
                    (mixed.1.mixHash (suite C) packet.encryptedTimestamp)).formatHandshakeResponse
                      dstLen respMsgType e := rfl

/-- An initiation is refused with nothing done, or it has a later timestamp and is answered. -/
theorem receiveHandshakeInitialization_cases (h : Handshake C) (packet : HandshakeInit)
    (dstLen : Nat) (respMsgType : UInt32) (e : ε) :
    (∃ err, h.receiveHandshakeInitialization packet dstLen respMsgType e = .ok (.error err, h, e)) ∨
      ∃ timestamp sym, (Tai64N.parse (toArr 12 timestamp)).after h.lastHandshakeTimestamp = true ∧
        h.receiveHandshakeInitialization packet dstLen respMsgType e =
          (h.afterInitialization packet timestamp sym).formatHandshakeResponse dstLen
            respMsgType e := by
  rw [receiveHandshakeInitialization_unfold]
  simp only
  split
  · exact .inl ⟨_, rfl⟩
  · split_ifs with hkey
    · exact .inl ⟨_, rfl⟩
    · split
      · exact .inl ⟨_, rfl⟩
      · rename_i timestamp hopen
        split_ifs with hafter
        · exact .inl ⟨_, rfl⟩
        · rw [Bool.not_eq_true, Bool.not_eq_false'] at hafter
          exact .inr ⟨timestamp, _, hafter, rfl⟩

/-- An initiation that reads well under the pattern, from the right peer and with a
later timestamp, is accepted. -/
theorem receiveHandshakeInitialization_eq (h : Handshake C) {sym sym' : Sym Key} {timestamp : Bytes}
    (dstLen : Nat) (respMsgType : UInt32) (e : ε)
    (hstatic : readStatic (suite C) startSym h.params.staticPublic packet.unencryptedEphemeral
      (C.diffieHellman h.params.staticPrivate packet.unencryptedEphemeral) packet.encryptedStatic
        = some ((h.params.peerStaticPublic : Bytes), sym))
    (hpayload : readPayload (suite C) sym h.params.staticShared packet.encryptedTimestamp
      = some (timestamp, sym'))
    (hafter : (Tai64N.parse (toArr 12 timestamp)).after h.lastHandshakeTimestamp = true) :
    h.receiveHandshakeInitialization packet dstLen respMsgType e =
      (h.afterInitialization packet timestamp sym').formatHandshakeResponse dstLen
        respMsgType e := by
  obtain ⟨hopen, rfl⟩ := readStatic_eq_some_iff.mp hstatic
  obtain ⟨hopen', rfl⟩ := readPayload_eq_some_iff.mp hpayload
  rw [receiveHandshakeInitialization_unfold]
  simp only
  rw [aeadChacha20Open_eq_ok hopen]
  simp only [ne_eq, not_true_eq_false, if_false]
  rw [aeadChacha20Open_eq_ok hopen']
  simp only [hafter, Bool.not_true, Bool.false_eq_true, if_false]

/-- The object after a response to one of its two initiations. -/
def afterResponse (h : Handshake C) (s : HandshakeInitSentState) (isPrevious : Bool)
    (now : Instant) : Handshake C :=
  let h := { h with lastRtt := some (UInt32.ofNat ((now - s.timeSent) / 1000000)) }
  if isPrevious then { h with previous := .none } else { h with state := .none }

/-- The transcript of the receiver of a response, in the words of the pattern. -/
theorem receiveHandshakeResponse_unfold (h : Handshake C) (packet : HandshakeResponse) (e : ε) :
    h.receiveHandshakeResponse packet e =
      match h.awaiting packet.receiverIdx with
      | .none => (.error .unexpectedPacket, h, e)
      | some (s, isPrevious) =>
          let mixed := responseKey (suite C) ⟨s.chainingKey, s.hash⟩ packet.unencryptedEphemeral
            (C.diffieHellman s.ephemeralPrivate packet.unencryptedEphemeral)
            (C.diffieHellman h.params.staticPrivate packet.unencryptedEphemeral)
            (h.params.presharedKey.getD zeroKey)
          match aeadChacha20Open C mixed.2 0 packet.encryptedNothing mixed.1.hash with
          | .error err => (.error err, h, e)
          | .ok _ =>
              (.ok (Session.new s.localIndex packet.senderIdx (mixed.1.split (suite C)).2
                (mixed.1.split (suite C)).1),
                h.afterResponse s isPrevious (Env.instantNow e).1, (Env.instantNow e).2) := rfl

/-- A response that reads well under the pattern finishes the initiation it is for. -/
theorem receiveHandshakeResponse_eq (h : Handshake C) {packet : HandshakeResponse}
    {isPrevious : Bool} (e : ε) (hawait : h.awaiting packet.receiverIdx = some (s, isPrevious))
    (hread : readResponse (suite C) ⟨s.chainingKey, s.hash⟩ packet.unencryptedEphemeral
      (C.diffieHellman s.ephemeralPrivate packet.unencryptedEphemeral)
      (C.diffieHellman h.params.staticPrivate packet.unencryptedEphemeral)
      (h.params.presharedKey.getD zeroKey) packet.encryptedNothing = some sym) :
    h.receiveHandshakeResponse packet e =
      (.ok (Session.new s.localIndex packet.senderIdx (sym.split (suite C)).2
        (sym.split (suite C)).1),
        h.afterResponse s isPrevious (Env.instantNow e).1, (Env.instantNow e).2) := by
  obtain ⟨⟨plain, hopen⟩, rfl⟩ := readResponse_eq_some_iff.mp hread
  rw [receiveHandshakeResponse_unfold, hawait]
  simp only
  rw [aeadChacha20Open_eq_ok hopen]

/-! ## What happens in between -/

/-- One operation of a handshake object, with any arguments and any result. -/
inductive Step (ε : Type) [Env ε] : Handshake C → Handshake C → Prop
  | formatInitiation (h : Handshake C) (dstLen : Nat) (msgType : UInt32) (e : ε) :
      Step ε h (h.formatHandshakeInitiation dstLen msgType e).2.1
  | receiveInitialization {h h' : Handshake C} {packet : HandshakeInit} {dstLen : Nat}
      {respMsgType : UInt32} {e e' : ε} {r : Except WireGuardError (Bytes × Session)}
      (hr : h.receiveHandshakeInitialization packet dstLen respMsgType e = .ok (r, h', e')) :
      Step ε h h'
  | receiveResponse (h : Handshake C) (packet : HandshakeResponse) (e : ε) :
      Step ε h (h.receiveHandshakeResponse packet e).2.1
  | receiveCookieReply (h : Handshake C) (packet : PacketCookieReply) :
      Step ε h (h.receiveCookieReply packet).2
  | setExpired (h : Handshake C) : Step ε h h.setExpired
  | clearCookie (h : Handshake C) : Step ε h h.clearCookie
  | setStaticPrivate {h h' : Handshake C} {privateKey publicKey : Key}
      (hr : h.setStaticPrivate privateKey publicKey = .ok h') : Step ε h h'

/-- Any number of operations. -/
def Run (ε : Type) [Env ε] : Handshake C → Handshake C → Prop := Relation.ReflTransGen (Step ε)

/-- What one operation can do to the initiations in flight. -/
inductive Moved (h h' : Handshake C) : Prop
  /-- Nothing. -/
  | kept (state : h'.state = h.state) (previous : h'.previous = h.previous)
      (index : h'.nextIndex = h.nextIndex)
  /-- A new initiation, with the next index, in front of the old one. -/
  | sent (s : HandshakeInitSentState) (state : h'.state = .initSent s)
      (previous : h'.previous = h.state) (new : s.localIndex = succIndex h.nextIndex)
      (index : h'.nextIndex = s.localIndex)
  /-- No initiation is current any more. -/
  | cleared (state : ∀ s, h'.state ≠ .initSent s)
  /-- The older initiation was answered. -/
  | answered (state : h'.state = h.state) (previous : h'.previous = .none)
      (index : h'.nextIndex = h.nextIndex)

/-- An operation keeps the peer and the preshared key. -/
structure SamePeer (h h' : Handshake C) : Prop where
  peer : h'.params.peerStaticPublic = h.params.peerStaticPublic
  psk : h'.params.presharedKey = h.params.presharedKey

theorem SamePeer.refl (h : Handshake C) : SamePeer h h := ⟨rfl, rfl⟩

theorem SamePeer.trans {h h' h'' : Handshake C} (a : SamePeer h h') (b : SamePeer h' h'') :
    SamePeer h h'' := ⟨b.peer.trans a.peer, b.psk.trans a.psk⟩

theorem formatHandshakeInitiation_moved (h : Handshake C) (dstLen : Nat)
    (msgType : UInt32) (e : ε) :
    Moved h (h.formatHandshakeInitiation dstLen msgType e).2.1 ∧
      SamePeer h (h.formatHandshakeInitiation dstLen msgType e).2.1 := by
  by_cases hdst : handshakeInitSz ≤ dstLen
  · rw [formatHandshakeInitiation_eq h hdst]
    exact ⟨.sent (h.initiationState e) rfl rfl rfl rfl, rfl, rfl⟩
  · rw [formatHandshakeInitiation, if_pos (Nat.not_le.mp hdst)]
    exact ⟨.kept rfl rfl rfl, SamePeer.refl h⟩

theorem formatHandshakeResponse_moved (hstate : ∀ s, h.state ≠ .initSent s)
    (hr : h.formatHandshakeResponse dstLen msgType e = .ok (r, h', e')) :
    (∀ s, h'.state ≠ .initSent s) ∧ SamePeer h h' := by
  unfold formatHandshakeResponse at hr
  split_ifs at hr with hdst
  · cases hr
    exact ⟨hstate, SamePeer.refl h⟩
  · split at hr
    · cases hr
      exact ⟨fun s hs => HandshakeState.noConfusion hs, rfl, rfl⟩
    · cases hr

theorem receiveHandshakeInitialization_moved {respMsgType : UInt32}
    (hr : h.receiveHandshakeInitialization packet dstLen respMsgType e = .ok (r, h', e')) :
    Moved h h' ∧ SamePeer h h' := by
  rcases h.receiveHandshakeInitialization_cases packet dstLen respMsgType e with
    ⟨err, herr⟩ | ⟨timestamp, sym, -, hanswer⟩
  · rw [herr] at hr
    cases hr
    exact ⟨.kept rfl rfl rfl, SamePeer.refl h⟩
  · rw [hanswer] at hr
    obtain ⟨hstate, hpeer⟩ := formatHandshakeResponse_moved
      (fun s hs => HandshakeState.noConfusion hs) hr
    exact ⟨.cleared hstate, hpeer.peer, hpeer.psk⟩

theorem receiveHandshakeResponse_moved (h : Handshake C) (packet : HandshakeResponse) (e : ε) :
    Moved h (h.receiveHandshakeResponse packet e).2.1 ∧
      SamePeer h (h.receiveHandshakeResponse packet e).2.1 := by
  rw [receiveHandshakeResponse_unfold]
  split
  · exact ⟨.kept rfl rfl rfl, SamePeer.refl h⟩
  · rename_i s isPrevious hawait
    simp only
    split
    · exact ⟨.kept rfl rfl rfl, SamePeer.refl h⟩
    · cases isPrevious with
      | false => exact ⟨.cleared fun s hs => HandshakeState.noConfusion hs, rfl, rfl⟩
      | true => exact ⟨.answered rfl rfl rfl, rfl, rfl⟩

theorem receiveCookieReply_moved (h : Handshake C) (packet : PacketCookieReply) :
    Moved h (h.receiveCookieReply packet).2 ∧ SamePeer h (h.receiveCookieReply packet).2 := by
  unfold receiveCookieReply
  split
  · exact ⟨.kept rfl rfl rfl, SamePeer.refl h⟩
  · split_ifs
    · exact ⟨.kept rfl rfl rfl, SamePeer.refl h⟩
    · simp only
      split
      · exact ⟨.kept rfl rfl rfl, SamePeer.refl h⟩
      · split_ifs
        · exact ⟨.kept rfl rfl rfl, rfl, rfl⟩
        · exact ⟨.kept rfl rfl rfl, SamePeer.refl h⟩

theorem setStaticPrivate_moved {privateKey publicKey : Key}
    (hr : h.setStaticPrivate privateKey publicKey = .ok h') : Moved h h' ∧ SamePeer h h' := by
  obtain ⟨params, hparams, hret⟩ := bind_eq_ok.mp hr
  unfold NoiseParams.setStaticPrivate at hparams
  split_ifs at hparams with hkey
  · cases hparams
    cases hret
    exact ⟨.kept rfl rfl rfl, rfl, rfl⟩
  · cases hparams

/-- **What one operation can do.** -/
theorem Step.moved (hstep : Step ε h h') : Moved h h' ∧ SamePeer h h' := by
  cases hstep with
  | formatInitiation dstLen msgType e => exact formatHandshakeInitiation_moved h dstLen msgType e
  | receiveInitialization hr => exact receiveHandshakeInitialization_moved hr
  | receiveResponse packet e => exact receiveHandshakeResponse_moved h packet e
  | receiveCookieReply packet => exact receiveCookieReply_moved h packet
  | setExpired => exact ⟨.cleared fun s hs => HandshakeState.noConfusion hs, rfl, rfl⟩
  | clearCookie => exact ⟨.kept rfl rfl rfl, rfl, rfl⟩
  | setStaticPrivate hr => exact setStaticPrivate_moved hr

theorem Run.samePeer (hrun : Run ε h h') : SamePeer h h' := by
  induction hrun with
  | refl => exact SamePeer.refl h
  | tail _ hstep ih => exact ih.trans hstep.moved.2

/-- The current initiation carries the index given out last, and an older
initiation `s` cannot be mistaken for it. -/
structure Holding (s : HandshakeInitSentState) (h : Handshake C) : Prop where
  current : ∀ s', h.state = .initSent s' → h.nextIndex = s'.localIndex
  distinct : h.previous = .initSent s → ∀ s', h.state = .initSent s' →
    s'.localIndex = s.localIndex → s' = s

theorem Holding.step (hold : Holding s h) (hmoved : Moved h h') : Holding s h' := by
  cases hmoved with
  | kept state previous index =>
    constructor
    · rw [state, index]
      exact hold.current
    · rw [state, previous]
      exact hold.distinct
  | sent new state previous hnew index =>
    constructor
    · intro s' hs'
      rw [state] at hs'
      cases hs'
      exact index
    · intro hprev s' hs' hidx
      rw [state] at hs'
      cases hs'
      -- the older initiation was the current one, so its index was the last given out
      rw [previous] at hprev
      rw [hnew, hold.current s hprev] at hidx
      exact absurd hidx (succIndex_ne _)
  | cleared state =>
    exact ⟨fun s' hs' => absurd hs' (state s'), fun _ s' hs' => absurd hs' (state s')⟩
  | answered state previous index =>
    constructor
    · rw [state, index]
      exact hold.current
    · intro hprev
      rw [previous] at hprev
      cases hprev

/-- What any number of operations keep. -/
theorem Run.holding (hrun : Run ε h h') (hold : Holding s h) : Holding s h' ∧ SamePeer h h' := by
  refine ⟨?_, hrun.samePeer⟩
  induction hrun with
  | refl => exact hold
  | tail _ hstep ih => exact ih.step hstep.moved.1

/-- A response with the index of an initiation still held finds that initiation. -/
theorem Holding.awaiting_eq {h : Handshake C} (hold : Holding s h)
    (hheld : h.state = .initSent s ∨ h.previous = .initSent s) :
    ∃ isPrevious, h.awaiting s.localIndex = some (s, isPrevious) := by
  unfold awaiting
  cases hsent : h.state.sentWith s.localIndex with
  | some s' =>
    obtain ⟨hstate, hidx⟩ := HandshakeState.sentWith_eq_some_iff.mp hsent
    have heq : s' = s := by
      rcases hheld with hheld | hheld
      · rw [hstate] at hheld
        exact HandshakeState.initSent.inj hheld
      · exact hold.distinct hheld s' hstate hidx
    exact ⟨false, by rw [heq]⟩
  | none =>
    have hprev : h.previous.sentWith s.localIndex = some s := by
      rcases hheld with hheld | hheld
      · rw [HandshakeState.sentWith_eq_some_iff.mpr ⟨hheld, rfl⟩] at hsent
        cases hsent
      · exact HandshakeState.sentWith_eq_some_iff.mpr ⟨hheld, rfl⟩
    exact ⟨true, by rw [hprev]⟩

/-! ## Agreement -/

/-- The static keys match crosswise and the preshared keys are equal. -/
structure Peers (I R : Handshake C) : Prop where
  forward : I.params.peerStaticPublic = C.publicKey R.params.staticPrivate
  backward : R.params.peerStaticPublic = C.publicKey I.params.staticPrivate
  psk : I.params.presharedKey = R.params.presharedKey

variable {I R : Handshake C}

theorem Peers.static_eq (h : Peers I R) : I.params.peerStaticPublic = R.params.staticPublic :=
  h.forward.trans R.params.public_eq.symm

theorem Peers.peer_eq (h : Peers I R) : R.params.peerStaticPublic = I.params.staticPublic :=
  h.backward.trans I.params.public_eq.symm

/-- Both ends precomputed one static secret. -/
theorem Peers.shared_eq (hdh : C.DhCommutes) (h : Peers I R) :
    R.params.staticShared = I.params.staticShared := by
  rw [R.params.shared_eq, I.params.shared_eq, h.backward, h.forward, hdh]

/-- The initiation as its receiver sees it. -/
def initiationPacket (I : Handshake C) (e : ε) : HandshakeInit where
  senderIdx := succIndex I.nextIndex
  unencryptedEphemeral := C.publicKey (initiationEphemeral e)
  encryptedStatic :=
    toArr 48 (I.initiation (initiationEphemeral e) (I.initiationStamp e)).1.encryptedStatic
  encryptedTimestamp :=
    toArr 28 (I.initiation (initiationEphemeral e) (I.initiationStamp e)).1.encryptedPayload

theorem length_encryptedStatic (I : Handshake C) (ephemeral : Key) (stamp : ByteArr 12) :
    (I.initiation ephemeral stamp).1.encryptedStatic.length = 48 := by
  rw [initiation, writeInitiation]
  exact (C.length_aeadSeal _ _ _ _).trans (by rw [List.Vector.toList_length])

theorem length_encryptedPayload (I : Handshake C) (ephemeral : Key) (stamp : ByteArr 12) :
    (I.initiation ephemeral stamp).1.encryptedPayload.length = 28 := by
  rw [initiation, writeInitiation]
  exact (C.length_aeadSeal _ _ _ _).trans (by rw [List.Vector.toList_length])

theorem length_response (R : Handshake C) (sym : Sym Key) (ephemeral peerEphemeral : Key) :
    (R.response sym ephemeral peerEphemeral).1.length = 16 :=
  (C.length_aeadSeal _ _ _ _).trans rfl

/-- The bytes of an initiation parse into its packet. -/
theorem parse_formatHandshakeInitiation (I : Handshake C)
    (htype : headers.init.contains msgType = true) (index : UInt32) (h : Handshake C) (e : ε) :
    parseIncomingPacketConfig (h.appendMac1AndMac2 index (I.initiationBody msgType e)).1 headers
      = .ok (.handshakeInit (I.initiationPacket e)) := by
  obtain ⟨macs, hbytes, hmacs⟩ := appendMac1AndMac2_eq h index (I.initiationBody msgType e)
  rw [hbytes, initiationBody]
  simp only [List.append_assoc]
  exact parse_initiation htype (length_encryptedStatic I _ _) (length_encryptedPayload I _ _) hmacs

/-- The responder reads the initiation and ends in the initiator's state. -/
theorem read_initiationPacket (hdh : C.DhCommutes) (hopen : C.OpenUndoesSeal) (hpeers : Peers I R)
    (e : ε) :
    ∃ sym, readStatic (suite C) startSym R.params.staticPublic
        (I.initiationPacket e).unencryptedEphemeral
        (C.diffieHellman R.params.staticPrivate (I.initiationPacket e).unencryptedEphemeral)
        (I.initiationPacket e).encryptedStatic
          = some ((R.params.peerStaticPublic : Bytes), sym) ∧
      readPayload (suite C) sym R.params.staticShared (I.initiationPacket e).encryptedTimestamp
        = some ((I.initiationStamp e : Bytes),
            (I.initiation (initiationEphemeral e) (I.initiationStamp e)).2) := by
  have hes : C.diffieHellman R.params.staticPrivate (C.publicKey (initiationEphemeral e))
      = C.diffieHellman (initiationEphemeral e) I.params.peerStaticPublic := by
    rw [hpeers.forward, hdh]
  have hagree := read_writeInitiation (suite_openUndoesSeal hopen) startSym
    (I.params.peerStaticPublic : Bytes) (C.publicKey (initiationEphemeral e) : Bytes)
    (C.diffieHellman (initiationEphemeral e) I.params.peerStaticPublic : Bytes)
    (I.params.staticShared : Bytes) (I.params.staticPublic : Bytes) (I.initiationStamp e : Bytes)
  simp only [initiationPacket, toList_toArr (length_encryptedStatic I _ _),
    toList_toArr (length_encryptedPayload I _ _), hes, hpeers.shared_eq hdh, hpeers.peer_eq,
    ← hpeers.static_eq]
  exact hagree

/-- The timestamp of an initiation made in the environment `e`. -/
def initiationTimestamp (h : Handshake C) (e : ε) : Tai64N := Tai64N.parse (h.initiationStamp e)

/-- The responder accepts the initiation and answers it. -/
theorem receiveHandshakeInitialization_accepts (hdh : C.DhCommutes) (hopen : C.OpenUndoesSeal)
    (hpeers : Peers I R) (eI eR : ε)
    (hafter : (I.initiationTimestamp eI).after R.lastHandshakeTimestamp = true)
    (hdst : handshakeRespSz ≤ dstLen) (respType : UInt32)
    (hsym : (I.initiation (initiationEphemeral eI) (I.initiationStamp eI)).2 = sym) :
    ∃ macs R', macs.length = 32 ∧
      R.receiveHandshakeInitialization (I.initiationPacket eI) dstLen respType eR =
        .ok (.ok (R.responseBody respType sym (C.publicKey (initiationEphemeral eI))
            (succIndex I.nextIndex) eR ++ macs,
          R.responseSession sym (C.publicKey (initiationEphemeral eI)) (succIndex I.nextIndex) eR),
          R', (Env.randomSecret eR).2) := by
  subst hsym
  obtain ⟨mid, hstatic, hpayload⟩ := read_initiationPacket hdh hopen hpeers eI
  have hstamp : (Tai64N.parse (toArr 12 (I.initiationStamp eI : Bytes))).after
      R.lastHandshakeTimestamp = true := by
    rw [toArr_toList]
    exact hafter
  rw [receiveHandshakeInitialization_eq R dstLen respType eR hstatic hpayload hstamp]
  exact formatHandshakeResponse_eq (R.afterInitialization _ _ _) hdst respType eR rfl

/-- The response as its receiver sees it. -/
def responsePacket (R : Handshake C) (sym : Sym Key) (peerEphemeral : Key) (peerIndex : UInt32)
    (e : ε) : HandshakeResponse where
  senderIdx := succIndex R.nextIndex
  receiverIdx := peerIndex
  unencryptedEphemeral := C.publicKey (Env.randomSecret e).1
  encryptedNothing := toArr 16 (R.response sym (Env.randomSecret e).1 peerEphemeral).1

/-- The bytes of a response parse into its packet. -/
theorem parse_responseBody (htype : headers.response.contains msgType = true) (sym : Sym Key)
    (peerEphemeral : Key) (peerIndex : UInt32) (e : ε) {macs : Bytes} (hmacs : macs.length = 32) :
    parseIncomingPacketConfig (R.responseBody msgType sym peerEphemeral peerIndex e ++ macs) headers
      = .ok (.handshakeResponse (R.responsePacket sym peerEphemeral peerIndex e)) := by
  rw [responseBody]
  simp only [List.append_assoc]
  exact parse_response htype (length_response R sym _ _) hmacs

/-- An initiator with ephemeral key `a` and static key `x` reads the response and
ends in the responder's state. -/
theorem read_responsePacket (hdh : C.DhCommutes) (hopen : C.OpenUndoesSeal) (sym : Sym Key)
    (a x : Key) (hkey : R.params.peerStaticPublic = C.publicKey x) (peerIndex : UInt32) (e : ε)
    {reply : HandshakeResponse}
    (hreply : R.responsePacket sym (C.publicKey a) peerIndex e = reply) :
    readResponse (suite C) sym reply.unencryptedEphemeral
        (C.diffieHellman a reply.unencryptedEphemeral)
        (C.diffieHellman x reply.unencryptedEphemeral) (R.params.presharedKey.getD zeroKey)
        reply.encryptedNothing
      = some (R.response sym (Env.randomSecret e).1 (C.publicKey a)).2 := by
  subst hreply
  have hee := hdh a (Env.randomSecret e).1
  have hse : C.diffieHellman x (C.publicKey (Env.randomSecret e).1)
      = C.diffieHellman (Env.randomSecret e).1 R.params.peerStaticPublic := by
    rw [hkey, hdh]
  simp only [responsePacket, toList_toArr (length_response R _ _ _), hee, hse]
  exact readResponse_writeResponse (suite_openUndoesSeal hopen) sym _ _ _ _

/-- **The two ends agree.**  An initiation of `I` is accepted by `R`; and whatever
`I` does before the answer arrives, as long as it still holds that initiation and
its static key is still the one `R` knows, it accepts the answer, and the two
sessions are the two ends of one connection. -/
theorem handshake_agreement (hdh : C.DhCommutes) (hopen : C.OpenUndoesSeal)
    (hpeers : Peers I R) {headers : HeaderConfig} {initType respType : UInt32}
    (hinitType : headers.init.contains initType = true)
    (hrespType : headers.response.contains respType = true)
    {dstI dstR : Nat} {eI eI' : ε} {message : Bytes} {I' : Handshake C}
    (hinit : I.formatHandshakeInitiation dstI initType eI = (.ok message, I', eI'))
    (hafter : (I.initiationTimestamp eI).after R.lastHandshakeTimestamp = true)
    (hdst : handshakeRespSz ≤ dstR) (eR : ε) :
    ∃ packet, parseIncomingPacketConfig message headers = .ok (.handshakeInit packet) ∧
    ∃ answer sessionR R' eR',
      R.receiveHandshakeInitialization packet dstR respType eR
        = .ok (.ok (answer, sessionR), R', eR') ∧
    ∃ reply, parseIncomingPacketConfig answer headers = .ok (.handshakeResponse reply) ∧
    ∀ later : Handshake C, Run ε I' later →
      later.state = I'.state ∨ later.previous = I'.state →
      R.params.peerStaticPublic = C.publicKey later.params.staticPrivate →
      ∀ e : ε, ∃ sessionI later' e',
        later.receiveHandshakeResponse reply e = (.ok sessionI, later', e') ∧
        sessionI.Mirrored sessionR := by
  have hroom : handshakeInitSz ≤ dstI := by
    by_contra hsmall
    rw [formatHandshakeInitiation, if_pos (Nat.not_le.mp hsmall)] at hinit
    cases hinit
  rw [formatHandshakeInitiation_eq I hroom] at hinit
  obtain ⟨hmessage, hrest⟩ := Prod.mk.inj hinit
  obtain ⟨rfl, -⟩ := Prod.mk.inj hrest
  obtain rfl := Except.ok.inj hmessage
  refine ⟨I.initiationPacket eI, parse_formatHandshakeInitiation I hinitType _ _ eI, ?_⟩
  obtain ⟨macs, R', hmacs, hreceive⟩ :=
    receiveHandshakeInitialization_accepts hdh hopen hpeers eI eR hafter hdst respType rfl
  refine ⟨_, _, R', _, hreceive, _, parse_responseBody hrespType _ _ _ eR hmacs, ?_⟩
  intro later hrun hheld hkey e
  have hstart : Holding (I.initiationState eI)
      ((I.afterInitiation eI).appendMac1AndMac2 (succIndex I.nextIndex)
        (I.initiationBody initType eI)).2 :=
    ⟨fun s' hs' => HandshakeState.initSent.inj hs' ▸ rfl,
      fun _ s' hs' _ => (HandshakeState.initSent.inj hs').symm⟩
  obtain ⟨hold, hsame⟩ := hrun.holding hstart
  obtain ⟨isPrevious, hawait⟩ := hold.awaiting_eq hheld
  have hread := read_responsePacket hdh hopen
    (I.initiation (initiationEphemeral eI) (I.initiationStamp eI)).2 (initiationEphemeral eI)
    later.params.staticPrivate hkey (succIndex I.nextIndex) eR rfl
  have hpsk : later.params.presharedKey = R.params.presharedKey := hsame.psk.trans hpeers.psk
  rw [← hpsk] at hread
  exact ⟨_, _, _, receiveHandshakeResponse_eq later e hawait hread, rfl, rfl, rfl, rfl⟩

/-- Two fresh ends under the standard message types: the first answer to the first
initiation sets up a connection. -/
theorem handshake_agreement_fresh :
    let I : Handshake Crypto.transparent := (Handshake.new zeroKey zeroKey zeroKey 0x100 none rfl
      ({} : StillMachine)).1
    let R : Handshake Crypto.transparent := (Handshake.new zeroKey zeroKey zeroKey 0x200 none rfl
      ({} : StillMachine)).1
    ∃ packet answer sessionR R' eR',
      R.receiveHandshakeInitialization packet 92 2 ({} : StillMachine)
        = .ok (.ok (answer, sessionR), R', eR') ∧
      ∃ reply sessionI I' eI',
        (I.formatHandshakeInitiation 148 1 ({} : StillMachine)).2.1.receiveHandshakeResponse reply
          ({} : StillMachine) = (.ok sessionI, I', eI') ∧ sessionI.Mirrored sessionR := by
  intro I R
  obtain ⟨packet, -, answer, sessionR, R', eR', hreceive, reply, -, hanswer⟩ :=
    handshake_agreement (I := I) (R := R) Crypto.transparent_dhCommutes
      Crypto.transparent_openUndoesSeal ⟨rfl, rfl, rfl⟩
      (by decide : HeaderConfig.wireguardCompatible.init.contains 1 = true)
      (by decide : HeaderConfig.wireguardCompatible.response.contains 2 = true)
      (formatHandshakeInitiation_eq I le_rfl 1 ({} : StillMachine)) (by decide)
      (le_refl handshakeRespSz) ({} : StillMachine)
  obtain ⟨sessionI, I', eI', hfinish, hmirror⟩ := hanswer _ .refl (.inl rfl) rfl {}
  exact ⟨packet, answer, sessionR, R', eR', hreceive, reply, sessionI, I', eI', hfinish, hmirror⟩

end Handshake
