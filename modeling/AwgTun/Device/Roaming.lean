import AwgTun.Device.Replay
import AwgTun.Noise.Cookies

/-!
# When an endpoint moves

The handler of the anonymous sockets points a peer at the address of every packet that its
tunnel does not refuse.  For an initiation, a response and a transport packet this means that
the sender holds a key.  A cookie reply is sealed under a key that is computed from a public
key, with the MAC of a message that was sent in the clear.

* `Tunn.Proves` — the packet shows that its sender holds a key of the peer.
* `EventLoop.endpoint_moves_proven_iff` — an endpoint moves on proof alone exactly if the
  datagram is no such cookie reply from a new address.
* `EventLoop.cookie_reply_redirects` — one that is.
-/

open Control Bytes

variable {C : Crypto} {ε : Type} [Env ε]

/-! ## What a good packet shows -/

namespace Tunn

variable {t t' : Tunn C}

/-- The packet shows that its sender holds a key of the peer: it is an initiation or a response
that the handshake accepts, or a transport packet that a session opens. -/
def Proves (ε : Type) [Env ε] (t : Tunn C) : Packet → Prop
  | .handshakeInit p => ∃ dstLen respType reply handshake, ∃ (e e' : ε),
      t.handshake.receiveHandshakeInitialization p dstLen respType e =
        .ok (.ok reply, handshake, e')
  | .handshakeResponse p => ∃ session, ∃ e : ε, (t.handshake.receiveHandshakeResponse p e).1 =
      .ok session
  | .packetCookieReply _ => False
  | .packetData p =>
    ∃ session plain session', t.sessions (slotOf p.receiverIdx.toNat) = some session ∧
      session.receivePacketData C p maxUdpSize = .ok (.ok plain, session')

/-- A packet that is not refused is a proof, or a cookie reply that belongs to the last
handshake message. -/
theorem proves_of_handleVerifiedPacket {packet : Packet} {e e' : ε} {r : TunnResult}
    (hgood : ∀ err, r ≠ .err err)
    (h : t.handleVerifiedPacket packet maxUdpSize e = .ok (r, t', e')) :
    t.Proves ε packet ∨
      ∃ cookie, packet = .packetCookieReply cookie ∧ t.handshake.AnsweredBy cookie := by
  obtain ⟨⟨result, t₁, e₁⟩, hhandle, h⟩ := bind_eq_ok.mp h
  cases result with
  | error err =>
    cases h
    exact absurd rfl (hgood err)
  | ok r₁ =>
    cases h
    cases packet with
    | handshakeInit p =>
      simp only [handlePacket, handleHandshakeInit] at hhandle
      split_ifs at hhandle
      · cases hhandle
      · obtain ⟨⟨result, handshake, e₂⟩, hreceive, hhandle⟩ := bind_eq_ok.mp hhandle
        cases result with
        | error err => cases hhandle
        | ok reply => exact .inl ⟨_, _, reply, handshake, _, e₂, hreceive⟩
    | handshakeResponse p =>
      simp only [handlePacket, handleHandshakeResponse] at hhandle
      split_ifs at hhandle
      · cases hhandle
      · split at hhandle
        · cases hhandle
        · rename_i session hsession
          exact .inl ⟨session, e, hsession⟩
    | packetCookieReply cookie =>
      simp only [handlePacket, handleCookieReply] at hhandle
      split at hhandle
      · cases hhandle
      · rename_i hreceive
        exact .inr ⟨cookie, rfl, Handshake.receiveCookieReply_ok_iff.mp hreceive⟩
    | packetData p =>
      simp only [handlePacket, handleData] at hhandle
      split at hhandle
      · cases hhandle
      · rename_i session hsession
        obtain ⟨⟨result, session'⟩, hreceive, hhandle⟩ := bind_eq_ok.mp hhandle
        cases result with
        | error err => cases hhandle
        | ok plain => exact .inl ⟨session, plain, session', hsession, hreceive⟩

/-- A cookie reply that belongs to the last handshake message is not refused. -/
theorem handleVerifiedPacket_of_answeredBy {cookie : PacketCookieReply} (dstLen : Nat) (e : ε)
    (h : t.handshake.AnsweredBy cookie) :
    ∃ t', t.handleVerifiedPacket (.packetCookieReply cookie) dstLen e = .ok (.done, t', e) := by
  have hreceive := Handshake.receiveCookieReply_ok_iff.mpr h
  refine ⟨(t.handleCookieReply cookie).2, ?_⟩
  simp only [handleVerifiedPacket, handlePacket, handleCookieReply, hreceive, ok_bind]
  rfl

end Tunn

/-! ## Endpoints -/

namespace EventLoop

variable [IpTable] {s s' : EventLoop C} {packet : Packet} {ref : PeerRef}

/-- The window of the tunnel of a peer. -/
def udpWindow (s : EventLoop C) (ref : PeerRef) : Option UInt32 :=
  s.device.arcs[ref]?.map fun p => p.tunnel.udpWindow

/-- The endpoint of a peer moves only because of a packet that proves the possession of a
key. -/
def MovesOnProof (s : EventLoop C) (datagram : Bytes) (addr : SocketAddr) (e : ε)
    (s' : EventLoop C) : Prop :=
  ∀ ref, s'.endpointAddr ref ≠ s.endpointAddr ref →
    ∃ packet p e₁, s.Dispatch datagram addr e packet ref p e₁ ∧ p.tunnel.Proves ε packet

/-- The peer that was found is the only one whose endpoint can move. -/
theorem endpointAddr_of_dispatch {datagram : Bytes} {addr : SocketAddr} {connects : Bool}
    {e e' e₁ : ε} {effects : List Effect} {p : Peer C}
    (h : s.udpHandler datagram addr connects e = .ok (effects, s', e'))
    (hdispatch : s.Dispatch datagram addr e packet ref p e₁) :
    (∀ ref', ref' ≠ ref → s'.endpointAddr ref' = s.endpointAddr ref') ∧
      ((∃ err tunnel e₂, p.tunnel.handleVerifiedPacket packet maxUdpSize e₁ =
          .ok (.err err, tunnel, e₂) ∧ s'.endpointAddr ref = s.endpointAddr ref) ∨
        ∃ r tunnel e₂, (∀ err, r ≠ .err err) ∧ s'.endpointAddr ref = some addr ∧
          (s.endpointAddr ref ≠ some addr → s'.udpWindow ref = some awg31DefaultUdpWindow) ∧
          p.tunnel.handleVerifiedPacket packet maxUdpSize e₁ = .ok (r, tunnel, e₂)) := by
  obtain ⟨good, p', conn, hhandle, harcs, -⟩ := udpHandler_of_dispatch h hdispatch
  have hlt : ref < s.device.arcs.length := (List.getElem?_eq_some_iff.mp hdispatch.peer).1
  have hmoved : s'.endpointAddr ref = p'.endpoint.addr := by
    rw [endpointAddr, harcs, List.getElem?_set_self hlt]
    rfl
  have hbefore : s.endpointAddr ref = p.endpoint.addr := by
    rw [endpointAddr, hdispatch.peer]
    rfl
  constructor
  · intro ref' hne
    rw [endpointAddr, harcs, List.getElem?_set_ne hne.symm, endpointAddr]
  · rcases Peer.handleAnonymous_cases hhandle with ⟨err, tunnel, -, -, rfl, hrefused⟩ |
      ⟨r, tunnel, e₂, tunnel₁, -, hgood, haccepted, -, rfl, -⟩
    · exact .inl ⟨err, tunnel, e', hrefused, hmoved.trans hbefore.symm⟩
    · refine .inr ⟨r, tunnel, e₂, hgood, hmoved.trans (p.movedTo_addr tunnel₁ addr), ?_, haccepted⟩
      intro haway
      rw [hbefore] at haway
      rw [udpWindow, harcs, List.getElem?_set_self hlt, Peer.movedTo, if_neg haway]
      rfl

/-- **When an endpoint moves.**  In any state and for any datagram on an anonymous socket, an
endpoint moves only on a packet that proves the possession of a key, exactly if the datagram is
no cookie reply for the last handshake message of a peer from an address that is not the peer's.
Whenever it moves, the window of the peer starts over. -/
theorem endpoint_moves_proven_iff {datagram : Bytes} {addr : SocketAddr} {connects : Bool}
    {e e' : ε} {effects : List Effect}
    (h : s.udpHandler datagram addr connects e = .ok (effects, s', e')) :
    (s.MovesOnProof datagram addr e s' ↔
      ∀ cookie ref p (e₁ : ε), s.Dispatch datagram addr e (.packetCookieReply cookie) ref p e₁ →
        p.tunnel.handshake.AnsweredBy cookie → s.endpointAddr ref = some addr) ∧
    ∀ ref, s'.endpointAddr ref ≠ s.endpointAddr ref →
      s'.udpWindow ref = some awg31DefaultUdpWindow := by
  -- an endpoint that has moved is that of the peer the datagram was for
  have hmoves (ref : PeerRef) (hne : s'.endpointAddr ref ≠ s.endpointAddr ref) :
      ∃ packet p e₁, s.Dispatch datagram addr e packet ref p e₁ ∧
        ∃ r tunnel e₂, (∀ err, r ≠ .err err) ∧ s'.endpointAddr ref = some addr ∧
          (s.endpointAddr ref ≠ some addr → s'.udpWindow ref = some awg31DefaultUdpWindow) ∧
          p.tunnel.handleVerifiedPacket packet maxUdpSize e₁ = .ok (r, tunnel, e₂) := by
    obtain ⟨limiter, limiter', -, -, ⟨rfl, -, -⟩ |
      ⟨packet, ref', p, e₁, good, p', hdispatch, -, -⟩⟩ := udpHandler_cases h
    · exact absurd rfl hne
    · obtain ⟨hothers, hself⟩ := endpointAddr_of_dispatch h hdispatch
      obtain rfl : ref = ref' := by
        by_contra hother
        exact hne (hothers ref hother)
      rcases hself with ⟨err, tunnel, e₂, -, hsame⟩ | hgood
      · exact absurd hsame hne
      · exact ⟨packet, p, e₁, hdispatch, hgood⟩
  refine ⟨⟨?_, ?_⟩, ?_⟩
  · intro hproof cookie ref p e₁ hdispatch hanswered
    by_contra haway
    obtain ⟨t', haccepted⟩ := Tunn.handleVerifiedPacket_of_answeredBy maxUdpSize e₁ hanswered
    rcases (endpointAddr_of_dispatch h hdispatch).2 with ⟨err, tunnel, e₂, hrefused, -⟩ |
      ⟨r, tunnel, e₂, -, hmoved, -, -⟩
    · rw [haccepted] at hrefused
      cases hrefused
    · have hne : s'.endpointAddr ref ≠ s.endpointAddr ref := by
        rw [hmoved]
        exact fun heq => haway heq.symm
      obtain ⟨packet, p', e₃, hdispatch', hproves⟩ := hproof ref hne
      obtain ⟨rfl, -, -, -⟩ := hdispatch.unique hdispatch'
      exact hproves
  · intro hcookie ref hne
    obtain ⟨packet, p, e₁, hdispatch, r, tunnel, e₂, hgood, hmoved, -, haccepted⟩ := hmoves ref hne
    refine ⟨packet, p, e₁, hdispatch, ?_⟩
    rcases Tunn.proves_of_handleVerifiedPacket hgood haccepted with
      hproves | ⟨cookie, rfl, hanswered⟩
    · exact hproves
    · have hhome := hcookie cookie ref p e₁ hdispatch hanswered
      exact absurd (hmoved.trans hhome.symm) hne
  · intro ref hne
    obtain ⟨packet, p, e₁, hdispatch, r, tunnel, e₂, -, hmoved, hwindow, -⟩ := hmoves ref hne
    exact hwindow fun hhome => hne (hmoved.trans hhome.symm)

end EventLoop

namespace EventLoop

/-- The initiation of a peer moves its endpoint, and proves that the peer holds its key. -/
theorem endpoint_moves_proven_iff_greeted :
    (pairedLoop false).endpointAddr 0 = none ∧ greetedLoop.endpointAddr 0 = some homeAddr ∧
      (pairedLoop false).MovesOnProof Tunn.plainInitiation homeAddr ({} : StillMachine)
        greetedLoop := by
  have hrun : ∃ effects e', (pairedLoop false).udpHandler Tunn.plainInitiation homeAddr true
      ({} : StillMachine) = .ok (effects, greetedLoop, e') :=
    udpHandler_eq_afterDatagram (by decide +kernel)
  obtain ⟨effects, e', hrun⟩ := hrun
  refine ⟨by decide +kernel, by decide +kernel, (endpoint_moves_proven_iff hrun).1.mpr ?_⟩
  intro cookie ref p e₁ hdispatch
  obtain ⟨p', e₂, -, -, -, hdispatch', -⟩ := acceptance_eq_some plain_acceptance
  obtain ⟨heq, -⟩ := hdispatch.unique hdispatch'
  cases heq

/-! ## A redirected peer -/

/-- A cookie reply made from a handshake message, for the one whose key it goes to: the index
is copied from the message, and so is the MAC. -/
def forgeCookieReply (C : Crypto) (peerStaticPublic : Key) (message : Bytes) : Bytes :=
  let mac1 := slice message (message.length - 32) (message.length - 16)
  let nonce : ByteArr 24 := toArr 24 []
  u32ToLe 3 ++ (slice message 4 8 ++ (nonce ++
    C.xaeadSeal (C.b2sHash labelCookie peerStaticPublic) nonce mac1 (List.replicate 16 7)))

/-- The response that the device sends to the initiation of its peer. -/
def plainResponse : Bytes :=
  match (pairedLoop false).udpHandler Tunn.plainInitiation homeAddr true ({} : StillMachine) with
  | .ok ([.send _ datagram _], _, _) => datagram
  | _ => []

/-- The cookie reply that someone who sees the response can make of it. -/
def forgedReply : Bytes := forgeCookieReply .transparent zeroKey plainResponse

/-- The limiter lets the cookie reply through. -/
theorem forgedReply_dispatch {p : Peer Crypto.transparent} {e₁ : StillMachine}
    (h : greetedLoop.Dispatch forgedReply otherAddr {} packet ref p e₁) :
    ∃ cookie, packet = .packetCookieReply cookie := by
  have htest : greetedLoop.device.rateLimiter.all (fun limiter =>
      Outcome.test (greetedLoop.device.verifyAnonymous limiter forgedReply otherAddr
        ({} : StillMachine)) fun x => x.1.toOption.bind Packet.framedKind == some .cookie) =
          true := by
    decide +kernel
  obtain ⟨limiter, d, hlimiter, hverify⟩ := h.verified
  rw [hlimiter, Option.all_some] at htest
  obtain ⟨x, hx, hpacket⟩ := Outcome.test_eq_true_iff.mp htest
  rw [hverify] at hx
  cases hx
  cases packet with
  | packetCookieReply cookie => exact ⟨cookie, rfl⟩
  | handshakeInit | handshakeResponse | packetData => cases hpacket

/-- **A cookie reply redirects a peer.**  A device answers the initiation of its peer.  From the
response, which anyone on the path can read, and from the public key of the device's peer, a
cookie reply is made; sent from another address, it moves the endpoint of the peer there. -/
theorem cookie_reply_redirects :
    (∃ e', (pairedLoop false).udpHandler Tunn.plainInitiation homeAddr true ({} : StillMachine) =
      .ok ([.send 0 plainResponse (.addr homeAddr)], greetedLoop, e')) ∧
    greetedLoop.endpointAddr 0 = some homeAddr ∧
    ∃ effects s' e', greetedLoop.udpHandler forgedReply otherAddr true ({} : StillMachine) =
      .ok (effects, s', e') ∧ s'.endpointAddr 0 = some otherAddr ∧
      ¬ greetedLoop.MovesOnProof forgedReply otherAddr ({} : StillMachine) s' := by
  have hhome : greetedLoop.endpointAddr 0 = some homeAddr := by decide +kernel
  have haway :
    (greetedLoop.afterDatagram forgedReply otherAddr ({} : StillMachine)).endpointAddr 0 =
      some otherAddr := by decide +kernel
  refine ⟨?_, hhome, ?_⟩
  · have hsent : Outcome.test ((pairedLoop false).udpHandler Tunn.plainInitiation homeAddr true
        ({} : StillMachine)) (fun x => decide (x.1 = [.send 0 plainResponse (.addr homeAddr)])) =
          true := by decide +kernel
    obtain ⟨⟨effects, s', e'⟩, hrun, heffects⟩ := Outcome.test_eq_true_iff.mp hsent
    obtain rfl : effects = _ := of_decide_eq_true heffects
    refine ⟨e', ?_⟩
    rw [greetedLoop, afterDatagram, hrun]
  · have hrun : ∃ effects e', greetedLoop.udpHandler forgedReply otherAddr true
        ({} : StillMachine) = .ok (effects,
          greetedLoop.afterDatagram forgedReply otherAddr ({} : StillMachine), e') :=
      udpHandler_eq_afterDatagram (by decide +kernel)
    obtain ⟨effects, e', hrun⟩ := hrun
    refine ⟨effects, _, e', hrun, haway, ?_⟩
    intro hproof
    obtain ⟨packet, p, e₁, hdispatch, hproves⟩ := hproof 0 (by rw [haway, hhome]; decide)
    obtain ⟨cookie, rfl⟩ := forgedReply_dispatch hdispatch
    exact hproves

end EventLoop
