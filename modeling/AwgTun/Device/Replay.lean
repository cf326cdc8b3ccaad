import AwgTun.Device.Changes
import AwgTun.Noise.Timestamp
import AwgTun.Noise.Unframed

/-!
# Replayed initiations

What protects a peer from a replayed initiation is the timestamp its tunnel keeps.  Every
handler and every setting but one works on the tunnel there is, and the timestamp only moves
forward.  `set_amnezia_config` makes the tunnel anew and starts the timestamp from zero.

* `Device.KeepsTunnels` — every tunnel is still there, some steps further.
* `EventLoop.Undisturbed` — the step does not change the AmneziaWG configuration.
* `EventLoop.Accepts` — a peer accepts an initiation.
* `EventLoop.initiations_strictly_later` — along undisturbed steps a peer accepts initiations
  in the order of their timestamps, and none twice.
* `EventLoop.initiation_accepted_twice` — with a change of the junk settings in between, one and
  the same initiation is accepted twice and moves the endpoint twice.
-/

open Control Bytes

variable {C : Crypto} {ε : Type} [Env ε]

/-! ## Keys of a tunnel -/

namespace Handshake

/-- The timestamp one reads depends on the two static keys alone. -/
theorem readTimestamp_congr {params params' : NoiseParams C}
    (hprivate : params'.staticPrivate = params.staticPrivate)
    (hpeer : params'.peerStaticPublic = params.peerStaticPublic) (packet : HandshakeInit) :
    readTimestamp params' packet = readTimestamp params packet := by
  have hpublic : params'.staticPublic = params.staticPublic := by
    rw [params'.public_eq, params.public_eq, hprivate]
  have hshared : params'.staticShared = params.staticShared := by
    rw [params'.shared_eq, params.shared_eq, hprivate, hpeer]
  simp only [readTimestamp, hprivate, hpublic, hshared]

end Handshake

/-! ## Tunnels that stay -/

namespace Device

variable [IpTable] {d d' : Device C}

/-- The tunnel of every peer is still there, some steps further. -/
def KeepsTunnels (ε : Type) [Env ε] (d d' : Device C) : Prop :=
  ∀ (ref : PeerRef) (p : Peer C), d.arcs[ref]? = some p →
    ∃ p' : Peer C, d'.arcs[ref]? = some p' ∧ Tunn.Evolves ε p.tunnel p'.tunnel

theorem keepsTunnels_of_arcs_eq (h : d'.arcs = d.arcs) : KeepsTunnels ε d d' := by
  intro ref p hp
  exact ⟨p, by rw [h, hp], .refl⟩

theorem KeepsTunnels.trans {d'' : Device C} (h : KeepsTunnels ε d d') (h' : KeepsTunnels ε d' d'') :
    KeepsTunnels ε d d'' := by
  intro ref p hp
  obtain ⟨p', hp', hevolves⟩ := h ref p hp
  obtain ⟨p'', hp'', hevolves'⟩ := h' ref p' hp'
  exact ⟨p'', hp'', hevolves.trans hevolves'⟩

theorem Carried.keepsTunnels (h : Carried ε d d') : KeepsTunnels ε d d' := by
  intro ref p hp
  obtain ⟨p', hp', hkept⟩ := forall₂_getElem?_left h.arcs hp
  exact ⟨p', hp', hkept.tunnel⟩

theorem keepsTunnels_removePeer (d : Device C) (pubKey : Key) :
    KeepsTunnels ε d (d.removePeer pubKey) := by
  intro ref p hp
  obtain ⟨p', hp', hkept⟩ := forall₂_getElem?_left (arcs_removePeer (ε := ε) d pubKey) hp
  exact ⟨p', hp', hkept.tunnel⟩

theorem Updated.keepsTunnels {u : PeerUpdate} (h : Updated d u d') : KeepsTunnels ε d d' := by
  cases h with
  | removed => exact keepsTunnels_removePeer d u.publicKey
  | refused => exact keepsTunnels_of_arcs_eq rfl
  | added =>
    intro ref p hp
    have hlt : ref < d.arcs.length := (List.getElem?_eq_some_iff.mp hp).1
    exact ⟨p, by rw [List.getElem?_append_left hlt, hp], .refl⟩

end Device

namespace EventLoop

variable [IpTable] {s s' : EventLoop C} {packet : HandshakeInit} {addr : SocketAddr}
  {datagram : Bytes} {stamp : Tai64N} {ref : PeerRef} {e : ε}

/-- The step leaves the AmneziaWG configuration as it is. -/
def Undisturbed (s : EventLoop C) : Input → Prop
  | .setAmneziaConfig amnezia => s.device.amnezia = amnezia
  | _ => True

/-- **One step** that leaves the configuration alone keeps the tunnels. -/
theorem Step.keepsTunnels {input : Input} {effects : List Effect}
    (hstep : Step ε s input effects s')
    (hquiet : s.Undisturbed input) : Device.KeepsTunnels ε s.device s'.device := by
  have hchange := hstep.change
  generalize s'.device = d' at hchange
  cases hchange with
  | carried hcarried => exact hcarried.keepsTunnels
  | removed pubKey => exact Device.keepsTunnels_removePeer s.device pubKey
  | cleared => exact Device.keepsTunnels_of_arcs_eq rfl
  | updated u e => exact (Device.updatePeer_updated s.device u e).keepsTunnels
  | configured amnezia e =>
    have hsame : s.device.amnezia = amnezia := hquiet
    rw [Device.setAmneziaConfig, if_pos hsame]
    exact Device.keepsTunnels_of_arcs_eq rfl

/-- Any number of such steps. -/
def QuietRun (ε : Type) [Env ε] : EventLoop C → EventLoop C → Prop :=
  Relation.ReflTransGen fun s s' =>
    ∃ input effects, Step ε s input effects s' ∧ s.Undisturbed input

/-- **A run** of such steps does. -/
theorem QuietRun.keepsTunnels (hrun : QuietRun ε s s') :
    Device.KeepsTunnels ε s.device s'.device := by
  induction hrun with
  | refl => exact Device.keepsTunnels_of_arcs_eq rfl
  | tail _ hstep ih =>
    obtain ⟨input, effects, hstep, hquiet⟩ := hstep
    exact ih.trans (hstep.keepsTunnels hquiet)

/-! ## Accepted initiations -/

/-- The peer behind a pointer accepts an initiation with a timestamp: a handler hands the
packet to the tunnel of the peer, which does not refuse it. -/
inductive Accepts (ε : Type) [Env ε] :
    EventLoop C → EventLoop C → PeerRef → HandshakeInit → Tai64N → Prop
  | anonymous {s s' : EventLoop C} {datagram : Bytes} {addr : SocketAddr} {connects : Bool}
      {effects : List Effect} {e e' e₁ e₂ : ε} {packet : HandshakeInit} {ref : PeerRef} {p : Peer C}
      {r : TunnResult} {tunnel : Tunn C} {stamp : Tai64N}
      (h : s.udpHandler datagram addr connects e = .ok (effects, s', e'))
      (hdispatch : s.Dispatch datagram addr e (.handshakeInit packet) ref p e₁)
      (haccepted : p.tunnel.handleVerifiedPacket (.handshakeInit packet) maxUdpSize e₁ =
        .ok (r, tunnel, e₂)) (hgood : ∀ err, r ≠ .err err)
      (hstamp : Handshake.readTimestamp p.tunnel.handshake.params packet = some stamp) :
      Accepts ε s s' ref packet stamp
  | connected {s s' : EventLoop C} {conn : Conn} {handler : ConnHandler} {datagram : Bytes}
      {effects : List Effect} {e e' e₁ e₂ : ε} {packet : HandshakeInit} {p : Peer C}
      {r : TunnResult} {tunnel tunnel₁ : Tunn C} {stamp : Tai64N} (hlive : s.Live conn handler)
      (h : s.connHandler conn handler datagram e = .ok (effects, s', e'))
      (hp : s.device.arcs[handler.peer]? = some p) (hdatagram : datagram ≠ [])
      (hreceived : p.tunnel.receive (some handler.peerAddr) datagram maxUdpSize e =
        .ok (.packet (.handshakeInit packet), tunnel₁, e₁))
      (haccepted : tunnel₁.handleVerifiedPacket (.handshakeInit packet) maxUdpSize e₁ =
        .ok (r, tunnel, e₂)) (hgood : ∀ err, r ≠ .err err)
      (hstamp : Handshake.readTimestamp p.tunnel.handshake.params packet = some stamp) :
      Accepts ε s s' handler.peer packet stamp

/-- The static key that the tunnel of a peer uses. -/
def staticKey (s : EventLoop C) (ref : PeerRef) : Option Key :=
  s.device.arcs[ref]?.map fun p => p.tunnel.handshake.params.staticPrivate

/-- Where a peer is. -/
def endpointAddr (s : EventLoop C) (ref : PeerRef) : Option SocketAddr :=
  s.device.arcs[ref]?.bind fun p => p.endpoint.addr

/-- An accepted initiation is later than the last one of the tunnel, which from then on does
not go back behind it. -/
theorem Accepts.timestamps (h : Accepts ε s s' ref packet stamp) :
    ∃ p p', s.device.arcs[ref]? = some p ∧ s'.device.arcs[ref]? = some p' ∧
      Handshake.readTimestamp p.tunnel.handshake.params packet = some stamp ∧
      stamp.after p.tunnel.lastTimestamp = true ∧
      p'.tunnel.lastTimestamp.NotBefore stamp ∧
      Tunn.Evolves ε p.tunnel p'.tunnel := by
  cases h with
  | anonymous h hdispatch haccepted hgood hstamp =>
    rename_i p r tunnel
    obtain ⟨hread, hafter⟩ := Tunn.handleVerifiedPacket_timestamp hgood haccepted
    rw [hstamp] at hread
    cases hread
    obtain ⟨good, p', conn, hhandle, harcs, -⟩ := udpHandler_of_dispatch h hdispatch
    have hlt : ref < s.device.arcs.length := (List.getElem?_eq_some_iff.mp hdispatch.peer).1
    refine ⟨p, p'.withConn conn, hdispatch.peer, by rw [harcs, List.getElem?_set_self hlt], hstamp,
      hafter, ?_,
      (Peer.served_handleAnonymous hhandle).1.tunnel⟩
    rcases Peer.handleAnonymous_cases hhandle with ⟨err, tunnel', -, -, -, hrefused⟩ |
      ⟨r', tunnel', e₃, tunnel₁, -, -, haccepted', hevolves, rfl, -⟩
    · rw [haccepted] at hrefused
      cases hrefused
      exact absurd rfl (hgood err)
    · rw [haccepted] at haccepted'
      cases haccepted'
      have hmono := hevolves.handshake.timestamp_mono
      unfold Peer.movedTo
      split_ifs <;> exact hmono
  | connected hlive h hp hdatagram hreceived haccepted hgood hstamp =>
    rename_i conn handler datagram effects e e' e₁ e₂ p r tunnel tunnel₁
    have hsame : tunnel₁.handshake = p.tunnel.handshake := Tunn.receive_handshake hreceived
    obtain ⟨hread, hafter⟩ := Tunn.handleVerifiedPacket_timestamp hgood haccepted
    rw [hsame, hstamp] at hread
    cases hread
    have hlast : tunnel₁.lastTimestamp = p.tunnel.lastTimestamp := by
      rw [Tunn.lastTimestamp, hsame, Tunn.lastTimestamp]
    rw [hlast] at hafter
    obtain ⟨⟨effects₁, d, e₃⟩, hrun, h⟩ := bind_eq_ok.mp h
    cases h
    simp only [Device.atPeer, hp] at hrun
    obtain ⟨⟨effects₂, p', e₄⟩, hconnected, hrun⟩ := bind_eq_ok.mp hrun
    cases hrun
    have hlt : handler.peer < s.device.arcs.length := (List.getElem?_eq_some_iff.mp hp).1
    refine ⟨p, p', hp, List.getElem?_set_self hlt, hstamp, hafter, ?_,
      (Peer.served_handleConnected hconnected).1.tunnel⟩
    obtain ⟨⟨r', tunnel', e₅⟩, hdecapsulate, hrespond⟩ := bind_eq_ok.mp hconnected
    have hdecapsulate' : p.tunnel.decapsulate (some handler.peerAddr) datagram maxUdpSize e =
        .ok (r, tunnel, e₂) := by
      rw [Tunn.decapsulate, if_neg (by simpa using hdatagram), hreceived, ok_bind]
      exact haccepted
    rw [hdecapsulate'] at hdecapsulate
    cases hdecapsulate
    obtain ⟨⟨tunnel₂, rfl, hevolves⟩, -⟩ := Peer.respond_eq hrespond
    exact hevolves.handshake.timestamp_mono

/-- **Initiations are accepted in the order of their timestamps.**  In any run that leaves the
AmneziaWG configuration alone, what a peer accepts later has a later timestamp; under the same
static key it is another message; and the message accepted before, sent again to an anonymous
socket, does not move the endpoint of the peer. -/
theorem initiations_strictly_later {s₁ s₂ s₃ : EventLoop C} {ref : PeerRef} {packet : HandshakeInit}
    {stamp : Tai64N} (hfirst : Accepts ε s₁ s₂ ref packet stamp) (hrun : QuietRun ε s₂ s₃) :
    (∀ s₄ packet' stamp', Accepts ε s₃ s₄ ref packet' stamp' →
      stamp'.after stamp = true ∧ (s₃.staticKey ref = s₁.staticKey ref → packet' ≠ packet)) ∧
    ∀ s₄ datagram addr connects p effects (e e₁ e' : ε),
      s₃.udpHandler datagram addr connects e = .ok (effects, s₄, e') →
      s₃.Dispatch datagram addr e (.handshakeInit packet) ref p e₁ →
      s₃.staticKey ref = s₁.staticKey ref → s₄.endpointAddr ref = s₃.endpointAddr ref := by
  obtain ⟨p₁, p₂, hp₁, hp₂, hstamp, -, hlast, hevolves⟩ := hfirst.timestamps
  obtain ⟨p₃, hp₃, hevolves'⟩ := hrun.keepsTunnels ref p₂ hp₂
  have hlast₃ : p₃.tunnel.lastTimestamp.NotBefore stamp :=
    hevolves'.handshake.timestamp_mono.trans hlast
  -- the tunnel reads the same timestamp as before
  have hread (hkey : s₃.staticKey ref = s₁.staticKey ref) :
      Handshake.readTimestamp p₃.tunnel.handshake.params packet = some stamp := by
    have hpeer := (hevolves.handshake.samePeer.trans hevolves'.handshake.samePeer).peer
    simp only [staticKey, hp₁, hp₃, Option.map_some, Option.some.injEq] at hkey
    rw [Handshake.readTimestamp_congr hkey hpeer, hstamp]
  have haccepts (s₄ : EventLoop C) (packet' : HandshakeInit) (stamp' : Tai64N)
      (hsecond : Accepts ε s₃ s₄ ref packet' stamp') :
      stamp'.after stamp = true ∧ (s₃.staticKey ref = s₁.staticKey ref → packet' ≠ packet) := by
    obtain ⟨p₃', p₄, hp₃', -, hstamp', hafter, -, -⟩ := hsecond.timestamps
    rw [hp₃] at hp₃'
    cases hp₃'
    have hlater := Tai64N.NotBefore.after_trans hafter hlast₃
    refine ⟨hlater, ?_⟩
    rintro hkey rfl
    rw [hread hkey] at hstamp'
    cases hstamp'
    rw [Tai64N.after_irrefl] at hlater
    cases hlater
  refine ⟨haccepts, ?_⟩
  intro s₄ datagram addr connects p effects e e₁ e' h hdispatch hkey
  obtain ⟨good, p', conn, hhandle, harcs, hconn⟩ := udpHandler_of_dispatch h hdispatch
  have hlt : ref < s₃.device.arcs.length := (List.getElem?_eq_some_iff.mp hdispatch.peer).1
  have hread₃ := hread hkey
  have hpeer := hdispatch.peer
  rw [hp₃] at hpeer
  cases hpeer
  rcases Peer.handleAnonymous_cases hhandle with ⟨err, tunnel, rfl, -, rfl, -⟩ |
    ⟨r, tunnel, e₂, tunnel₁, -, hgood, haccepted, -, -, -⟩
  · simp only [endpointAddr, harcs, List.getElem?_set_self hlt, hp₃, Option.bind_some,
      Peer.withConn]
  · have hsecond : Accepts ε s₃ s₄ ref packet stamp :=
      .anonymous h hdispatch haccepted hgood hread₃
    exact absurd rfl ((haccepts s₄ packet stamp hsecond).2 hkey)

/-! ## One initiation, twice -/

/-- What the anonymous handler would accept: the initiation in a datagram, the peer it is for
and its timestamp. -/
def acceptance (s : EventLoop C) (datagram : Bytes) (addr : SocketAddr) (e : ε) :
    Outcome (Option (PeerRef × HandshakeInit × Tai64N)) :=
  match s.device.keyPair, s.device.rateLimiter with
  | some (privateKey, publicKey), some limiter => do
      let (verified, _, e) ← s.device.verifyAnonymous limiter datagram addr e
      match verified with
      | .ok (.handshakeInit packet) =>
          match s.device.peerFor privateKey publicKey (.handshakeInit packet) with
          | some ref =>
              match s.device.arcs[ref]? with
              | some p => do
                  let (r, _, _) ← p.tunnel.handleVerifiedPacket (.handshakeInit packet) maxUdpSize e
                  match r with
                  | .err _ => return none
                  | _ => .ok ((Handshake.readTimestamp p.tunnel.handshake.params packet).map
                      (ref, packet, ·))
              | none => return none
          | none => return none
      | _ => return none
  | _, _ => .ok none

theorem acceptance_eq_some (h : s.acceptance datagram addr e = .ok (some (ref, packet, stamp))) :
    ∃ p e₁ r tunnel e₂, s.Dispatch datagram addr e (.handshakeInit packet) ref p e₁ ∧
      p.tunnel.handleVerifiedPacket (.handshakeInit packet) maxUdpSize e₁ = .ok (r, tunnel, e₂) ∧
      (∀ err, r ≠ .err err) ∧
      Handshake.readTimestamp p.tunnel.handshake.params packet = some stamp := by
  unfold acceptance at h
  split at h
  · rename_i privateKey publicKey limiter hkey hlimiter
    obtain ⟨⟨verified, d, e₁⟩, hverify, h⟩ := bind_eq_ok.mp h
    simp only at h
    split at h
    · split at h
      · rename_i ref₁ hfor
        split at h
        · rename_i p hp
          obtain ⟨⟨r, tunnel, e₂⟩, hhandle, h⟩ := bind_eq_ok.mp h
          simp only at h
          split at h
          · cases h
          · rename_i hgood
            obtain ⟨stamp₁, hstamp, heq⟩ := Option.map_eq_some_iff.mp (Except.ok.inj h)
            cases heq
            exact ⟨p, e₁, r, tunnel, e₂,
              ⟨⟨limiter, d, hlimiter, hverify⟩, ⟨privateKey, publicKey, hkey, hfor⟩, hp⟩,
              hhandle, hgood, hstamp⟩
        · cases h
      · cases h
    · cases h
  · cases h

/-- The loop after a datagram on an anonymous socket. -/
def afterDatagram (s : EventLoop C) (datagram : Bytes) (addr : SocketAddr) (e : ε) : EventLoop C :=
  match s.udpHandler datagram addr true e with
  | .ok (_, s, _) => s
  | .error _ => s

theorem udpHandler_eq_afterDatagram
    (h : Outcome.test (s.udpHandler datagram addr true e) (fun _ => true) = true) :
    ∃ effects e', s.udpHandler datagram addr true e =
      .ok (effects, s.afterDatagram datagram addr e, e') := by
  obtain ⟨⟨effects, s', e'⟩, hrun, -⟩ := Outcome.test_eq_true_iff.mp h
  refine ⟨effects, e', ?_⟩
  rw [afterDatagram, hrun]

theorem accepts_afterDatagram {s : EventLoop C}
    (hrun : Outcome.test (s.udpHandler datagram addr true e) (fun _ => true) = true)
    (haccept : s.acceptance datagram addr e = .ok (some (ref, packet, stamp))) :
    Accepts ε s (s.afterDatagram datagram addr e) ref packet stamp := by
  obtain ⟨effects, e', hrun⟩ := udpHandler_eq_afterDatagram hrun
  obtain ⟨p, e₁, r, tunnel, e₂, hdispatch, hhandle, hgood, hstamp⟩ := acceptance_eq_some haccept
  exact .anonymous hrun hdispatch hhandle hgood hstamp

end EventLoop

namespace EventLoop

/-- A device before it has a key. -/
def newLoop (useConnectedSocket : Bool) : EventLoop Crypto.transparent :=
  .new 1420 ⟨1, 1, 1⟩ useConnectedSocket

/-- It gets a key, -/
def keyedLoop (useConnectedSocket : Bool) : EventLoop Crypto.transparent :=
  let s := newLoop useConnectedSocket
  { s with device := (s.device.setKey zeroKey ({} : StillMachine)).1 }

/-- and a peer. -/
def pairedLoop (useConnectedSocket : Bool) : EventLoop Crypto.transparent :=
  let s := keyedLoop useConnectedSocket
  { s with device :=
      (Device.step (s.device, ({} : StillMachine)) (.updatePeer { publicKey := zeroKey })).1 }

/-- The packet in `Tunn.plainInitiation`. -/
def plainPacket : HandshakeInit :=
  match parseIncomingPacketConfig Tunn.plainInitiation Amnezia3Config.default.headers with
  | .ok (.handshakeInit p) => p
  | _ => ⟨0, zeroKey, toArr 48 [], toArr 28 []⟩

/-- Its timestamp. -/
def plainStamp : Tai64N := ⟨4611686018427387914, 0⟩

/-- Where the peer is. -/
def homeAddr : SocketAddr := .v4 0x0A000001 1000

/-- Where someone else is. -/
def otherAddr : SocketAddr := .v4 0x0A000002 2000

/-- The device when the peer has sent its initiation. -/
def greetedLoop : EventLoop Crypto.transparent :=
  (pairedLoop false).afterDatagram Tunn.plainInitiation homeAddr ({} : StillMachine)

theorem plain_acceptance : (pairedLoop false).acceptance Tunn.plainInitiation homeAddr
    ({} : StillMachine) = .ok (some (0, plainPacket, plainStamp)) :=
  Outcome.eq_ok_of_test (by decide +kernel)

theorem greetedLoop_accepts :
    Accepts StillMachine (pairedLoop false) greetedLoop 0 plainPacket plainStamp :=
  accepts_afterDatagram (by decide +kernel) plain_acceptance

/-- Reopening the sockets is no way to have the initiation accepted again. -/
theorem initiations_strictly_later_reopened :
    ∃ s₃, QuietRun StillMachine greetedLoop s₃ ∧
      ∀ s₄ stamp, ¬ Accepts StillMachine s₃ s₄ 0 plainPacket stamp := by
  let s₃ : EventLoop Crypto.transparent :=
    { greetedLoop with device := greetedLoop.device.openListenSocket }
  have hrun : QuietRun StillMachine greetedLoop s₃ :=
    .single ⟨.openListenSocket, [], .openListenSocket, trivial⟩
  have hkey : s₃.staticKey 0 = (pairedLoop false).staticKey 0 := by decide +kernel
  refine ⟨s₃, hrun, ?_⟩
  intro s₄ stamp hagain
  obtain ⟨-, hother⟩ := (initiations_strictly_later greetedLoop_accepts hrun).1 s₄ _ _ hagain
  exact hother hkey rfl

/-- The junk settings of another configuration. -/
def junkedConfig : Amnezia3Config := { junk := ⟨1, 50, 60⟩ }

/-- `greetedLoop` after a change of the junk settings. -/
def junkedLoop : EventLoop Crypto.transparent :=
  { greetedLoop with
    device := (greetedLoop.device.setAmneziaConfig junkedConfig ({} : StillMachine)).2.1 }

/-- **An initiation is accepted twice.**  A device gets a key and a peer, and the peer sends an
initiation; then the junk settings change.  The same initiation, sent again from another
address, is accepted once more and moves the endpoint of the peer there. -/
theorem initiation_accepted_twice :
    Step StillMachine (newLoop false) (.setKey zeroKey) [] (keyedLoop false) ∧
    Step StillMachine (keyedLoop false) (.control (.updatePeer { publicKey := zeroKey })) []
      (pairedLoop false) ∧
    Accepts StillMachine (pairedLoop false) greetedLoop 0 plainPacket plainStamp ∧
    greetedLoop.endpointAddr 0 = some homeAddr ∧
    Step StillMachine greetedLoop (.setAmneziaConfig junkedConfig) [] junkedLoop ∧
    (greetedLoop.device.setAmneziaConfig junkedConfig ({} : StillMachine)).1 = .ok () ∧
    ∃ s, Accepts StillMachine junkedLoop s 0 plainPacket plainStamp ∧
      s.endpointAddr 0 = some otherAddr := by
  have hchanged : Outcome.test
      (greetedLoop.device.setAmneziaConfig junkedConfig ({} : StillMachine)).1 (fun _ => true) =
        true := by decide +kernel
  obtain ⟨⟨⟩, hchanged, -⟩ := Outcome.test_eq_true_iff.mp hchanged
  refine ⟨.setKey, .control, greetedLoop_accepts, by decide +kernel, .setAmneziaConfig, hchanged,
    junkedLoop.afterDatagram Tunn.plainInitiation otherAddr ({} : StillMachine),
    accepts_afterDatagram (by decide +kernel) (Outcome.eq_ok_of_test (by decide +kernel)),
    by decide +kernel⟩

end EventLoop
