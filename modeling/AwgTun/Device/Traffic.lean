import AwgTun.Device.EventLoop

/-!
# What a handler does to a device

Every handler that carries traffic works on one peer at a time, through the operations of
its tunnel.  `Peer.Served` is what can become of a peer that way: its tunnel has taken steps,
its connected socket is the same or gone, and nothing else has changed but the address.
`Device.Served` is what can become of a device: its peers are served and the tables through
which they are found stay the same.

* `Tunn.Evolves` — any number of steps of a tunnel.
* `Device.Served` — one lemma for each handler and for each setting that reaches the tunnels.
* `EventLoop.udpHandler_cases` — the anonymous handler, which can also connect a socket.
-/

open Control Bytes

variable {C : Crypto} {ε : Type} [Env ε]

/-! ## Lists, place by place -/

section Places

variable {α : Type} {R : α → α → Prop} {as bs : List α} {i : Nat}

theorem forall₂_set (hrefl : ∀ a, R a a) {as : List α} {a a' : α} (h : as[i]? = some a)
    (hR : R a a') : List.Forall₂ R as (as.set i a') := by
  induction as generalizing i with
  | nil => simp at h
  | cons b as ih =>
    cases i with
    | zero =>
      obtain rfl : b = a := by simpa using h
      exact .cons hR (List.forall₂_same.mpr fun x _ => hrefl x)
    | succ i => exact .cons (hrefl b) (ih (by simpa using h))

theorem forall₂_modify (hrefl : ∀ a, R a a) {f : α → α} (hf : ∀ a, R a (f a)) (as : List α)
    (i : Nat) : List.Forall₂ R as (as.modify i f) := by
  induction as generalizing i with
  | nil => simp
  | cons b as ih =>
    cases i with
    | zero => exact .cons (hf b) (List.forall₂_same.mpr fun x _ => hrefl x)
    | succ i => exact .cons (hrefl b) (ih i)

theorem forall₂_trans (htrans : ∀ a b c, R a b → R b c → R a c) {as bs cs : List α}
    (h : List.Forall₂ R as bs) (h' : List.Forall₂ R bs cs) : List.Forall₂ R as cs := by
  induction h generalizing cs with
  | nil => exact h'
  | cons hab _ ih =>
    cases h' with
    | cons hbc hrest => exact .cons (htrans _ _ _ hab hbc) (ih hrest)

theorem forall₂_getElem? (h : List.Forall₂ R as bs) {b : α} (hb : bs[i]? = some b) :
    ∃ a, as[i]? = some a ∧ R a b := by
  induction h generalizing i with
  | nil => simp at hb
  | cons hab _ ih =>
    cases i with
    | zero =>
      obtain rfl := by simpa using hb
      exact ⟨_, rfl, hab⟩
    | succ i => exact ih (by simpa using hb)

theorem forall₂_getElem?_left (h : List.Forall₂ R as bs) {a : α} (ha : as[i]? = some a) :
    ∃ b, bs[i]? = some b ∧ R a b := by
  obtain ⟨b, hb, hR⟩ := forall₂_getElem? (R := fun b a => R a b) h.flip ha
  exact ⟨b, hb, hR⟩

/-- What the relation carries over holds of the whole list. -/
theorem forall₂_forall_mem {P : α → Prop} (hP : ∀ a b, R a b → P a → P b) (h : List.Forall₂ R as bs)
    (has : ∀ a ∈ as, P a) : ∀ b ∈ bs, P b := by
  intro b hb
  obtain ⟨i, hlt, rfl⟩ := List.getElem_of_mem hb
  obtain ⟨a, ha, hR⟩ := forall₂_getElem? h (List.getElem?_eq_getElem hlt)
  exact hP a _ hR (has a (List.mem_of_getElem? ha))

end Places

/-! ## Tunnels -/

namespace Tunn

variable {t t' : Tunn C} {e e' : ε} {r : TunnResult} {dstLen : Nat}

/-- A step of a tunnel, or a count of the limiter it shares. -/
inductive Evolution (ε : Type) [Env ε] : Tunn C → Tunn C → Prop
  | step {t t' : Tunn C} {event : Event} (h : Step ε t event t') : Evolution ε t t'
  | count {t : Tunn C} {r : RateLimiter} (h : t.rateLimiter.SameButCounts r) :
      Evolution ε t { t with rateLimiter := r }

/-- Any number of these. -/
def Evolves (ε : Type) [Env ε] : Tunn C → Tunn C → Prop := Relation.ReflTransGen (Evolution ε)

theorem Evolves.of_step {event : Event} (h : Step ε t event t') : Evolves ε t t' :=
  .single (.step h)

/-- However a tunnel evolves, its handshake goes through a run of its own operations. -/
theorem Evolves.handshake (h : Evolves ε t t') : Handshake.Run ε t.handshake t'.handshake := by
  induction h with
  | refl => exact .refl
  | tail _ hlast ih =>
    cases hlast with
    | step hstep => exact ih.trans hstep.handshake
    | count => exact ih

theorem evolves_drainLoop (n : Nat) (t : Tunn C) : Evolves ε t (t.drainLoop n).2 := by
  induction n generalizing t with
  | zero => exact .refl
  | succ n ih =>
    have hpoll : Evolves ε t t.pollOutgoingPacket.2 := .of_step (.pollOutgoingPacket t)
    rw [drainLoop]
    split
    · rename_i t₁ hnone
      rw [hnone] at hpoll
      exact hpoll
    · rename_i packet t₁ hsome
      rw [hsome] at hpoll
      exact hpoll.trans (ih t₁)

theorem evolves_drainOutgoing (t : Tunn C) : Evolves ε t t.drainOutgoing.2 :=
  evolves_drainLoop _ t

theorem evolves_handleVerifiedPacket {p : Packet}
    (h : t.handleVerifiedPacket p dstLen e = .ok (r, t', e')) : Evolves ε t t' := by
  rcases handleVerifiedPacket_steps h with hstep | hstep
  · exact .of_step hstep
  · exact .of_step hstep

theorem evolves_decapsulate {srcAddr : Option IpAddr} {datagram : Bytes}
    (h : t.decapsulate srcAddr datagram dstLen e = .ok (r, t', e')) :
    Evolves ε t t' := by
  rcases decapsulate_steps h with hstep | hstep | ⟨t₁, p, hfirst, hstep | hstep⟩
  · exact .of_step hstep
  · exact .of_step hstep
  · exact (Evolves.of_step hfirst).trans (Evolves.of_step hstep)
  · exact (Evolves.of_step hfirst).trans (Evolves.of_step hstep)

theorem evolves_flushLoop (n : Nat) {sent : List Bytes} (h : t.flushLoop n e = .ok (sent, t', e')) :
    Evolves ε t t' := by
  induction n generalizing t e sent with
  | zero =>
    cases h
    exact .refl
  | succ n ih =>
    rw [flushLoop] at h
    obtain ⟨⟨r, t₁, e₁⟩, hflush, h⟩ := bind_eq_ok.mp h
    have hfirst := evolves_decapsulate hflush
    simp only at h
    split at h
    · obtain ⟨⟨rest, t₂, e₂⟩, hrest, h⟩ := bind_eq_ok.mp h
      cases h
      exact (hfirst.trans (evolves_drainOutgoing t₁)).trans (ih hrest)
    · cases h
      exact hfirst

end Tunn

/-! ## Peers -/

namespace Peer

variable [IpTable] {p p' : Peer C} {effects : List Effect} {ref : PeerRef} {e e' : ε}
  {addr : SocketAddr} {tunnel : Tunn C} {packet : Packet} {good : Bool}

/-- What traffic can make of a peer. -/
structure Served (ε : Type) [Env ε] (p p' : Peer C) : Prop where
  tunnel : Tunn.Evolves ε p.tunnel p'.tunnel
  conn : p'.endpoint.conn = p.endpoint.conn ∨ p'.endpoint.conn = none
  index : p'.index = p.index
  allowedIps : p'.allowedIps = p.allowedIps
  presharedKey : p'.presharedKey = p.presharedKey
  keepaliveRange : p'.keepaliveRange = p.keepaliveRange

theorem Served.refl (p : Peer C) : Served ε p p := ⟨.refl, .inl rfl, rfl, rfl, rfl, rfl⟩

theorem Served.trans {p'' : Peer C} (h : Served ε p p') (h' : Served ε p' p'') :
    Served ε p p'' where
  tunnel := h.tunnel.trans h'.tunnel
  conn := by
    rcases h'.conn with hconn | hconn
    · rw [hconn]
      exact h.conn
    · exact .inr hconn
  index := h'.index.trans h.index
  allowedIps := h'.allowedIps.trans h.allowedIps
  presharedKey := h'.presharedKey.trans h.presharedKey
  keepaliveRange := h'.keepaliveRange.trans h.keepaliveRange

theorem served_tunnel (h : Tunn.Evolves ε p.tunnel tunnel) :
    Served ε p { p with tunnel := tunnel } :=
  ⟨h, .inl rfl, rfl, rfl, rfl, rfl⟩

theorem served_shutdownEndpoint (p : Peer C) : Served ε p p.shutdownEndpoint :=
  ⟨.refl, .inr rfl, rfl, rfl, rfl, rfl⟩

/-- The effects of a handler come from the tunnel of one peer. -/
def From (ref : PeerRef) (effects : List Effect) : Prop :=
  ∀ effect ∈ effects, effect.peer = some ref

omit [IpTable] in
theorem from_sends (ref : PeerRef) (dst : Destination) (datagrams : List Bytes) :
    From ref (datagrams.map (.send ref · dst)) := by
  intro effect heffect
  obtain ⟨datagram, -, rfl⟩ := List.mem_map.mp heffect
  rfl

theorem from_effectsOf (p : Peer C) (ref : PeerRef) (dst : Destination) (r : TunnResult) :
    From ref (p.effectsOf ref dst r) := by
  intro effect heffect
  unfold effectsOf at heffect
  split at heffect
  · simp at heffect
  · simp at heffect
  · obtain rfl := List.mem_singleton.mp heffect
    rfl
  · split_ifs at heffect
    · obtain rfl := List.mem_singleton.mp heffect
      rfl
    · simp at heffect
  · split_ifs at heffect
    · obtain rfl := List.mem_singleton.mp heffect
      rfl
    · simp at heffect

/-- Acting on a result takes steps of the tunnel alone. -/
theorem respond_eq {dst : Destination} {r : TunnResult}
    (h : p.respond ref dst r e = .ok (effects, p', e')) :
    (∃ tunnel, p' = { p with tunnel := tunnel } ∧ Tunn.Evolves ε p.tunnel tunnel) ∧
      From ref effects := by
  unfold respond at h
  split at h
  · obtain ⟨⟨sent, tunnel, e₁⟩, hflush, h⟩ := bind_eq_ok.mp h
    cases h
    refine ⟨⟨tunnel, rfl, Tunn.evolves_flushLoop _ hflush⟩, ?_⟩
    intro effect heffect
    rcases List.mem_append.mp heffect with hmem | hmem
    · exact from_effectsOf _ _ _ _ effect hmem
    · exact from_sends _ _ _ effect hmem
  · cases h
    exact ⟨⟨p.tunnel, rfl, .refl⟩, from_effectsOf _ _ _ _⟩

/-- The peer after a good packet from an address: a new address takes the place of the old
endpoint, socket and all, and the window starts over. -/
def movedTo (p : Peer C) (tunnel : Tunn C) (addr : SocketAddr) : Peer C :=
  if p.endpoint.addr = some addr then { p with tunnel := tunnel }
  else { p with tunnel := tunnel.resetUdpWindow, endpoint := { addr := some addr, conn := none } }

theorem movedTo_addr (p : Peer C) (tunnel : Tunn C) (addr : SocketAddr) :
    (p.movedTo tunnel addr).endpoint.addr = some addr := by
  unfold movedTo
  split_ifs with hsame
  · exact hsame
  · rfl

theorem served_movedTo (h : Tunn.Evolves ε p.tunnel tunnel) (addr : SocketAddr) :
    Served ε p (p.movedTo tunnel addr) := by
  unfold movedTo
  split_ifs
  · exact served_tunnel h
  · exact ⟨h.trans (Tunn.Evolves.of_step (.resetUdpWindow tunnel)), .inr rfl, rfl, rfl, rfl, rfl⟩

/-- The peer with another connected socket, or without one. -/
def withConn (p : Peer C) (conn : Option Conn) : Peer C :=
  { p with endpoint := { p.endpoint with conn } }

/-- What the anonymous handler makes of the peer it has found: a refused packet leaves the
endpoint alone, a good one sets it. -/
theorem handleAnonymous_cases
    (h : p.handleAnonymous ref packet addr e = .ok (good, effects, p', e')) :
    (∃ err tunnel, good = false ∧ effects = [] ∧ p' = { p with tunnel := tunnel } ∧
        p.tunnel.handleVerifiedPacket packet maxUdpSize e = .ok (.err err, tunnel, e')) ∨
      ∃ r tunnel e₁ tunnel₁, good = true ∧ (∀ err, r ≠ .err err) ∧
        p.tunnel.handleVerifiedPacket packet maxUdpSize e = .ok (r, tunnel, e₁) ∧
        Tunn.Evolves ε tunnel tunnel₁ ∧ p' = p.movedTo tunnel₁ addr ∧ From ref effects := by
  obtain ⟨⟨r, tunnel, e₁⟩, hhandle, h⟩ := bind_eq_ok.mp h
  simp only at h
  split at h
  · rename_i err
    cases h
    exact .inl ⟨err, tunnel, rfl, rfl, rfl, hhandle⟩
  · rename_i hgood
    obtain ⟨⟨effects₁, p₁, e₂⟩, hrespond, h⟩ := bind_eq_ok.mp h
    obtain ⟨⟨tunnel₁, rfl, hevolves⟩, hfrom⟩ := respond_eq hrespond
    cases h
    refine .inr ⟨r, tunnel, e₁, tunnel₁, rfl, hgood, hhandle, hevolves, ?_, hfrom⟩
    unfold setEndpoint movedTo
    by_cases hsame : p.endpoint.addr = some addr
    · simp [hsame]
    · simp [hsame]

theorem served_handleAnonymous
    (h : p.handleAnonymous ref packet addr e = .ok (good, effects, p', e')) :
    Served ε p p' ∧ From ref effects := by
  rcases handleAnonymous_cases h with ⟨err, tunnel, rfl, rfl, rfl, hhandle⟩ |
    ⟨r, tunnel, e₁, tunnel₁, rfl, -, hhandle, hevolves, rfl, hfrom⟩
  · exact ⟨served_tunnel (Tunn.evolves_handleVerifiedPacket hhandle), by simp [From]⟩
  · exact ⟨served_movedTo ((Tunn.evolves_handleVerifiedPacket hhandle).trans hevolves) addr, hfrom⟩

theorem served_handleConnected {conn : Conn} {peerAddr : IpAddr} {datagram : Bytes}
    (h : p.handleConnected ref conn peerAddr datagram e = .ok (effects, p', e')) :
    Served ε p p' ∧ From ref effects := by
  obtain ⟨⟨r, tunnel, e₁⟩, hdecapsulate, h⟩ := bind_eq_ok.mp h
  obtain ⟨⟨tunnel₁, rfl, hevolves⟩, hfrom⟩ := respond_eq h
  exact ⟨served_tunnel ((Tunn.evolves_decapsulate hdecapsulate).trans hevolves), hfrom⟩

theorem served_handleTimers (h : p.handleTimers ref e = .ok (effects, p', e')) :
    Served ε p p' ∧ From ref effects := by
  unfold handleTimers at h
  split at h
  · cases h
    exact ⟨.refl p, by simp [From]⟩
  · obtain ⟨⟨r, tunnel, e₁⟩, htimers, h⟩ := bind_eq_ok.mp h
    have hstep : Tunn.Evolves ε p.tunnel tunnel := .of_step (.updateTimers htimers)
    simp only at h
    split at h
    · cases h
      exact ⟨served_tunnel hstep, by simp [From]⟩
    · cases h
      exact ⟨(served_tunnel hstep).trans (served_shutdownEndpoint _), by simp [From]⟩
    · cases h
      exact ⟨served_tunnel hstep, by simp [From]⟩
    · cases h
      exact ⟨served_tunnel (hstep.trans (Tunn.evolves_drainOutgoing tunnel)), from_sends _ _ _⟩
    · cases h

theorem served_handleIface {src : Bytes} (h : p.handleIface ref src e = .ok (effects, p', e')) :
    Served ε p p' ∧ From ref effects := by
  obtain ⟨⟨r, tunnel, e₁⟩, hencapsulate, h⟩ := bind_eq_ok.mp h
  have hstep : Tunn.Evolves ε p.tunnel tunnel := .of_step (.encapsulate hencapsulate)
  have hdrain := hstep.trans (Tunn.evolves_drainOutgoing tunnel)
  simp only at h
  split at h
  · cases h
    exact ⟨served_tunnel hstep, by simp [From]⟩
  · cases h
    exact ⟨served_tunnel hstep, by simp [From]⟩
  · split at h
    · cases h
      exact ⟨served_tunnel hdrain, from_sends _ _ _⟩
    · cases h
      exact ⟨served_tunnel hdrain, from_sends _ _ _⟩
    · cases h
      exact ⟨served_tunnel hdrain, by simp [From]⟩
  · cases h

end Peer

/-! ## Devices -/

namespace Device

variable [IpTable] {d d' : Device C} {effects : List Effect} {e e' : ε} {ref : PeerRef}

/-- What traffic can make of a device. -/
structure Served (ε : Type) [Env ε] (d d' : Device C) : Prop where
  arcs : List.Forall₂ (Peer.Served ε) d.arcs d'.arcs
  peers : d'.peers = d.peers
  peersByIp : d'.peersByIp = d.peersByIp
  peersByIdx : d'.peersByIdx = d.peersByIdx
  amnezia : d'.amnezia = d.amnezia

theorem Served.refl (d : Device C) : Served ε d d :=
  ⟨List.forall₂_same.mpr fun p _ => .refl p, rfl, rfl, rfl, rfl⟩

theorem Served.trans {d'' : Device C} (h : Served ε d d') (h' : Served ε d' d'') :
    Served ε d d'' where
  arcs := forall₂_trans (fun _ _ _ hp hp' => hp.trans hp') h.arcs h'.arcs
  peers := h'.peers.trans h.peers
  peersByIp := h'.peersByIp.trans h.peersByIp
  peersByIdx := h'.peersByIdx.trans h.peersByIdx
  amnezia := h'.amnezia.trans h.amnezia

theorem served_set {p p' : Peer C} (hp : d.arcs[ref]? = some p) (h : Peer.Served ε p p') :
    Served ε d { d with arcs := d.arcs.set ref p' } :=
  ⟨forall₂_set Peer.Served.refl hp h, rfl, rfl, rfl, rfl⟩

theorem served_atPeer {f : Peer C → ε → Outcome (List Effect × Peer C × ε)}
    (hf : ∀ p p' effects e e', f p e = .ok (effects, p', e') →
      Peer.Served ε p p' ∧ Peer.From ref effects) (h : d.atPeer ref f e = .ok (effects, d', e')) :
    Served ε d d' ∧ Peer.From ref effects := by
  unfold atPeer at h
  split at h
  · cases h
    exact ⟨.refl d, by simp [Peer.From]⟩
  · rename_i p hp
    obtain ⟨⟨effects₁, p', e₁⟩, hrun, h⟩ := bind_eq_ok.mp h
    cases h
    obtain ⟨hserved, hfrom⟩ := hf p p' effects e e' hrun
    exact ⟨served_set hp hserved, hfrom⟩

/-- The timers of every peer: each effect comes from a peer in the list. -/
theorem served_timePeers {refs : List PeerRef} (h : timePeers refs d e = .ok (effects, d', e')) :
    Served ε d d' ∧ ∀ effect ∈ effects, ∃ ref ∈ refs, effect.peer = some ref := by
  induction refs generalizing d e effects with
  | nil =>
    cases h
    exact ⟨.refl _, by simp⟩
  | cons ref refs ih =>
    rw [timePeers] at h
    obtain ⟨⟨effects₁, d₁, e₁⟩, hfirst, h⟩ := bind_eq_ok.mp h
    obtain ⟨⟨effects₂, d₂, e₂⟩, hrest, h⟩ := bind_eq_ok.mp h
    cases h
    obtain ⟨hserved, hfrom⟩ := served_atPeer (fun _ _ _ _ _ => Peer.served_handleTimers) hfirst
    obtain ⟨hserved', hfrom'⟩ := ih hrest
    refine ⟨hserved.trans hserved', ?_⟩
    intro effect heffect
    rcases List.mem_append.mp heffect with hmem | hmem
    · exact ⟨ref, List.mem_cons_self, hfrom effect hmem⟩
    · obtain ⟨ref', hmem', hpeer⟩ := hfrom' effect hmem
      exact ⟨ref', List.mem_cons_of_mem _ hmem', hpeer⟩

/-- The interface handler works on a peer that its table leads to. -/
theorem served_ifaceHandler {src : Bytes} (h : d.ifaceHandler src e = .ok (effects, d', e')) :
    Served ε d d' ∧
      ∀ effect ∈ effects, ∃ a ref, d.peersByIp.find a = some ref ∧ effect.peer = some ref := by
  unfold ifaceHandler at h
  split at h
  · cases h
    exact ⟨.refl d, by simp⟩
  · rename_i ref hfind
    obtain ⟨a, -, hfind⟩ := Option.bind_eq_some_iff.mp hfind
    obtain ⟨hserved, hfrom⟩ := served_atPeer (fun _ _ _ _ _ => Peer.served_handleIface) h
    exact ⟨hserved, fun effect heffect => ⟨a, ref, hfind, hfrom effect heffect⟩⟩

theorem served_forPeers {f : Peer C → Peer C} (hf : ∀ p, Peer.Served ε p (f p)) (d : Device C) :
    Served ε d (d.forPeers f) := by
  refine ⟨?_, rfl, rfl, rfl, rfl⟩
  unfold forPeers
  generalize d.peers.entries.map (·.2) = refs
  generalize d.arcs = arcs
  induction refs generalizing arcs with
  | nil => exact List.forall₂_same.mpr fun p _ => .refl p
  | cons ref refs ih =>
    exact forall₂_trans (fun _ _ _ hp hp' => hp.trans hp')
      (forall₂_modify Peer.Served.refl hf arcs ref) (ih (arcs.modify ref f))

theorem served_openListenSocket (d : Device C) : Served ε d d.openListenSocket :=
  served_forPeers Peer.served_shutdownEndpoint d

theorem served_setKey (d : Device C) (privateKey : Key) (e : ε) :
    Served ε d (d.setKey privateKey e).1 := by
  unfold setKey
  simp only
  split_ifs
  · exact .refl d
  · refine .trans (served_forPeers ?_ d) ⟨List.forall₂_same.mpr fun p _ =>
      .refl p, rfl, rfl, rfl, rfl⟩
    intro p
    split
    · rename_i tunnel e₁ hset
      exact Peer.served_tunnel (.of_step (.setStaticPrivate hset))
    · exact .refl p

theorem served_pollMtu (d : Device C) (readable : Bool) : Served ε d (d.pollMtu readable) := by
  have hmtu (mtu : Nat) : Served ε d { d with mtu := mtu } :=
    ⟨List.forall₂_same.mpr fun p _ => .refl p, rfl, rfl, rfl, rfl⟩
  cases readable with
  | false => exact .refl d
  | true =>
    rw [pollMtu_true]
    split_ifs
    · refine (hmtu _).trans (served_forPeers ?_ _)
      intro p
      exact Peer.served_tunnel (.of_step (.setMtu p.tunnel _))
    · exact hmtu _

theorem served_resetRateLimiter (d : Device C) (e : ε) : Served ε d (d.resetRateLimiter e).1 := by
  unfold resetRateLimiter
  split
  · exact ⟨List.forall₂_same.mpr fun p _ => .refl p, rfl, rfl, rfl, rfl⟩
  · exact .refl d

theorem served_monitorHandler (d : Device C) (pathExists readable : Bool) :
    Served ε d (d.monitorHandler pathExists readable).2 := by
  unfold monitorHandler
  split_ifs
  · exact .refl d
  · split
    · exact ⟨List.forall₂_same.mpr fun p _ => .refl p, rfl, rfl, rfl, rfl⟩
    · exact .refl d

/-- The limiter counts and, under load, has a reply of its own. -/
theorem verifyAnonymous_eq {limiter : RateLimiter} {datagram : Bytes} {addr : SocketAddr}
    {verified : Except (List Effect) Packet}
    (h : d.verifyAnonymous limiter datagram addr e = .ok (verified, d', e')) :
    ∃ limiter', limiter.SameButCounts limiter' ∧ d' = { d with rateLimiter := some limiter' } ∧
      ∀ effects, verified = .error effects → ∀ effect ∈ effects, effect.peer = none := by
  obtain ⟨bytes, -, h⟩ := bind_eq_ok.mp h
  have hcounts := RateLimiter.sameButCounts_verifyPacket (C := C) limiter (some addr.ip) bytes
    cookieReplySz d.amnezia.headers d.amnezia.disableCookies e
  simp only at h
  split at h
  · cases h
    exact ⟨_, hcounts, rfl, by simp⟩
  · split_ifs at h
    · cases h
      exact ⟨_, hcounts, rfl, by simp⟩
    · have hreply (datagram : Bytes) (effects : List Effect)
          (heq : Except.error (α := Packet) [Effect.cookie datagram addr] = .error effects) :
          ∀ effect ∈ effects, effect.peer = none := by
        cases heq
        simp [Effect.peer]
      split at h
      · obtain ⟨masked, -, h⟩ := bind_eq_ok.mp h
        cases h
        exact ⟨_, hcounts, rfl, hreply _⟩
      · cases h
        exact ⟨_, hcounts, rfl, hreply _⟩
  · cases h
    exact ⟨_, hcounts, rfl, by simp⟩

end Device

/-! ## The event loop -/

namespace EventLoop

variable [IpTable] {s s' : EventLoop C} {addr : SocketAddr} {datagram : Bytes}
  {connects : Bool} {effects : List Effect} {ref : PeerRef}

/-- The loop with another limiter. -/
def withLimiter (s : EventLoop C) (limiter : RateLimiter) : EventLoop C :=
  { s with device := { s.device with rateLimiter := some limiter } }

/-- The loop with another value behind a pointer. -/
def withPeer (s : EventLoop C) (ref : PeerRef) (p : Peer C) : EventLoop C :=
  { s with device := { s.device with arcs := s.device.arcs.set ref p } }

/-- The loop with a socket connected to a peer. -/
def connectedTo (s : EventLoop C) (ref : PeerRef) (p : Peer C) (addr : SocketAddr) : EventLoop C :=
  { s.withPeer ref (p.withConn (some s.queue.length)) with
    queue := s.queue ++ [⟨ref, addr.ip⟩] }

theorem connect_cases (h : s.connect ref addr connects = .ok s') :
    s' = s ∨ ∃ p, s.device.arcs[ref]? = some p ∧ p.endpoint.conn = none ∧
      s' = s.connectedTo ref p addr := by
  unfold connect at h
  split at h
  · cases h
    exact .inl rfl
  · rename_i p hp
    by_cases huse : s.useConnectedSocket = true
    · rw [if_pos huse] at h
      obtain ⟨⟨sock, p₁⟩, hconnect, h⟩ := bind_eq_ok.mp h
      unfold Peer.connectEndpoint at hconnect
      by_cases hconn : p.endpoint.conn.isSome = true
      · rw [if_pos hconn] at hconnect
        cases hconnect
        cases h
        exact .inl rfl
      · rw [if_neg hconn] at hconnect
        split at hconnect
        · cases hconnect
        · cases connects with
          | false =>
            cases hconnect
            cases h
            exact .inl rfl
          | true =>
            cases hconnect
            cases h
            exact .inr ⟨p, hp, by simpa using hconn, rfl⟩
    · rw [if_neg huse] at h
      cases h
      exact .inl rfl

/-- The datagram is found to be a packet for a peer. -/
structure Dispatch (s : EventLoop C) (datagram : Bytes) (addr : SocketAddr) (e : ε)
    (packet : Packet) (ref : PeerRef) (p : Peer C) (e₁ : ε) : Prop where
  verified : ∃ limiter d, s.device.rateLimiter = some limiter ∧
    s.device.verifyAnonymous limiter datagram addr e = .ok (.ok packet, d, e₁)
  found : ∃ privateKey publicKey, s.device.keyPair = some (privateKey, publicKey) ∧
    s.device.peerFor privateKey publicKey packet = some ref
  peer : s.device.arcs[ref]? = some p

/-- There is one way to read a datagram. -/
theorem Dispatch.unique {e e₁ e₂ : ε} {packet packet' : Packet} {ref ref' : PeerRef} {p p' : Peer C}
    (h : s.Dispatch datagram addr e packet ref p e₁)
    (h' : s.Dispatch datagram addr e packet' ref' p' e₂) :
    packet = packet' ∧ ref = ref' ∧ p = p' ∧ e₁ = e₂ := by
  obtain ⟨⟨limiter, d, hlimiter, hverify⟩, ⟨privateKey, publicKey, hkey, hfor⟩, hp⟩ := h
  obtain ⟨⟨limiter', d', hlimiter', hverify'⟩, ⟨privateKey', publicKey', hkey', hfor'⟩, hp'⟩ := h'
  rw [hlimiter] at hlimiter'
  cases hlimiter'
  rw [hverify] at hverify'
  cases hverify'
  rw [hkey] at hkey'
  cases hkey'
  rw [hfor] at hfor'
  cases hfor'
  rw [hp] at hp'
  cases hp'
  exact ⟨rfl, rfl, rfl, rfl⟩

/-- **What the anonymous handler does.**  The limiter counts; then the datagram is dropped or
answered with a cookie, or a peer handles the packet and may be connected. -/
theorem udpHandler_cases {e e' : ε}
    (h : s.udpHandler datagram addr connects e = .ok (effects, s', e')) :
    ∃ limiter limiter', s.device.rateLimiter = some limiter ∧ limiter.SameButCounts limiter' ∧
      ((s' = s.withLimiter limiter' ∧ (∀ effect ∈ effects, effect.peer = none) ∧
          ∀ packet ref p (e₁ : ε), ¬ s.Dispatch datagram addr e packet ref p e₁) ∨
        ∃ packet ref p e₁ good p', s.Dispatch datagram addr e packet ref p e₁ ∧
          p.handleAnonymous ref packet addr e₁ = .ok (good, effects, p', e') ∧
          (s' = (s.withLimiter limiter').withPeer ref p' ∨
            (good = true ∧ p'.endpoint.conn = none ∧
              s' = ((s.withLimiter limiter').withPeer ref p').connectedTo ref p' addr))) := by
  unfold udpHandler at h
  split at h
  · cases h
  · cases h
  · rename_i privateKey publicKey limiter hkey hlimiter
    obtain ⟨⟨verified, d, e₁⟩, hverify, h⟩ := bind_eq_ok.mp h
    obtain ⟨limiter', hcounts, rfl, hcookie⟩ := Device.verifyAnonymous_eq hverify
    refine ⟨limiter, limiter', hlimiter, hcounts, ?_⟩
    have hdropped (hnot : ∀ packet ref p, verified = .ok packet →
        s.device.peerFor privateKey publicKey packet = some ref → s.device.arcs[ref]? ≠ some p) :
        ∀ packet ref p (e₁ : ε), ¬ s.Dispatch datagram addr e packet ref p e₁ := by
      rintro packet ref p e₂ ⟨⟨limiter₂, d₂, hlimiter₂, hverify₂⟩,
        ⟨private₂, public₂, hkey₂, hfor⟩, hp⟩
      rw [hlimiter] at hlimiter₂
      cases hlimiter₂
      rw [hverify] at hverify₂
      cases hverify₂
      rw [hkey] at hkey₂
      cases hkey₂
      exact hnot packet ref p rfl hfor hp
    cases verified with
    | error effects₁ =>
      cases h
      exact .inl ⟨rfl, hcookie effects rfl, hdropped (by simp)⟩
    | ok packet =>
      have hfor : ({ s.device with rateLimiter := some limiter' } : Device C).peerFor privateKey
          publicKey packet = s.device.peerFor privateKey publicKey packet := by
        cases packet <;> rfl
      simp only [hfor] at h
      split at h
      · rename_i hnone
        cases h
        refine .inl ⟨rfl, by simp, hdropped ?_⟩
        rintro packet₂ ref p heq hsome
        cases heq
        rw [hnone] at hsome
        cases hsome
      · rename_i ref href
        split at h
        · rename_i hnone
          cases h
          refine .inl ⟨rfl, by simp, hdropped ?_⟩
          rintro packet₂ ref₂ p heq hsome hp
          cases heq
          rw [href] at hsome
          cases hsome
          rw [hnone] at hp
          cases hp
        · rename_i p hp
          obtain ⟨⟨good, effects₁, p', e₂⟩, hhandle, h⟩ := bind_eq_ok.mp h
          refine .inr ⟨packet, ref, p, e₁, good, p',
            ⟨⟨limiter, _, hlimiter, hverify⟩, ⟨privateKey, publicKey, hkey, href⟩, hp⟩, ?_⟩
          cases good with
          | false =>
            cases h
            exact ⟨hhandle, .inl rfl⟩
          | true =>
            obtain ⟨s₁, hconnect, h⟩ := bind_eq_ok.mp h
            cases h
            refine ⟨hhandle, ?_⟩
            rcases connect_cases hconnect with rfl | ⟨p₁, hp₁, hconn, rfl⟩
            · exact .inl rfl
            · have hlt : ref < s.device.arcs.length := (List.getElem?_eq_some_iff.mp hp).1
              have hself : p₁ = p' := by
                simpa [List.getElem?_set_self hlt] using hp₁.symm
              subst hself
              exact .inr ⟨rfl, hconn, rfl⟩

/-- The anonymous handler at the peer it has found: the peer handles the packet and is
connected at most if it was good. -/
theorem udpHandler_of_dispatch {e e' e₁ : ε} {packet : Packet} {p : Peer C}
    (h : s.udpHandler datagram addr connects e = .ok (effects, s', e'))
    (hdispatch : s.Dispatch datagram addr e packet ref p e₁) :
    ∃ good p' conn, p.handleAnonymous ref packet addr e₁ = .ok (good, effects, p', e') ∧
      s'.device.arcs = s.device.arcs.set ref (p'.withConn conn) ∧
      (good = false → conn = p'.endpoint.conn) := by
  obtain ⟨limiter, limiter', -, -, ⟨-, -, hno⟩ |
    ⟨packet₂, ref₂, p₂, e₂, good, p', hdispatch₂, hhandle, hstate⟩⟩ := udpHandler_cases h
  · exact absurd hdispatch (hno packet ref p e₁)
  · obtain ⟨rfl, rfl, rfl, rfl⟩ := hdispatch.unique hdispatch₂
    rcases hstate with rfl | ⟨rfl, -, rfl⟩
    · exact ⟨good, p', p'.endpoint.conn, hhandle, rfl, fun _ => rfl⟩
    · refine ⟨true, p', some s.queue.length, hhandle, ?_, by simp⟩
      exact List.set_set _

end EventLoop
