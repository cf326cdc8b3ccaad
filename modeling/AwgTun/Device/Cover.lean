import AwgTun.Noise.Output
import AwgTun.Device.Removal

/-!
# Cover traffic on the wire

An initiation queues I-packets and junk that have to go out before it.  The handlers of a device
send what their tunnels produce; four of the five places that can send an initiation drain the
queue first.  The fifth, the handler of a connected socket, takes a datagram without content to
the tunnel as it is, where it means "flush": if that starts a handshake, the initiation goes out
alone, and its cover traffic is sent before the next one.

* `WireItem`, `CoveredFrom` — the datagrams of a peer on the wire with their origin, and what it
  means for every initiation to have its own cover traffic before it.
* `Tunn.Wire` — a truthful log of the calls of a tunnel.
* `Tunn.Startable` — a flush would start a handshake.
* `EventLoop.cover_precedes_initiations` — in every run in which no empty datagram reaches a
  peer in that state, or there is no cover traffic.
* `EventLoop.initiation_without_cover` — a run in which one does.
-/

open Control Bytes

variable {C : Crypto} {ε : Type} [Env ε]

/-! ## The wire -/

/-- A datagram that the tunnel of a peer has put on the wire, and where it comes from. -/
inductive WireItem
  /-- It was taken off `network_outgoing`. -/
  | cover (datagram : Bytes)
  /-- An initiation, for which these datagrams were queued. -/
  | initiation (queued : List Bytes) (datagram : Bytes)
  /-- A response, a cookie reply or a transport packet. -/
  | other (datagram : Bytes)

/-- What can be seen of it. -/
def WireItem.datagram : WireItem → Bytes
  | cover datagram => datagram
  | initiation _ datagram => datagram
  | other datagram => datagram

/-- Every initiation in the log follows exactly its own cover traffic, sent to the same place
since the initiation before it, and no cover traffic is left at the end.  `pending` is the cover
traffic sent since the last initiation. -/
def CoveredFrom : List (Destination × Bytes) → List (Destination × WireItem) → Prop
  | pending, [] => pending = []
  | pending, (dst, .cover datagram) :: log => CoveredFrom (pending ++ [(dst, datagram)]) log
  | pending, (dst, .initiation queued _) :: log =>
      pending = queued.map (dst, ·) ∧ CoveredFrom [] log
  | pending, (_, .other _) :: log => CoveredFrom pending log

theorem coveredFrom_append {pending : List (Destination × Bytes)}
    {log : List (Destination × WireItem)} (log' : List (Destination × WireItem))
    (h : CoveredFrom pending log) : CoveredFrom pending (log ++ log') ↔ CoveredFrom [] log' := by
  induction log generalizing pending with
  | nil =>
    obtain rfl : pending = [] := h
    rfl
  | cons entry log ih =>
    obtain ⟨dst, item⟩ := entry
    cases item with
    | cover datagram => exact ih h
    | initiation queued datagram =>
      rw [List.cons_append, CoveredFrom, ih h.2]
      exact and_iff_right h.1
    | other datagram => exact ih h

/-- Cover traffic and the initiation it belongs to. -/
theorem coveredFrom_burst (dst : Destination) (queued : List Bytes) (datagram : Bytes) :
    CoveredFrom [] ((queued.map WireItem.cover ++ [WireItem.initiation queued datagram]).map
      (dst, ·)) := by
  -- `sent` is the part that has gone out already
  have hgeneral (rest sent : List Bytes) (hall : sent ++ rest = queued) :
      CoveredFrom (sent.map (dst, ·))
        ((rest.map WireItem.cover ++ [WireItem.initiation queued datagram]).map (dst, ·)) := by
    induction rest generalizing sent with
    | nil =>
      rw [List.append_nil] at hall
      subst hall
      exact ⟨rfl, rfl⟩
    | cons packet rest ih =>
      have hnext := ih (sent ++ [packet]) (by rw [List.append_assoc]; exact hall)
      rw [List.map_append] at hnext
      exact hnext
  exact hgeneral queued [] rfl

/-- The datagram in the result of a call. -/
def TunnResult.datagrams : TunnResult → List Bytes
  | writeToNetwork datagram => [datagram]
  | _ => []

/-! ## Tunnels -/

namespace Tunn

variable {t t' t'' : Tunn C} {e e' : ε} {srcAddr : Option IpAddr} {payloads : List Bytes}
  {sent : List Bytes} {r : TunnResult} {dstLen : Nat}

/-- A call has produced a datagram. -/
inductive Calls (ε : Type) [Env ε] (t : Tunn C) : WireItem → Tunn C → Prop
  | other {t' : Tunn C} {payloads : List Bytes} {datagram : Bytes}
      (h : Yields ε t payloads (.writeToNetwork datagram) t') : Calls ε t (.other datagram) t'
  | initiation {t₀ t' : Tunn C} {queued : List Bytes} {datagram : Bytes} (hsame : SameWire t t₀)
      (h : Initiates ε t₀ t' queued datagram) : Calls ε t (.initiation queued datagram) t'

theorem Output.calls {datagram : Bytes} (h : Output ε t payloads (.writeToNetwork datagram) t') :
    ∃ item, item.datagram = datagram ∧ Calls ε t item t' := by
  cases h with
  | yields h => exact ⟨.other datagram, rfl, .other h⟩
  | @initiation t₀ _ queued _ hsame h =>
    exact ⟨.initiation queued datagram, rfl, .initiation hsame h⟩

/-- A truthful log: the calls of a tunnel, and what of it was sent. -/
inductive Wire (ε : Type) [Env ε] : Tunn C → List WireItem → Tunn C → Prop
  | refl (t : Tunn C) : Wire ε t [] t
  | trans {t t' t'' : Tunn C} {items items' : List WireItem} (h : Wire ε t items t')
      (h' : Wire ε t' items' t'') : Wire ε t (items ++ items') t''
  /-- A call without a datagram. -/
  | quiet {t t' : Tunn C} {payloads : List Bytes} {r : TunnResult}
      (hr : ∀ datagram, r ≠ .writeToNetwork datagram) (h : Yields ε t payloads r t') :
        Wire ε t [] t'
  | resetUdpWindow (t : Tunn C) : Wire ε t [] t.resetUdpWindow
  /-- The datagram is sent at once. -/
  | sent {t t' : Tunn C} {item : WireItem} (h : Calls ε t item t') : Wire ε t [item] t'
  /-- The queue is sent first. -/
  | drained {t t' : Tunn C} {item : WireItem} (h : Calls ε t item t') :
      Wire ε t (t'.networkOutgoing.map .cover ++ [item]) { t' with networkOutgoing := [] }
  /-- There is nowhere to send them. -/
  | lost {t t' : Tunn C} {item : WireItem} (h : Calls ε t item t') :
      Wire ε t [] { t' with networkOutgoing := [] }

theorem drainLoop_eq (n : Nat) (t : Tunn C) (hn : t.networkOutgoing.length < n) :
    t.drainLoop n = (t.networkOutgoing, { t with networkOutgoing := [] }) := by
  induction n generalizing t with
  | zero => exact absurd hn (Nat.not_lt_zero _)
  | succ n ih =>
    cases hqueue : t.networkOutgoing with
    | nil =>
      have hsame : ({ t with networkOutgoing := [] } : Tunn C) = t := by rw [← hqueue]
      simp [drainLoop, pollOutgoingPacket, hqueue, hsame]
    | cons packet rest =>
      rw [hqueue, List.length_cons] at hn
      have hrest := ih { t with networkOutgoing := rest } (Nat.lt_of_succ_lt_succ hn)
      simp [drainLoop, pollOutgoingPacket, hqueue, hrest]

/-- Draining takes everything. -/
theorem drainOutgoing_eq (t : Tunn C) :
    t.drainOutgoing = (t.networkOutgoing, { t with networkOutgoing := [] }) :=
  drainLoop_eq _ t (Nat.lt_succ_self _)

/-- The datagrams `sent` have a truthful log in which every initiation is covered, wherever they
go, and the queue is empty afterwards. -/
def SendsCovered (ε : Type) [Env ε] (t : Tunn C) (sent : List Bytes) (t' : Tunn C) : Prop :=
  ∃ items, items.map WireItem.datagram = sent ∧ Wire ε t items t' ∧
    (∀ dst : Destination, CoveredFrom [] (items.map (dst, ·))) ∧ t'.networkOutgoing = []

theorem SendsCovered.trans {sent sent' : List Bytes} (h : SendsCovered ε t sent t')
    (h' : SendsCovered ε t' sent' t'') : SendsCovered ε t (sent ++ sent') t'' := by
  obtain ⟨items, rfl, hwire, hcovered, -⟩ := h
  obtain ⟨items', rfl, hwire', hcovered', hqueue⟩ := h'
  refine ⟨items ++ items', List.map_append, hwire.trans hwire', ?_, hqueue⟩
  intro dst
  rw [List.map_append, coveredFrom_append _ (hcovered dst)]
  exact hcovered' dst

theorem SendsCovered.queue (h : SendsCovered ε t sent t') :
    t'.networkOutgoing = [] := by
  obtain ⟨items, -, -, -, hqueue⟩ := h
  exact hqueue

/-- Nothing is sent. -/
theorem SendsCovered.of_wire (h : Wire ε t [] t') (hqueue : t'.networkOutgoing = []) :
    SendsCovered ε t [] t' :=
  ⟨[], rfl, h, fun _ => rfl, hqueue⟩

section FromEmpty

variable {payloads : List Bytes} {r : TunnResult} {datagram : Bytes}

theorem Yields.networkOutgoing_nil (h : Yields ε t payloads r t')
    (hqueue : t.networkOutgoing = []) :
    t'.networkOutgoing = [] := by
  cases h with
  | nothing _ hsame => exact hsame.elim (·.trans hqueue) id
  | answer _ _ _ hsame => exact hsame.trans hqueue
  | sealed _ _ _ _ hsame => exact hsame.trans hqueue

theorem Yields.sendsCovered_quiet (h : Yields ε t payloads r t') (hqueue : t.networkOutgoing = [])
    (hr : ∀ datagram, r ≠ .writeToNetwork datagram) : SendsCovered ε t [] t' :=
  .of_wire (.quiet hr h) (h.networkOutgoing_nil hqueue)

theorem Output.sendsCovered_quiet (h : Output ε t payloads r t') (hqueue : t.networkOutgoing = [])
    (hr : ∀ datagram, r ≠ .writeToNetwork datagram) : SendsCovered ε t [] t' := by
  cases h with
  | yields h => exact h.sendsCovered_quiet hqueue hr
  | initiation => exact absurd rfl (hr _)

/-- What is not an initiation may be sent at once. -/
theorem Yields.sendsCovered (h : Yields ε t payloads r t') (hqueue : t.networkOutgoing = []) :
    SendsCovered ε t r.datagrams t' := by
  cases r with
  | writeToNetwork datagram =>
    exact ⟨[.other datagram], rfl, .sent (.other h), fun _ => rfl, h.networkOutgoing_nil hqueue⟩
  | done | err | writeToTunnelV4 | writeToTunnelV6 => exact h.sendsCovered_quiet hqueue (by simp)

/-- Anything may be sent after the queue. -/
theorem Output.sendsCovered_drained (h : Output ε t payloads (.writeToNetwork datagram) t')
    (hqueue : t.networkOutgoing = []) :
    SendsCovered ε t (t'.networkOutgoing ++ [datagram]) { t' with networkOutgoing := [] } := by
  obtain ⟨item, rfl, hcalls⟩ := h.calls
  refine ⟨t'.networkOutgoing.map .cover ++ [item], ?_, .drained hcalls, ?_, rfl⟩
  · rw [List.map_append, List.map_map, List.map_singleton]
    exact congrArg (· ++ _) (List.map_id _)
  · intro dst
    cases hcalls with
    | other h =>
      rw [h.networkOutgoing_nil hqueue]
      rfl
    | initiation hsame h =>
      rw [h.queue, hsame.queue, hqueue, List.nil_append]
      exact coveredFrom_burst dst _ _

theorem Output.sendsCovered_lost (h : Output ε t payloads (.writeToNetwork datagram) t') :
    SendsCovered ε t [] { t' with networkOutgoing := [] } := by
  obtain ⟨item, -, hcalls⟩ := h.calls
  exact .of_wire (.lost hcalls) rfl

end FromEmpty

/-- The flush loop drains before it sends. -/
theorem sendsCovered_flushLoop (n : Nat) (hqueue : t.networkOutgoing = [])
    (h : t.flushLoop n e = .ok (sent, t', e')) :
    SendsCovered ε t sent t' := by
  induction n generalizing t e sent with
  | zero =>
    cases h
    exact .of_wire (.refl _) hqueue
  | succ n ih =>
    rw [flushLoop] at h
    obtain ⟨⟨r, t₁, e₁⟩, hflush, h⟩ := bind_eq_ok.mp h
    have houtput := output_decapsulate hflush
    simp only at h
    split at h
    · rw [drainOutgoing_eq] at h
      obtain ⟨⟨rest, t₂, e₂⟩, hrest, h⟩ := bind_eq_ok.mp h
      cases h
      have hfirst := houtput.sendsCovered_drained hqueue
      have hall := hfirst.trans (ih rfl hrest)
      rwa [List.append_assoc] at hall
    · rename_i hr
      cases h
      exact houtput.sendsCovered_quiet hqueue hr

/-! ## Flushing from a connected socket -/

/-- A flush would start a handshake: there is a packet to send, no session to send it with, and no
handshake under way. -/
def Startable (t : Tunn C) : Prop :=
  t.packetQueue ≠ [] ∧ t.sessions (slotOf t.current) = none ∧ t.handshake.isInProgress = false

theorem queuePacket_handshake (t : Tunn C) (packet : Bytes) :
    (t.queuePacket packet).handshake = t.handshake := by
  unfold queuePacket
  split_ifs <;> rfl

/-- Where it would not, a datagram may be sent at once. -/
theorem yields_of_not_startable (hnot : ¬ t.Startable)
    (h : t.decapsulate srcAddr [] dstLen e = .ok (r, t', e')) :
    ∃ payloads, Yields ε t payloads r t' := by
  have hflush : t.sendQueuedPacket dstLen e = .ok (r, t', e') := h
  cases output_sendQueuedPacket hflush with
  | yields hyields => exact ⟨_, hyields⟩
  | @initiation t₀ _ queued datagram hsame hinitiates =>
    rw [sendQueuedPacket] at hflush
    split at hflush
    · cases hflush
    · rename_i packet rest hqueue
      obtain ⟨⟨r₁, t₁, e₁⟩, hencapsulate, hflush⟩ := bind_eq_ok.mp hflush
      have hsame₁ : SameWire t { t with packetQueue := rest } := ⟨rfl, rfl⟩
      simp only at hflush
      split at hflush
      · cases hflush
      · cases hflush
        rw [encapsulate] at hencapsulate
        split at hencapsulate
        · exact ⟨_, (yields_sealPacket hencapsulate).of_same hsame₁ (List.Subset.refl _)⟩
        · rename_i hsession
          have hbusy : t.handshake.isInProgress = true := by
            by_contra hidle
            exact hnot ⟨by simp [hqueue], hsession, by simpa using hidle⟩
          rw [formatHandshakeInitiation_inProgress
            (by rw [queuePacket_handshake]; exact hbusy)] at hencapsulate
          cases hencapsulate

/-- No cover traffic goes before an initiation. -/
def Uncovered (t : Tunn C) : Prop :=
  t.initPacketConfig.activeChains = [] ∧ t.junkConfig.count = 0

/-- Then an initiation may be sent at once as well. -/
theorem Uncovered.sendsCovered (h : t.Uncovered) (hqueue : t.networkOutgoing = [])
    (houtput : Output ε t payloads r t') :
    SendsCovered ε t r.datagrams t' := by
  cases houtput with
  | yields hyields => exact hyields.sendsCovered hqueue
  | @initiation t₀ _ queued datagram hsame hinitiates =>
    have hchains : t₀.initPacketConfig = t.initPacketConfig :=
      congrArg Settings.initPacketConfig hsame.settings
    have hjunk : t₀.junkConfig = t.junkConfig := congrArg Settings.junkConfig hsame.settings
    obtain ⟨e₀, e₁, htraffic⟩ := hinitiates.traffic
    simp only [coverTraffic, hchains, hjunk, h.1, h.2, queueChains, ok_bind,
      JunkConfig.generateJunkPackets, if_true] at htraffic
    cases htraffic
    have hempty : t'.networkOutgoing = [] := by
      rw [hinitiates.queue, hsame.queue, hqueue]
      rfl
    have houtput : Output ε t payloads _ t' := .initiation hsame hinitiates
    have hsent := houtput.sendsCovered_drained hqueue
    rwa [show { t' with networkOutgoing := [] } = t' by rw [← hempty], hempty] at hsent

/-- Where it would, the datagram is an initiation. -/
theorem Startable.initiates {datagram : Bytes} (hstart : t.Startable)
    (h : t.decapsulate srcAddr [] dstLen e = .ok (.writeToNetwork datagram, t', e')) :
    ∃ t₀ queued, SameWire t t₀ ∧ Initiates ε t₀ t' queued datagram := by
  have hflush : t.sendQueuedPacket dstLen e = .ok (.writeToNetwork datagram, t', e') := h
  obtain ⟨hwaiting, hsession, -⟩ := hstart
  rw [sendQueuedPacket] at hflush
  split at hflush
  · cases hflush
  · rename_i packet rest hqueue
    obtain ⟨⟨r₁, t₁, e₁⟩, hencapsulate, hflush⟩ := bind_eq_ok.mp hflush
    simp only at hflush
    split at hflush
    · cases hflush
    · cases hflush
      rw [encapsulate] at hencapsulate
      simp only [hsession] at hencapsulate
      have htaken : SameWire t { t with packetQueue := rest } := ⟨rfl, rfl⟩
      have hsame := htaken.trans (sameWire_queuePacket _ packet)
      rcases formatHandshakeInitiation_cases hencapsulate with ⟨-, hr⟩ |
        ⟨queued, _, heq, hinitiates⟩
      · exact absurd rfl (hr datagram)
      · cases heq
        exact ⟨_, queued, hsame, hinitiates⟩

end Tunn

/-! ## Peers -/

/-- What the tunnel of a peer has sent, and where to. -/
def sendsOf (ref : PeerRef) (effects : List Effect) : List (Destination × Bytes) :=
  effects.filterMap fun
    | .send peer datagram dst => if peer = ref then some (dst, datagram) else none
    | _ => none

theorem sendsOf_append (ref : PeerRef) (effects effects' : List Effect) :
    sendsOf ref (effects ++ effects') = sendsOf ref effects ++ sendsOf ref effects' :=
  List.filterMap_append

theorem sendsOf_sends (ref : PeerRef) (dst : Destination) (datagrams : List Bytes) :
    sendsOf ref (datagrams.map (.send ref · dst)) = datagrams.map (dst, ·) := by
  simp [sendsOf, List.filterMap_map]

theorem sendsOf_of_from {ref other : PeerRef} {effects : List Effect} (h : Peer.From ref effects)
    (hne : other ≠ ref) : sendsOf other effects = [] := by
  rw [sendsOf, List.filterMap_eq_nil_iff]
  intro effect heffect
  have hpeer := h effect heffect
  cases effect with
  | send peer datagram dst =>
    obtain rfl : peer = ref := Option.some.inj hpeer
    exact if_neg (Ne.symm hne)
  | write | cookie => rfl

theorem sendsOf_of_no_peer {ref : PeerRef} {effects : List Effect}
    (h : ∀ effect ∈ effects, effect.peer = none) : sendsOf ref effects = [] := by
  rw [sendsOf, List.filterMap_eq_nil_iff]
  intro effect heffect
  have hpeer := h effect heffect
  cases effect with
  | send | write => cases hpeer
  | cookie => rfl

namespace Peer

variable [IpTable] {p p' : Peer C} {ref : PeerRef} {effects : List Effect} {e e' : ε}

theorem sendsOf_effectsOf (p : Peer C) (ref : PeerRef) (dst : Destination) (r : TunnResult) :
    sendsOf ref (p.effectsOf ref dst r) = r.datagrams.map (dst, ·) := by
  cases r with
  | writeToNetwork datagram => exact sendsOf_sends ref dst [datagram]
  | done | err => rfl
  | writeToTunnelV4 | writeToTunnelV6 =>
    simp only [effectsOf]
    split_ifs <;> rfl

/-- A handler has sent to one place, everything with its cover traffic. -/
def SendsCovered (ε : Type) [Env ε] (ref : PeerRef) (p : Peer C) (effects : List Effect)
    (p' : Peer C) : Prop :=
  ∃ dst sent, sendsOf ref effects = sent.map (dst, ·) ∧
    Tunn.SendsCovered ε p.tunnel sent p'.tunnel

/-- The flush behind a result leaves nothing uncovered that was not so before. -/
theorem respond_sendsCovered {t : Tunn C} {dst : Destination} {r : TunnResult}
    (hfirst : Tunn.SendsCovered ε t r.datagrams p.tunnel)
    (h : p.respond ref dst r e = .ok (effects, p', e')) :
    ∃ sent, sendsOf ref effects = sent.map (dst, ·) ∧ Tunn.SendsCovered ε t sent p'.tunnel := by
  unfold respond at h
  split at h
  · obtain ⟨⟨sent, tunnel, e₁⟩, hflush, h⟩ := bind_eq_ok.mp h
    cases h
    refine ⟨_, ?_, hfirst.trans (Tunn.sendsCovered_flushLoop _ hfirst.queue hflush)⟩
    rw [sendsOf_append, sendsOf_effectsOf, sendsOf_sends, List.map_append]
  · cases h
    exact ⟨_, sendsOf_effectsOf p ref dst r, hfirst⟩

theorem handleAnonymous_sendsCovered {packet : Packet} {addr : SocketAddr} {good : Bool}
    (hqueue : p.tunnel.networkOutgoing = [])
    (h : p.handleAnonymous ref packet addr e = .ok (good, effects, p', e')) :
    SendsCovered ε ref p effects p' := by
  obtain ⟨⟨r, tunnel, e₁⟩, hhandle, h⟩ := bind_eq_ok.mp h
  have hfirst := (Tunn.yields_handleVerifiedPacket hhandle).sendsCovered hqueue
  simp only at h
  split at h
  · cases h
    exact ⟨.addr addr, [], rfl, hfirst⟩
  · obtain ⟨⟨effects₁, p₁, e₂⟩, hrespond, h⟩ := bind_eq_ok.mp h
    obtain ⟨sent, hsent, hcovered⟩ := respond_sendsCovered hfirst hrespond
    cases h
    refine ⟨.addr addr, sent, hsent, ?_⟩
    -- the address and the window make no difference
    have hsame : (p₁.setEndpoint addr).2.tunnel = p₁.tunnel := by
      unfold setEndpoint
      split_ifs <;> rfl
    by_cases hmoved : (p₁.setEndpoint addr).1 = true
    · simp only [if_pos hmoved, hsame]
      have hreset := Tunn.SendsCovered.of_wire (ε := ε) (.resetUdpWindow p₁.tunnel) hcovered.queue
      simpa using hcovered.trans hreset
    · simp only [if_neg hmoved, hsame]
      exact hcovered

/-- The handler of a connected socket, unless it is made to start a covered handshake. -/
theorem handleConnected_sendsCovered {conn : Conn} {peerAddr : IpAddr} {datagram : Bytes}
    (hqueue : p.tunnel.networkOutgoing = [])
    (hguard : datagram = [] → p.tunnel.Startable → p.tunnel.Uncovered)
    (h : p.handleConnected ref conn peerAddr datagram e = .ok (effects, p', e')) :
    SendsCovered ε ref p effects p' := by
  obtain ⟨⟨r, tunnel, e₁⟩, hdecapsulate, h⟩ := bind_eq_ok.mp h
  refine ⟨.conn conn, respond_sendsCovered ?_ h⟩
  by_cases hempty : datagram = []
  · subst hempty
    by_cases hstart : p.tunnel.Startable
    · exact (hguard rfl hstart).sendsCovered hqueue (Tunn.output_decapsulate hdecapsulate)
    · obtain ⟨payloads, hyields⟩ := Tunn.yields_of_not_startable hstart hdecapsulate
      exact hyields.sendsCovered hqueue
  · exact (Tunn.yields_decapsulate hempty hdecapsulate).sendsCovered hqueue

theorem handleTimers_sendsCovered (hqueue : p.tunnel.networkOutgoing = [])
    (h : p.handleTimers ref e = .ok (effects, p', e')) : SendsCovered ε ref p effects p' := by
  unfold handleTimers at h
  split at h
  · cases h
    exact ⟨.conn 0, [], rfl, .of_wire (.refl _) hqueue⟩
  · rename_i addr _
    obtain ⟨⟨r, tunnel, e₁⟩, htimers, h⟩ := bind_eq_ok.mp h
    have houtput := Tunn.output_updateTimers htimers
    simp only [Tunn.drainOutgoing_eq] at h
    refine ⟨.addr addr, ?_⟩
    split at h
    · cases h
      exact ⟨[], rfl, houtput.sendsCovered_quiet hqueue (by simp)⟩
    · cases h
      exact ⟨[], rfl, houtput.sendsCovered_quiet hqueue (by simp)⟩
    · cases h
      exact ⟨[], rfl, houtput.sendsCovered_quiet hqueue (by simp)⟩
    · cases h
      exact ⟨_, sendsOf_sends ref _ _, houtput.sendsCovered_drained hqueue⟩
    · cases h

theorem handleIface_sendsCovered {src : Bytes} (hqueue : p.tunnel.networkOutgoing = [])
    (h : p.handleIface ref src e = .ok (effects, p', e')) : SendsCovered ε ref p effects p' := by
  obtain ⟨⟨r, tunnel, e₁⟩, hencapsulate, h⟩ := bind_eq_ok.mp h
  have houtput := Tunn.output_encapsulate hencapsulate
  simp only [Tunn.drainOutgoing_eq] at h
  split at h
  · cases h
    exact ⟨.conn 0, [], rfl, houtput.sendsCovered_quiet hqueue (by simp)⟩
  · cases h
    exact ⟨.conn 0, [], rfl, houtput.sendsCovered_quiet hqueue (by simp)⟩
  · split at h
    · cases h
      exact ⟨_, _, sendsOf_sends ref _ _, houtput.sendsCovered_drained hqueue⟩
    · cases h
      exact ⟨_, _, sendsOf_sends ref _ _, houtput.sendsCovered_drained hqueue⟩
    · cases h
      exact ⟨.conn 0, [], rfl, houtput.sendsCovered_lost⟩
  · cases h

end Peer

/-! ## Devices -/

namespace Device

variable [IpTable] {d d' d'' : Device C} {effects effects' : List Effect} {ref : PeerRef}
  {e e' : ε} {f : Peer C → Peer C}

/-- Nothing waits to be sent. -/
def Drained (d : Device C) : Prop := ∀ p ∈ d.arcs, p.tunnel.networkOutgoing = []

/-- A truthful log of what the tunnel of a peer has sent. -/
structure Logs (ε : Type) [Env ε] (ref : PeerRef) (d : Device C) (effects : List Effect)
    (d' : Device C) (log : List (Destination × WireItem)) : Prop where
  sends : log.map (fun entry => (entry.1, entry.2.datagram)) = sendsOf ref effects
  wire : log ≠ [] → ∃ p p', d.arcs[ref]? = some p ∧ d'.arcs[ref]? = some p' ∧
    Tunn.Wire ε p.tunnel (log.map (·.2)) p'.tunnel

/-- What a handler has sent is covered, and nothing is left. -/
structure SendsCovered (ε : Type) [Env ε] (d : Device C) (effects : List Effect) (d' : Device C) :
    Prop where
  drained : d'.Drained
  length : d'.arcs.length = d.arcs.length
  log : ∀ (ref : PeerRef) (p : Peer C), d.arcs[ref]? = some p → ∃ p' log,
    d'.arcs[ref]? = some p' ∧
      log.map (fun entry => (entry.1, entry.2.datagram)) = sendsOf ref effects ∧
      Tunn.Wire ε p.tunnel (log.map (·.2)) p'.tunnel ∧ CoveredFrom [] log
  absent : ∀ ref : PeerRef, d.arcs[ref]? = none → sendsOf ref effects = []

theorem Drained.get (h : d.Drained) {p : Peer C} (hp : d.arcs[ref]? = some p) :
    p.tunnel.networkOutgoing = [] :=
  h p (List.mem_of_getElem? hp)

/-- Nothing is sent, and the peers are as they were. -/
theorem SendsCovered.nothing (h : d.Drained) (harcs : d'.arcs = d.arcs)
    (hsends : ∀ ref, sendsOf ref effects = []) : SendsCovered ε d effects d' where
  drained := by
    rw [Drained, harcs]
    exact h
  length := by rw [harcs]
  log := fun ref p hp => ⟨p, [], by rw [harcs, hp], (hsends ref).symm, .refl _, rfl⟩
  absent := fun ref _ => hsends ref

theorem SendsCovered.trans (h : SendsCovered ε d effects d') (h' : SendsCovered ε d' effects' d'') :
    SendsCovered ε d (effects ++ effects') d'' where
  drained := h'.drained
  length := h'.length.trans h.length
  log := by
    intro ref p hp
    obtain ⟨p', log, hp', hsends, hwire, hcovered⟩ := h.log ref p hp
    obtain ⟨p'', log', hp'', hsends', hwire', hcovered'⟩ := h'.log ref p' hp'
    refine ⟨p'', log ++ log', hp'', ?_, ?_, (coveredFrom_append log' hcovered).mpr hcovered'⟩
    · rw [List.map_append, hsends, hsends', sendsOf_append]
    · rw [List.map_append]
      exact hwire.trans hwire'
  absent := by
    intro ref hnone
    have hnone' : d'.arcs[ref]? = none := by
      rw [List.getElem?_eq_none_iff] at hnone ⊢
      rw [h.length]
      exact hnone
    rw [sendsOf_append, h.absent ref hnone, h'.absent ref hnone', List.nil_append]

/-- One peer is served, and only its tunnel sends. -/
theorem SendsCovered.of_peer {p p' : Peer C} (hd : d.Drained) (hp : d.arcs[ref]? = some p)
    (hfrom : Peer.From ref effects) (h : Peer.SendsCovered ε ref p effects p') {d' : Device C}
    (harcs : d'.arcs = d.arcs.set ref p') : SendsCovered ε d effects d' := by
  obtain ⟨dst, sent, hsent, items, rfl, hwire, hcovered, hqueue⟩ := h
  have hlt : ref < d.arcs.length := (List.getElem?_eq_some_iff.mp hp).1
  refine ⟨?_, by rw [harcs, List.length_set], ?_, ?_⟩
  · intro q hq
    rw [harcs] at hq
    rcases List.mem_or_eq_of_mem_set hq with hq | rfl
    · exact hd q hq
    · exact hqueue
  · intro other q hq
    by_cases hother : other = ref
    · subst hother
      rw [hp] at hq
      cases hq
      refine ⟨p', items.map (dst, ·), by rw [harcs, List.getElem?_set_self hlt], ?_,
        ?_, hcovered dst⟩
      · rw [hsent, List.map_map, List.map_map]
        rfl
      · rw [List.map_map]
        simpa using hwire
    · refine ⟨q, [], ?_, ?_, .refl _, rfl⟩
      · rw [harcs, List.getElem?_set_ne (Ne.symm hother)]
        exact hq
      · rw [sendsOf_of_from hfrom hother]
        rfl
  · intro other hnone
    refine sendsOf_of_from hfrom ?_
    rintro rfl
    rw [hp] at hnone
    cases hnone

theorem SendsCovered.atPeer {f : Peer C → ε → Outcome (List Effect × Peer C × ε)} (hd : d.Drained)
    (hf : ∀ p p' effects e e', d.arcs[ref]? = some p → f p e = .ok (effects, p', e') →
      Peer.From ref effects ∧ Peer.SendsCovered ε ref p effects p')
    (h : d.atPeer ref f e = .ok (effects, d', e')) : SendsCovered ε d effects d' := by
  unfold Device.atPeer at h
  split at h
  · cases h
    exact .nothing hd rfl fun _ => rfl
  · rename_i p hp
    obtain ⟨⟨effects₁, p', e₁⟩, hrun, h⟩ := bind_eq_ok.mp h
    cases h
    obtain ⟨hfrom, hcovered⟩ := hf p p' effects e e' hp hrun
    exact .of_peer hd hp hfrom hcovered rfl

theorem timePeers_sendsCovered {refs : List PeerRef} (hd : d.Drained)
    (h : timePeers refs d e = .ok (effects, d', e')) : SendsCovered ε d effects d' := by
  induction refs generalizing d e effects with
  | nil =>
    cases h
    exact .nothing hd rfl fun _ => rfl
  | cons ref refs ih =>
    rw [timePeers] at h
    obtain ⟨⟨effects₁, d₁, e₁⟩, hfirst, h⟩ := bind_eq_ok.mp h
    obtain ⟨⟨effects₂, d₂, e₂⟩, hrest, h⟩ := bind_eq_ok.mp h
    cases h
    have hone : SendsCovered ε d effects₁ d₁ := by
      refine .atPeer hd ?_ hfirst
      intro p p' effects e e' hp hrun
      exact ⟨(Peer.served_handleTimers hrun).2, Peer.handleTimers_sendsCovered (hd.get hp) hrun⟩
    exact hone.trans (ih hone.drained hrest)

theorem ifaceHandler_sendsCovered {src : Bytes} (hd : d.Drained)
    (h : d.ifaceHandler src e = .ok (effects, d', e')) : SendsCovered ε d effects d' := by
  unfold ifaceHandler at h
  split at h
  · cases h
    exact .nothing hd rfl fun _ => rfl
  · refine .atPeer hd ?_ h
    intro p p' effects e e' hp hrun
    exact ⟨(Peer.served_handleIface hrun).2, Peer.handleIface_sendsCovered (hd.get hp) hrun⟩

/-! ## Settings -/

theorem drained_modify {arcs : List (Peer C)} (harcs : ∀ p ∈ arcs, p.tunnel.networkOutgoing = [])
    (hf : ∀ p, (f p).tunnel.networkOutgoing = p.tunnel.networkOutgoing) (ref : PeerRef) :
    ∀ p ∈ arcs.modify ref f, p.tunnel.networkOutgoing = [] :=
  forall₂_forall_mem (R := fun p p' => p'.tunnel.networkOutgoing = p.tunnel.networkOutgoing)
    (fun _ _ hsame hp => hsame.trans hp)
    (forall₂_modify (R := fun p p' => p'.tunnel.networkOutgoing = p.tunnel.networkOutgoing)
      (fun _ => rfl) hf arcs ref) harcs

/-- A setting that leaves the queue of every tunnel alone. -/
theorem Drained.forPeers (hd : d.Drained)
    (hf : ∀ p, (f p).tunnel.networkOutgoing = p.tunnel.networkOutgoing) :
    (d.forPeers f).Drained := by
  unfold Device.forPeers Drained at *
  generalize d.peers.entries.map (·.2) = refs
  generalize d.arcs = arcs at hd
  induction refs generalizing arcs with
  | nil => exact hd
  | cons ref refs ih => exact ih (arcs.modify ref f) (drained_modify hd hf ref)

theorem drained_setKey (hd : d.Drained) (privateKey : Key) (e : ε) :
    (d.setKey privateKey e).1.Drained := by
  unfold setKey
  simp only
  split_ifs
  · exact hd
  · refine Drained.forPeers hd ?_
    intro p
    split
    · rename_i tunnel e₁ hset
      obtain ⟨handshake, -, hset⟩ := bind_eq_ok.mp hset
      cases hset
      rfl
    · rfl

omit [IpTable] in
/-- Nothing waits in a new tunnel. -/
theorem newWithAmnezia3_networkOutgoing {privateKey publicKey : Key} {presharedKey : Option Key}
    {keepalive : Option UInt16} {index : UInt32} {limiter : Option RateLimiter}
    {config : Amnezia3Config} {t : Tunn C} {e : ε}
    (h : (Tunn.newWithAmnezia3 privateKey publicKey presharedKey keepalive index
      limiter config e).1 = .ok t) : t.networkOutgoing = [] := by
  obtain ⟨-, rfl⟩ := Tunn.newWithAmnezia3_eq_ok (Prod.ext h rfl)
  rfl

theorem drained_rebuildPeers (privateKey : Key) (entries : List (Sigma fun _ : Key => PeerRef))
    (hd : d.Drained) (e : ε) : (rebuildPeers privateKey entries d e).2.1.Drained := by
  induction entries generalizing d e with
  | nil => exact hd
  | cons entry entries ih =>
    have hfirst : (d.rebuildPeer privateKey entry.1 entry.2 e).2.1.Drained := by
      unfold rebuildPeer
      split
      · exact hd
      · simp only
        split
        · exact hd
        · split
          · exact hd
          · rename_i tunnel htunnel
            intro q hq
            rcases List.mem_or_eq_of_mem_set hq with hq | rfl
            · exact hd q hq
            · exact newWithAmnezia3_networkOutgoing htunnel
    rw [rebuildPeers]
    split
    · rename_i d₁ e₁ hrun
      rw [hrun] at hfirst
      exact ih hfirst e₁
    · rename_i err d₁ e₁ hrun
      rw [hrun] at hfirst
      exact hfirst

theorem drained_setAmneziaConfig (hd : d.Drained) (amnezia : Amnezia3Config) (e : ε) :
    (d.setAmneziaConfig amnezia e).2.1.Drained := by
  unfold setAmneziaConfig
  split_ifs
  · exact hd
  · simp only
    split
    · exact hd
    · have hd' : Drained { d with amnezia := amnezia } := hd
      exact drained_rebuildPeers _ _ hd' e

theorem drained_removePeer (hd : d.Drained) (pubKey : Key) : (d.removePeer pubKey).Drained := by
  unfold removePeer
  split
  · exact hd
  · rename_i ref _
    exact drained_modify hd (f := Peer.shutdownEndpoint) (fun _ => rfl) ref

theorem drained_updatePeer (hd : d.Drained) (u : PeerUpdate) (e : ε) :
    (d.updatePeer u e).2.1.Drained := by
  have hupdates := updatePeer_updatesTo d u e
  generalize (d.updatePeer u e).2.1 = d' at hupdates ⊢
  cases hupdates with
  | removed => exact drained_removePeer hd _
  | present => exact hd
  | refused => exact hd
  | added hremove hkey hpair hindex hmade hpeer hrange htable =>
    intro q hq
    rcases List.mem_append.mp hq with hq | hq
    · exact hd q hq
    · rw [List.mem_singleton.mp hq]
      exact newWithAmnezia3_networkOutgoing (congrArg Prod.fst hmade)

theorem drained_step (hd : d.Drained) (event : Event) (e : ε) : (step (d, e) event).1.Drained := by
  cases event with
  | updatePeer u => exact drained_updatePeer hd u e
  | removePeer pubKey => exact drained_removePeer hd pubKey
  | clearPeers => exact hd
  | ifaceMtu mtu => exact hd
  | monitor pathExists readable =>
    simp only [step, monitorHandler]
    split_ifs
    · exact hd
    · split <;> exact hd
  | timers readable =>
    have hreset : (d.resetRateLimiter e).1.Drained := by
      unfold resetRateLimiter
      split <;> exact hd
    change ((d.resetRateLimiter e).1.pollMtu readable).Drained
    cases readable with
    | false => exact hreset
    | true =>
      rw [pollMtu_true]
      split_ifs
      · exact Drained.forPeers hreset fun _ => rfl
      · exact hreset

end Device

/-! ## The event loop -/

namespace EventLoop

variable [IpTable] {s s' : EventLoop C} {input : Input} {effects : List Effect} {e e' : ε}

/-- No empty datagram reaches a peer whose tunnel would start a handshake on it, unless no cover
traffic goes before its initiations. -/
def Guarded (s : EventLoop C) : Input → Prop
  | .connected conn [] => ∀ handler p, s.queue[conn]? = some handler →
      s.device.arcs[handler.peer]? = some p → p.tunnel.Startable → p.tunnel.Uncovered
  | _ => True

theorem udpHandler_sendsCovered {datagram : Bytes} {addr : SocketAddr} {connects : Bool}
    (hd : s.device.Drained) (h : s.udpHandler datagram addr connects e = .ok (effects, s', e')) :
    Device.SendsCovered ε s.device effects s'.device := by
  obtain ⟨limiter, limiter', -, -, ⟨rfl, hcookies, -⟩ | ⟨packet, ref, p, e₁, -, -, hdispatch, -⟩⟩ :=
    udpHandler_cases h
  · exact .nothing hd rfl fun ref => sendsOf_of_no_peer hcookies
  · obtain ⟨good, p', conn, hhandle, harcs, -⟩ := udpHandler_of_dispatch h hdispatch
    have hp := hdispatch.peer
    have hsent := Peer.handleAnonymous_sendsCovered (hd.get hp) hhandle
    -- the socket that may be connected makes no difference to the tunnel
    have hconnected : Peer.SendsCovered ε ref p effects (p'.withConn conn) := hsent
    exact .of_peer hd hp (Peer.served_handleAnonymous hhandle).2 hconnected harcs

/-- **What a step sends.**  With nothing waiting before it, and as long as it is guarded. -/
theorem Step.sendsCovered (hd : s.device.Drained) (hguard : s.Guarded input)
    (hstep : Step ε s input effects s') :
    Device.SendsCovered ε s.device effects s'.device ∨ (effects = [] ∧ s'.device.Drained) := by
  cases hstep with
  | @control event e => exact .inr ⟨rfl, Device.drained_step hd event e⟩
  | setKey => exact .inr ⟨rfl, Device.drained_setKey hd _ _⟩
  | setAmneziaConfig => exact .inr ⟨rfl, Device.drained_setAmneziaConfig hd _ _⟩
  | openListenSocket => exact .inr ⟨rfl, Device.Drained.forPeers hd fun _ => rfl⟩
  | timers hrun => exact .inl (Device.timePeers_sendsCovered hd hrun)
  | iface hrun => exact .inl (Device.ifaceHandler_sendsCovered hd hrun)
  | anonymous hrun => exact .inl (udpHandler_sendsCovered hd hrun)
  | @connected _ conn handler datagram _ e e' hlive hrun =>
    obtain ⟨⟨effects₁, d, e₁⟩, hhandler, hrun⟩ := bind_eq_ok.mp hrun
    cases hrun
    refine .inl (.atPeer hd ?_ hhandler)
    intro p p' effects e e' hp hrun
    refine ⟨(Peer.served_handleConnected hrun).2,
      Peer.handleConnected_sendsCovered (hd.get hp) ?_ hrun⟩
    rintro rfl
    exact hguard handler p hlive.1 hp
  | countDevice => exact .inr ⟨rfl, hd⟩
  | @countPeer ref p r hp hcount =>
    have hqueue := hd.get hp
    refine .inr ⟨rfl, ?_⟩
    intro q hq
    rcases List.mem_or_eq_of_mem_set hq with hq | rfl
    · exact hd q hq
    · exact hqueue

/-! ## Runs -/

/-- One step of a run. -/
structure Transition (C : Crypto) where
  input : Input
  effects : List Effect
  next : EventLoop C

/-- The steps follow each other from a state on. -/
def IsRun (ε : Type) [Env ε] : EventLoop C → List (Transition C) → Prop
  | _, [] => True
  | s, step :: steps => Step ε s step.input step.effects step.next ∧ IsRun ε step.next steps

theorem IsRun.cons {steps : List (Transition C)} (hstep : Step ε s input effects s')
    (h : IsRun ε s' steps) : IsRun ε s (⟨input, effects, s'⟩ :: steps) :=
  ⟨hstep, h⟩

/-- Every step is guarded. -/
def GuardedRun : EventLoop C → List (Transition C) → Prop
  | _, [] => True
  | s, step :: steps => s.Guarded step.input ∧ GuardedRun step.next steps

/-- A truthful log of what the tunnel of a peer sends in a run. -/
def LogOf (ε : Type) [Env ε] (ref : PeerRef) :
    EventLoop C → List (Transition C) → List (Destination × WireItem) → Prop
  | _, [], log => log = []
  | s, step :: steps, log => ∃ first rest, log = first ++ rest ∧
      Device.Logs ε ref s.device step.effects step.next.device first ∧
      LogOf ε ref step.next steps rest

theorem Step.logs (hd : s.device.Drained) (hguard : s.Guarded input)
    (hstep : Step ε s input effects s') (ref : PeerRef) :
    ∃ log, Device.Logs ε ref s.device effects s'.device log ∧ CoveredFrom [] log := by
  rcases hstep.sendsCovered hd hguard with hcovered | ⟨rfl, -⟩
  · cases hp : s.device.arcs[ref]? with
    | none => exact ⟨[], ⟨(hcovered.absent ref hp).symm, fun h => absurd rfl h⟩, rfl⟩
    | some p =>
      obtain ⟨p', log, hp', hsends, hwire, hlog⟩ := hcovered.log ref p hp
      exact ⟨log, ⟨hsends, fun _ => ⟨p, p', hp, hp', hwire⟩⟩, hlog⟩
  · exact ⟨[], ⟨rfl, fun h => absurd rfl h⟩, rfl⟩

theorem Step.drained (hd : s.device.Drained) (hguard : s.Guarded input)
    (hstep : Step ε s input effects s') : s'.device.Drained := by
  rcases hstep.sendsCovered hd hguard with hcovered | ⟨-, hd'⟩
  · exact hcovered.drained
  · exact hd'

theorem logOf_of_guarded {steps : List (Transition C)} (hd : s.device.Drained)
    (hrun : IsRun ε s steps) (hguarded : GuardedRun s steps) (ref : PeerRef) :
    ∃ log, LogOf ε ref s steps log ∧ CoveredFrom [] log := by
  induction steps generalizing s with
  | nil => exact ⟨[], rfl, rfl⟩
  | cons step steps ih =>
    obtain ⟨hstep, hrest⟩ := hrun
    obtain ⟨hguard, hguards⟩ := hguarded
    obtain ⟨first, hfirst, hcovered⟩ := hstep.logs hd hguard ref
    obtain ⟨log, hlog, hcovered'⟩ := ih (hstep.drained hd hguard) hrest hguards
    exact ⟨first ++ log, ⟨first, log, rfl, hfirst, hlog⟩,
      (coveredFrom_append log hcovered).mpr hcovered'⟩

/-- **Cover traffic precedes every initiation.**  In every run of a new device in which no empty
datagram reaches a connected socket of a peer that waits to start a handshake, the datagrams of
each peer have a truthful log in which every initiation follows exactly the datagrams that were
queued for it, on the same path and behind the initiation before it, and nothing is left over. -/
theorem cover_precedes_initiations {mtu : Nat} {nextIndex : IndexLfsr} {useConnectedSocket : Bool}
    {steps : List (Transition C)} (hrun : IsRun ε (.new mtu nextIndex useConnectedSocket) steps)
    (hguarded : GuardedRun (.new mtu nextIndex useConnectedSocket) steps) (ref : PeerRef) :
    ∃ log, LogOf ε ref (.new mtu nextIndex useConnectedSocket) steps log ∧ CoveredFrom [] log := by
  refine logOf_of_guarded ?_ hrun hguarded ref
  intro p hp
  cases hp

/-! ## A flush from a connected socket -/

/-- The loop after a handler. -/
def afterHandler (s : EventLoop C) (run : Outcome (List Effect × EventLoop C × ε)) : EventLoop C :=
  match run with
  | .ok (_, s, _) => s
  | .error _ => s

omit [Env ε] in
theorem eq_afterHandler (s : EventLoop C) (run : Outcome (List Effect × EventLoop C × ε))
    (h : Outcome.test run (fun _ => true) = true) :
    ∃ effects e', run = .ok (effects, s.afterHandler run, e') := by
  obtain ⟨⟨effects, s', e'⟩, rfl, -⟩ := Outcome.test_eq_true_iff.mp h
  exact ⟨effects, e', rfl⟩

/-- The handler of the interface on the loop. -/
def ifaceHandler (s : EventLoop C) (src : Bytes) (e : ε) :
    Outcome (List Effect × EventLoop C × ε) :=
  (s.device.ifaceHandler src e).map fun (effects, d, e) => (effects, { s with device := d }, e)

theorem step_iface {src : Bytes} (h : s.ifaceHandler src e = .ok (effects, s', e')) :
    Step ε s (.iface src) effects s' := by
  obtain ⟨⟨effects₁, d, e₁⟩, hrun, heq⟩ := map_eq_ok.mp h
  cases heq
  exact .iface hrun

/-- One junk packet before each initiation, and a prefix that leaves transport packets no room. -/
def crampedConfig : Amnezia3Config := { paddings := { s4 := 65535 }, junk := ⟨1, 4, 4⟩ }

end EventLoop

namespace EventLoop

/-- A device with this configuration, -/
def crampedLoop : EventLoop Crypto.transparent :=
  let s := keyedLoop true
  { s with device := (s.device.setAmneziaConfig crampedConfig ({} : StillMachine)).2.1 }

/-- a peer that `192.168.0.0/16` is routed to, -/
def crampedPeer : PeerUpdate :=
  { publicKey := zeroKey, allowedIps := [⟨.v4 0xC0A80000, 16⟩] }

def crampedPaired : EventLoop Crypto.transparent :=
  let s := crampedLoop
  { s with device := (Device.step (s.device, ({} : StillMachine)) (.updatePeer crampedPeer)).1 }

/-- and a socket connected to the peer after its initiation. -/
def crampedConnected : EventLoop Crypto.transparent :=
  crampedPaired.afterDatagram Tunn.plainInitiation homeAddr ({} : StillMachine)

/-- A packet is read from the interface: it waits, and a handshake is started. -/
def crampedWaiting : EventLoop Crypto.transparent :=
  crampedConnected.afterHandler (crampedConnected.ifaceHandler innerPacket ({} : StillMachine))

theorem crampedWaiting_run : ∃ greeting started,
    Step StillMachine (newLoop true) (.setKey zeroKey) [] (keyedLoop true) ∧
    Step StillMachine (keyedLoop true) (.setAmneziaConfig crampedConfig) [] crampedLoop ∧
    Step StillMachine crampedLoop (.control (.updatePeer crampedPeer)) [] crampedPaired ∧
    Step StillMachine crampedPaired (.anonymous Tunn.plainInitiation homeAddr) greeting
      crampedConnected ∧
    Step StillMachine crampedConnected (.iface innerPacket) started crampedWaiting ∧
    (sendsOf 0 started).length = 2 := by
  have hgreet : ∃ effects e', crampedPaired.udpHandler Tunn.plainInitiation homeAddr true
      ({} : StillMachine) = .ok (effects, crampedConnected, e') :=
    udpHandler_eq_afterDatagram (by decide +kernel)
  have hstart : Outcome.test (crampedConnected.ifaceHandler innerPacket ({} : StillMachine))
      (fun x => decide ((sendsOf 0 x.1).length = 2)) = true := by decide +kernel
  obtain ⟨greeting, e₁, hgreet⟩ := hgreet
  obtain ⟨⟨started, s₁, e₂⟩, hrun, hsends⟩ := Outcome.test_eq_true_iff.mp hstart
  have hnext : crampedWaiting = s₁ := by rw [crampedWaiting, hrun, afterHandler]
  refine ⟨greeting, started, .setKey, .setAmneziaConfig, .control, .anonymous hgreet, ?_,
    of_decide_eq_true hsends⟩
  rw [hnext]
  exact step_iface hrun

/-- The junk goes out before the initiation that a packet from the interface starts. -/
theorem cover_precedes_initiations_cramped :
    ∃ steps log, IsRun StillMachine (newLoop true) steps ∧ GuardedRun (newLoop true) steps ∧
      (∃ step ∈ steps, (sendsOf 0 step.effects).length = 2) ∧
      LogOf StillMachine 0 (newLoop true) steps log ∧ CoveredFrom [] log := by
  obtain ⟨greeting, started, hkey, hconfig, hadd, hgreet, hstart, hsends⟩ := crampedWaiting_run
  let steps : List (Transition Crypto.transparent) :=
    [⟨.setKey zeroKey, [], keyedLoop true⟩, ⟨.setAmneziaConfig crampedConfig, [], crampedLoop⟩,
      ⟨.control (.updatePeer crampedPeer), [], crampedPaired⟩,
      ⟨.anonymous Tunn.plainInitiation homeAddr, greeting, crampedConnected⟩,
      ⟨.iface innerPacket, started, crampedWaiting⟩]
  have hrun : IsRun StillMachine (newLoop true) steps :=
    .cons hkey (.cons hconfig (.cons hadd (.cons hgreet (.cons hstart trivial))))
  have hguarded : GuardedRun (newLoop true) steps :=
    ⟨trivial, trivial, trivial, trivial, trivial, trivial⟩
  obtain ⟨log, hlog, hcovered⟩ := cover_precedes_initiations hrun hguarded 0
  have hlast : ⟨.iface innerPacket, started, crampedWaiting⟩ ∈ steps := by simp [steps]
  exact ⟨steps, log, hrun, hguarded, ⟨_, hlast, hsends⟩, hlog, hcovered⟩

/-- Another initiation of the peer, a second later. -/
def laterInitiation : Bytes :=
  match Tunn.freshTunn.formatHandshakeInitiation handshakeInitSz false
      ({ instant := Duration.fromSecs 1 } : StillMachine) with
  | .ok (.writeToNetwork datagram, _, _) => datagram
  | _ => []

/-- The peer uses its session, -/
def crampedConfirmed : EventLoop Crypto.transparent :=
  crampedWaiting.afterHandler
    (crampedWaiting.connHandler 0 homeHandler innerDatagram ({} : StillMachine))

/-- and starts another handshake, which ends that of the device.  The packet still waits, since it
does not fit into a datagram. -/
def crampedAnswered : EventLoop Crypto.transparent :=
  crampedConfirmed.afterHandler
    (crampedConfirmed.connHandler 0 homeHandler laterInitiation ({} : StillMachine))

/-- The device gets another key, and the sessions are gone. -/
def crampedRekeyed : EventLoop Crypto.transparent :=
  { crampedAnswered with
    device := (crampedAnswered.device.setKey (toArr 32 [1]) ({} : StillMachine)).1 }

/-- An empty datagram arrives. -/
def crampedFlushed : EventLoop Crypto.transparent :=
  crampedRekeyed.afterHandler (crampedRekeyed.connHandler 0 homeHandler [] ({} : StillMachine))

theorem crampedFlushed_run : ∃ written answered,
    Step StillMachine crampedWaiting (.connected 0 innerDatagram) written crampedConfirmed ∧
    Step StillMachine crampedConfirmed (.connected 0 laterInitiation) answered crampedAnswered ∧
    Step StillMachine crampedAnswered (.setKey (toArr 32 [1])) [] crampedRekeyed := by
  have hconfirm := eq_afterHandler crampedWaiting
    (crampedWaiting.connHandler 0 homeHandler innerDatagram ({} : StillMachine)) (by decide +kernel)
  have hanswer := eq_afterHandler crampedConfirmed
    (crampedConfirmed.connHandler 0 homeHandler laterInitiation ({} : StillMachine))
    (by decide +kernel)
  obtain ⟨written, e₁, hconfirm⟩ := hconfirm
  obtain ⟨answered, e₂, hanswer⟩ := hanswer
  have hlive : crampedWaiting.Live 0 homeHandler :=
    live_of_conn (by decide +kernel) (by decide +kernel)
  have hlive' : crampedConfirmed.Live 0 homeHandler :=
    live_of_conn (by decide +kernel) (by decide +kernel)
  exact ⟨written, answered, .connected hlive hconfirm, .connected hlive' hanswer, .setKey⟩

/-- The datagram that is sent then. -/
def flushedInitiation : Bytes :=
  match crampedRekeyed.connHandler 0 homeHandler [] ({} : StillMachine) with
  | .ok ([.send _ datagram _], _, _) => datagram
  | _ => []

theorem crampedFlushed_step : Step StillMachine crampedRekeyed (.connected 0 [])
    [.send 0 flushedInitiation (.conn 0)] crampedFlushed := by
  have hlive : crampedRekeyed.Live 0 homeHandler :=
    live_of_conn (by decide +kernel) (by decide +kernel)
  have htest : Outcome.test (crampedRekeyed.connHandler 0 homeHandler [] ({} : StillMachine))
      (fun x => decide (x.1 = [.send 0 flushedInitiation (.conn 0)])) = true := by decide +kernel
  obtain ⟨⟨effects, s₁, e₁⟩, hrun, hsent⟩ := Outcome.test_eq_true_iff.mp htest
  obtain rfl := of_decide_eq_true hsent
  have hnext : crampedFlushed = s₁ := by rw [crampedFlushed, hrun, afterHandler]
  rw [hnext]
  exact .connected hlive hrun

/-- The datagram is an initiation, for which a junk packet was queued. -/
theorem crampedRekeyed_initiates : ∃ p t₀ t₁, crampedRekeyed.device.arcs[0]? = some p ∧
    p.tunnel.networkOutgoing = [] ∧ Tunn.SameWire p.tunnel t₀ ∧
    Tunn.Initiates StillMachine t₀ t₁ [List.replicate 4 0] flushedInitiation := by
  have htest : crampedRekeyed.device.arcs[0]?.any (fun p =>
      decide (p.tunnel.networkOutgoing = [] ∧ p.tunnel.packetQueue ≠ [] ∧
        p.tunnel.handshake.isInProgress = false) &&
      (p.tunnel.sessions (slotOf p.tunnel.current)).isNone &&
      Outcome.test (p.tunnel.decapsulate (some homeHandler.peerAddr) [] maxUdpSize
        ({} : StillMachine)) (fun x => decide (x.1 = .writeToNetwork flushedInitiation ∧
          x.2.1.networkOutgoing = [List.replicate 4 0]))) = true := by decide +kernel
  obtain ⟨p, hp, htest⟩ := (Option.any_eq_true _ _).mp htest
  rw [Bool.and_eq_true, Bool.and_eq_true, Option.isNone_iff_eq_none] at htest
  obtain ⟨⟨hstate, hsession⟩, hcall⟩ := htest
  obtain ⟨hqueue, hwaiting, hidle⟩ := of_decide_eq_true hstate
  obtain ⟨⟨r, t₁, e₂⟩, hcall, hresult⟩ := Outcome.test_eq_true_iff.mp hcall
  obtain ⟨rfl, hjunk⟩ := of_decide_eq_true hresult
  obtain ⟨t₀, queued, hsame, hinitiates⟩ :=
    Tunn.Startable.initiates ⟨hwaiting, hsession, hidle⟩ hcall
  have hqueued := hinitiates.queue
  rw [hsame.queue, hqueue, List.nil_append, hjunk] at hqueued
  rw [← hqueued] at hinitiates
  exact ⟨p, t₀, t₁, hp, hqueue, hsame, hinitiates⟩

/-- **An initiation goes out alone.**  A packet from the interface waits, since it fits into no
datagram; the handshake that it started is over and the sessions are gone with the old key.  Then
an empty datagram on the connected socket makes the tunnel start a handshake: what is sent is the
initiation, and the junk that was queued for it is still there. -/
theorem initiation_without_cover :
    ∃ (greeting started written answered : List Effect) (junk : Bytes)
      (p p' : Peer Crypto.transparent) (t₀ t₁ : Tunn Crypto.transparent),
      IsRun StillMachine (newLoop true)
        [⟨.setKey zeroKey, [], keyedLoop true⟩, ⟨.setAmneziaConfig crampedConfig, [], crampedLoop⟩,
          ⟨.control (.updatePeer crampedPeer), [], crampedPaired⟩,
          ⟨.anonymous Tunn.plainInitiation homeAddr, greeting, crampedConnected⟩,
          ⟨.iface innerPacket, started, crampedWaiting⟩,
          ⟨.connected 0 innerDatagram, written, crampedConfirmed⟩,
          ⟨.connected 0 laterInitiation, answered, crampedAnswered⟩,
          ⟨.setKey (toArr 32 [1]), [], crampedRekeyed⟩,
          ⟨.connected 0 [], [.send 0 flushedInitiation (.conn 0)], crampedFlushed⟩] ∧
      crampedRekeyed.device.arcs[0]? = some p ∧ p.tunnel.networkOutgoing = [] ∧
      Tunn.SameWire p.tunnel t₀ ∧ Tunn.Initiates StillMachine t₀ t₁ [junk] flushedInitiation ∧
      crampedFlushed.device.arcs[0]? = some p' ∧ p'.tunnel.networkOutgoing = [junk] := by
  obtain ⟨greeting, started, hkey, hconfig, hadd, hgreet, hstart, -⟩ := crampedWaiting_run
  obtain ⟨written, answered, hconfirm, hanswer, hrekey⟩ := crampedFlushed_run
  obtain ⟨p, t₀, t₁, hp, hqueue, hsame, hinitiates⟩ := crampedRekeyed_initiates
  have hend : IsRun StillMachine crampedFlushed [] := trivial
  have hrun := IsRun.cons hkey (.cons hconfig (.cons hadd (.cons hgreet (.cons hstart
    (.cons hconfirm (.cons hanswer (.cons hrekey (.cons crampedFlushed_step hend))))))))
  have hafter : crampedFlushed.device.arcs[0]?.any (fun p =>
      decide (p.tunnel.networkOutgoing = [List.replicate 4 0])) = true := by decide +kernel
  obtain ⟨p', hp', hafter⟩ := (Option.any_eq_true _ _).mp hafter
  exact ⟨greeting, started, written, answered, _, p, p', t₀, t₁, hrun, hp, hqueue,
    hsame, hinitiates, hp', of_decide_eq_true hafter⟩

end EventLoop
