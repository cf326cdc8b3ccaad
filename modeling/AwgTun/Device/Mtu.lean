import AwgTun.Device.Routing

/-!
# The MTU of the interface

A tunnel keeps a copy of the interface's MTU.  Two handlers read the MTU periodically and
write it to the device: `register_timers` compares it with what the device has and pushes
a change into the tunnels, `register_monitor` only stores it.  A change that the monitor
sees first is therefore no change any more when the timers run.

* `timersHandler_syncs_iff` — when a run of the timers handler leaves every tunnel with the
  MTU that it read.
* `mtu_change_reaches_peers_iff` — it does so at every point of a run exactly if the monitor
  never reads an MTU that some tunnel does not have yet.
* `timers_steps_reach_peers` — then every timers step of the run does.
* `monitor_hides_mtu_change` — a run in which it does.
-/

open Control

namespace Device

variable [IpTable] {C : Crypto} {ε : Type} [Env ε] {d : Device C} {s : Device C × ε}
  {p : Peer C}

/-- Every peer in the device has a tunnel with this MTU. -/
def PeersHaveMtu (d : Device C) (mtu : UInt32) : Prop :=
  ∀ ref, d.InDevice ref → ∀ p, d.arcs[ref]? = some p → p.tunnel.mtu = mtu

/-- The tunnels have the MTU of the device. -/
def InSync (d : Device C) : Prop := d.PeersHaveMtu (UInt32.ofNat d.mtu)

/-- A run of the timers handler in this state leaves every tunnel with the MTU it reads. -/
def TimersSync (s : Device C × ε) : Prop :=
  (step s (.timers true)).1.PeersHaveMtu (UInt32.ofNat s.1.iface.currentMtu)

/-- If the step is a run of the monitor that reads an MTU, every tunnel has it already. -/
def MonitorFindsNoChange (s : Device C × ε) : Event → Prop
  | .monitor true true => s.1.PeersHaveMtu (UInt32.ofNat s.1.iface.currentMtu)
  | _ => True

/-! ## Pushing an MTU -/

theorem mtu_foldl_setMtu {mtu : UInt32} (refs : List PeerRef) (arcs : List (Peer C)) {ref : PeerRef}
    (h : (refs.foldl (fun arcs peer => arcs.modify peer (Peer.setMtu mtu)) arcs)[ref]? = some p) :
    (ref ∈ refs ∨ ∀ p, arcs[ref]? = some p → p.tunnel.mtu = mtu) → p.tunnel.mtu = mtu := by
  induction refs generalizing arcs with
  | nil =>
    rintro (hmem | hold)
    · cases hmem
    · exact hold p h
  | cons r refs ih =>
    intro hor
    apply ih (arcs.modify r (Peer.setMtu mtu)) h
    by_cases hr : r = ref
    · -- this round sets the MTU, and later rounds set the same one
      right
      intro q hq
      rw [hr, List.getElem?_modify_eq] at hq
      obtain ⟨q₀, -, rfl⟩ := Option.map_eq_some_iff.mp hq
      rfl
    · rcases hor with hmem | hold
      · exact .inl ((List.mem_cons.mp hmem).resolve_left (Ne.symm hr))
      · right
        intro q hq
        rw [List.getElem?_modify_ne _ _ hr] at hq
        exact hold q hq

theorem peersHaveMtu_forPeers (d : Device C) (mtu : UInt32) :
    (d.forPeers (Peer.setMtu mtu)).PeersHaveMtu mtu := by
  rintro ref ⟨pubKey, hkey⟩ p hp
  refine mtu_foldl_setMtu _ _ hp (.inl ?_)
  exact List.mem_map.mpr ⟨⟨pubKey, ref⟩, AList.mem_lookup_iff.mp hkey, rfl⟩

theorem peersHaveMtu_pollMtu_iff (d : Device C) :
    (d.pollMtu true).PeersHaveMtu (UInt32.ofNat d.iface.currentMtu) ↔
      d.iface.currentMtu ≠ d.mtu ∨ d.PeersHaveMtu (UInt32.ofNat d.iface.currentMtu) := by
  rw [pollMtu_true]
  split_ifs with hne
  · exact iff_of_true (peersHaveMtu_forPeers _ _) (.inl hne)
  · exact ⟨.inr, fun h => h.resolve_left hne⟩

/-- **One run of the timers handler** brings every tunnel to the MTU it reads exactly if this
is not what the device has already, or what every tunnel has already. -/
theorem timersHandler_syncs_iff (s : Device C × ε) :
    TimersSync s ↔
      s.1.iface.currentMtu ≠ s.1.mtu ∨ s.1.PeersHaveMtu (UInt32.ofNat s.1.iface.currentMtu) := by
  obtain ⟨d, e⟩ := s
  have hreset : (d.resetRateLimiter e).1.iface = d.iface ∧ (d.resetRateLimiter e).1.mtu = d.mtu ∧
      (d.resetRateLimiter e).1.peers = d.peers ∧ (d.resetRateLimiter e).1.arcs = d.arcs := by
    unfold resetRateLimiter
    split <;> exact ⟨rfl, rfl, rfl, rfl⟩
  obtain ⟨hiface, hmtu, hpeers, harcs⟩ := hreset
  have hpoll := peersHaveMtu_pollMtu_iff (d.resetRateLimiter e).1
  have hhave : (d.resetRateLimiter e).1.PeersHaveMtu (UInt32.ofNat d.iface.currentMtu) ↔
      d.PeersHaveMtu (UInt32.ofNat d.iface.currentMtu) := by
    rw [PeersHaveMtu, PeersHaveMtu, harcs]
    simp only [InDevice, hpeers]
  rw [hiface, hmtu, hhave] at hpoll
  exact hpoll

theorem InSync.timersSync (h : s.1.InSync) : TimersSync s := by
  rw [timersHandler_syncs_iff]
  by_cases heq : s.1.iface.currentMtu = s.1.mtu
  · right
    rw [heq]
    exact h
  · exact .inl heq

/-! ## Steps -/

/-- Closing a peer's socket does not touch its tunnel. -/
theorem getElem?_modify_shutdownEndpoint {arcs : List (Peer C)} {r ref : PeerRef}
    (h : (arcs.modify r Peer.shutdownEndpoint)[ref]? = some p) :
    ∃ q, arcs[ref]? = some q ∧ q.tunnel = p.tunnel := by
  rw [List.getElem?_modify] at h
  obtain ⟨q, hq, rfl⟩ := Option.map_eq_some_iff.mp h
  refine ⟨q, hq, ?_⟩
  split_ifs <;> rfl

theorem InSync.removePeer (h : d.InSync) (pubKey : Key) :
    (d.removePeer pubKey).InSync := by
  unfold Device.removePeer
  cases hkey : d.peers.lookup pubKey with
  | none => exact h
  | some peer =>
    rintro ref ⟨k, hk⟩ p hp
    obtain ⟨q, hq, htunnel⟩ := getElem?_modify_shutdownEndpoint hp
    rw [← htunnel]
    exact h ref ⟨k, ((AList.lookup_erase_eq_some_iff _).mp hk).2⟩ q hq

theorem InSync.updated {d d' : Device C} {u : PeerUpdate} (h : d.InSync)
    (hupdated : Updated d u d') : d'.InSync := by
  cases hupdated with
  | removed hremove => exact h.removePeer u.publicKey
  | refused hremove hno nextIndex => exact h
  | @added hadmits peer _ _ hallowed hmtu htable =>
    rintro ref href p hp
    by_cases hlt : ref < d.arcs.length
    · have hold := ((inDevice_insert hadmits.publicKey).mp href).resolve_left (Nat.ne_of_lt hlt)
      rw [List.getElem?_append_left hlt] at hp
      exact h ref hold p hp
    · rw [List.getElem?_append_right (Nat.le_of_not_lt hlt)] at hp
      obtain rfl : p = peer := List.mem_singleton.mp (List.mem_of_getElem? hp)
      exact hmtu

/-- A poll brings the device and the tunnels to the MTU of the interface. -/
theorem InSync.pollMtu (h : d.InSync) (readable : Bool) :
    (d.pollMtu readable).InSync := by
  cases readable with
  | false => exact h
  | true =>
    have hmtu : (d.pollMtu true).mtu = d.iface.currentMtu := by
      rw [pollMtu_true]
      split_ifs <;> rfl
    rw [InSync, hmtu, peersHaveMtu_pollMtu_iff]
    by_cases heq : d.iface.currentMtu = d.mtu
    · right
      rw [heq]
      exact h
    · exact .inl heq

theorem InSync.resetRateLimiter (h : d.InSync) (e : ε) :
    (d.resetRateLimiter e).1.InSync := by
  unfold Device.resetRateLimiter
  split <;> exact h

theorem inSync_clearPeers (d : Device C) : d.clearPeers.InSync := by
  rintro ref ⟨k, hk⟩
  cases hk

theorem InSync.step {ev : Event} (h : s.1.InSync) (hev : MonitorFindsNoChange s ev) :
    (Device.step s ev).1.InSync := by
  obtain ⟨d, e⟩ := s
  cases ev with
  | updatePeer u => exact h.updated (updatePeer_updated d u e)
  | removePeer pubKey => exact h.removePeer pubKey
  | clearPeers => exact inSync_clearPeers d
  | ifaceMtu mtu => exact h
  | monitor pathExists readable =>
    cases pathExists <;> cases readable
    · exact h
    · exact h
    · exact h
    · exact hev
  | timers readable => exact (h.resetRateLimiter e).pollMtu readable

/-- **No MTU change is lost** exactly in these runs: the timers handler, wherever it runs,
leaves every tunnel with the MTU that it reads if and only if the monitor never reads an
MTU that some tunnel does not have yet. -/
theorem mtu_change_reaches_peers_iff (d : Device C) (e : ε) (events : List Event) :
    Trace.AllStates step TimersSync (d.clearPeers, e) events ↔
      Trace.AllSteps step MonitorFindsNoChange (d.clearPeers, e) events := by
  have hstart := inSync_clearPeers d
  refine Trace.allStates_iff_allSteps (fun s : Device C × ε => s.1.InSync) (fun s ev hs => ?_)
    (fun _ _ hs hev => hs.step hev) events (d.clearPeers, e) hstart (InSync.timersSync hstart)
  refine ⟨fun hsync => ?_, fun hev => InSync.timersSync (hs.step hev)⟩
  cases ev with
  | monitor pathExists readable =>
    cases pathExists with
    | false => trivial
    | true =>
      cases readable with
      | false => trivial
      | true =>
        -- after the monitor the device has the MTU, so the timers see no change
        exact ((timersHandler_syncs_iff _).mp hsync).resolve_left fun hne => hne rfl
  | _ => trivial

/-- The step leaves every tunnel with the MTU it reads, if it is a run of the timers handler that
reads one. -/
def SyncsIfTimers (s : Device C × ε) : Event → Prop
  | .timers true => (step s (.timers true)).1.PeersHaveMtu (UInt32.ofNat s.1.iface.currentMtu)
  | _ => True

/-- In these runs, every run of the timers handler brings what it reads to every tunnel. -/
theorem timers_steps_reach_peers (d : Device C) (e : ε) {events : List Event}
    (h : Trace.AllSteps step MonitorFindsNoChange (d.clearPeers, e) events) :
    Trace.AllSteps step SyncsIfTimers (d.clearPeers, e) events := by
  refine Trace.AllSteps.imp (fun s : Device C × ε => s.1.InSync) (fun _ _ hs hev => hs.step hev)
    (fun s ev hs _ => ?_) events _ (inSync_clearPeers d) h
  cases ev with
  | timers readable =>
    cases readable with
    | false => trivial
    | true => exact InSync.timersSync hs
  | _ => trivial

end Device

namespace Device

/-- A peer is added, the MTU of the interface goes from 1420 to 1280, the monitor runs, then
the timers: the peer's tunnel still has 1420. -/
theorem monitor_hides_mtu_change :
    let start : Device .transparent :=
      { Device.new 1420 ⟨1, 1, 1⟩ with keyPair := some (zeroKey, zeroKey) }
    let events : List Event :=
      [.updatePeer { publicKey := zeroKey }, .ifaceMtu 1280, .monitor true true, .timers true]
    let d := (events.foldl step (start, ({} : StillMachine))).1
    d.peers.lookup zeroKey = some 0 ∧ d.iface.currentMtu = 1280 ∧
      d.arcs[0]?.map (fun p => p.tunnel.mtu) = some 1420 := by
  decide +kernel

end Device
