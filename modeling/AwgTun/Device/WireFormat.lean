import AwgTun.Device.Overlay
import AwgTun.Device.Replay
import AwgTun.Lib.Directory

/-!
# One wire format

A tunnel copies its configuration when it is made, so whatever changes the configuration of the
device or makes a tunnel has to hand on the same values.

* `Tunn.Speaks` — the tunnel has the settings of a configuration, with its own range of keepalive
  intervals if it has one.
* `Device.OneFormat` — every peer in the device speaks the configuration of the device.
* `Device.rebuildPeers_rebuilt` — the loop of `set_amnezia_config` leaves no peer behind: what it
  hands on has been validated.
* `EventLoop.one_wire_format` — in every state that the event loop and the configuration socket
  lead to, all peers speak the configuration of the device.
-/

open Text Control

variable {C : Crypto} {ε : Type} [Env ε]

/-! ## Tunnels -/

namespace Tunn

variable {t t' : Tunn C} {cfg : Amnezia3Config} {own : Option U32Range}

/-- The tunnel has the settings of a configuration, but for its own range of keepalive intervals,
if there is one. -/
structure Speaks (t : Tunn C) (cfg : Amnezia3Config) (own : Option U32Range) : Prop extends
    t.HasConfig cfg where
  junk : t.junkConfig = cfg.junk
  initPackets : t.initPacketConfig = cfg.initPackets
  timingRanges : t.timers.timingRanges =
    { cfg.timingRanges with
      persistentKeepalive := own.getD cfg.timingRanges.persistentKeepalive }

theorem Speaks.of_settings (h : t.Speaks cfg own)
    (hsettings : t'.settings = { t.settings with mtu := t'.mtu })
    (hranges : t'.timers.timingRanges = t.timers.timingRanges) : t'.Speaks cfg own where
  toHasConfig := HasConfig.of_settings (t := { t with mtu := t'.mtu })
    ⟨h.headers, h.paddings, h.headerProtection, h.contentPadding, h.randomTrailers,
      h.disableCookies⟩ hsettings
  junk := (congrArg Settings.junkConfig hsettings).trans h.junk
  initPackets := (congrArg Settings.initPacketConfig hsettings).trans h.initPackets
  timingRanges := hranges.trans h.timingRanges

/-- **Any number of steps.** -/
theorem Speaks.evolves (h : t.Speaks cfg own) (hevolves : Evolves ε t t') : t'.Speaks cfg own := by
  induction hevolves with
  | refl => exact h
  | tail _ hlast ih =>
    cases hlast with
    | step hstep => exact ih.of_settings hstep.settings hstep.turn.timingRanges
    | count => exact ih.of_settings rfl rfl

end Tunn

/-! ## Devices -/

namespace Device

variable [IpTable] {d d' d'' : Device C} {own : Option U32Range} {ref : PeerRef} {e e' : ε}
  {refs : List PeerRef}

/-- A new tunnel speaks the configuration of the device. -/
theorem speaks_newWithAmnezia3 {privateKey pubKey : Key} {presharedKey : Option Key}
    {keepalive : Option UInt16} {index : UInt32} {tunnel : Tunn C}
    (h : Tunn.newWithAmnezia3 privateKey pubKey presharedKey keepalive index none (d.configFor own)
      e = (.ok tunnel, e')) : tunnel.Speaks d.amnezia own := by
  obtain ⟨-, rfl⟩ := Tunn.newWithAmnezia3_eq_ok h
  cases own with
  | none => exact ⟨⟨rfl, rfl, rfl, rfl, rfl, rfl⟩, rfl, rfl, rfl⟩
  | some range => exact ⟨⟨rfl, rfl, rfl, rfl, rfl, rfl⟩, rfl, rfl, rfl⟩

/-- The range of a peer passes the check of its field. -/
def ValidRange (own : Option U32Range) : Prop :=
  ∀ range, own = some range → range.validate "persistent_keepalive" = .ok ()

/-- What a valid configuration becomes for a peer is valid if the range of the peer is. -/
theorem configFor_validate (h : d.amnezia.validate = .ok ()) :
    (d.configFor own).validate = .ok () ↔ ValidRange own := by
  have hchecked := Amnezia3Config.validate_eq_ok_iff.mp h
  rw [Amnezia3Config.validate_eq_ok_iff]
  cases own with
  | none =>
    refine iff_of_true ?_ fun range hrange => by cases hrange
    exact ⟨hchecked.junk, hchecked.paddings, hchecked.initPackets, hchecked.headers,
      hchecked.contentPadding, hchecked.timingRanges, hchecked.nonces⟩
  | some range =>
    have hkeepalive := TimingRanges.validate_keepalive hchecked.timingRanges range
    constructor
    · rintro hnew _ ⟨⟩
      exact hkeepalive.mp hnew.timingRanges
    · intro hrange
      exact ⟨hchecked.junk, hchecked.paddings, hchecked.initPackets, hchecked.headers,
        hchecked.contentPadding, hkeepalive.mpr (hrange range rfl), hchecked.nonces⟩

/-- The peer behind a pointer speaks the configuration of the device. -/
def SpeaksAt (d : Device C) (ref : PeerRef) : Prop :=
  ∃ p, d.arcs[ref]? = some p ∧ p.tunnel.Speaks d.amnezia p.keepaliveRange

/-- **The invariant.**  It takes more than the peers: a change of the configuration reaches them
only if there is a key, and only if their tunnels can be made. -/
structure OneFormat (d : Device C) : Prop where
  config : d.amnezia.validate = .ok ()
  keyPair : ∀ ref, d.InDevice ref → d.keyPair.isSome
  ranges : ∀ p ∈ d.arcs, ValidRange p.keepaliveRange
  speaks : ∀ ref, d.InDevice ref → d.SpeaksAt ref

theorem oneFormat_new (mtu : Nat) (nextIndex : IndexLfsr) :
    (Device.new mtu nextIndex : Device C).OneFormat := by
  have hnone (ref : PeerRef) : ¬ (Device.new mtu nextIndex : Device C).InDevice ref := by
    rintro ⟨k, hk⟩
    cases hk
  refine ⟨?_, fun ref href => absurd href (hnone ref), ?_, fun ref href => absurd href (hnone ref)⟩
  · show Amnezia3Config.default.validate = .ok ()
    decide
  · intro p hp
    cases hp

/-- Peers that are left, and steps that their tunnels take. -/
theorem OneFormat.kept (h : d.OneFormat) (harcs : List.Forall₂ (Peer.Kept ε) d.arcs d'.arcs)
    (hin : ∀ ref, d'.InDevice ref → d.InDevice ref) (hamnezia : d'.amnezia = d.amnezia)
    (hkey : d.keyPair.isSome → d'.keyPair.isSome) : d'.OneFormat where
  config := hamnezia ▸ h.config
  keyPair := fun ref href => hkey (h.keyPair ref (hin ref href))
  ranges := by
    refine forall₂_forall_mem ?_ harcs h.ranges
    intro p p' hkept hrange
    rw [hkept.keepaliveRange]
    exact hrange
  speaks := by
    intro ref href
    obtain ⟨p, hp, hspeaks⟩ := h.speaks ref (hin ref href)
    obtain ⟨p', hp', hkept⟩ := forall₂_getElem?_left harcs hp
    refine ⟨p', hp', ?_⟩
    rw [hamnezia, hkept.keepaliveRange]
    exact hspeaks.evolves hkept.tunnel

theorem OneFormat.removePeer (h : d.OneFormat) (ε : Type) [Env ε] (pubKey : Key) :
    (d.removePeer pubKey).OneFormat := by
  refine h.kept (arcs_removePeer (ε := ε) d pubKey) ?_ ?_ ?_
  · rintro ref ⟨k, hk⟩
    unfold Device.removePeer at hk
    split at hk
    · exact ⟨k, hk⟩
    · exact ⟨k, ((AList.lookup_erase_eq_some_iff _).mp hk).2⟩
  · unfold Device.removePeer
    split <;> rfl
  · unfold Device.removePeer
    split <;> exact id

/-- A new peer. -/
theorem OneFormat.added (h : d.OneFormat) {pubKey : Key} (hkey : d.peers.lookup pubKey = none)
    (hpair : d.keyPair.isSome) {peer : Peer C}
    (hspeaks : peer.tunnel.Speaks d.amnezia peer.keepaliveRange)
    (hrange : ValidRange peer.keepaliveRange) (harcs : d'.arcs = d.arcs ++ [peer])
    (hpeers : d'.peers = d.peers.insert pubKey d.arcs.length) (hamnezia : d'.amnezia = d.amnezia)
    (hsame : d'.keyPair = d.keyPair) : d'.OneFormat where
  config := hamnezia ▸ h.config
  keyPair := fun _ _ => hsame ▸ hpair
  ranges := by
    intro p hp
    rw [harcs, List.mem_append, List.mem_singleton] at hp
    rcases hp with hp | rfl
    · exact h.ranges p hp
    · exact hrange
  speaks := by
    intro ref href
    rw [InDevice, hpeers, inDevice_insert hkey] at href
    rw [SpeaksAt, harcs, hamnezia]
    rcases href with rfl | href
    · exact ⟨peer, List.getElem?_concat_length .., hspeaks⟩
    · obtain ⟨p, hp, hspeaks'⟩ := h.speaks ref href
      have hlt : ref < d.arcs.length := (List.getElem?_eq_some_iff.mp hp).1
      exact ⟨p, by rw [List.getElem?_append_left hlt, hp], hspeaks'⟩

theorem OneFormat.updatePeer (h : d.OneFormat) (u : PeerUpdate) (e : ε) :
    (d.updatePeer u e).2.1.OneFormat := by
  have hupdates := updatePeer_updatesTo d u e
  generalize (d.updatePeer u e).2.1 = d' at hupdates
  cases hupdates with
  | removed => exact h.removePeer ε u.publicKey
  | present => exact h
  | refused => exact ⟨h.config, h.keyPair, h.ranges, h.speaks⟩
  | @added _ hkey hpair _ _ _ peer _ _ hmade _ hrange =>
    have hspeaks := speaks_newWithAmnezia3 hmade
    have hvalid := (Tunn.newWithAmnezia3_eq_ok hmade).1
    rw [configFor_validate h.config] at hvalid
    rw [← hrange] at hspeaks hvalid
    exact h.added hkey hpair hspeaks hvalid rfl rfl rfl rfl

/-! ## The loop of `set_amnezia_config` -/

/-- Some peers of a device were made anew, and now speak its configuration. -/
structure Rebuilt (d : Device C) (refs : List PeerRef) (d' : Device C) : Prop where
  peers : d'.peers = d.peers
  amnezia : d'.amnezia = d.amnezia
  keyPair : d'.keyPair = d.keyPair
  ranges : d'.arcs.map Peer.keepaliveRange = d.arcs.map Peer.keepaliveRange
  others : ∀ ref, d.SpeaksAt ref → d'.SpeaksAt ref
  speaks : ∀ ref ∈ refs, d'.SpeaksAt ref

theorem Rebuilt.refl (d : Device C) : Rebuilt d [] d :=
  ⟨rfl, rfl, rfl, rfl, fun _ h => h, by simp⟩

theorem Rebuilt.trans (h : Rebuilt d [ref] d') (h' : Rebuilt d' refs d'') :
    Rebuilt d (ref :: refs) d'' where
  peers := h'.peers.trans h.peers
  amnezia := h'.amnezia.trans h.amnezia
  keyPair := h'.keyPair.trans h.keyPair
  ranges := h'.ranges.trans h.ranges
  others := fun ref hspeaks => h'.others ref (h.others ref hspeaks)
  speaks := by
    intro ref' hmem
    rcases List.mem_cons.mp hmem with rfl | hmem
    · exact h'.others _ (h.speaks _ (List.mem_singleton_self _))
    · exact h'.speaks ref' hmem

theorem Rebuilt.validRanges (h : Rebuilt d refs d')
    (hranges : ∀ p ∈ d.arcs, ValidRange p.keepaliveRange) :
    ∀ p ∈ d'.arcs, ValidRange p.keepaliveRange := by
  intro p hp
  have hmem := List.mem_map_of_mem (f := Peer.keepaliveRange) hp
  rw [h.ranges] at hmem
  obtain ⟨p₀, hp₀, hsame⟩ := List.mem_map.mp hmem
  exact hsame ▸ hranges p₀ hp₀

/-- **One peer's turn.**  The branch that leaves it on its old tunnel is not taken. -/
theorem RebuildsTo.rebuilt {p : Peer C} (h : RebuildsTo ε d ref p d')
    (hconfig : d.amnezia.validate = .ok ()) (hp : d.arcs[ref]? = some p)
    (hrange : ValidRange p.keepaliveRange) : Rebuilt d [ref] d' := by
  cases h with
  | refused hinvalid => exact absurd ((configFor_validate hconfig).mpr hrange) hinvalid
  | @made index _ _ _ _ tunnel _ _ hmade =>
    have hlt : ref < d.arcs.length := (List.getElem?_eq_some_iff.mp hp).1
    have hspeaks := speaks_newWithAmnezia3 hmade
    have hnew : (d.arcs.set ref (p.setTunnel tunnel index))[ref]? =
        some (p.setTunnel tunnel index) := List.getElem?_set_self hlt
    refine ⟨rfl, rfl, rfl, ?_, ?_, ?_⟩
    · show (d.arcs.set ref (p.setTunnel tunnel index)).map Peer.keepaliveRange = _
      obtain ⟨-, rfl⟩ := List.getElem?_eq_some_iff.mp hp
      have hlt' : ref < (d.arcs.map Peer.keepaliveRange).length := by rwa [List.length_map]
      have hset := List.set_getElem_self hlt'
      rw [List.getElem_map] at hset
      rw [List.map_set]
      exact hset
    · rintro ref' ⟨p', hp', hspeaks'⟩
      by_cases hsame : ref' = ref
      · subst hsame
        exact ⟨_, hnew, hspeaks⟩
      · exact ⟨p', by rw [List.getElem?_set_ne (Ne.symm hsame), hp'], hspeaks'⟩
    · intro ref' hmem
      rw [List.mem_singleton.mp hmem]
      exact ⟨_, hnew, hspeaks⟩

/-- **The loop**, if it comes to its end. -/
theorem rebuildPeers_rebuilt {privateKey : Key} {entries : List (Sigma fun _ : Key => PeerRef)}
    (hrun : rebuildPeers privateKey entries d e = (.ok (), d', e'))
    (hconfig : d.amnezia.validate = .ok ()) (hranges : ∀ p ∈ d.arcs, ValidRange p.keepaliveRange)
    (hentries : ∀ entry ∈ entries, entry.2 < d.arcs.length) :
    Rebuilt d (entries.map (·.2)) d' := by
  induction entries generalizing d e with
  | nil =>
    cases hrun
    exact .refl _
  | cons entry entries ih =>
    obtain ⟨p, hp⟩ : ∃ p, d.arcs[entry.2]? = some p :=
      ⟨_, List.getElem?_eq_getElem (hentries entry List.mem_cons_self)⟩
    have hreturns : d.nextIndex.next.1.Returns := by
      cases hnext : d.nextIndex.next.1 with
      | ok index => exact ⟨index, rfl⟩
      | error panic =>
        -- the loop would have stopped here
        have hstops : (d.rebuildPeer privateKey entry.1 entry.2 e).1 = .error panic := by
          simp only [rebuildPeer, hp, hnext]
        rw [rebuildPeers] at hrun
        split at hrun
        · rename_i hfirst
          rw [hfirst] at hstops
          cases hstops
        · cases hrun
    obtain ⟨d₁, e₁, hfirst, hrebuilds⟩ := rebuildPeer_rebuildsTo hp hreturns privateKey entry.1 e
    have hrebuilt := hrebuilds.rebuilt hconfig hp (hranges p (List.mem_of_getElem? hp))
    have hlength : d₁.arcs.length = d.arcs.length := by
      simpa using congrArg List.length hrebuilt.ranges
    simp only [rebuildPeers, hfirst] at hrun
    refine hrebuilt.trans (ih hrun (hrebuilt.amnezia ▸ hconfig) (hrebuilt.validRanges hranges) ?_)
    intro entry' hmem
    rw [hlength]
    exact hentries entry' (List.mem_cons_of_mem _ hmem)

theorem OneFormat.ref_lt (h : d.OneFormat) (href : d.InDevice ref) :
    ref < d.arcs.length := by
  obtain ⟨p, hp, -⟩ := h.speaks ref href
  exact (List.getElem?_eq_some_iff.mp hp).1

/-- A valid configuration reaches every peer. -/
theorem OneFormat.setAmneziaConfig (h : d.OneFormat) {amnezia : Amnezia3Config}
    (hvalid : amnezia.validate = .ok ())
    (hrun : d.setAmneziaConfig amnezia e = (.ok (), d', e')) : d'.OneFormat := by
  unfold Device.setAmneziaConfig at hrun
  split_ifs at hrun with hsame
  · cases hrun
    exact h
  · simp only at hrun
    split at hrun
    · rename_i hnone
      cases hrun
      -- without a key there are no peers
      have hempty (ref : PeerRef) : ¬ d.InDevice ref := by
        intro href
        have hkey := h.keyPair ref href
        rw [show d.keyPair = none from hnone] at hkey
        cases hkey
      exact ⟨hvalid, h.keyPair, h.ranges, fun ref href => absurd href (hempty ref)⟩
    · rename_i privateKey publicKey hpair
      have hentry (entry : Sigma fun _ : Key => PeerRef)
          (hmem : entry ∈ Env.walk e d.peers.entries) : entry.2 < d.arcs.length :=
        h.ref_lt ⟨entry.1, AList.mem_lookup_iff.mpr (Env.mem_walk.mp hmem)⟩
      have hrebuilt := rebuildPeers_rebuilt hrun hvalid h.ranges hentry
      refine ⟨hrebuilt.amnezia ▸ hvalid, ?_, hrebuilt.validRanges h.ranges, ?_⟩
      · intro ref href
        rw [hrebuilt.keyPair]
        rw [InDevice, hrebuilt.peers] at href
        exact h.keyPair ref href
      · rintro ref ⟨k, hk⟩
        rw [hrebuilt.peers] at hk
        have hmem := (Env.walk_perm e _).mem_iff.mpr (AList.mem_lookup_iff.mp hk)
        exact hrebuilt.speaks ref (List.mem_map_of_mem hmem)

/-- A block that is accepted or rejected. -/
theorem OneFormat.applyAmneziaBlock (h : d.OneFormat) {block : Text} {e : ε}
    (hreturns : (Api.applyAmneziaBlock d block e).1.Returns) :
    (Api.applyAmneziaBlock d block e).2.1.OneFormat := by
  unfold Api.applyAmneziaBlock at hreturns ⊢
  split_ifs at hreturns ⊢ with hnil
  · exact h
  · simp only at hreturns ⊢
    split
    · exact h
    · rename_i config hparse
      obtain ⟨hvalid, -⟩ := Amnezia3Config.parse_valid hparse
      rcases hrun : d.setAmneziaConfig config e with ⟨result, d', e'⟩
      simp only [hparse, hrun] at hreturns ⊢
      obtain ⟨status, hstatus⟩ := hreturns
      obtain ⟨⟨⟩, rfl, -⟩ := map_eq_ok.mp hstatus
      exact h.setAmneziaConfig hvalid hrun
    · exact h

end Device

/-! ## Runs -/

namespace EventLoop

variable [IpTable] {s s' : EventLoop C}

/-- What happens to a device whose AmneziaWG configuration is changed through the configuration
socket: a step of the event loop, or a block that is accepted or rejected. -/
inductive Operation (ε : Type) [Env ε] : EventLoop C → EventLoop C → Prop
  | step {s s' : EventLoop C} {input : Input} {effects : List Effect}
      (hinput : ∀ amnezia, input ≠ .setAmneziaConfig amnezia) (h : Step ε s input effects s') :
      Operation ε s s'
  | block {s : EventLoop C} (block : Text) (e : ε)
      (hreturns : (Api.applyAmneziaBlock s.device block e).1.Returns) :
      Operation ε s { s with device := (Api.applyAmneziaBlock s.device block e).2.1 }

/-- **One step.** -/
theorem Operation.oneFormat (hop : Operation ε s s') (h : s.device.OneFormat) :
    s'.device.OneFormat := by
  cases hop with
  | step hinput hstep =>
    have hchange := hstep.change
    generalize s'.device = d' at hchange
    cases hchange with
    | carried hcarried =>
      refine h.kept hcarried.arcs ?_ hcarried.amnezia hcarried.keyPair
      rintro ref ⟨k, hk⟩
      exact ⟨k, hcarried.peers ▸ hk⟩
    | removed pubKey => exact h.removePeer ε pubKey
    | cleared =>
      refine h.kept (ε := ε) (List.forall₂_same.mpr fun p _ => .refl p) ?_ rfl id
      rintro ref ⟨k, hk⟩
      cases hk
    | updated u e => exact h.updatePeer u e
    | configured amnezia => exact absurd rfl (hinput amnezia)
  | block block e hreturns => exact h.applyAmneziaBlock hreturns

/-- **A run** from a new device. -/
theorem oneFormat_of_run {mtu : Nat} {nextIndex : IndexLfsr} {useConnectedSocket : Bool}
    (hrun : Relation.ReflTransGen (Operation ε) (.new mtu nextIndex useConnectedSocket) s) :
    s.device.OneFormat := by
  induction hrun with
  | refl => exact Device.oneFormat_new mtu nextIndex
  | tail _ hop ih => exact hop.oneFormat ih

/-- **Device and peers speak one wire format.**  In every state that is reached from a new device,
whatever is received and configured, a peer in the device has the settings of the device, and
its timing ranges differ in its own range of keepalive intervals only. -/
theorem one_wire_format {mtu : Nat} {nextIndex : IndexLfsr} {useConnectedSocket : Bool}
    (hrun : Relation.ReflTransGen (Operation ε) (.new mtu nextIndex useConnectedSocket) s)
    {ref : PeerRef} (href : s.device.InDevice ref) :
    ∃ p, s.device.arcs[ref]? = some p ∧
      p.tunnel.Speaks s.device.amnezia p.keepaliveRange :=
  (oneFormat_of_run hrun).speaks ref href

/-- A peer with its own range of keepalive intervals. -/
def rangedUpdate : PeerUpdate := { publicKey := zeroKey, keepaliveRange := some ⟨20, 30⟩ }

end EventLoop

namespace EventLoop

/-- A device with this peer, -/
def rangedLoop : EventLoop Crypto.transparent :=
  let s := keyedLoop false
  { s with device := (Device.step (s.device, ({} : StillMachine)) (.updatePeer rangedUpdate)).1 }

/-- and after a block that sets the junk packets. -/
def retunedLoop : EventLoop Crypto.transparent :=
  { rangedLoop with
    device := (Api.applyAmneziaBlock rangedLoop.device (Amnezia3Config.block Device.junkBlock)
      ({} : StillMachine)).2.1 }

/-- The peer has the new junk packets and its own range. -/
theorem one_wire_format_retuned :
    retunedLoop.device.amnezia.junk = ⟨5, 0, 80⟩ ∧
      ∃ p, retunedLoop.device.arcs[0]? = some p ∧
        p.tunnel.Speaks retunedLoop.device.amnezia (some ⟨20, 30⟩) := by
  have hblock : (Api.applyAmneziaBlock rangedLoop.device (Amnezia3Config.block Device.junkBlock)
      ({} : StillMachine)).1.Returns := by
    have htest : Outcome.test (Api.applyAmneziaBlock rangedLoop.device
        (Amnezia3Config.block Device.junkBlock) ({} : StillMachine)).1 (fun _ => true) = true := by
      decide +kernel
    obtain ⟨status, hstatus, -⟩ := Outcome.test_eq_true_iff.mp htest
    exact ⟨status, hstatus⟩
  have hkeyed : Operation StillMachine (newLoop false) (keyedLoop false) :=
    .step (fun _ => by simp) .setKey
  have hranged : Operation StillMachine (keyedLoop false) rangedLoop :=
    .step (fun _ => by simp) .control
  have hrun : Relation.ReflTransGen (Operation StillMachine) (newLoop false) retunedLoop :=
    .tail (.tail (.single hkeyed) hranged) (.block _ _ hblock)
  have hin : retunedLoop.device.InDevice 0 := ⟨zeroKey, by decide +kernel⟩
  have hown : retunedLoop.device.arcs[0]?.map Peer.keepaliveRange = some (some ⟨20, 30⟩) := by
    decide +kernel
  obtain ⟨p, hp, hspeaks⟩ := one_wire_format hrun hin
  rw [hp] at hown
  exact ⟨by decide +kernel, p, hp, Option.some.inj hown ▸ hspeaks⟩

end EventLoop
