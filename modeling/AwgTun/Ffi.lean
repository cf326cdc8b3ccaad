import AwgTun.Noise.Output

/-!
# Draining through the C interface

A caller of the C interface fetches the datagrams that go before an initiation one by one, with
`wireguard_poll_outgoing_packet`, until it returns 0.  But 0 is also the size of an empty
datagram, and junk can be empty: its size is drawn from `Jmin` on, and `Jmin` may be 0.

* `Ffi.drain_eq` — the loop hands out what comes before the first empty datagram, and takes that
  one off the queue.
* `Ffi.drain_complete_iff` — a configuration has all datagrams handed out, in every tunnel and
  whatever is drawn, exactly if it cannot draw an empty one.
* `Ffi.drain_stops_early` — a drain that leaves junk in the queue.
-/

open Control Bytes

namespace Ffi

variable {C : Crypto} {dst : Bytes} {t : Tunn C}

/-! ## Polling -/

/-- `wireguard_poll_outgoing_packet`: the size it returns, the buffer and the tunnel.  A datagram
that does not fit is gone. -/
def wireguardPollOutgoingPacket (t : Tunn C) (dst : Bytes) : Nat × Bytes × Tunn C :=
  match t.pollOutgoingPacket with
  | (some packet, t) =>
      if packet.length > dst.length then (0, dst, t)
      else (packet.length, overwrite dst 0 packet, t)
  | (none, t) => (0, dst, t)

/-- The loop of a caller, at most `n` times: poll until 0 comes back, and take what was written
otherwise. -/
def drain : Nat → Tunn C → Bytes → List Bytes × Tunn C
  | 0, t, _ => ([], t)
  | n + 1, t, dst =>
      match wireguardPollOutgoingPacket t dst with
      | (0, _, t) => ([], t)
      | (size + 1, dst, t) =>
          let (packets, t) := drain n t dst
          (dst.take (size + 1) :: packets, t)

theorem wireguardPollOutgoingPacket_cons {packet : Bytes} {rest : List Bytes}
    (hqueue : t.networkOutgoing = packet :: rest) (hfits : packet.length ≤ dst.length) :
    wireguardPollOutgoingPacket t dst =
      (packet.length, overwrite dst 0 packet, { t with networkOutgoing := rest }) := by
  simp [wireguardPollOutgoingPacket, Tunn.pollOutgoingPacket, hqueue, hfits]

/-- **What the loop hands out.**  It stops at the first empty datagram, which is lost. -/
theorem drain_eq {n : Nat} (hfits : ∀ packet ∈ t.networkOutgoing, packet.length ≤ dst.length)
    (hn : t.networkOutgoing.length < n) :
    drain n t dst = (t.networkOutgoing.takeWhile (! ·.isEmpty),
      { t with networkOutgoing := (t.networkOutgoing.dropWhile (! ·.isEmpty)).tail }) := by
  induction n generalizing t dst with
  | zero => exact absurd hn (Nat.not_lt_zero _)
  | succ n ih =>
    cases hqueue : t.networkOutgoing with
    | nil =>
      have hsame : ({ t with networkOutgoing := [] } : Tunn C) = t := by rw [← hqueue]
      simp [drain, wireguardPollOutgoingPacket, Tunn.pollOutgoingPacket, hqueue, hsame]
    | cons packet rest =>
      rw [hqueue, List.forall_mem_cons] at hfits
      rw [hqueue, List.length_cons] at hn
      have hpoll := wireguardPollOutgoingPacket_cons hqueue hfits.1
      cases packet with
      | nil =>
        rw [drain, hpoll]
        rfl
      | cons byte bytes =>
        have hlen : (overwrite dst 0 (byte :: bytes)).length = dst.length := by
          have hroom := hfits.1
          simp only [overwrite, List.take_zero, List.nil_append, List.length_append,
            List.length_drop]
          omega
        have hwritten : (overwrite dst 0 (byte :: bytes)).take (bytes.length + 1) =
            byte :: bytes := by
          simp [overwrite]
        have hfits' :
            ∀ packet ∈ rest, packet.length ≤ (overwrite dst 0 (byte :: bytes)).length := by
          rw [hlen]
          exact hfits.2
        have hrest :=
          ih (t := { t with networkOutgoing := rest }) hfits' (Nat.lt_of_succ_lt_succ hn)
        rw [drain, hpoll]
        simp only [List.length_cons, hrest, hwritten]
        rfl

/-- Every datagram is handed out, once and in order, and none is left, however large the buffer
beyond what they need and however often the caller is ready to call. -/
def DrainsAll (t : Tunn C) : Prop :=
  ∀ (dst : Bytes) (n : Nat), (∀ packet ∈ t.networkOutgoing, packet.length ≤ dst.length) →
    t.networkOutgoing.length < n →
    drain n t dst = (t.networkOutgoing, { t with networkOutgoing := [] })

theorem drainsAll_iff (t : Tunn C) : DrainsAll t ↔ ∀ packet ∈ t.networkOutgoing, packet ≠ [] := by
  constructor
  · intro hall packet hmem
    -- a buffer that holds all the datagrams together holds each of them
    have hfits : ∀ packet ∈ t.networkOutgoing,
        packet.length ≤
          (List.replicate (t.networkOutgoing.map List.length).sum (0 : UInt8)).length := by
      intro packet hmem
      rw [List.length_replicate]
      exact List.single_le_sum (by simp) _ (List.mem_map_of_mem hmem)
    have hdrained := hall _ _ hfits (Nat.lt_succ_self _)
    rw [drain_eq hfits (Nat.lt_succ_self _)] at hdrained
    have htake := List.takeWhile_eq_self_iff.mp (congrArg Prod.fst hdrained) packet hmem
    simpa using htake
  · intro hsome dst n hfits hn
    have hpass : ∀ packet ∈ t.networkOutgoing, (! packet.isEmpty) = true := by simpa using hsome
    rw [drain_eq hfits hn, List.takeWhile_eq_self_iff.mpr hpass,
      List.dropWhile_eq_nil_iff.mpr hpass]
    rfl

end Ffi

/-! ## Cover traffic -/

/-- `genRangeU16` stays at or above the start of its range. -/
theorem le_genRangeU16 {ρ : Type} [RandomSource ρ] (r : ρ) {start stop : UInt16}
    (h : start ≤ stop) :
    start ≤ (genRangeU16 r start stop).1 := by
  have hle : start.toUInt32 ≤ stop.toUInt32 := by
    rw [UInt16.le_iff_toNat_le] at h
    rwa [UInt32.le_iff_toNat_le, UInt16.toNat_toUInt32, UInt16.toNat_toUInt32]
  obtain ⟨hlo, hhi⟩ := genRangeU32_mem r hle
  rw [UInt32.le_iff_toNat_le, UInt16.toNat_toUInt32] at hlo hhi
  have hstop := stop.toNat_lt
  rw [UInt16.le_iff_toNat_le, genRangeU16, UInt32.toNat_toUInt16, Nat.mod_eq_of_lt (by omega)]
  exact hlo

namespace JunkConfig

variable {ρ : Type} [RandomSource ρ]

theorem length_generateJunkPacket (c : JunkConfig) (rng : ρ) :
    (c.generateJunkPacket rng).1.length =
      (if c.maxSize ≤ c.minSize then c.minSize
        else (genRangeU16 rng c.minSize (c.maxSize - 1)).1).toNat := by
  rw [generateJunkPacket, List.Vector.toList_length]
  split_ifs <;> rfl

/-- Every size that is drawn is at least `Jmin`. -/
theorem minSize_le_generateJunkPacket (c : JunkConfig) (rng : ρ) :
    c.minSize.toNat ≤ (c.generateJunkPacket rng).1.length := by
  rw [length_generateJunkPacket]
  split_ifs with hmax
  · exact Nat.le_refl _
  · refine UInt16.le_iff_toNat_le.mp (le_genRangeU16 rng ?_)
    have hlt : c.minSize.toNat < c.maxSize.toNat := by
      rw [UInt16.le_iff_toNat_le] at hmax
      omega
    rw [UInt16.le_iff_toNat_le, UInt16.toNat_sub_of_le _ _ (by
      rw [UInt16.le_iff_toNat_le]
      exact Nat.one_le_of_lt hlt)]
    exact Nat.le_pred_of_lt hlt

theorem junkLoop_ne_nil {c : JunkConfig} (hmin : 0 < c.minSize) (n : Nat) (rng : ρ) :
    ∀ packet ∈ (c.junkLoop n rng).1, packet ≠ [] := by
  induction n generalizing rng with
  | zero => simp [junkLoop]
  | succ n ih =>
    simp only [junkLoop, List.forall_mem_cons]
    refine ⟨?_, ih _⟩
    have hpos : 0 < c.minSize.toNat := by simpa [UInt16.lt_iff_toNat_lt] using hmin
    exact List.ne_nil_of_length_pos
      (Nat.lt_of_lt_of_le hpos (c.minSize_le_generateJunkPacket rng))

end JunkConfig

namespace Tunn

variable {C : Crypto} {ε : Type} [Env ε] {t : Tunn C} {cover : List Bytes} {e e' : ε}

/-- An empty I-packet is not queued. -/
theorem queueChains_ne_nil {chains : List CpsChain} {queue packets : List Bytes}
    (hqueue : ∀ packet ∈ queue, packet ≠ []) (h : queueChains chains queue e = .ok (packets, e')) :
    ∀ packet ∈ packets, packet ≠ [] := by
  induction chains generalizing queue e with
  | nil =>
    cases h
    exact hqueue
  | cons chain chains ih =>
    rw [queueChains] at h
    obtain ⟨⟨packet, e₁⟩, -, h⟩ := bind_eq_ok.mp h
    refine ih ?_ h
    cases packet with
    | nil => exact hqueue
    | cons byte bytes =>
      rw [if_neg (by simp), List.forall_mem_append]
      exact ⟨hqueue, by simp⟩

/-- The two parts of cover traffic. -/
theorem coverTraffic_eq_ok (h : t.coverTraffic e = .ok (cover, e')) :
    ∃ packets e₁, queueChains t.initPacketConfig.activeChains [] e = .ok (packets, e₁) ∧
      cover = packets ++ (t.junkConfig.generateJunkPackets e₁).1 := by
  rw [coverTraffic] at h
  obtain ⟨⟨packets, e₁⟩, hchains, h⟩ := bind_eq_ok.mp h
  rcases hjunk : t.junkConfig.generateJunkPackets e₁ with ⟨junk, e₂⟩
  simp only [hjunk] at h
  cases h
  exact ⟨packets, e₁, hchains, by rw [hjunk]⟩

/-- Cover traffic is empty at most where junk can be. -/
theorem coverTraffic_ne_nil (hjunk : t.junkConfig.count = 0 ∨ 0 < t.junkConfig.minSize)
    (h : t.coverTraffic e = .ok (cover, e')) :
    ∀ packet ∈ cover, packet ≠ [] := by
  obtain ⟨packets, e₁, hchains, rfl⟩ := coverTraffic_eq_ok h
  rw [List.forall_mem_append, JunkConfig.generateJunkPackets]
  refine ⟨queueChains_ne_nil (by simp) hchains, ?_⟩
  split_ifs with hcount
  · simp
  · exact JunkConfig.junkLoop_ne_nil (hjunk.resolve_left hcount) _ e₁

/-- The tunnels that runs with a configuration lead to.  A rate limiter that was passed in may
count elsewhere. -/
inductive Configured (ε : Type) [Env ε] (cfg : Amnezia3Config) : Tunn C → Prop
  | start {staticPrivate peerStaticPublic : Key} {presharedKey : Option Key}
      {persistentKeepalive : Option UInt16} {index : UInt32} {rateLimiter : Option RateLimiter}
      {e e' : ε} {t : Tunn C}
      (h : newWithAmnezia3 staticPrivate peerStaticPublic presharedKey persistentKeepalive index
        rateLimiter cfg e = (.ok t, e')) : Configured ε cfg t
  | step {t t' : Tunn C} {event : Event} (h : Configured ε cfg t) (hstep : Step ε t event t') :
      Configured ε cfg t'
  | count {t : Tunn C} {r : RateLimiter} (h : Configured ε cfg t)
      (hr : t.rateLimiter.SameButCounts r) : Configured ε cfg { t with rateLimiter := r }

variable {cfg : Amnezia3Config}

theorem configured_ofConfig (hvalid : cfg.validate = .ok ()) (staticPrivate peerStaticPublic : Key)
    (presharedKey : Option Key) (persistentKeepalive : Option UInt16) (index : UInt32)
    (rateLimiter : Option RateLimiter) (e : ε) :
    Configured ε cfg (ofConfig (C := C) staticPrivate peerStaticPublic presharedKey
      persistentKeepalive index rateLimiter cfg e).1 := by
  rcases hmade : ofConfig (C := C) staticPrivate peerStaticPublic presharedKey persistentKeepalive
    index rateLimiter cfg e with ⟨t, e'⟩
  have hnew : newWithAmnezia3 staticPrivate peerStaticPublic presharedKey persistentKeepalive index
      rateLimiter cfg e = (.ok t, e') := by
    simp only [newWithAmnezia3, hvalid, hmade]
  exact .start hnew

theorem Configured.settings (h : Configured ε cfg t) :
    t.junkConfig = cfg.junk ∧ t.initPacketConfig = cfg.initPackets := by
  induction h with
  | start hnew =>
    obtain ⟨-, rfl⟩ := newWithAmnezia3_eq_ok hnew
    exact ⟨rfl, rfl⟩
  | step _ hstep ih =>
    exact ⟨(congrArg Settings.junkConfig hstep.settings).trans ih.1,
      (congrArg Settings.initPacketConfig hstep.settings).trans ih.2⟩
  | count _ _ ih => exact ih

/-- What no cover traffic breaks holds of all that waits. -/
theorem Configured.outgoing {P : Bytes → Prop} (h : Configured ε cfg t)
    (hcover : ∀ (t₀ : Tunn C) (e e' : ε) (cover : List Bytes), t₀.junkConfig = cfg.junk →
      t₀.initPacketConfig = cfg.initPackets → t₀.coverTraffic e = .ok (cover, e') →
      ∀ packet ∈ cover, P packet) :
    ∀ packet ∈ t.networkOutgoing, P packet := by
  induction h with
  | start hnew =>
    obtain ⟨-, rfl⟩ := newWithAmnezia3_eq_ok hnew
    exact fun packet hmem => absurd hmem List.not_mem_nil
  | step hrun hstep ih =>
    intro packet hmem
    rcases hstep.outgoing packet hmem with hold | ⟨t₀, cover, e, e', hsettings, htraffic, hnew⟩
    · exact ih packet hold
    · obtain ⟨hjunk, hchains⟩ := hrun.settings
      exact hcover t₀ e e' cover ((congrArg Settings.junkConfig hsettings).trans hjunk)
        ((congrArg Settings.initPacketConfig hsettings).trans hchains) htraffic packet hnew
  | count _ _ ih => exact ih

/-- With junk that may be empty, a machine whose random bytes are zero draws an empty one. -/
theorem coverTraffic_still (hcount : t.junkConfig.count ≠ 0) (hmin : t.junkConfig.minSize = 0)
    {e e' : StillMachine} (h : t.coverTraffic e = .ok (cover, e')) :
    [] ∈ cover := by
  have hdraw (stop : UInt32) (m : StillMachine) : (genRangeU32 m 0 stop).1 = 0 := by
    have hzero : u32OfLe (RandomSource.fillBytes m 4).1.toList = 0 := rfl
    simp only [genRangeU32]
    split_ifs
    · rfl
    · split
      · simp [hzero]
      · exact hzero
  have hpacket (m : StillMachine) : (t.junkConfig.generateJunkPacket m).1 = [] := by
    refine List.eq_nil_of_length_eq_zero ?_
    rw [JunkConfig.length_generateJunkPacket, hmin]
    split_ifs
    · rfl
    · simp [genRangeU16, hdraw]
  obtain ⟨packets, e₁, -, rfl⟩ := coverTraffic_eq_ok h
  obtain ⟨n, hn⟩ : ∃ n, t.junkConfig.count.toNat = n + 1 :=
    Nat.exists_eq_succ_of_ne_zero (by simpa [← UInt16.toNat_inj] using hcount)
  refine List.mem_append_right _ ?_
  rw [JunkConfig.generateJunkPackets, if_neg hcount, hn]
  simp [JunkConfig.junkLoop, hpacket]

end Tunn

/-! ## Configurations -/

namespace Ffi

/-- **When draining is complete.**  A valid configuration has every datagram handed out, in every
tunnel and whatever is drawn, exactly if its junk cannot be empty: there is none, or `Jmin` is
positive.  (With an I-packet that cannot be generated nothing is ever queued.) -/
theorem drain_complete_iff (C : Crypto) {cfg : Amnezia3Config} (hvalid : cfg.validate = .ok ()) :
    (∀ (ε : Type) [Env ε] (t : Tunn C), t.Configured ε cfg → DrainsAll t) ↔
      cfg.junk.count = 0 ∨ 0 < cfg.junk.minSize ∨
        ∃ chain ∈ cfg.initPackets.activeChains, ¬ chain.Generable := by
  constructor
  · intro hall
    by_contra hnot
    push Not at hnot
    obtain ⟨hcount, hmin, hchains⟩ := hnot
    have hmin : cfg.junk.minSize = 0 := UInt16.le_zero_iff.mp (UInt16.not_lt.mp hmin)
    let t : Tunn C := (Tunn.ofConfig zeroKey zeroKey none none 0 none cfg ({} : StillMachine)).1
    have hnew : t.Configured StillMachine cfg := Tunn.configured_ofConfig hvalid _ _ _ _ _ _ _
    have hidle : (t.handshake.isInProgress && !false) = false := rfl
    have hroom : t.headerProtection.isSome → 12 ≤ t.paddingConfig.s1.toNat := by
      intro hsome
      have hkey : cfg.headerProtectionKey.isSome := by
        simpa [t, Tunn.ofConfig, Amnezia3Config.headerProtection] using hsome
      exact ((Amnezia3Config.validate_eq_ok hvalid).2 hkey).s1
    obtain ⟨datagram, t', e', s, hcall, -⟩ :=
      (Tunn.formatHandshakeInitiation_fits hidle le_rfl hroom ({} : StillMachine)).2 hchains
    rcases Tunn.formatHandshakeInitiation_cases hcall with ⟨-, hr⟩ |
      ⟨cover, datagram', -, hinitiates⟩
    · exact hr datagram rfl
    · obtain ⟨e₁, e₂, htraffic⟩ := hinitiates.traffic
      have hempty : [] ∈ t'.networkOutgoing := by
        rw [hinitiates.queue]
        exact List.mem_append_right _ (Tunn.coverTraffic_still hcount hmin htraffic)
      have hdrains := hall StillMachine t' (hnew.step (.initiate hcall))
      exact (drainsAll_iff t').mp hdrains [] hempty rfl
  · intro hcfg ε _ t hrun
    rw [drainsAll_iff]
    refine hrun.outgoing ?_
    intro t₀ e e' cover hjunk hchains htraffic
    rcases hcfg with hcount | hmin | ⟨chain, hmem, hbad⟩
    · exact Tunn.coverTraffic_ne_nil (.inl (by rw [hjunk]; exact hcount)) htraffic
    · exact Tunn.coverTraffic_ne_nil (.inr (by rw [hjunk]; exact hmin)) htraffic
    · obtain ⟨packets, e₁, hqueued, -⟩ := Tunn.coverTraffic_eq_ok htraffic
      rw [hchains] at hqueued
      exact absurd ((Tunn.queueChains_returns_iff _ _ _).mp ⟨_, hqueued⟩ chain hmem) hbad

/-- Two junk packets of one to three bytes. -/
def smallJunkConfig : Amnezia3Config := { junk := ⟨2, 1, 4⟩ }

/-- A tunnel with this configuration. -/
def smallJunkTunn : Tunn Crypto.transparent :=
  (Tunn.ofConfig zeroKey zeroKey none none 1 none smallJunkConfig ({} : StillMachine)).1

/-- Both are handed out after an initiation. -/
theorem drain_complete_iff_small :
    smallJunkConfig.validate = .ok () ∧
      ∃ r t e, smallJunkTunn.formatHandshakeInitiation 148 false ({} : StillMachine) =
          .ok (r, t, e) ∧
        t.Configured StillMachine smallJunkConfig ∧ t.networkOutgoing = [[0], [0]] ∧
        DrainsAll t := by
  have hvalid : smallJunkConfig.validate = .ok () := by decide
  have htest : Outcome.test
      (smallJunkTunn.formatHandshakeInitiation 148 false ({} : StillMachine))
      (·.2.1.networkOutgoing == [[0], [0]]) = true := by decide +kernel
  obtain ⟨⟨r, t, e⟩, hcall, hqueue⟩ := Outcome.test_eq_true_iff.mp htest
  have hrun : t.Configured StillMachine smallJunkConfig :=
    (Tunn.configured_ofConfig hvalid _ _ _ _ _ _ _).step (.initiate hcall)
  exact ⟨hvalid, r, t, e, hcall, hrun, by simpa using hqueue,
    (drain_complete_iff _ hvalid).mpr (.inr (.inl (by decide))) StillMachine t hrun⟩

/-! ## A drain that stops early -/

/-- A machine whose random bytes go up with every draw. -/
structure CountingMachine where
  next : UInt8 := 0

instance : Env CountingMachine where
  fillBytes m n := (⟨List.replicate n m.next, List.length_replicate⟩, ⟨m.next + 1⟩)
  instantNow m := (0, m)
  systemTimeNow m := (0, m)
  randomSecret m := (zeroKey, m)

/-- Two junk packets of up to three bytes. -/
def junkyConfig : Amnezia3Config := { junk := ⟨2, 0, 4⟩ }

/-- A tunnel with this configuration. -/
def junkyTunn : Tunn Crypto.transparent :=
  (Tunn.ofConfig zeroKey zeroKey none none 1 none junkyConfig ({} : CountingMachine)).1

/-- It starts a handshake; the first draw is for the timers. -/
def junkyCall : Outcome (TunnResult × Tunn Crypto.transparent × CountingMachine) :=
  junkyTunn.formatHandshakeInitiation 148 false ⟨255⟩

/-- **A drain that stops early.**  The configuration is valid and the tunnel starts a handshake,
for which an empty junk packet and one of two bytes are drawn.  The first poll returns 0: the
caller is done, has been handed nothing, and the second packet stays in the queue. -/
theorem drain_stops_early :
    junkyConfig.validate = .ok () ∧ junkyTunn.Configured CountingMachine junkyConfig ∧
      ∃ datagram t e, junkyCall = .ok (.writeToNetwork datagram, t, e) ∧
        t.networkOutgoing = [[], [3, 3]] ∧
        drain 3 t (List.replicate 4 0) = ([], { t with networkOutgoing := [[3, 3]] }) := by
  have hvalid : junkyConfig.validate = .ok () := by decide
  have htest : Outcome.test junkyCall (fun x =>
      x.1.toNetwork.isSome && x.2.1.networkOutgoing == [[], [3, 3]]) = true := by decide +kernel
  obtain ⟨⟨r, t, e⟩, hcall, htest⟩ := Outcome.test_eq_true_iff.mp htest
  obtain ⟨datagram, rfl, hqueue⟩ : ∃ datagram, r = .writeToNetwork datagram ∧
      t.networkOutgoing = [[], [3, 3]] := by
    cases r with
    | writeToNetwork datagram => exact ⟨datagram, rfl, by simpa [TunnResult.toNetwork] using htest⟩
    | _ => simp [TunnResult.toNetwork] at htest
  refine ⟨hvalid, Tunn.configured_ofConfig hvalid _ _ _ _ _ _ _, datagram, t, e, hcall, hqueue, ?_⟩
  rw [drain_eq (by rw [hqueue]; decide) (by rw [hqueue]; decide), hqueue]
  rfl

end Ffi
