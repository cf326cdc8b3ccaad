import AwgTun.Noise.Confirmed
import AwgTun.Noise.CounterSpace
import AwgTun.Noise.Uses

/-!
# The history of the session keys

A run of a tunnel with a record of everything that was sealed and opened under the keys of its
sessions.  The sessions are numbered in the order in which they were stored, so that a session can
be told from those that were in its slot before and after it.

* `Session.Records` — the invariant of one session: its key sealed under the counters 0, 1, 2, …
  without a gap, and its replay window stands for the counters that were opened.
* `Tunn.Recorded.records` — it holds of every session of every run, also of those that are gone.
* `Tunn.no_nonce_sealed_twice` — no session seals two packets under one counter.
* `Tunn.no_packet_opened_twice` — no session opens two packets with one counter, whatever arrives,
  in whatever order, and however often.
* `Tunn.opened_subperm_sealed` — two tunnels with a network between them that can lose, repeat and
  reorder: what one session opens is what the other sealed, each packet at most once.
-/

open Control Bytes Epochs

variable {C : Crypto} {ε : Type} [Env ε]

/-! ## One session -/

namespace Session

variable {s s' : Session} {uses : List KeyUse} {content : Bytes} {p : PacketData} {dstLen : Nat}

/-- The counters under which packets were sealed, newest first. -/
def sealedCounters (uses : List KeyUse) : List UInt64 := uses.filterMap KeyUse.sealedCounter

/-- The counters of the packets that were opened, newest first. -/
def openedCounters (uses : List KeyUse) : List UInt64 := uses.filterMap KeyUse.openedCounter

/-- A use is one of the keys of a session, and is what it says. -/
def Matches (C : Crypto) (s : Session) : KeyUse → Prop
  | .sealed key counter src padding datagram =>
      key = s.sender ∧
        C.aeadSeal key (counterNonce counter) [] (src ++ List.replicate padding 0) <:+ datagram
  | .opened key counter ciphertext content =>
      key = s.receiver ∧ C.aeadOpen key (counterNonce counter) [] ciphertext = some content

/-- What a session that is used from the beginning has to do with its uses. -/
structure Records (C : Crypto) (s : Session) (uses : List KeyUse) : Prop where
  each : ∀ use ∈ uses, s.Matches C use
  sendingKeyCounter : s.sendingKeyCounter = .ofNat (sealedCounters uses).length
  sealed : (sealedCounters uses).reverse =
    (List.range (sealedCounters uses).length).map UInt64.ofNat
  opened : (∀ c ∈ openedCounters uses, c.toNat < 2 ^ 64 - 1024) →
    s.receivingKeyCounter.Refines (openedCounters uses) ∧ (openedCounters uses).Nodup

theorem IsNew.records (h : s.IsNew) : s.Records C [] where
  each := by simp
  sendingKeyCounter := h.sendingKeyCounter
  sealed := rfl
  opened := by
    intro _
    rw [h.receivingKeyCounter]
    exact ⟨.fresh, List.nodup_nil⟩

theorem Continues.matches (h : s.Continues s') {use : KeyUse} (huse : s.Matches C use) :
    s'.Matches C use := by
  cases use with
  | sealed => exact ⟨huse.1.trans h.sender.symm, huse.2⟩
  | opened => exact ⟨huse.1.trans h.receiver.symm, huse.2⟩

/-- What it takes to open a packet. -/
theorem receivePacketData_ok (h : s.receivePacketData C p dstLen = .ok (.ok content, s')) :
    p.receiverIdx = s.receivingIndex ∧
      C.aeadOpen s.receiver (counterNonce p.counter) [] p.encryptedEncapsulatedPacket =
        some content ∧
      ∃ v, s.receivingKeyCounter.markDidReceive p.counter = (.ok (), v) ∧
        s' = { s with receivingKeyCounter := { v with receiveCnt := v.receiveCnt + 1 } } := by
  unfold receivePacketData at h
  split_ifs at h with hsmall hindex
  · cases h
  · cases h
  · split at h
    · cases h
    · split at h
      · cases h
      · rename_i plain hopen
        rcases hmark : s.receivingKeyCounter.markDidReceive p.counter with ⟨result, v⟩
        cases result with
        | error err =>
          simp only [receivingCounterMark, hmark] at h
          cases h
        | ok =>
          simp only [receivingCounterMark, hmark] at h
          cases h
          exact ⟨not_not.mp hindex, hopen, v, rfl, rfl⟩

/-- Sealing takes the next counter. -/
theorem Records.seals (h : s.Records C uses) {src datagram : Bytes} {padding : Nat}
    (hsealed : s.sealedContent C src padding <:+ datagram) :
    s.sent.Records C (.sealed s.sender s.sendingKeyCounter src padding datagram :: uses) where
  each := by
    intro use huse
    rcases List.mem_cons.mp huse with rfl | huse
    · exact ⟨rfl, hsealed⟩
    · exact s.continues_sent.matches (h.each use huse)
  sendingKeyCounter := by
    show s.sendingKeyCounter + 1 = _
    rw [h.sendingKeyCounter]
    exact (UInt64.ofNat_add _ 1).symm
  sealed := by
    show (s.sendingKeyCounter :: sealedCounters uses).reverse =
      (List.range ((sealedCounters uses).length + 1)).map UInt64.ofNat
    rw [List.reverse_cons, h.sealed, List.range_succ, List.map_append, h.sendingKeyCounter]
    rfl
  opened := h.opened

/-- Opening marks the counter, which was not marked before. -/
theorem receivePacketData_refines {accepted : List UInt64}
    (h : s.receivingKeyCounter.Refines accepted)
    (hsmall : p.counter.toNat < 2 ^ 64 - 1024)
    (hopened : s.receivePacketData C p dstLen = .ok (.ok content, s')) :
    p.counter ∉ accepted ∧ s'.receivingKeyCounter.Refines (p.counter :: accepted) := by
  obtain ⟨-, -, v, hmark, rfl⟩ := receivePacketData_ok hopened
  rcases ReceivingKeyCounterValidator.markDidReceive_spec h hsmall with
    ⟨haccepts, v', hv', hrefines⟩ | ⟨-, hrefused⟩
  · rw [hmark] at hv'
    cases hv'
    exact ⟨haccepts.1, hrefines.next_eq, hrefines.tracks, hrefines.small⟩
  · rw [hmark] at hrefused
    cases hrefused

theorem Records.opens (h : s.Records C uses)
    (hopened : s.receivePacketData C p dstLen = .ok (.ok content, s')) :
    s'.Records C (.opened s.receiver p.counter p.encryptedEncapsulatedPacket content :: uses) := by
  have hcontinues := continues_receivePacketData hopened
  obtain ⟨-, hopen, v, -, hs'⟩ := receivePacketData_ok hopened
  refine ⟨?_, ?_, h.sealed, ?_⟩
  · intro use huse
    rcases List.mem_cons.mp huse with rfl | huse
    · rw [hs']
      exact ⟨rfl, hopen⟩
    · exact hcontinues.matches (h.each use huse)
  · rw [hs']
    exact h.sendingKeyCounter
  · intro hsmall
    obtain ⟨hwindow, hnodup⟩ := h.opened fun c hc => hsmall c (List.mem_cons_of_mem _ hc)
    obtain ⟨hnew, hrefines⟩ :=
      receivePacketData_refines hwindow (hsmall _ List.mem_cons_self) hopened
    exact ⟨hrefines, List.nodup_cons.mpr ⟨hnew, hnodup⟩⟩

/-- **One use.** -/
theorem Records.use {use : KeyUse} (h : s.Records C uses) (huse : s.Uses C use s') :
    s'.Records C (use :: uses) := by
  cases huse with
  | seals hsealed => exact h.seals hsealed
  | opens hopened => exact h.opens hopened

/-- The counters do not repeat before there are no more. -/
theorem Records.nodup_sealed (h : s.Records C uses) (hfew : (sealedCounters uses).length ≤ 2 ^ 64) :
    (sealedCounters uses).Nodup := by
  rw [← List.nodup_reverse, h.sealed]
  refine List.Nodup.map_on ?_ List.nodup_range
  intro i hi j hj heq
  have hlt {k : ℕ} (hk : k ∈ List.range (sealedCounters uses).length) :
      (UInt64.ofNat k).toNat = k := by
    have := List.mem_range.mp hk
    exact UInt64.toNat_ofNat_of_lt' (by show k < 2 ^ 64; omega)
  rw [← hlt hi, ← hlt hj, heq]

end Session

/-! ## Runs -/

/-- Everything done under the keys of the sessions of a tunnel. -/
abbrev KeyHistory := History (Fin nSessions) KeyUse

namespace KeyHistory

/-- The counters a session has sealed under. -/
def sealed (hist : KeyHistory) (n : ℕ) : List UInt64 := Session.sealedCounters (hist.usesOf n)

/-- The counters a session has opened. -/
def opened (hist : KeyHistory) (n : ℕ) : List UInt64 := Session.openedCounters (hist.usesOf n)

theorem length_sealed_le (hist : KeyHistory) (n : ℕ) :
    (hist.sealed n).length ≤ hist.log.length := by
  refine (List.length_filterMap_le _ _).trans ?_
  rw [History.usesOf, List.length_map]
  exact List.length_filter_le _ _

end KeyHistory

namespace Tunn

variable {t t' : Tunn C} {hist : KeyHistory}

/-- A run of a tunnel from the beginning, with its history. -/
inductive Recorded (ε : Type) [Env ε] : Tunn C → KeyHistory → Prop
  | start {staticPrivate peerStaticPublic : Key} {presharedKey : Option Key}
      {persistentKeepalive : Option UInt16} {index : UInt32} {rateLimiter : Option RateLimiter}
      {amnezia : Amnezia3Config} {e e' : ε} {t : Tunn C}
      (h : newWithAmnezia3 staticPrivate peerStaticPublic presharedKey persistentKeepalive index
        rateLimiter amnezia e = (.ok t, e')) : Recorded ε t .empty
  | act {t t' : Tunn C} {hist : KeyHistory} {changes : List SlotChange} (h : Recorded ε t hist)
      (hact : Act ε t changes t') : Recorded ε t' (changes.foldl .after hist)

theorem Recorded.tracks (h : Recorded ε t hist) :
    Tracks (Session.Records C) t.sessions hist := by
  induction h with
  | start hnew =>
    obtain ⟨-, rfl⟩ := newWithAmnezia3_eq_ok hnew
    exact .empty
  | act _ hact ih =>
    exact Tracks.changes (fun _ hnew => hnew.records) (fun _ _ _ _ hrecords => hrecords.use)
      hact.changes ih

/-- **A whole run** keeps the record of every session. -/
theorem Recorded.records (h : Recorded ε t hist) (n : ℕ) :
    ∃ s : Session, s.Records C (hist.usesOf n) := by
  by_cases hn : n < hist.stored
  · exact h.tracks.every n hn
  · have hnone : hist.usesOf n = [] := by
      rw [List.eq_nil_iff_forall_not_mem]
      intro use huse
      exact hn (h.tracks.log_lt _ (History.mem_usesOf.mp huse))
    rw [hnone]
    exact ⟨_, (Session.isNew_new 0 0 zeroKey zeroKey).records⟩

/-- **No nonce is used twice.**  In a run of a tunnel, each session seals under one key and under
the counters 0, 1, 2, … in this order, and every datagram ends with what was sealed under the key
and the counter on record.  So no session seals two packets under one counter, until one of them
has sealed 2^64; nothing in the code stops it there. -/
theorem no_nonce_sealed_twice (h : Recorded ε t hist) :
    (∀ n, ∃ s : Session, (∀ use ∈ hist.usesOf n, s.Matches C use) ∧
      (hist.sealed n).reverse = (List.range (hist.sealed n).length).map UInt64.ofNat) ∧
    ((∀ n, (hist.sealed n).length ≤ 2 ^ 64) →
      (hist.log.filterMap fun x => x.2.sealedCounter.map (x.1, ·)).Nodup) := by
  refine ⟨?_, ?_⟩
  · intro n
    obtain ⟨s, hs⟩ := h.records n
    exact ⟨s, hs.each, hs.sealed⟩
  · intro hfew
    refine hist.nodup_filterMap KeyUse.sealedCounter fun n => ?_
    obtain ⟨s, hs⟩ := h.records n
    exact hs.nodup_sealed (hfew n)

theorem freshTunn_recorded : Recorded StillMachine freshTunn .empty :=
  .start (show newWithAmnezia3 zeroKey zeroKey none none 1 none {} ({} : StillMachine)
    = (.ok freshTunn, {}) from rfl)

theorem freshAwaiting_finishes : ∃ keepalive e', freshAwaiting.handlePacket
    (.handshakeResponse hundredResponse) 64 ({} : StillMachine) =
      .ok (.ok (.writeToNetwork keepalive), freshAnswered, e') := ⟨_, _, rfl⟩

/-- The history of an initiator that has finished its handshake: one keepalive was sealed. -/
theorem freshAnswered_recorded : ∃ keepalive, Recorded StillMachine freshAnswered
    ⟨1, fun _ => 0, [(0, .sealed zeroKey 0 [] 0 keepalive)]⟩ := by
  obtain ⟨r, e₁, hinitiate⟩ := freshTunn_initiates
  obtain ⟨keepalive, e₂, hfinish⟩ := freshAwaiting_finishes
  have hrun := (freshTunn_recorded.act (.other (.initiate hinitiate) (.inl rfl))).act
    (.handle hfinish)
  refine ⟨keepalive, ?_⟩
  have hnumber : Function.update (fun _ : Fin nSessions => 0) (slotOf 257) 0 = fun _ => 0 :=
    Function.update_eq_self _ _
  rw [← hnumber]
  exact hrun

/-- The first keepalive of an initiator is sealed under counter 0. -/
theorem no_nonce_sealed_twice_finished :
    ∃ hist, Recorded StillMachine freshAnswered hist ∧ hist.sealed 0 = [0] ∧
      (hist.log.filterMap fun x => x.2.sealedCounter.map (x.1, ·)).Nodup := by
  obtain ⟨keepalive, hrun⟩ := freshAnswered_recorded
  refine ⟨_, hrun, rfl, (no_nonce_sealed_twice hrun).2 fun n => ?_⟩
  exact (KeyHistory.length_sealed_le _ n).trans (show 1 ≤ 2 ^ 64 by decide)

/-- **No packet is opened twice.**  In a run of a tunnel, whatever datagrams arrive in whatever
order, no session opens two packets with one counter, as long as none of the counters it accepts is
among the last 1024; and what it opens was sealed under its receiving key, with that counter. -/
theorem no_packet_opened_twice (h : Recorded ε t hist)
    (hsmall : ∀ n, ∀ c ∈ hist.opened n, c.toNat < 2 ^ 64 - 1024) :
    (hist.log.filterMap fun x => x.2.openedCounter.map (x.1, ·)).Nodup ∧
    ∀ n, ∃ s : Session, ∀ use ∈ hist.usesOf n, s.Matches C use := by
  refine ⟨hist.nodup_filterMap KeyUse.openedCounter fun n => ?_, fun n => ?_⟩
  · obtain ⟨s, hs⟩ := h.records n
    exact (hs.opened (hsmall n)).2
  · obtain ⟨s, hs⟩ := h.records n
    exact ⟨s, hs.each⟩

/-- `freshTunn` after it has answered an initiation. -/
def freshGreeted : Tunn Crypto.transparent :=
  match freshTunn.handlePacket (.handshakeInit (numberedInit 1)) handshakeRespSz
      ({} : StillMachine) with
  | .ok (_, t, _) => t
  | .error _ => freshTunn

/-- A keepalive for the session of that. -/
def emptyData (counter : UInt64) : PacketData where
  receiverIdx := 257
  counter := counter
  encryptedEncapsulatedPacket := List.replicate 16 0

theorem freshTunn_greeted : ∃ r e', freshTunn.handlePacket (.handshakeInit (numberedInit 1))
    handshakeRespSz ({} : StillMachine) = .ok (.ok r, freshGreeted, e') := ⟨_, _, rfl⟩

theorem freshGreeted_opens : ∃ r t' e', freshGreeted.handlePacket (.packetData (emptyData 0)) 16
    ({} : StillMachine) = .ok (.ok r, t', e') := ⟨_, _, _, rfl⟩

/-- The history of a responder that has opened a first keepalive. -/
theorem freshGreeted_recorded : ∃ t' : Tunn Crypto.transparent, Recorded StillMachine t'
    ⟨1, fun _ => 0, [(0, .opened zeroKey 0 (List.replicate 16 0) [])]⟩ := by
  obtain ⟨r₁, e₁, hgreeted⟩ := freshTunn_greeted
  obtain ⟨r₂, t', e₂, hopens⟩ := freshGreeted_opens
  have hrun := (freshTunn_recorded.act (.handle hgreeted)).act (.handle hopens)
  refine ⟨t', ?_⟩
  have hnumber : Function.update (fun _ : Fin nSessions => 0) (slotOf 257) 0 = fun _ => 0 :=
    Function.update_eq_self _ _
  rw [← hnumber]
  exact hrun

/-- A responder opens the first keepalive of its peer. -/
theorem no_packet_opened_twice_greeted :
    ∃ (t' : Tunn Crypto.transparent) (hist : KeyHistory), Recorded StillMachine t' hist ∧
      hist.opened 0 = [0] ∧
      (hist.log.filterMap fun x => x.2.openedCounter.map (x.1, ·)).Nodup := by
  obtain ⟨t', hrun⟩ := freshGreeted_recorded
  refine ⟨t', _, hrun, rfl, (no_packet_opened_twice hrun ?_).1⟩
  intro n c hc
  obtain ⟨use, huse, hcounter⟩ := List.mem_filterMap.mp hc
  obtain ⟨-, rfl⟩ : (n, use) = (0, _) := List.mem_singleton.mp (History.mem_usesOf.mp huse)
  cases hcounter
  decide

end Tunn

/-! ## Two sessions with a network between them -/

namespace KeyUse

/-- What was sealed, with its counter. -/
def sealedContent : KeyUse → Option (UInt64 × Bytes)
  | .sealed _ counter src padding _ => some (counter, src ++ List.replicate padding 0)
  | .opened _ _ _ _ => none

/-- What came out of a sealed packet, with its counter. -/
def openedContent : KeyUse → Option (UInt64 × Bytes)
  | .sealed _ _ _ _ _ => none
  | .opened _ counter _ content => some (counter, content)

theorem sealedContent_fst (use : KeyUse) : use.sealedContent.map (·.1) = use.sealedCounter := by
  cases use <;> rfl

theorem openedContent_fst (use : KeyUse) : use.openedContent.map (·.1) = use.openedCounter := by
  cases use <;> rfl

/-- Nobody else seals under the key: whatever was opened with it is the sealed form of a packet of
the sender.  The network may have lost, repeated and reordered the datagrams. -/
def Unforged (C : Crypto) (sent received : List KeyUse) : Prop :=
  ∀ key counter ciphertext content, .opened key counter ciphertext content ∈ received →
    ∃ src padding datagram, .sealed key counter src padding datagram ∈ sent ∧
      ciphertext = C.aeadSeal key (counterNonce counter) [] (src ++ List.replicate padding 0)

end KeyUse

namespace Session

variable {s r : Session} {sent received : List KeyUse}

theorem map_fst_openedContent (uses : List KeyUse) :
    (uses.filterMap KeyUse.openedContent).map (·.1) = openedCounters uses := by
  rw [List.map_filterMap, openedCounters]
  exact congrArg (List.filterMap · uses) (funext KeyUse.openedContent_fst)

/-- The counters of a session are below the number of the packets it has sealed. -/
theorem Records.sealed_lt (h : s.Records C sent) {counter : UInt64}
    (hmem : counter ∈ sealedCounters sent) : counter.toNat < (sealedCounters sent).length := by
  rw [← List.mem_reverse, h.sealed] at hmem
  obtain ⟨i, hi, rfl⟩ := List.mem_map.mp hmem
  calc (UInt64.ofNat i).toNat = i % 2 ^ 64 := UInt64.toNat_ofNat'
    _ ≤ i := Nat.mod_le _ _
    _ < _ := List.mem_range.mp hi

/-- An opened packet is what the sender sealed under its counter. -/
theorem Records.openedContent_mem (hopen : C.OpenUndoesSeal) (hr : r.Records C received)
    (hunforged : KeyUse.Unforged C sent received) {packet : UInt64 × Bytes}
    (hmem : packet ∈ received.filterMap KeyUse.openedContent) :
    packet ∈ sent.filterMap KeyUse.sealedContent := by
  obtain ⟨use, huse, hcontent⟩ := List.mem_filterMap.mp hmem
  cases use with
  | sealed => cases hcontent
  | opened key counter ciphertext content =>
    obtain ⟨src, padding, datagram, hsent, rfl⟩ := hunforged _ _ _ _ huse
    cases hcontent
    have hopened := (hr.each _ huse).2
    rw [hopen] at hopened
    cases hopened
    exact List.mem_filterMap.mpr ⟨_, hsent, rfl⟩

/-- So the receiver gets some of the packets of the sender, none of them twice. -/
theorem Records.opened_subperm (hopen : C.OpenUndoesSeal) (hs : s.Records C sent)
    (hr : r.Records C received) (hunforged : KeyUse.Unforged C sent received)
    (hfew : (sealedCounters sent).length ≤ 2 ^ 64 - 1024) :
    (received.filterMap KeyUse.openedContent).Subperm (sent.filterMap KeyUse.sealedContent) := by
  have hmem {packet : UInt64 × Bytes} (h : packet ∈ received.filterMap KeyUse.openedContent) :=
    hr.openedContent_mem hopen hunforged h
  have hsmall : ∀ c ∈ openedCounters received, c.toNat < 2 ^ 64 - 1024 := by
    intro c hc
    rw [← map_fst_openedContent] at hc
    obtain ⟨packet, hpacket, rfl⟩ := List.mem_map.mp hc
    obtain ⟨use, huse, hcontent⟩ := List.mem_filterMap.mp (hmem hpacket)
    have hcounter : packet.1 ∈ sealedCounters sent := by
      refine List.mem_filterMap.mpr ⟨use, huse, ?_⟩
      rw [← KeyUse.sealedContent_fst, hcontent]
      rfl
    exact (hs.sealed_lt hcounter).trans_le hfew
  have hnodup : ((received.filterMap KeyUse.openedContent).map (·.1)).Nodup := by
    rw [map_fst_openedContent]
    exact (hr.opened hsmall).2
  exact List.subperm_of_subset hnodup.of_map fun _ => hmem

end Session

namespace Tunn

/-- **The channel.**  Take any run of one tunnel and any run of another, with a network between them
that can do everything but seal under the key.  The packets a session of the second opens, each with
its counter and its content, are among those the first sealed, and each of them at most as often:
none is altered, none is delivered twice, and two of equal content are told apart. -/
theorem opened_subperm_sealed {C : Crypto} (hopen : C.OpenUndoesSeal) {ε ε' : Type} [Env ε]
    [Env ε'] {a b : Tunn C} {sent received : KeyHistory} (ha : Recorded ε a sent)
    (hb : Recorded ε' b received) {n m : ℕ}
    (hunforged : KeyUse.Unforged C (sent.usesOf n) (received.usesOf m))
    (hfew : (sent.sealed n).length ≤ 2 ^ 64 - 1024) :
    ((received.usesOf m).filterMap KeyUse.openedContent).Subperm
      ((sent.usesOf n).filterMap KeyUse.sealedContent) := by
  obtain ⟨s, hs⟩ := ha.records n
  obtain ⟨r, hr⟩ := hb.records m
  exact hs.opened_subperm hopen hr hunforged hfew

/-- The keepalive that ends a handshake reaches the responder. -/
theorem opened_subperm_sealed_keepalive :
    ∃ (b : Tunn Crypto.transparent) (sent received : KeyHistory),
      Recorded StillMachine freshAnswered sent ∧ Recorded StillMachine b received ∧
      (received.usesOf 0).filterMap KeyUse.openedContent = [(0, [])] ∧
      ((received.usesOf 0).filterMap KeyUse.openedContent).Subperm
        ((sent.usesOf 0).filterMap KeyUse.sealedContent) := by
  obtain ⟨keepalive, ha⟩ := freshAnswered_recorded
  obtain ⟨b, hb⟩ := freshGreeted_recorded
  refine ⟨b, _, _, ha, hb, rfl, opened_subperm_sealed Crypto.transparent_openUndoesSeal ha hb ?_ ?_⟩
  · intro key counter ciphertext content hmem
    obtain h : _ = _ := List.mem_singleton.mp hmem
    cases h
    exact ⟨[], 0, keepalive, List.mem_singleton.mpr rfl, rfl⟩
  · exact (KeyHistory.length_sealed_le _ 0).trans (show 1 ≤ 2 ^ 64 - 1024 by decide)

end Tunn
