import AwgTun.Phobos.Datagram

/-!
# How long a datagram is

A payload is the message and a tail, and the tail is bounded by four limits at once: the room up to
`dummyLimit`, the room up to `obfuscate_bytes`, the limit for handshakes and `max_dummy`.  The
source computes them in 16 bits next to machine words; `bound16_toNat` says that nothing is cut off
there.

* `drawDummy_tailBound` — what `encode` draws, from the bound in the types of the source.
* `TailFits` — how long the tail of a message can be.
* `wrap_size` — the length of every datagram, and the length that a STUN frame announces.
-/

open Control Bytes

namespace Phobos

variable {msgType : UInt32}

/-! ## The bound, as `encode` computes it -/

/-- `room`: at least 1, and at most what `obfuscate_bytes` leaves. -/
def room16 (ob len : Nat) : UInt16 :=
  let room : UInt16 := UInt16.ofNat dummyLimit - UInt16.ofNat len
  let partialRoom := ob - len + 1
  if 0 < ob ∧ partialRoom < room.toNat then UInt16.ofNat partialRoom else room

/-- `bound`, in the types of the source. -/
def bound16 (ob len : Nat) (msgType : UInt32) (maxDummy : UInt16) : UInt16 :=
  if !isPartial ob len && decide (len < dummyLimit) then
    if msgType = 1 ∨ msgType = 2 then min (room16 ob len) (UInt16.ofNat handshakeDummyLimit)
    else if (msgType = 3 ∨ msgType = 4) ∧ 0 < maxDummy then min (room16 ob len) maxDummy
    else 0
  else 0

theorem toNat_min16 (a b : UInt16) : (min a b).toNat = min a.toNat b.toNat := by
  change (if a ≤ b then a else b).toNat = _
  split_ifs with h
  · exact (min_eq_left (UInt16.le_iff_toNat_le.mp h)).symm
  · rw [UInt16.le_iff_toNat_le, Nat.not_le] at h
    exact (min_eq_right h.le).symm

theorem room16_toNat {ob len : Nat} (hlen : len < dummyLimit) :
    (room16 ob len).toNat =
      if 0 < ob ∧ ob - len + 1 < dummyLimit - len then ob - len + 1 else dummyLimit - len := by
  have hroom : (UInt16.ofNat dummyLimit - UInt16.ofNat len).toNat = dummyLimit - len := by
    have hle : UInt16.ofNat len ≤ UInt16.ofNat dummyLimit := by
      rw [UInt16.le_iff_toNat_le, UInt16.toNat_ofNat', UInt16.toNat_ofNat']
      simp only [dummyLimit] at hlen ⊢
      omega
    rw [UInt16.toNat_sub_of_le _ _ hle, UInt16.toNat_ofNat', UInt16.toNat_ofNat']
    simp only [dummyLimit] at hlen ⊢
    omega
  simp only [room16, hroom]
  split_ifs with hpartial
  · rw [UInt16.toNat_ofNat']
    simp only [dummyLimit] at hpartial
    omega
  · exact hroom

/-- **No width of the source is too small for the bound.** -/
theorem bound16_toNat (ob len : Nat) (msgType : UInt32) (maxDummy : UInt16) :
    (bound16 ob len msgType maxDummy).toNat = tailBound ob len msgType maxDummy := by
  unfold bound16 tailBound
  by_cases htail : (!isPartial ob len && decide (len < dummyLimit)) = true
  · have hlen : len < dummyLimit := by
      rw [Bool.and_eq_true, decide_eq_true_eq] at htail
      exact htail.2
    rw [if_pos htail, if_pos htail]
    simp only [← room16_toNat hlen]
    split_ifs
    · exact toNat_min16 _ _
    · exact toNat_min16 _ _
    · rfl
  · rw [if_neg htail, if_neg htail]
    rfl

/-- The draw of `encode` from its own bound. -/
theorem drawDummy_tailBound {ρ : Type} [RandomSource ρ] (ob len : Nat) (msgType : UInt32)
    (maxDummy : UInt16) (rng : ρ) :
    drawDummy (tailBound ob len msgType maxDummy) rng =
      if 0 < bound16 ob len msgType maxDummy then
        genRangeU16 rng 0 (bound16 ob len msgType maxDummy - 1)
      else (0, rng) := by
  rw [← bound16_toNat]
  generalize bound16 ob len msgType maxDummy = bound
  unfold drawDummy
  have hpos : 0 < bound.toNat ↔ 0 < bound := (UInt16.lt_iff_toNat_lt (a := 0) (b := bound)).symm
  simp only [hpos]
  split_ifs with h
  · have hone : (1 : UInt16) ≤ bound := by
      rw [UInt16.le_iff_toNat_le]
      exact hpos.mpr h
    have hlast : UInt16.ofNat (bound.toNat - 1) = bound - 1 := by
      apply UInt16.toNat_inj.mp
      rw [UInt16.toNat_sub_of_le _ _ hone,
        UInt16.toNat_ofNat_of_lt' ((Nat.sub_le _ _).trans_lt bound.toNat_lt)]
      rfl
    rw [hlast]
  · rfl

/-! ## The tail -/

/-- A message of this type may have a tail of `tail` bytes. -/
structure TailFits (ob len : Nat) (msgType : UInt32) (maxDummy : UInt16) (tail : Nat) : Prop where
  /-- A long message, and one that is masked in part, has no tail. -/
  whole : 1024 ≤ len ∨ (0 < ob ∧ ob < len) → tail = 0
  /-- The others stay short, and are masked as a whole with their tail. -/
  short : ¬ (1024 ≤ len ∨ (0 < ob ∧ ob < len)) → len + tail ≤ 1023 ∧ (ob ≠ 0 → len + tail ≤ ob)
  handshake : msgType = 1 ∨ msgType = 2 → tail ≤ 511
  transport : msgType = 3 ∨ msgType = 4 → if maxDummy = 0 then tail = 0 else tail < maxDummy.toNat
  other : ¬ (msgType = 1 ∨ msgType = 2) → ¬ (msgType = 3 ∨ msgType = 4) → tail = 0

theorem tailBound_handshake (h : msgType = 1 ∨ msgType = 2) (ob len : Nat) (maxDummy : UInt16) :
    tailBound ob len msgType maxDummy ≤ 512 := by
  simp only [tailBound, if_pos h]
  split_ifs
  · exact min_le_right _ _
  · exact min_le_right _ _
  · exact Nat.zero_le _

theorem tailBound_transport (h : msgType = 3 ∨ msgType = 4) (ob len : Nat) (maxDummy : UInt16) :
    tailBound ob len msgType maxDummy ≤ maxDummy.toNat := by
  have hother : ¬ (msgType = 1 ∨ msgType = 2) := by
    rcases h with rfl | rfl <;> decide
  simp only [tailBound, if_neg hother]
  split_ifs
  · exact min_le_right _ _
  · exact min_le_right _ _
  · exact Nat.zero_le _
  · exact Nat.zero_le _

theorem tailBound_other (hhandshake : ¬ (msgType = 1 ∨ msgType = 2))
    (htransport : ¬ (msgType = 3 ∨ msgType = 4)) (ob len : Nat) (maxDummy : UInt16) :
    tailBound ob len msgType maxDummy = 0 := by
  simp only [tailBound, if_neg hhandshake, htransport, false_and, if_false, ite_self]

/-- What is drawn below the bound fits. -/
theorem tailFits_of_le {ob len tail : Nat} {maxDummy : UInt16}
    (h : tail ≤ tailBound ob len msgType maxDummy - 1) : TailFits ob len msgType maxDummy tail where
  whole := by
    have hroom := tailBound_le ob len msgType maxDummy
    rintro (hlong | hpartial)
    · simp only [dummyLimit] at hroom
      omega
    · rw [tailBound_of_isPartial (by simp [isPartial, hpartial])] at h
      omega
  short := by
    intro hshort
    have hroom := tailBound_le ob len msgType maxDummy
    simp only [dummyLimit] at hroom
    refine ⟨by omega, fun hob => ?_⟩
    have hpartial := tailBound_le_of_pos (Nat.pos_of_ne_zero hob) len msgType maxDummy
    omega
  handshake := by
    intro htype
    have hbound := tailBound_handshake htype ob len maxDummy
    omega
  transport := by
    intro htype
    have hbound := tailBound_transport htype ob len maxDummy
    split_ifs with hzero
    · have hnone : maxDummy.toNat = 0 := congrArg UInt16.toNat hzero
      omega
    · have hpos : maxDummy.toNat ≠ 0 := fun hz => hzero (UInt16.toNat_inj.mp hz)
      omega
  other := by
    intro hhandshake htransport
    rw [tailBound_other hhandshake htransport] at h
    omega

/-! ## The datagram -/

/-- The messages that `wrap` accepts. -/
def Masking.Carries (masking : Masking) (message : Bytes) : Prop :=
  4 ≤ message.length ∧ (masking = .stun → message.length ≤ 65535)

/-- The size of a datagram: its payload has `p` bytes, and a STUN frame says so. -/
structure PhobosConfig.SizeLaw (cfg : PhobosConfig) (message datagram : Bytes) (p : Nat) :
    Prop where
  length : datagram.length = cfg.masking.overhead + p
  tail : ∃ tail, p = message.length + tail ∧
    TailFits cfg.effectiveObfuscateBytes.toNat message.length (u32OfLe (message.take 4))
      cfg.maxDummy tail
  data : cfg.masking = .stun → beNat (slice datagram 22 24) = p

namespace PhobosCodec

variable {ρ : Type} [RandomSource ρ] {cfg : PhobosConfig} {c c' : PhobosCodec ρ} {message : Bytes}

theorem draw_fits (hs : c.Serves cfg) (message : Bytes) :
    TailFits cfg.effectiveObfuscateBytes.toNat message.length (u32OfLe (message.take 4))
      cfg.maxDummy (c.draw message).1.dummy.toNat := by
  rw [← hs.obfuscateBytes, ← hs.config]
  have hbound := tailBound_le c.obfuscateBytes.toNat message.length (u32OfLe (message.take 4))
    c.config.maxDummy
  exact tailFits_of_le (draws_dummy_le (hbound.trans (Nat.sub_le _ _)) Prod.mk.eta.symm)

/-- A message that is carried leaves behind the header of its frame. -/
theorem wrap_carried (hs : c.Serves cfg) (hcarries : cfg.masking.Carries message) :
    ∃ request header c', c.wrap message = .ok (.ok (request, header ++ c.payload message), c') ∧
      header.length = cfg.masking.overhead ∧
      (cfg.masking = .stun → ∃ txid, header = dataHeader txid (c.payload message).length) := by
  obtain ⟨request, hwrap⟩ := wrap_eq hs hcarries.1 (by rw [hs.config]; exact hcarries.2)
  rw [← hs.config]
  cases hmasking : c.config.masking with
  | none =>
    refine ⟨request, [], { c with rng := (c.draw message).2 }, ?_, rfl, fun h => by cases h⟩
    rw [hwrap]
    simp only [frame, hmasking]
    rfl
  | stun =>
    obtain ⟨txid, c', hframe⟩ := frame_stun (c := { c with rng := (c.draw message).2 }) hmasking
      (c.payload message)
    refine ⟨request, _, c', ?_, length_dataHeader txid _, fun _ => ⟨txid, rfl⟩⟩
    rw [hwrap, hmasking, Masking.overhead, hframe, ok_bind]
  | media =>
    obtain ⟨s, c', hframe, -, -⟩ := frame_media (hs.withRng (c.draw message).2) hmasking
      (c.payload message)
    refine ⟨request, s.header, c', ?_, length_rtpHeader s, fun h => by cases h⟩
    rw [hwrap, hmasking, Masking.overhead, hframe, ok_bind]

/-- A message that is not carried is refused. -/
theorem wrap_refused (hs : c.Serves cfg) (hcarries : ¬ cfg.masking.Carries message) :
    ∃ err, c.wrap message = .ok (.error err, c) := by
  by_cases hlen : message.length < 4
  · exact ⟨.tooShort, by simp only [wrap, if_pos hlen]; rfl⟩
  · have hstun : cfg.masking = .stun ∧ 65535 < message.length := by
      unfold Masking.Carries at hcarries
      push Not at hcarries
      exact hcarries (Nat.not_lt.mp hlen)
    have hlong : c.config.masking.maxMessageLen.any (· < message.length) = true := by
      rw [hs.config, hstun.1]
      simpa [Masking.maxMessageLen] using hstun.2
    exact ⟨.tooLong, by simp only [wrap, if_neg hlen, if_pos hlong]; rfl⟩

/-- The length in the header of a Data Indication. -/
theorem data_length (txid : ByteArr 12) {n : Nat} (hn : n ≤ 65535) (payload : Bytes) :
    beNat (slice (dataHeader txid n ++ payload) 22 24) = n := by
  have hshape : dataHeader txid n ++ payload =
      (stunHeader stunDataIndication 0 txid ++ beBytes 2 stunAttrData) ++
        (beBytes 2 n ++ payload) := by
    simp only [dataHeader, List.append_assoc]
  have hslice : slice (dataHeader txid n ++ payload) 22 24 = beBytes 2 n := by
    rw [hshape]
    exact slice_append (by simp) (by simp)
  rw [hslice, beNat_beBytes, Nat.mod_eq_of_lt (by omega)]

/-- **The size of a datagram.**  Whatever a codec has done before and whatever it draws, it returns,
it refuses just the messages that do not fit its frame, and it sends a payload of the length of the
message where that is long or masked in part, and one of at most 1023 bytes otherwise. -/
theorem wrap_size (hs : c.Serves cfg) (message : Bytes) :
    ∃ result c', c.wrap message = .ok (result, c') ∧
      ((∃ sent, result = .ok sent) ↔ cfg.masking.Carries message) ∧
      ∀ request datagram, result = .ok (request, datagram) →
        ∃ p, cfg.SizeLaw message datagram p := by
  by_cases hcarries : cfg.masking.Carries message
  · obtain ⟨request, header, c', hwrap, hheader, hstun⟩ := wrap_carried hs hcarries
    refine ⟨_, c', hwrap, iff_of_true ⟨_, rfl⟩ hcarries, ?_⟩
    rintro - - ⟨⟩
    have hlen := length_payload (c := c) hcarries.1
    refine ⟨(c.payload message).length, by rw [List.length_append, hheader],
      ⟨_, hlen, draw_fits hs message⟩, ?_⟩
    intro hmasking
    obtain ⟨txid, rfl⟩ := hstun hmasking
    exact data_length txid (length_payload_lt hcarries.1 (hcarries.2 hmasking)) _
  · obtain ⟨err, hwrap⟩ := wrap_refused hs hcarries
    refine ⟨_, c, hwrap, iff_of_false ?_ hcarries, nofun⟩
    rintro ⟨sent, ⟨⟩⟩

/-- A keepalive in a STUN frame. -/
theorem wrap_size_stun : ∃ request datagram c',
    indicating.wrap keepalive = .ok (.ok (request, datagram), c') ∧
      ∃ p, indicating.config.SizeLaw keepalive datagram p := by
  have hserves : indicating.Serves indicating.config := withRng_serves rfl
  obtain ⟨result, c', hwrap, hsent, hsize⟩ := wrap_size hserves keepalive
  obtain ⟨⟨request, datagram⟩, rfl⟩ := hsent.mpr ⟨by decide, fun _ => by decide⟩
  exact ⟨request, datagram, c', hwrap, hsize request datagram rfl⟩

end PhobosCodec

end Phobos
