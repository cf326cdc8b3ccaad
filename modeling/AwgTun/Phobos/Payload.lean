import AwgTun.Amnezia.Random

/-!
# Phobos payloads

`encode` and `decode` of `phobos/mod.rs`: a WireGuard message gets a random header, a random
tail and a mask.  The mask depends on the length of what is masked, which the receiver has to
find out from the length of what it gets.

* `applyKeystream_eq` — masking is XOR with `keystream`.
* `encode_eq` — the payload, from the draws of the sender.
* `payload_roundtrip` — `decode` gives back what `encode` was given.
-/

open Control Bytes

namespace Phobos

variable {key : Bytes}

/-- `MAX_KEY_LEN`. -/
def maxKeyLen : Nat := 255

/-- `DUMMY_LIMIT`: from this size on a message gets no tail. -/
def dummyLimit : Nat := 1024

/-- `HANDSHAKE_DUMMY_LIMIT`. -/
def handshakeDummyLimit : Nat := 512

/-! ## The keystream -/

/-- One round of the loop that computes an entry of `CRC8`, on the checksum and on what is left
of the byte. -/
def crc8Bit (s : UInt8 × UInt8) : UInt8 × UInt8 :=
  let mix := (s.1 ^^^ s.2) &&& 1
  let crc := s.1 >>> 1
  (if mix ≠ 0 then crc ^^^ 0x8C else crc, s.2 >>> 1)

/-- `CRC8[i]`. -/
def crc8 (i : UInt8) : UInt8 := (crc8Bit^[8] (0, i)).1

/-- The checksum after byte `i` of the adjusted key, which is read in a circle. -/
def nextCrc (adjusted : Bytes) (crc : UInt8) (i : Nat) : UInt8 :=
  crc8 (crc ^^^ adjusted.getD (i % adjusted.length) 0)

/-- The loop of `apply_keystream`, from byte `i` on. -/
def maskLoop (adjusted : Bytes) : UInt8 → Nat → Bytes → Bytes
  | _, _, [] => []
  | crc, i, byte :: rest =>
    let crc := nextCrc adjusted crc i
    (byte ^^^ crc) :: maskLoop adjusted crc (i + 1) rest

/-- The key, adjusted for a region of `n` bytes. -/
def adjustedKey (key : Bytes) (n : Nat) : Bytes := key.map (· + UInt8.ofNat (n + key.length))

/-- `apply_keystream`. -/
def applyKeystream (buf key : Bytes) : Outcome Bytes :=
  if key = [] ∨ maxKeyLen < key.length then
    .panic "assertion failed: !key.is_empty() && key.len() <= MAX_KEY_LEN"
  else .ok (maskLoop (adjustedKey key buf.length) 0 0 buf)

/-- A key `apply_keystream` takes. -/
def KeyFits (key : Bytes) : Prop := key ≠ [] ∧ key.length ≤ maxKeyLen

instance (key : Bytes) : Decidable (KeyFits key) := inferInstanceAs (Decidable (_ ∧ _))

/-- `n` bytes of the mask, from byte `i` on. -/
def streamFrom (adjusted : Bytes) : UInt8 → Nat → Nat → Bytes
  | _, _, 0 => []
  | crc, i, n + 1 =>
    let crc := nextCrc adjusted crc i
    crc :: streamFrom adjusted crc (i + 1) n

/-- The mask of a region of `n` bytes. -/
def keystream (key : Bytes) (n : Nat) : Bytes := streamFrom (adjustedKey key n) 0 0 n

@[simp] theorem length_streamFrom (adjusted : Bytes) (crc : UInt8) (i n : Nat) :
    (streamFrom adjusted crc i n).length = n := by
  induction n generalizing crc i with
  | zero => rfl
  | succ n ih => simp [streamFrom, ih]

@[simp] theorem length_keystream (key : Bytes) (n : Nat) : (keystream key n).length = n :=
  length_streamFrom _ _ _ _

theorem maskLoop_eq (adjusted : Bytes) (crc : UInt8) (i : Nat) (buf : Bytes) :
    maskLoop adjusted crc i buf = xorBytes buf (streamFrom adjusted crc i buf.length) := by
  induction buf generalizing crc i with
  | nil => rfl
  | cons byte rest ih => simp only [maskLoop, List.length_cons, streamFrom, xorBytes, ih]

theorem applyKeystream_eq (hkey : KeyFits key) (buf : Bytes) :
    applyKeystream buf key = .ok (xorBytes buf (keystream key buf.length)) := by
  have hnot : ¬ (key = [] ∨ maxKeyLen < key.length) := by
    rintro (hnil | hlong)
    · exact hkey.1 hnil
    · exact Nat.not_lt.mpr hkey.2 hlong
  rw [applyKeystream, if_neg hnot, maskLoop_eq, keystream]

/-- `apply_keystream(&mut bs[..n], key)`. -/
def maskFront (bs key : Bytes) (n : Nat) : Outcome Bytes := do
  let front ← sliceTo bs n
  let front ← applyKeystream front key
  return front ++ bs.drop n

theorem maskFront_eq (hkey : KeyFits key) {bs : Bytes} {n : Nat} (hn : n ≤ bs.length) :
    maskFront bs key n = .ok (xorBytes bs (keystream key n)) := by
  have hlen : (bs.take n).length = n := by simp [hn]
  have hmask : (keystream key n).length ≤ n := (length_keystream key n).le
  have hsplit : xorBytes bs (keystream key n) =
      xorBytes (bs.take n) (keystream key n) ++ bs.drop n := by
    conv_lhs => rw [← List.take_append_drop n bs, xorBytes_append]
    rw [hlen, List.take_of_length_le hmask, List.drop_eq_nil_of_le hmask, xorBytes_nil_right]
  rw [maskFront, sliceTo_eq_ok hn, ok_bind, applyKeystream_eq hkey, ok_bind, hlen, hsplit]
  rfl

/-! ## Messages and payloads -/

/-- `looks_plain`: the type field of a WireGuard message. -/
def looksPlain : Bytes → Bool
  | b₀ :: b₁ :: b₂ :: b₃ :: _ => decide (1 ≤ b₀) && decide (b₀ ≤ 4) && b₁ == 0 && b₂ == 0 && b₃ == 0
  | _ => false

/-- Only the first `obfuscate_bytes` bytes of `len` are masked. -/
def isPartial (ob len : Nat) : Bool := decide (0 < ob) && decide (ob < len)

/-- The length of the region of a payload of `len` bytes that is masked. -/
def maskedLen (ob len : Nat) : Nat := if isPartial ob len then ob else len

/-- The length of a tail is drawn below this bound; there is none where it is 0. -/
def tailBound (ob len : Nat) (msgType : UInt32) (maxDummy : UInt16) : Nat :=
  if !isPartial ob len && decide (len < dummyLimit) then
    let room := dummyLimit - len
    -- keeps the encoded length at most `ob`, so that the receiver also masks all of it
    let room := if 0 < ob ∧ ob - len + 1 < room then ob - len + 1 else room
    if msgType = 1 ∨ msgType = 2 then min room handshakeDummyLimit
    else if (msgType = 3 ∨ msgType = 4) ∧ 0 < maxDummy then min room maxDummy.toNat
    else 0
  else 0

/-- What `encode` draws. -/
structure Draws where
  r : UInt8
  dummy : UInt16
  tail : Bytes
  deriving DecidableEq, Repr

/-- A message of type `b₀` before it is masked: the byte that was drawn hides the type, and the
length of the tail stands where a plain message has zeros. -/
def Draws.payload (drawn : Draws) (b₀ : UInt8) (rest : Bytes) : Bytes :=
  (b₀ ^^^ drawn.r) :: drawn.r :: (leBytes 2 drawn.dummy.toNat ++ (rest ++ drawn.tail))

section Draw

variable {ρ : Type} [RandomSource ρ]

/-- The length of the tail. -/
def drawDummy (bound : Nat) (rng : ρ) : UInt16 × ρ :=
  if 0 < bound then genRangeU16 rng 0 (UInt16.ofNat (bound - 1)) else (0, rng)

/-- The tail, which is not asked for where it is empty. -/
def drawTail (dummy : UInt16) (rng : ρ) : Bytes × ρ :=
  if 0 < dummy then
    let (tail, rng) := RandomSource.fillBytes rng dummy.toNat
    (tail, rng)
  else ([], rng)

/-- The draws of `encode`, in their order. -/
def draws (bound : Nat) (rng : ρ) : Draws × ρ :=
  let (r, rng) := genRangeU32 rng 1 255
  let (dummy, rng) := drawDummy bound rng
  let (tail, rng) := drawTail dummy rng
  (⟨r.toUInt8, dummy, tail⟩, rng)

/-- `encode`: the message at `buf[start..]` is encoded in place. -/
def encode (buf : Bytes) (start : Nat) (key : Bytes) (maxDummy : UInt16) (obfuscateBytes : UInt32)
    (rng : ρ) : Outcome (Bytes × ρ) := do
  match buf.drop start with
  | b₀ :: b₁ :: b₂ :: b₃ :: rest =>
    let len := rest.length + 4
    let ob := obfuscateBytes.toNat
    let msgType := u32OfLe [b₀, b₁, b₂, b₃]
    let (drawn, rng) := draws (tailBound ob len msgType maxDummy) rng
    let payload := drawn.payload b₀ rest
    let payload ← maskFront payload key (if isPartial ob len then ob else payload.length)
    return (buf.take start ++ payload, rng)
  | _ => .panic "assertion failed: len >= 4"

end Draw

/-- `decode`: the length of the message, and the buffer it was decoded in. -/
def decode (payload key : Bytes) (obfuscateBytes : UInt32) : Outcome (Option Nat × Bytes) := do
  let len := payload.length
  if len < 4 then
    return (none, payload)
  let payload ← maskFront payload key (maskedLen obfuscateBytes.toNat len)
  -- a payload that is plain once unmasked was never encoded
  if looksPlain payload then
    return (some len, payload)
  match payload with
  | b₀ :: b₁ :: b₂ :: b₃ :: rest =>
    let dummy := leNat [b₂, b₃]
    let message := if dummy ≤ len ∧ 4 ≤ len - dummy then some (len - dummy) else none
    return (message, (b₀ ^^^ b₁) :: 0 :: 0 :: 0 :: rest)
  | _ => .panic "index out of bounds"

/-! ## What is drawn -/

section Draw

variable {ρ : Type} [RandomSource ρ] {bound : Nat} {rng rng' : ρ} {drawn : Draws}

theorem genRangeU16_zero_le (rng : ρ) (stop : UInt16) : (genRangeU16 rng 0 stop).1 ≤ stop := by
  have hmem : (genRangeU32 rng 0 stop.toUInt32).1 ≤ stop.toUInt32 :=
    (genRangeU32_mem rng (by simp)).2
  rw [UInt32.le_iff_toNat_le, UInt16.toNat_toUInt32] at hmem
  have hstop : stop.toNat < 2 ^ 16 := stop.toNat_lt
  rw [UInt16.le_iff_toNat_le]
  change (genRangeU32 rng 0 stop.toUInt32).1.toUInt16.toNat ≤ _
  rw [UInt32.toNat_toUInt16, Nat.mod_eq_of_lt (by omega)]
  exact hmem

/-- The byte that is drawn is not zero. -/
theorem draws_r_ne_zero (h : draws bound rng = (drawn, rng')) : drawn.r ≠ 0 := by
  cases h
  have hmem : 1 ≤ (genRangeU32 rng 1 255).1 ∧ (genRangeU32 rng 1 255).1 ≤ 255 :=
    genRangeU32_mem rng (by decide)
  simp only [UInt32.le_iff_toNat_le] at hmem
  have hlow : 1 ≤ (genRangeU32 rng 1 255).1.toNat := hmem.1
  have hhigh : (genRangeU32 rng 1 255).1.toNat ≤ 255 := hmem.2
  intro hzero
  have hzero : (genRangeU32 rng 1 255).1.toUInt8.toNat = 0 := congrArg UInt8.toNat hzero
  rw [UInt32.toNat_toUInt8, Nat.mod_eq_of_lt (by omega)] at hzero
  omega

theorem drawTail_length (dummy : UInt16) (rng : ρ) :
    (drawTail dummy rng).1.length = dummy.toNat := by
  unfold drawTail
  split_ifs with hpos
  · exact List.Vector.toList_length _
  · have hzero := UInt16.not_lt.mp hpos
    rw [UInt16.le_iff_toNat_le] at hzero
    exact (Nat.le_zero.mp hzero).symm

theorem drawDummy_le (hbound : bound ≤ dummyLimit) (rng : ρ) :
    (drawDummy bound rng).1.toNat ≤ bound - 1 := by
  unfold drawDummy
  split_ifs with hpos
  · have hle := genRangeU16_zero_le rng (UInt16.ofNat (bound - 1))
    have hsmall : bound - 1 < 2 ^ 16 := by
      simp only [dummyLimit] at hbound
      omega
    rwa [UInt16.le_iff_toNat_le, UInt16.toNat_ofNat_of_lt' hsmall] at hle
  · exact Nat.zero_le _

/-- The tail has the length that is written in the header. -/
theorem draws_tail_length (h : draws bound rng = (drawn, rng')) :
    drawn.tail.length = drawn.dummy.toNat := by
  cases h
  exact drawTail_length _ _

theorem draws_dummy_le (hbound : bound ≤ dummyLimit) (h : draws bound rng = (drawn, rng')) :
    drawn.dummy.toNat ≤ bound - 1 := by
  cases h
  exact drawDummy_le hbound _

end Draw

/-! ## The round trip -/

theorem tailBound_le (ob len : Nat) (msgType : UInt32) (maxDummy : UInt16) :
    tailBound ob len msgType maxDummy ≤ dummyLimit - len := by
  simp only [tailBound]
  split_ifs <;> omega

theorem tailBound_of_isPartial {ob len : Nat} (h : isPartial ob len = true) (msgType : UInt32)
    (maxDummy : UInt16) : tailBound ob len msgType maxDummy = 0 := by
  simp [tailBound, h]

theorem tailBound_le_of_pos {ob : Nat} (hob : 0 < ob) (len : Nat) (msgType : UInt32)
    (maxDummy : UInt16) : tailBound ob len msgType maxDummy ≤ ob - len + 1 := by
  simp only [tailBound]
  split_ifs <;> omega

/-- A tail does not change how much is masked. -/
theorem isPartial_add_tail {ob len d : Nat} {msgType : UInt32} {maxDummy : UInt16}
    (hd : d ≤ tailBound ob len msgType maxDummy - 1) :
    isPartial ob (len + d) = isPartial ob len := by
  cases hpartial : isPartial ob len with
  | true =>
    rw [tailBound_of_isPartial hpartial] at hd
    obtain rfl : d = 0 := by omega
    exact hpartial
  | false =>
    simp only [isPartial, Bool.and_eq_false_iff, decide_eq_false_iff_not, Nat.not_lt] at hpartial ⊢
    rcases hpartial with hzero | hlong
    · exact .inl hzero
    · by_cases hob : 0 < ob
      · have hroom := tailBound_le_of_pos hob len msgType maxDummy
        exact .inr (by omega)
      · exact .inl (by omega)

section Draw

variable {ρ : Type} [RandomSource ρ] {key : Bytes} {drawn : Draws}

theorem maskedLen_le (ob len : Nat) : maskedLen ob len ≤ len := by
  unfold maskedLen isPartial
  split_ifs with h
  · simp only [Bool.and_eq_true, decide_eq_true_eq] at h
    exact h.2.le
  · exact le_rfl

theorem Draws.length_payload (drawn : Draws) (b₀ : UInt8) (rest : Bytes) :
    (drawn.payload b₀ rest).length = rest.length + 4 + drawn.tail.length := by
  simp only [Draws.payload, List.length_cons, List.length_append, length_leBytes]
  omega

/-- **What is sent**: the payload, masked as far as the receiver will unmask it. -/
theorem encode_eq (hkey : KeyFits key) (header rest : Bytes) (b₀ b₁ b₂ b₃ : UInt8)
    (maxDummy : UInt16) (obfuscateBytes : UInt32) (rng : ρ) {rng' : ρ}
    (hdrawn : draws (tailBound obfuscateBytes.toNat (rest.length + 4)
      (u32OfLe [b₀, b₁, b₂, b₃]) maxDummy) rng = (drawn, rng')) :
    encode (header ++ b₀ :: b₁ :: b₂ :: b₃ :: rest) header.length key maxDummy obfuscateBytes rng =
      .ok (header ++ xorBytes (drawn.payload b₀ rest) (keystream key
        (maskedLen obfuscateBytes.toNat (drawn.payload b₀ rest).length)), rng') := by
  have hbound := tailBound_le obfuscateBytes.toNat (rest.length + 4) (u32OfLe [b₀, b₁, b₂, b₃])
    maxDummy
  have hdummy := draws_dummy_le (hbound.trans (Nat.sub_le _ _)) hdrawn
  have htail := draws_tail_length hdrawn
  have hsame : (if isPartial obfuscateBytes.toNat (rest.length + 4) then obfuscateBytes.toNat
      else (drawn.payload b₀ rest).length) =
        maskedLen obfuscateBytes.toNat (drawn.payload b₀ rest).length := by
    rw [maskedLen, drawn.length_payload, htail, isPartial_add_tail hdummy]
  simp only [encode, List.drop_left, hdrawn, hsame, List.take_left]
  rw [maskFront_eq hkey (maskedLen_le _ _)]
  rfl

/-- Unmasking what was masked for a payload of this length. -/
theorem decode_masked (hkey : KeyFits key) {b₀ b₁ b₂ b₃ : UInt8} {rest : Bytes}
    (obfuscateBytes : UInt32) (hplain : looksPlain (b₀ :: b₁ :: b₂ :: b₃ :: rest) = false)
    (hdummy : leNat [b₂, b₃] ≤ rest.length) :
    decode (xorBytes (b₀ :: b₁ :: b₂ :: b₃ :: rest) (keystream key
        (maskedLen obfuscateBytes.toNat (rest.length + 4)))) key obfuscateBytes =
      .ok (some (rest.length + 4 - leNat [b₂, b₃]), (b₀ ^^^ b₁) :: 0 :: 0 :: 0 :: rest) := by
  have hlen : (xorBytes (b₀ :: b₁ :: b₂ :: b₃ :: rest) (keystream key
      (maskedLen obfuscateBytes.toNat (rest.length + 4)))).length = rest.length + 4 := by simp
  have hsmall : ¬ rest.length + 4 < 4 := by omega
  simp only [decode, hlen, if_neg hsmall]
  rw [maskFront_eq hkey (by rw [hlen]; exact maskedLen_le _ _), xorBytes_xorBytes, ok_bind, hplain]
  have hkept : leNat [b₂, b₃] ≤ rest.length + 4 ∧ 4 ≤ rest.length + 4 - leNat [b₂, b₃] := by omega
  simp only [Bool.false_eq_true, if_false, if_pos hkept]
  rfl

/-- A payload does not look plain once it is unmasked. -/
theorem Draws.looksPlain_payload (hr : drawn.r ≠ 0) (b₀ : UInt8) (rest : Bytes) :
    looksPlain (drawn.payload b₀ rest) = false := by
  simp [Draws.payload, leBytes, looksPlain, hr]

/-- What the receiver makes of a payload whose tail is as long as its header says. -/
theorem Draws.decode_payload (hkey : KeyFits key) (hr : drawn.r ≠ 0)
    (htail : drawn.tail.length = drawn.dummy.toNat) (obfuscateBytes : UInt32) (b₀ : UInt8)
    (rest : Bytes) :
    decode (xorBytes (drawn.payload b₀ rest) (keystream key
        (maskedLen obfuscateBytes.toNat (drawn.payload b₀ rest).length))) key obfuscateBytes =
      .ok (some (rest.length + 4), b₀ :: 0 :: 0 :: 0 :: (rest ++ drawn.tail)) := by
  have hplain := Draws.looksPlain_payload hr b₀ rest
  have hlen : (drawn.payload b₀ rest).length = (rest ++ drawn.tail).length + 4 := by
    rw [drawn.length_payload, List.length_append]
    omega
  have hread : leNat (leBytes 2 drawn.dummy.toNat) = drawn.dummy.toNat := by
    rw [leNat_leBytes]
    exact Nat.mod_eq_of_lt drawn.dummy.toNat_lt
  rw [hlen]
  simp only [Draws.payload, leBytes, List.cons_append, List.nil_append] at hplain hread ⊢
  rw [decode_masked hkey obfuscateBytes hplain (by rw [hread, List.length_append]; omega), hread,
    List.length_append, UInt8.xor_assoc, UInt8.xor_self, UInt8.xor_zero]
  congr 3
  omega

/-- The shape of a message whose type field ends in three zeros. -/
theorem message_shape {message : Bytes} (hlen : 4 ≤ message.length)
    (hzero : slice message 1 4 = [0, 0, 0]) : ∃ b₀ rest, message = b₀ :: 0 :: 0 :: 0 :: rest := by
  match message, hlen with
  | b₀ :: b₁ :: b₂ :: b₃ :: rest, _ =>
    have hbytes : [b₁, b₂, b₃] = [0, 0, 0] := hzero
    simp only [List.cons.injEq, and_true] at hbytes
    obtain ⟨rfl, rfl, rfl⟩ := hbytes
    exact ⟨b₀, rest, rfl⟩

/-- **Payloads survive the way.**  For every key, every setting and every draw, `decode` finds in
what `encode` made of a message the length of the message and the message itself.  The message
stands behind `header` in the buffer that is encoded. -/
theorem payload_roundtrip (hkey : KeyFits key) (maxDummy : UInt16) (obfuscateBytes : UInt32)
    (rng : ρ) (header : Bytes) {message : Bytes} (hlen : 4 ≤ message.length)
    (hzero : slice message 1 4 = [0, 0, 0]) :
    ∃ payload rng', encode (header ++ message) header.length key maxDummy obfuscateBytes rng =
        .ok (header ++ payload, rng') ∧
      ∃ buf, decode payload key obfuscateBytes = .ok (some message.length, buf) ∧
        buf.take message.length = message := by
  obtain ⟨b₀, rest, rfl⟩ := message_shape hlen hzero
  obtain ⟨drawn, rng', hdrawn⟩ : ∃ drawn rng', draws (tailBound obfuscateBytes.toNat
      (rest.length + 4) (u32OfLe [b₀, 0, 0, 0]) maxDummy) rng = (drawn, rng') := ⟨_, _, rfl⟩
  refine ⟨_, rng', encode_eq hkey header rest b₀ 0 0 0 maxDummy obfuscateBytes rng hdrawn, _,
    Draws.decode_payload hkey (draws_r_ne_zero hdrawn) (draws_tail_length hdrawn) obfuscateBytes b₀
      rest, ?_⟩
  simp

end Draw

/-- A cookie reply of six bytes behind a frame of one, with only its type field masked. -/
theorem payload_roundtrip_cookie :
    KeyFits [7, 9] ∧ ∃ payload rng', encode [128, 3, 0, 0, 0, 5, 6] 1 [7, 9] 4 4
        ({} : StillMachine) = .ok (128 :: payload, rng') ∧
      ∃ buf, decode payload [7, 9] 4 = .ok (some 6, buf) ∧ buf.take 6 = [3, 0, 0, 0, 5, 6] :=
  ⟨by decide, payload_roundtrip (by decide) 4 4 _ [128] (by decide) rfl⟩

end Phobos
