import AwgTun.Lib.Galois
import AwgTun.Phobos.Codec

/-!
# Checksums, bit by bit

`CRC8` and `CRC32` are tables.  Here the two checksums are what they are tables for: a register that
takes in its data bit by bit, the lowest bit of a byte first.  The tables are built in two ways.  An
entry of `CRC32` begins with the byte in the register, and an entry of `CRC8` begins with an empty
register and takes in the byte; both are eight steps of the register from the byte.

* `crc32Bitwise`, `crc8Bitwise` — the checksums, without a table.
* `crc32_eq`, `crc8_fold` — the tables compute them.
* `checksums_bitwise` — the checksum of a STUN message, and the mask of a payload.
-/

open Control Bytes Galois

namespace Phobos

variable {key : Bytes}

/-- The bits of a string, byte by byte and the lowest bit of a byte first. -/
def bitsOf (data : Bytes) : List Bool := data.flatMap fun b => wordBits b.toBitVec

/-- CRC-32/IEEE: all ones at first, and complemented in the end. -/
def crc32Bitwise (data : Bytes) : UInt32 :=
  ⟨~~~ (bitsOf data).foldl (feed 0xEDB88320#32) (~~~ 0)⟩

/-- CRC-8 with the polynomial of the keystream. -/
def crc8Bitwise (data : Bytes) : UInt8 :=
  ⟨(bitsOf data).foldl (feed 0x8C#8) 0⟩

/-! ## The tables -/

theorem crc32Bit_toBitVec (crc : UInt32) :
    (crc32Bit crc).toBitVec = step 0xEDB88320#32 crc.toBitVec := by
  have hlow : crc &&& 1 ≠ 0 ↔ crc.toBitVec.getLsbD 0 = true :=
    UInt32.toBitVec_inj.symm.not.trans (and_one_ne_zero (by decide) _)
  unfold crc32Bit step
  split_ifs with h h' h'
  · rfl
  · exact absurd (hlow.mp h) h'
  · exact absurd (hlow.mpr h') h
  · rfl

theorem crc32Table_toBitVec (i : UInt8) :
    (crc32Table i).toBitVec = (step 0xEDB88320#32)^[8] (i.toBitVec.setWidth 32) :=
  (Function.Semiconj.iterate_right (f := UInt32.toBitVec) crc32Bit_toBitVec 8) i.toUInt32

/-- What is in the register and what is left of the byte, added up. -/
theorem crc8Bit_xor (s : UInt8 × UInt8) :
    ((crc8Bit s).1 ^^^ (crc8Bit s).2).toBitVec = step 0x8C#8 (s.1 ^^^ s.2).toBitVec := by
  have hlow : (s.1 ^^^ s.2) &&& 1 ≠ 0 ↔ (s.1 ^^^ s.2).toBitVec.getLsbD 0 = true :=
    UInt8.toBitVec_inj.symm.not.trans (and_one_ne_zero (by decide) _)
  have hshift : (s.1 >>> 1 ^^^ s.2 >>> 1).toBitVec = (s.1 ^^^ s.2).toBitVec >>> 1 :=
    (BitVec.ushiftRight_xor_distrib s.1.toBitVec s.2.toBitVec 1).symm
  unfold crc8Bit step
  simp only [← hshift]
  split_ifs with h h' h'
  · rw [UInt8.xor_assoc, UInt8.xor_comm 0x8C, ← UInt8.xor_assoc]
    rfl
  · exact absurd (hlow.mp h) h'
  · exact absurd (hlow.mpr h') h
  · rfl

theorem crc8_toBitVec (i : UInt8) : (crc8 i).toBitVec = (step 0x8C#8)^[8] i.toBitVec := by
  have hsum : ∀ s, (((crc8Bit^[8] s).1 ^^^ (crc8Bit^[8] s).2).toBitVec) =
      (step 0x8C#8)^[8] (s.1 ^^^ s.2).toBitVec :=
    Function.Semiconj.iterate_right (f := fun s : UInt8 × UInt8 => (s.1 ^^^ s.2).toBitVec)
      crc8Bit_xor 8
  -- after eight rounds nothing is left of the byte
  have hrest : (crc8Bit^[8] (0, i)).2 = 0 := by
    change i >>> 1 >>> 1 >>> 1 >>> 1 >>> 1 >>> 1 >>> 1 >>> 1 = 0
    apply UInt8.toBitVec_inj.mp
    apply BitVec.eq_of_getLsbD_eq
    intro j hj
    simp
  have h := hsum (0, i)
  rw [hrest, UInt8.xor_zero, UInt8.zero_xor] at h
  exact h

/-! ## Bytes -/

/-- One round of the loop of `crc32` takes in one byte. -/
theorem crc32_byte (crc : UInt32) (b : UInt8) :
    (crc32Table (crc ^^^ b.toUInt32).toUInt8 ^^^ (crc >>> 8)).toBitVec =
      (wordBits b.toBitVec).foldl (feed 0xEDB88320#32) crc.toBitVec := by
  have hindex : (crc ^^^ b.toUInt32).toUInt8.toBitVec = crc.toBitVec.setWidth 8 ^^^ b.toBitVec := by
    apply BitVec.eq_of_getLsbD_eq
    intro i hi
    simp [hi]
  rw [feed_word (by decide), ← hindex, ← crc32Table_toBitVec]
  rfl

theorem crc32_eq (data : Bytes) : crc32 data = crc32Bitwise data := by
  have hfold : ∀ crc : UInt32, (data.foldl (fun crc (b : UInt8) =>
      crc32Table (crc ^^^ b.toUInt32).toUInt8 ^^^ (crc >>> 8)) crc).toBitVec =
        (bitsOf data).foldl (feed 0xEDB88320#32) crc.toBitVec := by
    unfold bitsOf
    induction data with
    | nil => exact fun crc => rfl
    | cons b data ih =>
      intro crc
      rw [List.foldl_cons, ih, crc32_byte, List.flatMap_cons, List.foldl_append]
  exact congrArg (fun x => (⟨~~~ x⟩ : UInt32)) (hfold 0xFFFFFFFF)

/-- One round of the loop of `apply_keystream` takes in one byte of the key. -/
theorem crc8_byte (crc b : UInt8) :
    (crc8 (crc ^^^ b)).toBitVec = (wordBits b.toBitVec).foldl (feed 0x8C#8) crc.toBitVec := by
  have hnone : crc.toBitVec >>> 8 = 0#8 := by
    apply BitVec.eq_of_getLsbD_eq
    intro i hi
    simp
  rw [feed_word le_rfl, hnone, BitVec.xor_zero, BitVec.setWidth_eq,
    BitVec.setWidth_eq, crc8_toBitVec]
  rfl

theorem crc8_fold (data : Bytes) :
    data.foldl (fun crc b => crc8 (crc ^^^ b)) 0 = crc8Bitwise data := by
  have hfold : ∀ (crc : UInt8), (data.foldl (fun crc b => crc8 (crc ^^^ b)) crc).toBitVec =
      (bitsOf data).foldl (feed 0x8C#8) crc.toBitVec := by
    unfold bitsOf
    induction data with
    | nil => exact fun crc => rfl
    | cons b data ih =>
      intro crc
      rw [List.foldl_cons, ih, crc8_byte, List.flatMap_cons, List.foldl_append]
  exact congrArg UInt8.ofBitVec (hfold 0)

/-! ## The mask -/

/-- The first `m` bytes of the key, each with the length of the region and of the key added to it,
and read in a circle. -/
def cycledKey (key : Bytes) (n m : Nat) : Bytes :=
  (List.range m).map fun j => key.getD (j % key.length) 0 + UInt8.ofNat ((n + key.length) % 256)

theorem adjustedKey_getD (hkey : key ≠ []) (n j : Nat) :
    (adjustedKey key n).getD (j % (adjustedKey key n).length) 0 =
      key.getD (j % key.length) 0 + UInt8.ofNat ((n + key.length) % 256) := by
  have hlen : (adjustedKey key n).length = key.length := List.length_map _
  have hlt : j % key.length < key.length := Nat.mod_lt _ (List.length_pos_iff.mpr hkey)
  have hbase : UInt8.ofNat ((n + key.length) % 256) = UInt8.ofNat (n + key.length) :=
    UInt8.toNat_inj.mp (by simp)
  rw [hlen, hbase, adjustedKey]
  simp [hlt]

/-- The checksum along the key. -/
theorem foldl_nextCrc (hkey : key ≠ []) (n m : Nat) :
    (List.range m).foldl (nextCrc (adjustedKey key n)) 0 = crc8Bitwise (cycledKey key n m) := by
  have hround : nextCrc (adjustedKey key n) = fun crc j =>
      crc8 (crc ^^^ (key.getD (j % key.length) 0 + UInt8.ofNat ((n + key.length) % 256))) := by
    funext crc j
    rw [nextCrc, adjustedKey_getD hkey]
  rw [← crc8_fold, cycledKey, List.foldl_map, hround]

theorem getD_streamFrom (adjusted : Bytes) (crc : UInt8) (i : Nat) {n j : Nat} (hj : j < n) :
    (streamFrom adjusted crc i n).getD j 0 =
      (List.range' i (j + 1)).foldl (nextCrc adjusted) crc := by
  induction n generalizing crc i j with
  | zero => omega
  | succ n ih =>
    rw [streamFrom, List.range'_succ, List.foldl_cons]
    cases j with
    | zero => rfl
    | succ j => exact ih _ _ (by omega)

/-- **The mask of a region**: byte `i` is the checksum of `i + 1` bytes of the key. -/
theorem getD_keystream (hkey : key ≠ []) {n i : Nat} (hi : i < n) :
    (keystream key n).getD i 0 = crc8Bitwise (cycledKey key n (i + 1)) := by
  rw [keystream, getD_streamFrom _ _ _ hi, ← List.range_eq_range', foldl_nextCrc hkey]

theorem getD_xorBytes {bs ms : Bytes} {i : Nat} (hi : i < bs.length) :
    (xorBytes bs ms).getD i 0 = bs.getD i 0 ^^^ ms.getD i 0 := by
  induction bs generalizing ms i with
  | nil => exact absurd hi (Nat.not_lt_zero i)
  | cons b bs ih =>
    cases ms with
    | nil => simp
    | cons m ms =>
      cases i with
      | zero => rfl
      | succ i => exact ih (Nat.lt_of_succ_lt_succ hi)

/-- **The tables compute the checksums.**  `crc32` is CRC-32/IEEE, and `apply_keystream` adds to
each byte the CRC-8 of the adjusted key up to there, so it is its own inverse. -/
theorem checksums_bitwise :
    (∀ data : Bytes, crc32 data = crc32Bitwise data) ∧
      ∀ key buf : Bytes, 1 ≤ key.length ∧ key.length ≤ 255 →
        ∃ out, applyKeystream buf key = .ok out ∧ out.length = buf.length ∧
          (∀ i < buf.length, out.getD i 0 =
            buf.getD i 0 ^^^ crc8Bitwise (cycledKey key buf.length (i + 1))) ∧
          applyKeystream out key = .ok buf := by
  refine ⟨crc32_eq, ?_⟩
  rintro key buf ⟨hpos, hmax⟩
  have hne : key ≠ [] := List.length_pos_iff.mp hpos
  have hkey : KeyFits key := ⟨hne, hmax⟩
  refine ⟨_, applyKeystream_eq hkey buf, length_xorBytes _ _, ?_, ?_⟩
  · intro i hi
    rw [getD_xorBytes hi, getD_keystream hne hi]
  · rw [applyKeystream_eq hkey, length_xorBytes, xorBytes_xorBytes]

/-- A mask that is taken away again. -/
theorem checksums_bitwise_short : ∃ out, applyKeystream [4, 0, 0, 0] [7, 8, 9] = .ok out ∧
    applyKeystream out [7, 8, 9] = .ok [4, 0, 0, 0] := by
  obtain ⟨out, hout, -, -, hback⟩ := checksums_bitwise.2 [7, 8, 9] [4, 0, 0, 0] (by decide)
  exact ⟨out, hout, hback⟩

end Phobos
