import AwgTun.Lib.Control

/-!
# Byte strings: fixed-width integers, slices and masks

A byte string is a `List UInt8`.  This file collects what a codec over byte
strings needs:

* `leBytes` / `leNat` — the `n`-byte little-endian form of a number and its
  inverse (`leNat_leBytes`), with `beNat` for the big-endian one; `u32ToLe` and
  `u64ToLe` are the fixed-width instances, read back by `u32OfLe` and `u64OfLe`.
* `slice` — the bytes `i..j` of a string, with `slice_append` reading one field
  out of a concatenation of fields; `sliceFrom` and `sliceTo` are the one-sided
  forms that check their bound.
* `xorBytes` — XOR with a mask that may be shorter than the string, which leaves
  the rest alone.  Masking twice is the identity (`xorBytes_xorBytes`), and a
  mask acts on a concatenation piece by piece (`xorBytes_append`).
-/

/-- A byte string. -/
abbrev Bytes := List UInt8

/-- A byte array of fixed length. -/
abbrev ByteArr (n : Nat) := List.Vector UInt8 n

/-- An array is a byte string. -/
instance {n : Nat} : CoeOut (ByteArr n) Bytes := ⟨List.Vector.toList⟩

namespace Bytes

variable {bs : Bytes} {n : Nat} {i j : Nat} {out : Bytes} {before after : Bytes} {start : Nat}
  {m : Nat}

/-! ## Little-endian and big-endian numbers -/

/-- The low `n` bytes of `x`, least significant first. -/
def leBytes : Nat → Nat → Bytes
  | 0, _ => []
  | n + 1, x => UInt8.ofNat x :: leBytes n (x / 256)

/-- The number a byte string denotes, least significant byte first. -/
def leNat : Bytes → Nat
  | [] => 0
  | b :: bs => b.toNat + 256 * leNat bs

/-- The number a byte string denotes, most significant byte first. -/
def beNat (bs : Bytes) : Nat := leNat bs.reverse

/-- The low `n` bytes of `x`, most significant first. -/
def beBytes (n x : Nat) : Bytes := (leBytes n x).reverse

@[simp] theorem length_leBytes (n x : Nat) : (leBytes n x).length = n := by
  induction n generalizing x with
  | zero => rfl
  | succ n ih => simp [leBytes, ih]

@[simp] theorem length_beBytes (n x : Nat) : (beBytes n x).length = n := by
  simp [beBytes]

theorem leNat_leBytes (n x : Nat) : leNat (leBytes n x) = x % 256 ^ n := by
  induction n generalizing x with
  | zero => simp [leBytes, leNat, Nat.mod_one]
  | succ n ih =>
    have hb : (UInt8.ofNat x).toNat = x % 256 := by simp
    rw [leBytes, leNat, ih, hb, pow_succ, Nat.mul_comm (256 ^ n) 256, Nat.mod_mul]

theorem beNat_beBytes (n x : Nat) : beNat (beBytes n x) = x % 256 ^ n := by
  rw [beNat, beBytes, List.reverse_reverse, leNat_leBytes]

/-- The low bytes of a number are the low bytes of its low bytes. -/
theorem leBytes_mod (n x : Nat) : leBytes n (x % 256 ^ n) = leBytes n x := by
  induction n generalizing x with
  | zero => rfl
  | succ n ih =>
    have hlow : UInt8.ofNat (x % 256 ^ (n + 1)) = UInt8.ofNat x := by
      apply UInt8.toNat.inj
      rw [UInt8.toNat_ofNat', UInt8.toNat_ofNat', pow_succ]
      exact Nat.mod_mul_left_mod x (256 ^ n) 256
    have hhigh : x % 256 ^ (n + 1) / 256 = x / 256 % 256 ^ n := by
      rw [pow_succ, Nat.mul_comm, Nat.mod_mul_right_div_self]
    rw [leBytes, leBytes, hlow, hhigh, ih]

/-- The first bytes of a little-endian number. -/
theorem take_leBytes (h : m ≤ n) (x : Nat) : (leBytes n x).take m = leBytes m x := by
  induction n generalizing m x with
  | zero =>
    obtain rfl := Nat.le_zero.mp h
    rfl
  | succ n ih =>
    cases m with
    | zero => rfl
    | succ m => rw [leBytes, leBytes, List.take_succ_cons, ih (Nat.le_of_succ_le_succ h)]

/-- The last bytes of a big-endian number. -/
theorem drop_beBytes (h : m ≤ n) (x : Nat) : (beBytes n x).drop (n - m) = beBytes m x := by
  rw [beBytes, beBytes, List.drop_reverse, length_leBytes, Nat.sub_sub_self h, take_leBytes h]

/-- `u32::to_le_bytes`. -/
def u32ToLe (v : UInt32) : Bytes := leBytes 4 v.toNat

/-- `u32::from_le_bytes`. -/
def u32OfLe (bs : Bytes) : UInt32 := UInt32.ofNat (leNat bs)

/-- `u64::to_le_bytes`. -/
def u64ToLe (v : UInt64) : Bytes := leBytes 8 v.toNat

/-- `u64::from_le_bytes`. -/
def u64OfLe (bs : Bytes) : UInt64 := UInt64.ofNat (leNat bs)

@[simp] theorem length_u32ToLe (v : UInt32) : (u32ToLe v).length = 4 := length_leBytes 4 _

@[simp] theorem length_u64ToLe (v : UInt64) : (u64ToLe v).length = 8 := length_leBytes 8 _

@[simp] theorem u32OfLe_u32ToLe (v : UInt32) : u32OfLe (u32ToLe v) = v := by
  have hv : v.toNat < 256 ^ 4 := v.toNat_lt
  rw [u32OfLe, u32ToLe, leNat_leBytes, Nat.mod_eq_of_lt hv, UInt32.ofNat_toNat]

@[simp] theorem u64OfLe_u64ToLe (v : UInt64) : u64OfLe (u64ToLe v) = v := by
  have hv : v.toNat < 256 ^ 8 := v.toNat_lt
  rw [u64OfLe, u64ToLe, leNat_leBytes, Nat.mod_eq_of_lt hv, UInt64.ofNat_toNat]

/-- Masking off the low `k` bits rounds down to a multiple of `2 ^ k`. -/
theorem and_roundDown {x k n : Nat} (hx : x < 2 ^ n) (hk : k ≤ n) :
    x &&& (2 ^ n - 2 ^ k) = x / 2 ^ k * 2 ^ k := by
  have hmask : 2 ^ n - 2 ^ k = (2 ^ (n - k) - 1) * 2 ^ k := by
    rw [Nat.sub_mul, ← pow_add, Nat.sub_add_cancel hk, one_mul]
  apply Nat.eq_of_testBit_eq
  intro i
  rw [hmask, Nat.testBit_and, Nat.testBit_mul_two_pow, Nat.testBit_two_pow_sub_one,
    Nat.testBit_mul_two_pow, Nat.testBit_div_two_pow]
  by_cases hlow : k ≤ i
  · rw [Nat.sub_add_cancel hlow]
    by_cases hhigh : i - k < n - k
    · simp [hlow, hhigh]
    · have hzero : x.testBit i = false :=
        Nat.testBit_lt_two_pow (lt_of_lt_of_le hx (Nat.pow_le_pow_right (by decide) (by omega)))
      simp [hzero]
  · simp [hlow]

/-! ## Slices -/

/-- The bytes at positions `i` up to, but not including, `j`. -/
def slice (bs : Bytes) (i j : Nat) : Bytes := (bs.drop i).take (j - i)

@[simp] theorem length_slice (bs : Bytes) (i j : Nat) :
    (slice bs i j).length = min (j - i) (bs.length - i) := by
  simp [slice]

/-- A field of a concatenation is read back by the slice at its position. -/
theorem slice_append {before field after : Bytes} (hi : before.length = i)
    (hj : i + field.length = j) : slice (before ++ (field ++ after)) i j = field := by
  subst hi
  have hlen : j - before.length = field.length := by omega
  rw [slice, List.drop_left, hlen, List.take_left]

/-- A slice behind the first piece of a concatenation. -/
theorem slice_skip (h : before.length ≤ i) :
    slice (before ++ after) i j = slice after (i - before.length) (j - before.length) := by
  rw [slice, slice, List.drop_append, List.drop_eq_nil_of_le h, List.nil_append]
  congr 1
  omega

/-- The first piece of a concatenation. -/
theorem slice_head {j : Nat} (h : before.length = j) :
    slice (before ++ after) 0 j = before := by
  subst h
  rw [slice, List.drop_zero, Nat.sub_zero, List.take_left]

/-- A slice of the front of a string does not see what follows. -/
theorem slice_take {i j n : Nat} (h : j ≤ n) :
    slice (bs.take n) i j = slice bs i j := by
  rw [slice, slice, List.drop_take, List.take_take]
  congr 1
  omega

/-- A slice of the first piece of a concatenation. -/
theorem slice_append_left {as bs : Bytes} (h : j ≤ as.length) :
    slice (as ++ bs) i j = slice as i j := by
  rw [← slice_take h, List.take_left]

/-- A buffer in two pieces. -/
theorem exists_append (h : n ≤ bs.length) :
    ∃ front back, bs = front ++ back ∧ front.length = n :=
  ⟨bs.take n, bs.drop n, (List.take_append_drop n bs).symm, List.length_take_of_le h⟩

theorem slice_zero (bs : Bytes) (j : Nat) : slice bs 0 j = bs.take j := by
  simp [slice]

/-- `&bs[n..]`: what follows the first `n` bytes, which have to be there. -/
def sliceFrom (bs : Bytes) (n : Nat) : Control.Outcome Bytes :=
  if n ≤ bs.length then .ok (bs.drop n) else .panic "range start index out of range for slice"

/-- `&bs[..n]`: the first `n` bytes, which have to be there. -/
def sliceTo (bs : Bytes) (n : Nat) : Control.Outcome Bytes :=
  if n ≤ bs.length then .ok (bs.take n) else .panic "range end index out of range for slice"

theorem sliceFrom_eq_ok (h : n ≤ bs.length) :
    sliceFrom bs n = .ok (bs.drop n) := if_pos h

theorem sliceTo_eq_ok (h : n ≤ bs.length) :
    sliceTo bs n = .ok (bs.take n) := if_pos h

/-- `bs[i]`, which has to be there. -/
def byteAt (bs : Bytes) (i : Nat) : Control.Outcome UInt8 :=
  match bs[i]? with
  | some b => .ok b
  | none => .panic "index out of bounds"

theorem byteAt_meets {allowed : String → Prop} {i : Nat} (h : i < bs.length) :
    (byteAt bs i).Meets allowed fun _ => True := by
  rw [byteAt, List.getElem?_eq_getElem h]
  trivial

/-- `&bs[i..j]`: the bytes from `i` up to `j`, which have to be there. -/
def sliceRange (bs : Bytes) (i j : Nat) : Control.Outcome Bytes :=
  if i ≤ j ∧ j ≤ bs.length then .ok (slice bs i j) else .panic "range index out of range for slice"

theorem sliceRange_eq_ok (hij : i ≤ j) (hj : j ≤ bs.length) :
    sliceRange bs i j = .ok (slice bs i j) := if_pos ⟨hij, hj⟩

/-- The first `n` bytes of a string as an array; used where the length is known. -/
def toArr (n : Nat) (bs : Bytes) : ByteArr n :=
  ⟨(bs ++ List.replicate n 0).take n, by simp⟩

theorem toList_toArr (h : bs.length = n) : (toArr n bs).toList = bs := by
  subst h
  exact List.take_left

@[simp] theorem toArr_toList {n : Nat} (a : ByteArr n) : toArr n a.toList = a := by
  apply Subtype.ext
  exact toList_toArr a.toList_length

/-- The bytes of a field that is there. -/
theorem toList_field {src : Bytes} {n i j : Nat} (hn : i + n = j) (hj : j ≤ src.length) :
    (toArr n (slice src i j)).toList = slice src i j := by
  apply toList_toArr
  simp only [slice, List.length_take, List.length_drop]
  omega

/-- `bs.split_at(n)`: both parts, of which the first has to be there. -/
def splitAt (bs : Bytes) (n : Nat) : Control.Outcome (Bytes × Bytes) :=
  if n ≤ bs.length then .ok (bs.take n, bs.drop n) else .panic "mid > len"

theorem splitAt_eq_ok (h : n ≤ bs.length) :
    splitAt bs n = .ok (bs.take n, bs.drop n) := if_pos h

theorem splitAt_append {front back : Bytes} (h : front.length = n) :
    splitAt (front ++ back) n = .ok (front, back) := by
  rw [splitAt_eq_ok (by simp [← h]), List.take_left' h, List.drop_left' h]

/-- `bs.split_at(bs.len() - n)`: the last `n` bytes and what is before them. -/
def splitAtEnd (bs : Bytes) (n : Nat) : Control.Outcome (Bytes × Bytes) :=
  if n ≤ bs.length then splitAt bs (bs.length - n)
  else .panic "attempt to subtract with overflow"

theorem splitAtEnd_eq_ok (h : n ≤ bs.length) :
    splitAtEnd bs n = .ok (bs.take (bs.length - n), bs.drop (bs.length - n)) := by
  rw [splitAtEnd, if_pos h, splitAt_eq_ok (Nat.sub_le _ _)]

/-- `bs.try_into().unwrap()`: the bytes as an array of their length. -/
def tryInto (n : Nat) (bs : Bytes) : Control.Outcome (ByteArr n) :=
  if h : bs.length = n then .ok ⟨bs, h⟩ else .panic "called unwrap on a TryFromSliceError"

theorem tryInto_toList (a : ByteArr n) : tryInto n a.toList = .ok a := by
  rw [tryInto, dif_pos a.toList_length]
  rfl

/-- `bs[i..j].try_into().unwrap()`. -/
def arrAt (n : Nat) (bs : Bytes) (i j : Nat) : Control.Outcome (ByteArr n) := do
  let field ← sliceRange bs i j
  tryInto n field

theorem arrAt_eq_ok (hn : i + n = j) (hj : j ≤ bs.length) :
    arrAt n bs i j = .ok (toArr n (slice bs i j)) := by
  have hlen : (slice bs i j).length = n := by
    simp only [slice, List.length_take, List.length_drop]
    omega
  rw [arrAt, sliceRange_eq_ok (by omega) hj, Control.ok_bind, tryInto, dif_pos hlen]
  congr 1
  exact Subtype.ext (toList_toArr hlen).symm

/-- `dst.copy_from_slice(src)`: the two have to be of one length. -/
def copyFromSlice (dst src : Bytes) : Control.Outcome Bytes :=
  if dst.length = src.length then .ok src
  else .panic "copy_from_slice: source slice length does not match destination slice length"

theorem copyFromSlice_eq_ok {dst src : Bytes} (h : dst.length = src.length) :
    copyFromSlice dst src = .ok src := if_pos h

/-- `out[at..at + bs.len()].copy_from_slice(bs)`, for a range inside `out`. -/
def overwrite (out : Bytes) (start : Nat) (bs : Bytes) : Bytes :=
  out.take start ++ (bs ++ out.drop (start + bs.length))

theorem length_overwrite (hroom : start + bs.length ≤ out.length) :
    (overwrite out start bs).length = out.length := by
  simp only [overwrite, List.length_append, List.length_take, List.length_drop]
  omega

theorem slice_overwrite_before (hj : j ≤ start) (hroom : start + bs.length ≤ out.length) :
    slice (overwrite out start bs) i j = slice out i j := by
  have hlen : start ≤ out.length := by omega
  rw [overwrite, slice_append_left (by rw [List.length_take]; omega), slice_take hj]

theorem slice_overwrite_after (hi : start + bs.length ≤ i)
    (hroom : start + bs.length ≤ out.length) :
    slice (overwrite out start bs) i j = slice out i j := by
  have hfront : (out.take start ++ bs).length = start + bs.length := by
    rw [List.length_append, List.length_take]
    omega
  rw [overwrite, ← List.append_assoc, slice, slice, List.drop_append, hfront,
    List.drop_eq_nil_of_le (by omega), List.nil_append, List.drop_drop,
    Nat.add_sub_cancel' hi]

/-- `out[start..start + bs.len()].copy_from_slice(bs)`: the range has to be there. -/
def copyAt (out : Bytes) (start : Nat) (bs : Bytes) : Control.Outcome Bytes :=
  if start + bs.length ≤ out.length then .ok (overwrite out start bs)
  else .panic "range end index out of range for slice"

/-- Writing over a piece of a concatenation. -/
theorem copyAt_append (before field after new : Bytes) (hstart : before.length = start)
    (hnew : new.length = field.length) :
    copyAt (before ++ (field ++ after)) start new = .ok (before ++ (new ++ after)) := by
  subst hstart
  have hroom : before.length + new.length ≤ (before ++ (field ++ after)).length := by
    simp only [List.length_append]
    omega
  rw [copyAt, if_pos hroom, overwrite, List.take_left, hnew, List.drop_append, ← hnew]
  simp [hnew]

/-! ## Masks -/

/-- XOR a mask into the front of a byte string. -/
def xorBytes : Bytes → Bytes → Bytes
  | b :: bs, m :: ms => (b ^^^ m) :: xorBytes bs ms
  | bs, _ => bs

@[simp] theorem xorBytes_nil_right (bs : Bytes) : xorBytes bs [] = bs := by
  cases bs <;> rfl

@[simp] theorem xorBytes_nil_left (ms : Bytes) : xorBytes [] ms = [] := by
  cases ms <;> rfl

@[simp] theorem length_xorBytes (bs ms : Bytes) : (xorBytes bs ms).length = bs.length := by
  induction bs generalizing ms with
  | nil => simp
  | cons b bs ih =>
    cases ms with
    | nil => simp
    | cons m ms => simp [xorBytes, ih]

/-- Masking twice with one mask changes nothing. -/
@[simp] theorem xorBytes_xorBytes (bs ms : Bytes) : xorBytes (xorBytes bs ms) ms = bs := by
  induction bs generalizing ms with
  | nil => simp
  | cons b bs ih =>
    cases ms with
    | nil => simp
    | cons m ms => simp [xorBytes, ih]

/-- A mask acts on a concatenation piece by piece. -/
theorem xorBytes_append (as bs ms : Bytes) :
    xorBytes (as ++ bs) ms = xorBytes as (ms.take as.length) ++
      xorBytes bs (ms.drop as.length) := by
  induction as generalizing ms with
  | nil => simp
  | cons a as ih =>
    cases ms with
    | nil => simp
    | cons m ms => simp [xorBytes, ih]

theorem xorBytes_take (bs ms : Bytes) (n : Nat) :
    (xorBytes bs ms).take n = xorBytes (bs.take n) (ms.take n) := by
  induction bs generalizing ms n with
  | nil => simp
  | cons b bs ih =>
    cases n with
    | zero => simp
    | succ n =>
      cases ms with
      | nil => simp
      | cons m ms => simp [xorBytes, ih]

/-- Of a mask, only as much is used as there is to mask. -/
theorem xorBytes_take_mask (h : bs.length ≤ n) (ms : Bytes) :
    xorBytes bs (ms.take n) = xorBytes bs ms := by
  induction bs generalizing ms n with
  | nil => simp
  | cons b bs ih =>
    cases n with
    | zero => simp at h
    | succ n =>
      cases ms with
      | nil => simp
      | cons m ms => simp [xorBytes, ih (Nat.le_of_succ_le_succ h)]

/-- Unmasking the front of a masked string. -/
theorem xorBytes_take_xorBytes (bs ms : Bytes) (n : Nat) :
    xorBytes ((xorBytes bs ms).take n) ms = bs.take n := by
  have hlen : (xorBytes (bs.take n) (ms.take n)).length ≤ n := by simp
  rw [xorBytes_take, ← xorBytes_take_mask hlen, xorBytes_xorBytes]

theorem xorBytes_zeros (ms : Bytes) : xorBytes (List.replicate ms.length 0) ms = ms := by
  induction ms with
  | nil => rfl
  | cons m ms ih => simp [xorBytes, List.replicate_succ, ih]

end Bytes
