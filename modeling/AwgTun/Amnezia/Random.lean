import AwgTun.Crypto

/-!
# Random sources and the clock

`RandomSource` is the trait of `amnezia.rs`: anything that fills a buffer.  The
integer draws are written over it exactly as the default methods of the trait
are.  `Env` adds the rest of what a tunnel asks of the machine it runs on: the
monotonic clock, the wall clock and fresh X25519 secrets.  Every operation that
needs one of these takes the current state of the environment and returns the
next, so a statement over all environments covers every draw and every clock.
-/

open Bytes

/-- A reading of the monotonic clock, in nanoseconds. -/
abbrev Instant := Nat

/-- A length of time, in nanoseconds. -/
abbrev Duration := Nat

/-- `Duration::from_secs`. -/
def Duration.fromSecs (s : Nat) : Duration := s * 1000000000

/-- `Duration::from_millis`. -/
def Duration.fromMillis (ms : Nat) : Duration := ms * 1000000

/-- `Duration::as_secs`. -/
def Duration.asSecs (d : Duration) : Nat := d / 1000000000

/-- `RandomSource::fill_bytes`. -/
class RandomSource (ρ : Type) where
  /-- Fill a buffer of `n` bytes. -/
  fillBytes : ρ → (n : Nat) → ByteArr n × ρ

/-- What a tunnel reads from the machine it runs on. -/
class Env (ε : Type) extends RandomSource ε where
  /-- `Instant::now`. -/
  instantNow : ε → Instant × ε
  /-- `SystemTime::now`, as the time since the Unix epoch. -/
  systemTimeNow : ε → Duration × ε
  /-- `x25519::ReusableSecret::random`. -/
  randomSecret : ε → Key × ε
  /-- The order in which a hash map with these entries is walked. -/
  walk {α : Type} : ε → List α → List α := fun _ entries => entries
  walk_perm {α : Type} (e : ε) (entries : List α) : (walk e entries).Perm entries := by
    intros
    exact .refl _

@[simp]
theorem Env.mem_walk {ε α : Type} [Env ε] {e : ε} {entries : List α} {entry : α} :
    entry ∈ Env.walk e entries ↔ entry ∈ entries :=
  (Env.walk_perm e entries).mem_iff

@[simp]
theorem Env.length_walk {ε α : Type} [Env ε] (e : ε) (entries : List α) :
    (Env.walk e entries).length = entries.length :=
  (Env.walk_perm e entries).length_eq

/-- A machine to compute with: its clocks stand still and its random bytes are zero. -/
structure StillMachine where
  instant : Instant := 0
  systemTime : Duration := 0

instance : Env StillMachine where
  fillBytes m n := (⟨List.replicate n 0, List.length_replicate⟩, m)
  instantNow m := (m.instant, m)
  systemTimeNow m := (m.systemTime, m)
  randomSecret m := (⟨List.replicate 32 0, List.length_replicate⟩, m)

variable {ρ : Type} [RandomSource ρ]

/-- `u32::checked_add`. -/
def checkedAddU32 (a b : UInt32) : Option UInt32 :=
  if a.toNat + b.toNat < 2 ^ 32 then some (a + b) else none

/-- `RandomSource::gen_range_u32`: a value in `[start, stop]`, and `start` for an
inverted range. -/
def genRangeU32 (r : ρ) (start stop : UInt32) : UInt32 × ρ :=
  if start ≥ stop then (start, r)
  else
    let (buf, r) := RandomSource.fillBytes r 4
    let raw := u32OfLe buf.toList
    match checkedAddU32 (stop - start) 1 with
    | some range => (start + raw % range, r)
    -- the full span: every value is already in range
    | none => (raw, r)

/-- `RandomSource::gen_range_u16`. -/
def genRangeU16 (r : ρ) (start stop : UInt16) : UInt16 × ρ :=
  let (v, r) := genRangeU32 r start.toUInt32 stop.toUInt32
  (v.toUInt16, r)

/-- A draw from a well-ordered range lies in it. -/
theorem genRangeU32_mem (r : ρ) {start stop : UInt32} (h : start ≤ stop) :
    start ≤ (genRangeU32 r start stop).1 ∧ (genRangeU32 r start stop).1 ≤ stop := by
  unfold genRangeU32
  split_ifs with hge
  · exact ⟨UInt32.le_refl _, h⟩
  · have hlt : start.toNat < stop.toNat := by
      simpa [UInt32.lt_iff_toNat_lt] using hge
    have hstop : stop.toNat < 2 ^ 32 := stop.toNat_lt
    have hsub : (stop - start).toNat = stop.toNat - start.toNat :=
      UInt32.toNat_sub_of_le _ _ (by rw [UInt32.le_iff_toNat_le]; omega)
    simp only [checkedAddU32]
    split_ifs with hsum
    · have hone : (1 : UInt32).toNat = 1 := rfl
      rw [hsub, hone] at hsum
      have hrange : (stop - start + 1).toNat = stop.toNat - start.toNat + 1 := by
        rw [UInt32.toNat_add, hsub, hone, Nat.mod_eq_of_lt hsum]
      have hmod := Nat.mod_lt (u32OfLe (RandomSource.fillBytes r 4).1.toList).toNat
        (show 0 < (stop - start + 1).toNat by omega)
      rw [hrange] at hmod
      have hadd : (start + u32OfLe (RandomSource.fillBytes r 4).1.toList % (stop - start + 1)).toNat
          = start.toNat + (u32OfLe (RandomSource.fillBytes r 4).1.toList).toNat
              % (stop.toNat - start.toNat + 1) := by
        rw [UInt32.toNat_add, UInt32.toNat_mod, hrange, Nat.mod_eq_of_lt (by omega)]
      rw [UInt32.le_iff_toNat_le, UInt32.le_iff_toNat_le]
      simp only [hadd]
      omega
    · have hone : (1 : UInt32).toNat = 1 := rfl
      rw [hsub, hone] at hsum
      have hraw := (u32OfLe (RandomSource.fillBytes r 4).1.toList).toNat_lt
      rw [UInt32.le_iff_toNat_le, UInt32.le_iff_toNat_le]
      simp only
      omega
