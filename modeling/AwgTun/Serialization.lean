import AwgTun.Crypto
import AwgTun.Lib.Base64
import AwgTun.Lib.Text

/-!
# Keys as text

`KeyBytes::from_str` of `serialization.rs` takes a key as 64 hexadecimal digits or as
43 or 44 characters of base64, told apart by the length in bytes.  It indexes the text
by bytes, so a cut inside a character panics.

* `KeyBytes.Encodes` — what the accepted spellings of a key are.
* `KeyBytes.fromStr_correct_iff` — on which texts the function accepts exactly these.
* `KeyBytes.fromStr_accepts_malformed` — texts on which it does not: base64 that does
  not decode, unpadded base64 among it, is the zero key; a `+` may stand for a
  hexadecimal digit; and a character of several bytes can panic.
-/

open Text Control Bytes

namespace KeyBytes

variable {s : Text} {bs : Bytes}

/-- The byte at position `i` of the hexadecimal form: two bytes of text as a number. -/
def hexPair (s : Text) (i : Nat) : Fallible String UInt8 :=
  match byteSlice s (i * 2) (i * 2 + 2) with
  | none => Fallible.ofOutcome (.panic "byte index is not a char boundary")
  | some pair =>
      match fromStrRadix 16 255 pair with
      | .error _ => throw "Illegal character in key"
      | .ok n => return UInt8.ofNat n

/-- `KeyBytes::from_str`. -/
def fromStr [Base64] (s : Text) : Fallible String Key :=
  if utf8Len s = 64 then do
    let internal ← (List.range 32).mapM (hexPair s)
    return toArr 32 internal
  else if utf8Len s = 43 ∨ utf8Len s = 44 then
    match Base64.decode s with
    | some decodedKey =>
        if decodedKey.length = 32 then return toArr 32 decodedKey
        else throw "Illegal character in key"
    -- a text that does not decode leaves the key as it was made
    | none => return zeroKey
  else throw "Illegal key size"

/-! ## What it should accept -/

/-- The accepted spellings of a key: hexadecimal, base64, base64 without padding. -/
def Encodes [Base64] (s : Text) (k : Key) : Prop :=
  hexDecode s = some k.toList ∨ s = Base64.encode k ∨ s ++ ['='] = Base64.encode k

/-- On this text the function returns, and accepts it exactly as a spelling of a key. -/
def Correct [Base64] (s : Text) : Prop :=
  (fromStr s).run.Returns ∧ ∀ k, (fromStr s).run = .ok (.ok k) ↔ Encodes s k

theorem utf8Len_of_ascii (h : ∀ c ∈ s, c.utf8Size = 1) : utf8Len s = s.length := by
  induction s with
  | nil => rfl
  | cons c s ih =>
    rw [List.forall_mem_cons] at h
    rw [utf8Len_cons, h.1, ih h.2, List.length_cons, Nat.add_comm]

theorem utf8Len_of_hexDecode (h : hexDecode s = some bs) :
    utf8Len s = 2 * bs.length := by
  fun_induction hexDecode s generalizing bs with
  | case1 =>
    cases h
    rfl
  | case2 => cases h
  | case3 a b s x y hb ha ih =>
    obtain ⟨bs', hrest, rfl⟩ := Option.map_eq_some_iff.mp h
    rw [utf8Len_cons, utf8Len_cons, utf8Size_of_toDigit ha, utf8Size_of_toDigit hb, ih hrest,
      List.length_cons]
    omega
  | case4 => cases h

theorem utf8Len_encode [Base64] (bs : Bytes) :
    utf8Len (Base64.encode bs) = (bs.length + 2) / 3 * 4 := by
  rw [utf8Len_of_ascii fun _ hc => Base64.utf8Size_of_mem_encode hc, Base64.length_encode]

theorem utf8Len_append (s t : Text) : utf8Len (s ++ t) = utf8Len s + utf8Len t := by
  simp [utf8Len]

/-- A spelling tells by its length which of the three it is. -/
theorem Encodes.cases [Base64] {k : Key} (h : Encodes s k) :
    utf8Len s = 64 ∧ hexDecode s = some k.toList ∨ utf8Len s = 44 ∧ s = Base64.encode k ∨
      utf8Len s = 43 ∧ s ++ ['='] = Base64.encode k := by
  have hk : k.toList.length = 32 := k.toList_length
  rcases h with h | h | h
  · exact .inl ⟨by rw [utf8Len_of_hexDecode h, hk], h⟩
  · exact .inr (.inl ⟨by rw [h, utf8Len_encode, hk], h⟩)
  · refine .inr (.inr ⟨?_, h⟩)
    have hlen := congrArg utf8Len h
    have hpad : utf8Len ['='] = 1 := by decide
    rw [utf8Len_append, utf8Len_encode, hk, hpad] at hlen
    omega

/-! ## The hexadecimal loop -/

/-- Two characters that `from_str_radix` reads as a byte. -/
def ReadsAsByte (a b : Char) : Prop :=
  ((toDigit 16 a).isSome ∨ a = '+') ∧ (toDigit 16 b).isSome

/-- Read from the front in units of two bytes, the text has a unit that is no byte, and
every unit before it is one. -/
inductive Refused : Text → Prop
  /-- One character of two bytes. -/
  | wide {c : Char} {s : Text} (hc : c.utf8Size = 2) : Refused (c :: s)
  /-- Two characters that are not a number. -/
  | pair {a b : Char} {s : Text} (ha : a.utf8Size = 1) (hb : b.utf8Size = 1)
      (hno : ¬ ReadsAsByte a b) : Refused (a :: b :: s)
  | later {a b : Char} {s : Text} (hyes : ReadsAsByte a b) (h : Refused s) : Refused (a :: b :: s)

theorem ReadsAsByte.utf8Size {a b : Char} (h : ReadsAsByte a b) :
    a.utf8Size = 1 ∧ b.utf8Size = 1 := by
  obtain ⟨ha, hb⟩ := h
  obtain ⟨y, hy⟩ := Option.isSome_iff_exists.mp hb
  refine ⟨?_, utf8Size_of_toDigit hy⟩
  rcases ha with ha | rfl
  · obtain ⟨x, hx⟩ := Option.isSome_iff_exists.mp ha
    exact utf8Size_of_toDigit hx
  · decide

/-- Two characters are read as the byte of two digits, as one digit behind a `+`, or
not at all. -/
theorem fromStrRadix_pair (a b : Char) :
    (∃ x y, toDigit 16 a = some x ∧ toDigit 16 b = some y ∧
        fromStrRadix 16 255 [a, b] = .ok (16 * x + y)) ∨
      (toDigit 16 a = none ∧ ReadsAsByte a b ∧ ∃ n, fromStrRadix 16 255 [a, b] = .ok n) ∨
      (¬ ReadsAsByte a b ∧ ∃ err, fromStrRadix 16 255 [a, b] = .error err) := by
  by_cases hplus : a = '+'
  · subst hplus
    have hnone : toDigit 16 '+' = none := by decide
    have hread : fromStrRadix 16 255 ['+', b] = digitLoop 16 255 0 [b] := rfl
    rw [hread]
    cases hb : toDigit 16 b with
    | none => exact .inr (.inr ⟨fun h => by simp [ReadsAsByte, hb] at h, _, by rw [digitLoop, hb]⟩)
    | some y =>
      have hy := toDigit_lt hb
      refine .inr (.inl ⟨hnone, ⟨.inr rfl, by simp [hb]⟩, y, ?_⟩)
      simp only [digitLoop, hb, Nat.zero_mul, Nat.zero_add]
      rw [if_pos (by omega)]
  · have hread : fromStrRadix 16 255 [a, b] = digitLoop 16 255 0 [a, b] := by
      unfold fromStrRadix
      split <;> simp_all
    rw [hread]
    cases ha : toDigit 16 a with
    | none =>
      refine .inr (.inr ⟨fun h => ?_, _, by rw [digitLoop, ha]⟩)
      rcases h.1 with hsome | rfl
      · simp [ha] at hsome
      · exact hplus rfl
    | some x =>
      cases hb : toDigit 16 b with
      | none =>
        have hx := toDigit_lt ha
        refine .inr (.inr ⟨fun h => by simp [ReadsAsByte, hb] at h, .invalidDigit, ?_⟩)
        simp only [digitLoop, ha, hb, Nat.zero_mul, Nat.zero_add]
        rw [if_pos (by omega)]
      | some y => exact .inl ⟨x, y, rfl, rfl, digitLoop_pair ha hb⟩

/-- Two bytes at the front of a text are one character or two. -/
theorem takeBytes_two {s unit : Text} (h : takeBytes s 2 = some unit) :
    (∃ c t, s = c :: t ∧ c.utf8Size = 2 ∧ unit = [c]) ∨
      ∃ a b t, s = a :: b :: t ∧ a.utf8Size = 1 ∧ b.utf8Size = 1 ∧ unit = [a, b] := by
  match s with
  | [] => cases h
  | c :: t =>
    have hc := c.utf8Size_pos
    rw [takeBytes] at h
    split_ifs at h with hle
    obtain ⟨u, hu, rfl⟩ := Option.map_eq_some_iff.mp h
    obtain htwo | hone : c.utf8Size = 2 ∨ c.utf8Size = 1 := by omega
    · rw [htwo, Nat.sub_self, takeBytes] at hu
      cases hu
      exact .inl ⟨c, t, rfl, htwo, rfl⟩
    · rw [hone] at hu
      match t with
      | [] => cases hu
      | d :: t =>
        have hd := d.utf8Size_pos
        rw [takeBytes] at hu
        split_ifs at hu with hle
        obtain ⟨v, hv, rfl⟩ := Option.map_eq_some_iff.mp hu
        have hdone : d.utf8Size = 1 := by omega
        rw [hdone, Nat.sub_self, takeBytes] at hv
        cases hv
        exact .inr ⟨c, d, t, rfl, hone, hdone, rfl⟩

section Loop

variable {s rest t : Text} {i : Nat} {a b : Char} {err : String} {n : Nat}

/-- A character of two bytes is refused. -/
theorem hexPair_wide {c : Char} (hrest : dropBytes s (i * 2) = some (c :: t))
    (hc : c.utf8Size = 2) : (hexPair s i).run = .ok (.error "Illegal character in key") := by
  have hunit : byteSlice s (i * 2) (i * 2 + 2) = some [c] := by
    simp [byteSlice, hrest, takeBytes, hc]
  have hdigit : toDigit 16 c = none := by
    refine Option.eq_none_iff_forall_ne_some.mpr fun x hx => ?_
    rw [utf8Size_of_toDigit hx] at hc
    cases hc
  have herr : fromStrRadix 16 255 [c] = .error .invalidDigit := by
    unfold fromStrRadix
    split <;> simp_all [digitLoop]
  simp only [hexPair, hunit, herr]
  rfl

/-- Two characters of one byte are read as a number. -/
theorem hexPair_pair (hrest : dropBytes s (i * 2) = some (a :: b :: t)) (ha : a.utf8Size = 1)
    (hb : b.utf8Size = 1) :
    (hexPair s i).run = .ok (match fromStrRadix 16 255 [a, b] with
      | .error _ => .error "Illegal character in key"
      | .ok n => .ok (UInt8.ofNat n)) := by
  have hunit : byteSlice s (i * 2) (i * 2 + 2) = some [a, b] := by
    simp [byteSlice, hrest, takeBytes, ha, hb]
  simp only [hexPair, hunit]
  cases fromStrRadix 16 255 [a, b] <;> rfl

/-- Two hexadecimal digits are their byte. -/
theorem hexPair_digits {x y : Nat} (hrest : dropBytes s (i * 2) = some (a :: b :: t))
    (ha : toDigit 16 a = some x) (hb : toDigit 16 b = some y) :
    (hexPair s i).run = .ok (.ok (UInt8.ofNat (16 * x + y))) := by
  rw [hexPair_pair hrest (utf8Size_of_toDigit ha) (utf8Size_of_toDigit hb)]
  rcases fromStrRadix_pair a b with ⟨x', y', hx, hy, heq⟩ | ⟨hnone, -⟩ | ⟨hno, -⟩
  · rw [ha] at hx
    rw [hb] at hy
    cases hx
    cases hy
    rw [heq]
  · rw [ha] at hnone
    cases hnone
  · exact absurd ⟨.inl (by simp [ha]), by simp [hb]⟩ hno

theorem hexPair_of_readsAsByte (hrest : dropBytes s (i * 2) = some (a :: b :: t))
    (h : ReadsAsByte a b) :
    ∃ x, (hexPair s i).run = .ok (.ok x) := by
  rw [hexPair_pair hrest h.utf8Size.1 h.utf8Size.2]
  rcases fromStrRadix_pair a b with ⟨x, y, -, -, heq⟩ | ⟨-, -, n, heq⟩ | ⟨hno, -⟩
  · exact ⟨_, by rw [heq]⟩
  · exact ⟨_, by rw [heq]⟩
  · exact absurd h hno

theorem hexPair_of_not_readsAsByte (hrest : dropBytes s (i * 2) = some (a :: b :: t))
    (ha : a.utf8Size = 1) (hb : b.utf8Size = 1) (h : ¬ ReadsAsByte a b) :
    (hexPair s i).run = .ok (.error "Illegal character in key") := by
  rw [hexPair_pair hrest ha hb]
  rcases fromStrRadix_pair a b with ⟨x, y, hx, hy, -⟩ | ⟨-, hyes, -⟩ | ⟨-, err, heq⟩
  · exact absurd ⟨.inl (by simp [hx]), by simp [hy]⟩ h
  · exact absurd hyes h
  · rw [heq]

/-- The unit behind two characters of one byte starts after them. -/
theorem dropBytes_next (hrest : dropBytes s (i * 2) = some (a :: b :: t)) (ha : a.utf8Size = 1)
    (hb : b.utf8Size = 1) : dropBytes s ((i + 1) * 2) = some t := by
  rw [Nat.add_mul, Nat.one_mul, dropBytes_add hrest]
  simp [dropBytes, ha, hb]

/-- What a unit that came back looks like. -/
theorem hexPair_returns {r : Except String UInt8} (hrest : dropBytes s (i * 2) = some rest)
    (h : (hexPair s i).run = .ok r) :
    (∃ c t, rest = c :: t ∧ c.utf8Size = 2) ∨
      ∃ a b t, rest = a :: b :: t ∧ a.utf8Size = 1 ∧ b.utf8Size = 1 := by
  cases hunit : takeBytes rest 2 with
  | none =>
    simp only [hexPair, byteSlice, hrest, Option.bind_some, Nat.add_sub_cancel_left, hunit] at h
    cases h
  | some unit =>
    rcases takeBytes_two hunit with ⟨c, t, hc, hsize, -⟩ | ⟨a, b, t, hab, ha, hb, -⟩
    · exact .inl ⟨c, t, hc, hsize⟩
    · exact .inr ⟨a, b, t, hab, ha, hb⟩

/-- An error of the first unit is the loop's. -/
theorem hexLoop_of_error (h : (hexPair s i).run = .ok (.error err)) (n : Nat) :
    ((List.range' i (n + 1)).mapM (hexPair s)).run = .ok (.error err) := by
  rw [List.range'_succ, List.mapM_cons, ExceptT.run_bind, h]
  rfl

/-- After a first unit that is a byte, the loop goes on with the rest. -/
theorem hexLoop_of_ok {x : UInt8} (h : (hexPair s i).run = .ok (.ok x)) (n : Nat) :
    ((List.range' i (n + 1)).mapM (hexPair s)).run =
      ((List.range' (i + 1) n).mapM (hexPair s)).run.map (Except.map (x :: ·)) := by
  rw [List.range'_succ, List.mapM_cons, ExceptT.run_bind, h]
  change ((List.range' (i + 1) n).mapM (hexPair s) >>= _).run = _
  rw [ExceptT.run_bind]
  rcases ((List.range' (i + 1) n).mapM (hexPair s)).run with p | (e | xs) <;> rfl

/-- A spelling in hexadecimal digits is read as its bytes. -/
theorem hexLoop_of_hexDecode {bs : Bytes} (hrest : dropBytes s (i * 2) = some rest)
    (h : hexDecode rest = some bs) :
    ((List.range' i bs.length).mapM (hexPair s)).run = .ok (.ok bs) := by
  fun_induction hexDecode rest generalizing i bs with
  | case1 =>
    cases h
    rfl
  | case2 => cases h
  | case3 a b t x y hb ha ih =>
    obtain ⟨bs', htail, rfl⟩ := Option.map_eq_some_iff.mp h
    have hnext := dropBytes_next hrest (utf8Size_of_toDigit ha) (utf8Size_of_toDigit hb)
    rw [List.length_cons, hexLoop_of_ok (hexPair_digits hrest ha hb), ih hnext htail]
    rfl
  | case4 => cases h

/-- A refused text is reported as one. -/
theorem hexLoop_of_refused (hrest : dropBytes s (i * 2) = some rest) (h : Refused rest)
    (hn : utf8Len rest = 2 * n) :
    ((List.range' i n).mapM (hexPair s)).run = .ok (.error "Illegal character in key") := by
  induction h generalizing i n with
  | @wide c t hc =>
    rw [utf8Len_cons] at hn
    obtain ⟨n, rfl⟩ := Nat.exists_eq_add_one.mpr (show 0 < n by omega)
    exact hexLoop_of_error (hexPair_wide hrest hc) n
  | @pair a b t ha hb hno =>
    rw [utf8Len_cons] at hn
    obtain ⟨n, rfl⟩ := Nat.exists_eq_add_one.mpr (show 0 < n by omega)
    exact hexLoop_of_error (hexPair_of_not_readsAsByte hrest ha hb hno) n
  | @later a b t hyes h ih =>
    obtain ⟨ha, hb⟩ := hyes.utf8Size
    rw [utf8Len_cons, utf8Len_cons, ha, hb] at hn
    obtain ⟨n, rfl⟩ := Nat.exists_eq_add_one.mpr (show 0 < n by omega)
    obtain ⟨x, hx⟩ := hexPair_of_readsAsByte hrest hyes
    rw [hexLoop_of_ok hx, ih (dropBytes_next hrest ha hb) (by omega)]
    rfl

/-- Only refused texts are reported as such. -/
theorem refused_of_hexLoop (hrest : dropBytes s (i * 2) = some rest)
    (h : ((List.range' i n).mapM (hexPair s)).run = .ok (.error err)) : Refused rest := by
  induction n generalizing i rest err with
  | zero => cases h
  | succ n ih =>
    have hfirst : ∃ r, (hexPair s i).run = .ok r := by
      rw [List.range'_succ, List.mapM_cons, ExceptT.run_bind] at h
      obtain ⟨r, hr, -⟩ := Control.bind_eq_ok.mp h
      exact ⟨r, hr⟩
    obtain ⟨r, hr⟩ := hfirst
    rcases hexPair_returns hrest hr with ⟨c, t, rfl, hc⟩ | ⟨a, b, t, rfl, ha, hb⟩
    · exact .wide hc
    · by_cases hyes : ReadsAsByte a b
      · obtain ⟨x, hx⟩ := hexPair_of_readsAsByte hrest hyes
        rw [hexLoop_of_ok hx] at h
        obtain ⟨r', hr', h'⟩ := map_eq_ok.mp h
        cases r' with
        | ok xs => cases h'
        | error e => exact .later hyes (ih (dropBytes_next hrest ha hb) hr')
      · exact .pair ha hb hyes

end Loop

/-! ## The three lengths -/

theorem fromStr_hex [Base64] (h : utf8Len s = 64) :
    (fromStr s).run =
      ((List.range' 0 32).mapM (hexPair s)).run.map (Except.map (toArr 32)) := by
  rw [fromStr, if_pos h, List.range_eq_range', ExceptT.run_bind]
  rcases ((List.range' 0 32).mapM (hexPair s)).run with p | (e | xs) <;> rfl

theorem fromStr_decoded [Base64] (hlen : utf8Len s = 43 ∨ utf8Len s = 44)
    (h : Base64.decode s = some bs) :
    (fromStr s).run =
      .ok (if bs.length = 32 then .ok (toArr 32 bs) else .error "Illegal character in key") := by
  rw [fromStr, if_neg (by omega), if_pos hlen]
  simp only [h]
  split_ifs <;> rfl

/-- A text that does not decode is the zero key. -/
theorem fromStr_undecoded [Base64] (hlen : utf8Len s = 43 ∨ utf8Len s = 44)
    (h : Base64.decode s = none) :
    (fromStr s).run = .ok (.ok zeroKey) := by
  rw [fromStr, if_neg (by omega), if_pos hlen, h]
  rfl

/-- A text of 64 bytes is read correctly if it is hexadecimal or refused. -/
theorem correct_hex_iff [Base64] (hlen : utf8Len s = 64) :
    Correct s ↔ (∃ bs, hexDecode s = some bs) ∨ Refused s := by
  have hstart : dropBytes s (0 * 2) = some s := by rw [Nat.zero_mul, dropBytes]
  have hencodes : ∀ k, Encodes s k ↔ hexDecode s = some k.toList := by
    refine fun k => ⟨fun h => ?_, .inl⟩
    rcases h.cases with ⟨-, h⟩ | ⟨h, -⟩ | ⟨h, -⟩
    · exact h
    · omega
    · omega
  constructor
  · rintro ⟨⟨r, hr⟩, hok⟩
    cases r with
    | ok k => exact .inl ⟨_, (hencodes k).mp ((hok k).mp hr)⟩
    | error err =>
      rw [fromStr_hex hlen] at hr
      obtain ⟨r, hr, h⟩ := map_eq_ok.mp hr
      cases r with
      | ok bs => cases h
      | error err => exact .inr (refused_of_hexLoop hstart hr)
  · rintro (⟨bs, hbs⟩ | href)
    · have hbslen : bs.length = 32 := by
        have := utf8Len_of_hexDecode hbs
        omega
      have hrun : (fromStr s).run = .ok (.ok (toArr 32 bs)) := by
        have hread := hexLoop_of_hexDecode hstart hbs
        rw [hbslen] at hread
        rw [fromStr_hex hlen, hread]
        rfl
      refine ⟨⟨_, hrun⟩, fun k => ?_⟩
      rw [hencodes, hbs, hrun]
      constructor
      · intro h
        cases h
        rw [toList_toArr hbslen]
      · intro h
        cases h
        rw [toArr_toList]
    · have hrun : (fromStr s).run = .ok (.error "Illegal character in key") := by
        rw [fromStr_hex hlen, hexLoop_of_refused hstart href (by omega)]
        rfl
      refine ⟨⟨_, hrun⟩, fun k => ?_⟩
      rw [hencodes, hrun]
      refine ⟨fun h => (by cases h), fun h => ?_⟩
      have hread := hexLoop_of_hexDecode hstart h
      rw [k.toList_length, hexLoop_of_refused hstart href (by omega)] at hread
      cases hread

/-- A text of 44 bytes is read correctly if it is base64. -/
theorem correct_padded_iff [Base64] (hlen : utf8Len s = 44) :
    Correct s ↔ ∃ bs, s = Base64.encode bs := by
  have hencodes : ∀ k, Encodes s k ↔ s = Base64.encode k := by
    refine fun k => ⟨fun h => ?_, fun h => .inr (.inl h)⟩
    rcases h.cases with ⟨h, -⟩ | ⟨-, h⟩ | ⟨h, -⟩
    · omega
    · exact h
    · omega
  constructor
  · rintro ⟨-, hok⟩
    cases hdec : Base64.decode s with
    | some bs => exact ⟨bs, Base64.decode_eq_some_iff.mp hdec⟩
    | none =>
      exact ⟨_, (hencodes zeroKey).mp ((hok zeroKey).mp (fromStr_undecoded (.inr hlen) hdec))⟩
  · rintro ⟨bs, rfl⟩
    have hrun := fromStr_decoded (.inr hlen) (Base64.decode_encode bs)
    refine ⟨⟨_, hrun⟩, fun k => ?_⟩
    rw [hencodes, hrun]
    constructor
    · intro h
      split_ifs at h with hbs <;> cases h
      rw [toList_toArr hbs]
    · intro h
      obtain rfl : bs = k.toList :=
        Option.some.inj (by rw [← Base64.decode_encode bs, h, Base64.decode_encode])
      rw [if_pos k.toList_length, toArr_toList]

/-- A text of 43 bytes is read correctly only if it spells the zero key. -/
theorem correct_unpadded_iff [Base64] (hlen : utf8Len s = 43) :
    Correct s ↔ s ++ ['='] = Base64.encode zeroKey := by
  have hencodes : ∀ k, Encodes s k ↔ s ++ ['='] = Base64.encode k := by
    refine fun k => ⟨fun h => ?_, fun h => .inr (.inr h)⟩
    rcases h.cases with ⟨h, -⟩ | ⟨h, -⟩ | ⟨-, h⟩
    · omega
    · omega
    · exact h
  -- 43 is no multiple of four, so nothing of this length decodes
  have hdec : Base64.decode s = none := by
    refine Option.eq_none_iff_forall_ne_some.mpr fun bs hbs => ?_
    rw [Base64.decode_eq_some_iff.mp hbs, utf8Len_encode] at hlen
    omega
  have hrun := fromStr_undecoded (.inl hlen) hdec
  constructor
  · rintro ⟨-, hok⟩
    exact (hencodes zeroKey).mp ((hok zeroKey).mp hrun)
  · intro hzero
    refine ⟨⟨_, hrun⟩, fun k => ?_⟩
    rw [hencodes, hrun, hzero]
    constructor
    · intro h
      cases h
      rfl
    · intro h
      have hk : zeroKey.toList = k.toList :=
        Option.some.inj (by rw [← Base64.decode_encode, h, Base64.decode_encode])
      rw [Subtype.ext hk]

theorem correct_of_other_length [Base64] (h64 : utf8Len s ≠ 64) (h44 : utf8Len s ≠ 44)
    (h43 : utf8Len s ≠ 43) : Correct s := by
  have hrun : (fromStr s).run = .ok (.error "Illegal key size") := by
    rw [fromStr, if_neg h64, if_neg (by omega)]
    rfl
  refine ⟨⟨_, hrun⟩, fun k => ?_⟩
  rw [hrun]
  refine ⟨fun h => (by cases h), fun h => ?_⟩
  rcases h.cases with ⟨h, -⟩ | ⟨h, -⟩ | ⟨h, -⟩
  · exact absurd h h64
  · exact absurd h h44
  · exact absurd h h43

/-- **Which texts are read correctly.**  The function accepts exactly the spellings of a
key, and returns, on every text except: 64 bytes that are neither hexadecimal nor
refused at a unit of two bytes; 44 bytes that are not base64; and 43 bytes, where only
the zero key is read as itself. -/
theorem fromStr_correct_iff [Base64] (s : Text) :
    Correct s ↔
      (utf8Len s = 64 → (∃ bs, hexDecode s = some bs) ∨ Refused s) ∧
        (utf8Len s = 44 → ∃ bs, s = Base64.encode bs) ∧
        (utf8Len s = 43 → s ++ ['='] = Base64.encode zeroKey) := by
  by_cases h64 : utf8Len s = 64
  · rw [correct_hex_iff h64]
    exact ⟨fun h => ⟨fun _ => h, fun h' => by omega, fun h' => by omega⟩, fun h => h.1 h64⟩
  by_cases h44 : utf8Len s = 44
  · rw [correct_padded_iff h44]
    exact ⟨fun h => ⟨fun h' => by omega, fun _ => h, fun h' => by omega⟩, fun h => h.2.1 h44⟩
  by_cases h43 : utf8Len s = 43
  · rw [correct_unpadded_iff h43]
    exact ⟨fun h => ⟨fun h' => by omega, fun h' => by omega, fun _ => h⟩, fun h => h.2.2 h43⟩
  exact ⟨fun _ => ⟨fun h => absurd h h64, fun h => absurd h h44, fun h => absurd h h43⟩,
    fun _ => correct_of_other_length h64 h44 h43⟩

/-- The unpadded base64 of a key of ones is the zero key, and so are 44 exclamation
marks; `+f` thirty-two times is a key; and a character of two bytes across the first
unit's end panics. -/
theorem fromStr_accepts_malformed :
    (fromStr ((Base64.encode (List.replicate 32 1)).take 43)).run = .ok (.ok zeroKey) ∧
      (fromStr (List.replicate 44 '!')).run = .ok (.ok zeroKey) ∧
      (fromStr (List.replicate 32 ['+', 'f']).flatten).run =
        .ok (.ok ⟨List.replicate 32 15, rfl⟩) ∧
      (fromStr ('0' :: 'é' :: List.replicate 61 '0')).run =
        Outcome.panic "byte index is not a char boundary" := by
  decide +kernel

end KeyBytes
