import AwgTun.Lib.Numeral
import AwgTun.Phobos.Datagram

/-!
# Phobos configuration lines

`PhobosConfig::set` applies one line of a configuration section.  Each numeric field has its own
range and its own narrowing cast behind the check of the range; the casts lose nothing, except for
the one of `media-clock`, where what is cast is not what was checked: a quotient of 90000 is too
large for 16 bits if the divisor is 1.  And the parser behind `0x` and behind a leading zero takes a
plus sign, where an integer has none.

* `Setting.Holds` — what a line asks for, in numbers without a width.
* `PhobosConfig.set_unchanged`, `PhobosConfig.set_valid` — lines that are refused, and what is kept.
* `PhobosConfig.lines_faithful_iff` — which sections are applied as they are written.
-/

open Control Bytes Text

namespace Phobos

variable {value : Text} {v : Int} {fps : Int}

/-! ## Lines -/

/-- `str::as_bytes`. -/
def asBytes (s : Text) : Bytes := s.flatMap String.utf8EncodeChar

/-- `Masking::parse`. -/
def Masking.parse (value : Text) : Except ConfigError Masking :=
  let word := toAsciiLowercase (trim value)
  if word = "none".toList ∨ word = "auto".toList ∨ word = "tls".toList then .ok .none
  else if word = "stun".toList then .ok .stun
  else if word = "media".toList then .ok .media
  else .error (.invalidFieldValue "masking".toList "expected none, stun, media, auto or tls")

/-- `parse_int`. -/
def parseInt (name value : Text) (min max : Int) : Except ConfigError Int :=
  match parseI64 value with
  | some v =>
    if min ≤ v ∧ v ≤ max then .ok v
    else .error (.invalidFieldValue (trim name) "out of range")
  | none => .error (.invalidFieldValue (trim name) "must be an integer")

/-- `parse_ssrc`. -/
def parseSsrc (value : Text) : Except ConfigError UInt32 :=
  let parsed :=
    match (stripStart "0x".toList value).or (stripStart "0X".toList value) with
    | some hex => fromStrRadix 16 4294967295 hex
    | none =>
      if 1 < utf8Len value ∧ value.head? = some '0' then fromStrRadix 8 4294967295 (value.drop 1)
      else fromStrRadix 10 4294967295 value
  match parsed with
  | .ok n => .ok (UInt32.ofNat n)
  | .error _ =>
    .error (.invalidFieldValue "media-ssrc".toList "must be a 32-bit unsigned integer")

/-- The lines that the codec uses. -/
inductive Setting
  | key
  | masking
  | maxDummy
  | obfuscateBytes
  | mediaPt
  | mediaSsrc
  | mediaClock
  deriving DecidableEq, Repr

namespace Setting

/-- The names of the lines. -/
def name : Setting → Text
  | key => "key".toList
  | masking => "masking".toList
  | maxDummy => "max-dummy".toList
  | obfuscateBytes => "obfuscate-bytes".toList
  | mediaPt => "media-pt".toList
  | mediaSsrc => "media-ssrc".toList
  | mediaClock => "media-clock".toList

/-- The line of this name. -/
def ofName (name : Text) : Option Setting :=
  [key, masking, maxDummy, obfuscateBytes, mediaPt, mediaSsrc, mediaClock].find? (·.name = name)

theorem ofName_eq_some_iff {text : Text} {setting : Setting} :
    ofName text = some setting ↔ setting.name = text := by
  constructor
  · intro h
    simpa using List.find?_some h
  · rintro rfl
    cases setting <;> decide

theorem name_injective {a b : Setting} (h : a.name = b.name) : a = b :=
  Option.some.inj ((ofName_eq_some_iff.mpr h).symm.trans (ofName_eq_some_iff.mpr rfl))

end Setting

/-- The step of a clock of `fps` frames in a second. -/
def clockStep (fps : Int) : UInt16 := if fps = 0 then 0 else UInt16.ofInt (Int.tdiv 90000 fps)

namespace PhobosConfig

/-- `PhobosConfig::set_key`. -/
def setKey (c : PhobosConfig) (key : Bytes) : Except ConfigError Unit × PhobosConfig :=
  match validateKey key with
  | .error err => (.error err, c)
  | .ok () => (.ok (), { c with key })

/-- `self.field = parsed?`, and `Ok(true)`. -/
def assign {α : Type} (c : PhobosConfig) (parsed : Except ConfigError α) (put : α → PhobosConfig) :
    Except ConfigError Bool × PhobosConfig :=
  match parsed with
  | .error err => (.error err, c)
  | .ok v => (.ok true, put v)

/-- `PhobosConfig::set`: the result, and the configuration afterwards. -/
def set (c : PhobosConfig) (name value : Text) : Except ConfigError Bool × PhobosConfig :=
  let value := trim value
  match Setting.ofName (trim name) with
  | some .key =>
    match c.setKey (asBytes value) with
    | (.error err, c) => (.error err, c)
    | (.ok (), c) => (.ok true, c)
  | some .masking => c.assign (Masking.parse value) fun masking => { c with masking }
  | some .maxDummy =>
    c.assign (parseInt name value 0 dummyLimit) fun v => { c with maxDummy := UInt16.ofInt v }
  | some .obfuscateBytes =>
    c.assign (parseInt name value 0 2147483647) fun v => { c with obfuscateBytes := UInt32.ofInt v }
  | some .mediaPt =>
    c.assign (parseInt name value 0 127) fun v =>
      { c with media := { c.media with payloadType := UInt8.ofInt v } }
  | some .mediaSsrc =>
    c.assign (parseSsrc value) fun ssrc => { c with media := { c.media with ssrc } }
  | some .mediaClock =>
    c.assign (parseInt name value 0 1000) fun fps =>
      { c with media := { c.media with timestampStep := clockStep fps } }
  | none => (.ok false, c)

/-- The configuration after a section of lines. -/
def setAll (c : PhobosConfig) (lines : List (Text × Text)) : PhobosConfig :=
  lines.foldl (fun c line => (c.set line.1 line.2).2) c

end PhobosConfig

/-! ## What a line asks for -/

/-- The number that a `media-ssrc` text denotes: hexadecimal behind `0x`, octal behind another
leading zero, and decimal otherwise. -/
def ssrcValue (value : Text) : Option Nat :=
  match (stripStart "0x".toList value).or (stripStart "0X".toList value) with
  | some hex => numeral 16 hex
  | none =>
    if 1 < value.length ∧ value.head? = some '0' then numeral 8 (value.drop 1)
    else unsignedValue 10 value

/-- The number behind `0x` or a leading zero and a plus sign, which denotes nothing. -/
def signedSsrc (value : Text) : Option Nat :=
  match (stripStart "0x".toList value).or (stripStart "0X".toList value) with
  | some hex => afterPlus 16 hex
  | none =>
    if 1 < value.length ∧ value.head? = some '0' then afterPlus 8 (value.drop 1) else none

/-- Every RTP stream of these parameters advances by this step for each frame. -/
def MediaParams.Advances (params : MediaParams) (step : Int) : Prop :=
  ∀ (ρ : Type) [RandomSource ρ] (rng : ρ), ∃ s rng', RtpStream.new params rng = .ok (s, rng') ∧
    ∀ n : Nat, ((RtpStream.next^[n] s).timestamp.toNat : Int) =
      (s.timestamp.toNat + n * step) % 2 ^ 32

/-- A line was applied: its field holds what the text denotes, and the others are as before. -/
def Setting.Holds (value : Text) (c c' : PhobosConfig) : Setting → Prop
  | .key => c' = { c with key := asBytes value }
  | .masking => ∃ masking, Masking.parse value = .ok masking ∧ c' = { c with masking }
  | .maxDummy =>
    ∃ v : UInt16, integerValue value = some (v.toNat : Int) ∧ c' = { c with maxDummy := v }
  | .obfuscateBytes =>
    ∃ v : UInt32, integerValue value = some (v.toNat : Int) ∧ c' = { c with obfuscateBytes := v }
  | .mediaPt =>
    ∃ v : UInt8, integerValue value = some (v.toNat : Int) ∧
      c' = { c with media := { c.media with payloadType := v } }
  | .mediaSsrc =>
    ∃ v : UInt32, ssrcValue value = some v.toNat ∧ c' =
      { c with media := { c.media with ssrc := v } }
  | .mediaClock =>
    ∃ (fps : Int) (step : UInt16), integerValue value = some fps ∧
      (step.toNat : Int) = (if fps = 0 then 0 else 90000 / fps) ∧
      c' = { c with media := { c.media with timestampStep := step } } ∧
      (fps ≠ 0 → c'.media.Advances (90000 / fps))

/-- A call of `set` does what its line asks for, or nothing. -/
structure PhobosConfig.Faithful (c : PhobosConfig) (name value : Text) : Prop where
  unchanged : (c.set name value).1 ≠ .ok true → (c.set name value).2 = c
  valid : (c.set name value).2.validate = .ok ()
  applied : (c.set name value).1 = .ok true → ∃ setting, Setting.ofName (trim name) = some setting ∧
    setting.Holds (trim value) c (c.set name value).2

/-- The line that asks for one frame in a second. -/
def OneFrame (name value : Text) : Prop :=
  trim name = "media-clock".toList ∧ integerValue (trim value) = some 1

instance (name value : Text) : Decidable (OneFrame name value) :=
    inferInstanceAs (Decidable (_ ∧ _))

/-- The line that asks for a source with a sign inside of its number, which would fit. -/
def SignedSource (name value : Text) : Prop :=
  trim name = "media-ssrc".toList ∧ ∃ n ∈ signedSsrc (trim value), n < 2 ^ 32

instance (name value : Text) : Decidable (SignedSource name value) :=
  inferInstanceAs (Decidable (_ ∧ _))

/-- The lines that are not applied as they are written. -/
def Misread (name value : Text) : Prop := OneFrame name value ∨ SignedSource name value

instance (name value : Text) : Decidable (Misread name value) := inferInstanceAs (Decidable (_ ∨ _))

/-! ## The parsers -/

theorem parseInt_eq_ok_iff {name value : Text} {min max v : Int} (hmin : -2 ^ 63 ≤ min)
    (hmax : max < 2 ^ 63) :
    parseInt name value min max = .ok v ↔ integerValue value = some v ∧ min ≤ v ∧ v ≤ max := by
  unfold parseInt
  constructor
  · intro h
    split at h
    · next v' hv =>
      split_ifs at h with hrange
      cases h
      exact ⟨(parseI64_eq_some_iff.mp hv).1, hrange⟩
    · cases h
  · rintro ⟨hvalue, hrange⟩
    have hparse : parseI64 value = some v := parseI64_eq_some_iff.mpr ⟨hvalue, by omega, by omega⟩
    rw [hparse]
    exact if_pos hrange

/-- A text of more than one byte that begins with a zero has more than one character. -/
theorem leading_zero_iff (value : Text) :
    (1 < utf8Len value ∧ value.head? = some '0') ↔ (1 < value.length ∧ value.head? = some '0') := by
  refine and_congr_left ?_
  intro hhead
  match value, hhead with
  | _ :: [], rfl => exact iff_of_false (by decide) (by decide)
  | _ :: d :: rest, rfl =>
    have hzero := Char.utf8Size_pos '0'
    have hpos := d.utf8Size_pos
    refine iff_of_true ?_ (by simp)
    simp only [utf8Len_cons]
    omega

/-- What the parser takes: a number, or one with a sign inside. -/
theorem parseSsrc_eq_ok_iff {v : UInt32} :
    parseSsrc value = .ok v ↔ (ssrcValue value).or (signedSsrc value) = some v.toNat := by
  have hread : ∀ {radix : Nat} (s : Text), 0 < radix →
      ((match fromStrRadix radix 4294967295 s with
        | .ok n => .ok (UInt32.ofNat n)
        | .error _ => .error (.invalidFieldValue "media-ssrc".toList
            "must be a 32-bit unsigned integer") : Except ConfigError UInt32) = .ok v ↔
        unsignedValue radix s = some v.toNat) := by
    intro radix s hradix
    constructor
    · intro h
      split at h
      · next n hn =>
        cases h
        obtain ⟨hvalue, hle⟩ := (fromStrRadix_eq_ok_iff hradix).mp hn
        rw [UInt32.toNat_ofNat_of_lt' (show n < UInt32.size by change _ < 4294967296; omega),
          hvalue]
      · cases h
    · intro h
      have hlt : v.toNat < 4294967296 := v.toNat_lt
      rw [(fromStrRadix_eq_ok_iff hradix).mpr ⟨h, by omega⟩]
      exact congrArg _ UInt32.ofNat_toNat
  cases hhex : (stripStart "0x".toList value).or (stripStart "0X".toList value) with
  | some hex =>
    simp only [parseSsrc, ssrcValue, signedSsrc, hhex]
    rw [← unsignedValue_eq_or]
    exact hread hex (by decide)
  | none =>
    simp only [parseSsrc, ssrcValue, signedSsrc, hhex, leading_zero_iff]
    split_ifs
    · rw [← unsignedValue_eq_or]
      exact hread _ (by decide)
    · rw [Option.or_none]
      exact hread value (by decide)

/-- A text with a sign inside denotes nothing. -/
theorem ssrcValue_eq_none {n : Nat} (h : signedSsrc value = some n) :
    ssrcValue value = none := by
  unfold signedSsrc at h
  unfold ssrcValue
  split at h
  · exact numeral_eq_none_of_afterPlus h
  · split_ifs at h ⊢
    exact numeral_eq_none_of_afterPlus h

/-- What is taken is what the text denotes, unless there is a sign inside. -/
theorem ssrcValue_eq_some_iff {v : UInt32} (h : parseSsrc value = .ok v) :
    ssrcValue value = some v.toNat ↔ ¬ ∃ n ∈ signedSsrc value, n < 2 ^ 32 := by
  rw [parseSsrc_eq_ok_iff] at h
  cases hsigned : signedSsrc value with
  | none =>
    rw [hsigned, Option.or_none] at h
    exact iff_of_true h (by simp)
  | some n =>
    rw [ssrcValue_eq_none hsigned, Option.none_or, hsigned] at h
    rw [ssrcValue_eq_none hsigned]
    exact iff_of_false (by simp) (not_not_intro ⟨n, rfl, Option.some.inj h ▸ v.toNat_lt⟩)

/-! ## The casts -/

theorem toNat_ofInt16 (h : 0 ≤ v) (hmax : v < 2 ^ 16) :
    ((UInt16.ofInt v).toNat : Int) = v := by
  rw [UInt16.ofInt, UInt16.toNat_ofNat', Int.emod_eq_of_lt h hmax]
  omega

theorem toNat_ofInt32 (h : 0 ≤ v) (hmax : v < 2 ^ 32) :
    ((UInt32.ofInt v).toNat : Int) = v := by
  rw [UInt32.ofInt, UInt32.toNat_ofNat', Int.emod_eq_of_lt h hmax]
  omega

theorem toNat_ofInt8 (h : 0 ≤ v) (hmax : v < 2 ^ 8) :
    ((UInt8.ofInt v).toNat : Int) = v := by
  rw [UInt8.ofInt, UInt8.toNat_ofNat', Int.emod_eq_of_lt h hmax]
  omega

/-- A quotient of the clock fits, unless the divisor is 1. -/
theorem clockStep_eq_iff (h : 0 ≤ fps) (hmax : fps ≤ 1000) :
    ((clockStep fps).toNat : Int) = (if fps = 0 then 0 else 90000 / fps) ↔ fps ≠ 1 := by
  by_cases hzero : fps = 0
  · subst hzero
    exact iff_of_true rfl (by decide)
  by_cases hone : fps = 1
  · subst hone
    exact iff_of_false (by decide) (by decide)
  have hsmall : (90000 : Int) / fps < 2 ^ 16 := Int.ediv_lt_of_lt_mul (by omega) (by omega)
  have hnonneg : 0 ≤ (90000 : Int) / fps := Int.ediv_nonneg (by decide) h
  refine iff_of_true ?_ hone
  rw [clockStep, if_neg hzero, if_neg hzero, Int.tdiv_eq_ediv_of_nonneg (by decide),
    toNat_ofInt16 hnonneg hsmall]

/-- A clock that is set gives a step. -/
theorem clockStep_ne_zero (h : 0 ≤ fps) (hmax : fps ≤ 1000) (hfps : fps ≠ 0) :
    clockStep fps ≠ 0 := by
  intro hzero
  by_cases hone : fps = 1
  · subst hone
    exact absurd hzero (by decide)
  have hstep := (clockStep_eq_iff h hmax).mpr hone
  have hlarge : (90 : Int) ≤ 90000 / fps := (Int.le_ediv_iff_mul_le (by omega)).mpr (by omega)
  rw [hzero, if_neg hfps] at hstep
  change (0 : Int) = _ at hstep
  omega

/-! ## The stream -/

namespace RtpStream

theorem iterate_next_timestampStep (s : RtpStream) (n : Nat) :
    (next^[n] s).timestampStep = s.timestampStep := by
  induction n with
  | zero => rfl
  | succ n ih =>
    rw [Function.iterate_succ_apply']
    exact ih

theorem iterate_next_timestamp (s : RtpStream) (n : Nat) :
    (next^[n] s).timestamp.toNat = (s.timestamp.toNat + n * s.timestampStep.toNat) % 2 ^ 32 := by
  induction n with
  | zero =>
    have hlt := s.timestamp.toNat_lt
    simp only [Function.iterate_zero, id, Nat.zero_mul, Nat.add_zero]
    omega
  | succ n ih =>
    have hstep := s.iterate_next_timestampStep n
    rw [Function.iterate_succ_apply']
    change ((next^[n] s).timestamp + (next^[n] s).timestampStep.toUInt32).toNat = _
    rw [UInt32.toNat_add, UInt16.toNat_toUInt32, ih, hstep, Nat.succ_mul,
      Nat.mod_add_mod, Nat.add_assoc]

theorem new_timestampStep {params : MediaParams} (hset : params.timestampStep ≠ 0) {ρ : Type}
    [RandomSource ρ] (rng : ρ) :
    ∃ s rng', new params rng = .ok (s, rng') ∧ s.timestampStep = params.timestampStep := by
  obtain ⟨s, rng', hnew, -, -⟩ := new_returns params rng
  refine ⟨s, rng', hnew, ?_⟩
  simp only [new] at hnew
  split at hnew
  · cases hnew
  · cases hnew
    exact if_pos hset

end RtpStream

theorem MediaParams.advances {params : MediaParams} (hset : params.timestampStep ≠ 0) :
    params.Advances params.timestampStep.toNat := by
  intro ρ _ rng
  obtain ⟨s, rng', hnew, hstep⟩ := RtpStream.new_timestampStep hset rng
  refine ⟨s, rng', hnew, ?_⟩
  intro n
  rw [s.iterate_next_timestamp n, hstep]
  push_cast
  rfl

namespace PhobosConfig

variable {c : PhobosConfig} {name value : Text}

/-! ## One line -/

theorem assign_fst {α : Type} {parsed : Except ConfigError α} {put : α → PhobosConfig}
    (h : (c.assign parsed put).1 = .ok true) :
    ∃ v, parsed = .ok v ∧ (c.assign parsed put).2 = put v := by
  cases parsed with
  | error err => cases h
  | ok v => exact ⟨v, rfl, rfl⟩

theorem assign_unchanged {α : Type} {parsed : Except ConfigError α} {put : α → PhobosConfig}
    (h : (c.assign parsed put).1 ≠ .ok true) : (c.assign parsed put).2 = c := by
  cases parsed with
  | error err => rfl
  | ok v => exact absurd rfl h

/-- A key is assigned like the other fields. -/
theorem set_key (c : PhobosConfig) (value : Text) :
    (match c.setKey (asBytes value) with
      | (.error err, c) => ((.error err, c) : Except ConfigError Bool × PhobosConfig)
      | (.ok (), c) => (.ok true, c)) =
    c.assign (validateKey (asBytes value)) fun _ => { c with key := asBytes value } := by
  unfold setKey
  cases validateKey (asBytes value) <;> rfl

/-- **A line that is refused or not known changes nothing.** -/
theorem set_unchanged (name value : Text) (h : (c.set name value).1 ≠ .ok true) :
    (c.set name value).2 = c := by
  simp only [set, set_key] at h ⊢
  split at h
  all_goals first
    | exact assign_unchanged h
    | rfl

/-- What `validate` asks for. -/
theorem validate_eq_ok_iff : c.validate = .ok () ↔ validateKey c.key = .ok () ∧
    c.maxDummy.toNat ≤ dummyLimit ∧ c.obfuscateBytes.toNat ≤ 2147483647 ∧
      c.media.payloadType.toNat ≤ 127 := by
  unfold validate
  rw [check_bind_eq_ok]
  refine and_congr_right' ?_
  by_cases hdummy : dummyLimit < c.maxDummy.toNat
  · rw [if_pos hdummy]
    exact iff_of_false nofun fun h => absurd h.1 (Nat.not_le.mpr hdummy)
  by_cases hbytes : 2147483647 < c.obfuscateBytes
  · rw [if_neg hdummy, if_pos hbytes]
    exact iff_of_false nofun fun h =>
      absurd h.2.1 (Nat.not_le.mpr (UInt32.lt_iff_toNat_lt.mp hbytes))
  by_cases hpt : 127 < c.media.payloadType
  · rw [if_neg hdummy, if_neg hbytes, if_pos hpt]
    exact iff_of_false nofun fun h => absurd h.2.2 (Nat.not_le.mpr (UInt8.lt_iff_toNat_lt.mp hpt))
  · rw [if_neg hdummy, if_neg hbytes, if_neg hpt]
    exact iff_of_true rfl
      ⟨Nat.not_lt.mp hdummy, UInt32.le_iff_toNat_le.mp (UInt32.not_lt.mp hbytes),
      UInt8.le_iff_toNat_le.mp (UInt8.not_lt.mp hpt)⟩

/-- A line with a number in this range. -/
theorem set_number {max : Int} {put : Int → PhobosConfig} (hmax : max < 2 ^ 63)
    (h : (c.assign (parseInt name value 0 max) put).1 = .ok true) :
    ∃ v, integerValue value = some v ∧ 0 ≤ v ∧ v ≤ max ∧
      (c.assign (parseInt name value 0 max) put).2 = put v := by
  obtain ⟨v, hv, hput⟩ := assign_fst h
  obtain ⟨hvalue, hlow, hhigh⟩ := (parseInt_eq_ok_iff (by decide) hmax).mp hv
  exact ⟨v, hvalue, hlow, hhigh, hput⟩

/-- **What a line leaves** is what it asks for, unless it is one of the two that are misread. -/
theorem set_holds_iff {setting : Setting} (hname : Setting.ofName (trim name) = some setting)
    (h : (c.set name value).1 = .ok true) :
    setting.Holds (trim value) c (c.set name value).2 ↔ ¬ Misread name value := by
  have hsame : setting.name = trim name := Setting.ofName_eq_some_iff.mp hname
  have hother : setting ≠ .mediaClock → setting ≠ .mediaSsrc → ¬ Misread name value := by
    intro hclock hssrc hmisread
    rcases hmisread with ⟨htrim, -⟩ | ⟨htrim, -⟩
    · exact hclock (Setting.name_injective (hsame.trans htrim))
    · exact hssrc (Setting.name_injective (hsame.trans htrim))
  simp only [set, set_key, hname] at h ⊢
  cases setting with
  | key =>
    obtain ⟨-, -, hput⟩ := assign_fst h
    exact iff_of_true hput (hother nofun nofun)
  | masking =>
    obtain ⟨masking, hparse, hput⟩ := assign_fst h
    exact iff_of_true ⟨masking, hparse, hput⟩ (hother nofun nofun)
  | maxDummy =>
    obtain ⟨v, hvalue, hlow, hhigh, hput⟩ := set_number (by decide) h
    have hcast := toNat_ofInt16 hlow (hhigh.trans_lt (by decide))
    exact iff_of_true ⟨_, hvalue.trans (congrArg some hcast.symm), hput⟩ (hother nofun nofun)
  | obfuscateBytes =>
    obtain ⟨v, hvalue, hlow, hhigh, hput⟩ := set_number (by decide) h
    have hcast := toNat_ofInt32 hlow (hhigh.trans_lt (by decide))
    exact iff_of_true ⟨_, hvalue.trans (congrArg some hcast.symm), hput⟩ (hother nofun nofun)
  | mediaPt =>
    obtain ⟨v, hvalue, hlow, hhigh, hput⟩ := set_number (by decide) h
    have hcast := toNat_ofInt8 hlow (hhigh.trans_lt (by decide))
    exact iff_of_true ⟨_, hvalue.trans (congrArg some hcast.symm), hput⟩ (hother nofun nofun)
  | mediaSsrc =>
    obtain ⟨v, hparse, hput⟩ := assign_fst h
    have hsource : Misread name value ↔ ∃ n ∈ signedSsrc (trim value), n < 2 ^ 32 := by
      refine ⟨?_, fun hn => .inr ⟨hsame.symm, hn⟩⟩
      rintro (⟨htrim, -⟩ | ⟨-, hn⟩)
      · exact absurd (Setting.name_injective (b := .mediaClock) (hsame.trans htrim)) (by decide)
      · exact hn
    rw [hsource, hput, ← ssrcValue_eq_some_iff hparse]
    constructor
    · rintro ⟨v', hvalue, hc'⟩
      have hv : v = v' := congrArg (fun c : PhobosConfig => c.media.ssrc) hc'
      rwa [hv]
    · intro hvalue
      exact ⟨v, hvalue, rfl⟩
  | mediaClock =>
    obtain ⟨fps, hvalue, hlow, hhigh, hput⟩ := set_number (by decide) h
    have hframe : Misread name value ↔ fps = 1 := by
      refine ⟨?_, fun hone => .inl ⟨hsame.symm, hvalue.trans (congrArg some hone)⟩⟩
      rintro (⟨-, hone⟩ | ⟨htrim, -⟩)
      · exact Option.some.inj (hvalue.symm.trans hone)
      · exact absurd (Setting.name_injective (b := .mediaSsrc) (hsame.trans htrim)) (by decide)
    have hcast := clockStep_eq_iff hlow hhigh
    rw [hframe, hput]
    constructor
    · rintro ⟨fps', step, hfps, hstep, hc', -⟩
      rw [hvalue, Option.some.injEq] at hfps
      subst hfps
      have hput : clockStep fps = step :=
        congrArg (fun c : PhobosConfig => c.media.timestampStep) hc'
      rw [← hput] at hstep
      exact hcast.mp hstep
    · intro hne
      have hstep := hcast.mpr hne
      refine ⟨fps, clockStep fps, hvalue, hstep, rfl, ?_⟩
      intro hfps
      rw [if_neg hfps] at hstep
      rw [← hstep]
      exact MediaParams.advances (clockStep_ne_zero hlow hhigh hfps)

/-- **Every line leaves a valid configuration.** -/
theorem set_valid (hc : c.validate = .ok ()) (name value : Text) :
    (c.set name value).2.validate = .ok () := by
  by_cases h : (c.set name value).1 = .ok true
  · rw [validate_eq_ok_iff] at hc ⊢
    obtain ⟨hkey, hdummy, hbytes, hpt⟩ := hc
    simp only [set, set_key] at h ⊢
    split at h
    · obtain ⟨_, hvalid, hput⟩ := assign_fst h
      rw [hput]
      exact ⟨hvalid, hdummy, hbytes, hpt⟩
    · obtain ⟨masking, -, hput⟩ := assign_fst h
      rw [hput]
      exact ⟨hkey, hdummy, hbytes, hpt⟩
    · obtain ⟨v, -, hlow, hhigh, hput⟩ := set_number (by decide) h
      have hcast := toNat_ofInt16 hlow (hhigh.trans_lt (by decide))
      rw [hput]
      exact ⟨hkey, by simp only; omega, hbytes, hpt⟩
    · obtain ⟨v, -, hlow, hhigh, hput⟩ := set_number (by decide) h
      have hcast := toNat_ofInt32 hlow (hhigh.trans_lt (by decide))
      rw [hput]
      exact ⟨hkey, hdummy, by simp only; omega, hpt⟩
    · obtain ⟨v, -, hlow, hhigh, hput⟩ := set_number (by decide) h
      have hcast := toNat_ofInt8 hlow (hhigh.trans_lt (by decide))
      rw [hput]
      exact ⟨hkey, hdummy, hbytes, by simp only; omega⟩
    · obtain ⟨ssrc, -, hput⟩ := assign_fst h
      rw [hput]
      exact ⟨hkey, hdummy, hbytes, hpt⟩
    · obtain ⟨fps, -, hput⟩ := assign_fst h
      rw [hput]
      exact ⟨hkey, hdummy, hbytes, hpt⟩
    · exact ⟨hkey, hdummy, hbytes, hpt⟩
  · rw [set_unchanged name value h]
    exact hc

theorem setAll_valid (hc : c.validate = .ok ()) (lines : List (Text × Text)) :
    (c.setAll lines).validate = .ok () := by
  unfold setAll
  induction lines generalizing c with
  | nil => exact hc
  | cons line lines ih => exact ih (set_valid hc line.1 line.2)

theorem ofName_of_set (h : (c.set name value).1 = .ok true) :
    ∃ setting, Setting.ofName (trim name) = some setting := by
  cases hname : Setting.ofName (trim name) with
  | some setting => exact ⟨setting, rfl⟩
  | none =>
    simp only [set, hname] at h
    cases h

/-- The lines that are misread are accepted. -/
theorem set_misread (h : Misread name value) : (c.set name value).1 = .ok true := by
  rcases h with ⟨htrim, hone⟩ | ⟨htrim, n, hn, hlt⟩
  · have hname : Setting.ofName (trim name) = some .mediaClock :=
      Setting.ofName_eq_some_iff.mpr htrim.symm
    have hfps : parseInt name (trim value) 0 1000 = .ok 1 :=
      (parseInt_eq_ok_iff (by decide) (by decide)).mpr ⟨hone, by decide, by decide⟩
    simp only [set, hname, hfps]
    rfl
  · have hname : Setting.ofName (trim name) = some .mediaSsrc :=
      Setting.ofName_eq_some_iff.mpr htrim.symm
    have hssrc : parseSsrc (trim value) = .ok (UInt32.ofNat n) := by
      rw [parseSsrc_eq_ok_iff, ssrcValue_eq_none hn, Option.none_or, UInt32.toNat_ofNat_of_lt' hlt]
      exact hn
    simp only [set, hname, hssrc]
    rfl

theorem faithful_iff (hc : c.validate = .ok ()) (name value : Text) :
    c.Faithful name value ↔ ¬ Misread name value := by
  constructor
  · intro h hmisread
    have hset := set_misread (c := c) hmisread
    obtain ⟨setting, hname, hholds⟩ := h.applied hset
    exact (set_holds_iff hname hset).mp hholds hmisread
  · intro hread
    refine ⟨set_unchanged name value, set_valid hc name value, ?_⟩
    intro hset
    obtain ⟨setting, hname⟩ := ofName_of_set hset
    exact ⟨setting, hname, (set_holds_iff hname hset).mpr hread⟩

/-! ## A section -/

theorem new_valid {key : Bytes} (h : new key = .ok c) : c.validate = .ok () := by
  obtain ⟨hkey, h⟩ := check_bind_eq_ok.mp h
  cases h
  exact validate_eq_ok_iff.mpr ⟨hkey, (by decide : 4 ≤ 1024), Nat.zero_le _, Nat.zero_le _⟩

/-- **Which sections are applied as they are written**: for every configuration that `new` makes and
all lines, each call does what its line asks for exactly if no line sets the clock to 1, and no
source has a sign behind `0x` or a leading zero. -/
theorem lines_faithful_iff {key : Bytes} (hnew : new key = .ok c) (lines : List (Text × Text)) :
    (∀ before line after, lines = before ++ line :: after →
        (c.setAll before).Faithful line.1 line.2) ↔
      ∀ line ∈ lines, ¬ Misread line.1 line.2 := by
  constructor
  · intro h line hline
    obtain ⟨before, after, rfl⟩ := List.append_of_mem hline
    exact (faithful_iff (setAll_valid (new_valid hnew) before) _ _).mp (h before line after rfl)
  · rintro h before line after rfl
    exact (faithful_iff (setAll_valid (new_valid hnew) before) _ _).mpr (h line (by simp))

/-- A section for a client behind RTP frames. -/
def mediaSection : List (Text × Text) :=
  [("masking".toList, " Media ".toList), ("media-clock".toList, "30".toList),
    ("media-ssrc".toList, "0x1F".toList), ("target".toList, "127.0.0.1".toList)]

/-- It is applied as it is written. -/
theorem lines_faithful_iff_media : new [7] = .ok { key := [7] } ∧
    ∀ before line after, mediaSection = before ++ line :: after →
      (({ key := [7] } : PhobosConfig).setAll before).Faithful line.1 line.2 := by
  have hnew : new [7] = .ok { key := [7] } := rfl
  exact ⟨hnew, (lines_faithful_iff hnew mediaSection).mpr (by decide)⟩

/-- **One frame in a second**: the line is accepted, and the step is 24464 in the place of 90000.
So is a source with a sign inside of its number. -/
theorem clock_step_wraps : new [7] = .ok { key := [7] } ∧
    integerValue "1".toList = some 1 ∧
    ({ key := [7] } : PhobosConfig).set "media-clock".toList "1".toList =
      (.ok true, { key := [7], media := { timestampStep := 24464 } }) ∧
    MediaParams.Advances { timestampStep := 24464 } 24464 ∧
    ¬ ({ key := [7] } : PhobosConfig).Faithful "media-clock".toList "1".toList ∧
    ssrcValue "0x+1f".toList = none ∧
    ({ key := [7] } : PhobosConfig).set "media-ssrc".toList "0x+1f".toList =
      (.ok true, { key := [7], media := { ssrc := 31 } }) ∧
    ¬ ({ key := [7] } : PhobosConfig).Faithful "media-ssrc".toList "0x+1f".toList := by
  have hnew : new [7] = .ok { key := [7] } := rfl
  have hvalid := new_valid hnew
  refine ⟨hnew, by decide, by decide, MediaParams.advances (by decide),
    ?_, by decide, by decide, ?_⟩
  · rw [faithful_iff hvalid]
    decide
  · rw [faithful_iff hvalid]
    decide

end PhobosConfig

end Phobos
