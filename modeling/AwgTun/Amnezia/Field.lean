import AwgTun.Amnezia.Display
import AwgTun.Amnezia.Parse

/-!
# The fields of a configuration

The keys that `Amnezia3Config::parse` knows, each with the type of its value and its
reader.  A configuration is the function from these fields to their values, and a line of
the parser reads a value for one field and gives the field that value.

* `Amnezia3Config.get_set`, `Amnezia3Config.ext_get` — a configuration as such a function.
* `Amnezia3Config.setField_eq`, `setField_unknown` — one line, for a key that is known and
  for one that is not.
* `Amnezia3Config.finish_cases` — the end of the parser, which installs the header ranges
  as a set.
-/

open Text Control

namespace Amnezia3Config

variable {st : ParseState} {c : Amnezia3Config}

/-! ## Fields -/

/-- The keys, in the order in which they are written. -/
inductive Field
  | jc | jmin | jmax
  | s1 | s2 | s3 | s4
  | h1 | h2 | h3 | h4
  | i1 | i2 | i3 | i4 | i5
  | headerProtectionKey
  | contentPaddingAddition
  | rekeyAfterTime | rekeyTimeout | rejectAfterTime | keepaliveTimeout | maxHandshakeAttempts
  | persistentKeepaliveInterval
  | randomTrailers | disableCookies
  | mtu
  deriving DecidableEq, Repr

/-- What kind of value a field has. -/
inductive Kind
  | u16
  | header
  | chain
  | key
  | padding
  | range
  | bool
  | u32
  deriving DecidableEq, Repr

/-- The values of a kind, as the configuration has them. -/
abbrev Kind.Value : Kind → Type
  | .u16 => UInt16
  | .header => HeaderRange
  | .chain => Option CpsChain
  | .key => Option Key
  | .padding => Option U32Range
  | .range => U32Range
  | .bool => Bool
  | .u32 => UInt32

namespace Field

/-- The fields, each once. -/
def all : List Field :=
  [.jc, .jmin, .jmax, .s1, .s2, .s3, .s4, .h1, .h2, .h3, .h4, .i1, .i2, .i3, .i4, .i5,
    .headerProtectionKey, .contentPaddingAddition, .rekeyAfterTime, .rekeyTimeout,
    .rejectAfterTime, .keepaliveTimeout, .maxHandshakeAttempts, .persistentKeepaliveInterval,
    .randomTrailers, .disableCookies, .mtu]

/-- The key of a field. -/
def name : Field → String
  | .jc => "jc"
  | .jmin => "jmin"
  | .jmax => "jmax"
  | .s1 => "s1"
  | .s2 => "s2"
  | .s3 => "s3"
  | .s4 => "s4"
  | .h1 => "h1"
  | .h2 => "h2"
  | .h3 => "h3"
  | .h4 => "h4"
  | .i1 => "i1"
  | .i2 => "i2"
  | .i3 => "i3"
  | .i4 => "i4"
  | .i5 => "i5"
  | .headerProtectionKey => "header_protection_key"
  | .contentPaddingAddition => "content_padding_addition"
  | .rekeyAfterTime => "rekey_after_time"
  | .rekeyTimeout => "rekey_timeout"
  | .rejectAfterTime => "reject_after_time"
  | .keepaliveTimeout => "keepalive_timeout"
  | .maxHandshakeAttempts => "max_handshake_attempts"
  | .persistentKeepaliveInterval => "persistent_keepalive_interval"
  | .randomTrailers => "random_trailers"
  | .disableCookies => "disable_cookies"
  | .mtu => "mtu"

/-- The key of a field as text. -/
def key (f : Field) : Text := f.name.toList

/-- The kind of a field. -/
abbrev kind : Field → Kind
  | .jc | .jmin | .jmax | .s1 | .s2 | .s3 | .s4 => .u16
  | .h1 | .h2 | .h3 | .h4 => .header
  | .i1 | .i2 | .i3 | .i4 | .i5 => .chain
  | .headerProtectionKey => .key
  | .contentPaddingAddition => .padding
  | .rekeyAfterTime | .rekeyTimeout | .rejectAfterTime | .keepaliveTimeout | .maxHandshakeAttempts
  | .persistentKeepaliveInterval => .range
  | .randomTrailers | .disableCookies => .bool
  | .mtu => .u32

/-- The values of a field. -/
abbrev Value (f : Field) : Type := f.kind.Value

theorem mem_all (f : Field) : f ∈ all := by
  cases f <;> simp [all]

end Field

/-! ## A configuration as a function -/

/-- The value of a field. -/
def get (c : Amnezia3Config) : (f : Field) → f.Value
  | .jc => c.junk.count
  | .jmin => c.junk.minSize
  | .jmax => c.junk.maxSize
  | .s1 => c.paddings.s1
  | .s2 => c.paddings.s2
  | .s3 => c.paddings.s3
  | .s4 => c.paddings.s4
  | .h1 => c.headers.init
  | .h2 => c.headers.response
  | .h3 => c.headers.cookie
  | .h4 => c.headers.transport
  | .i1 => c.initPackets.i1
  | .i2 => c.initPackets.i2
  | .i3 => c.initPackets.i3
  | .i4 => c.initPackets.i4
  | .i5 => c.initPackets.i5
  | .headerProtectionKey => c.headerProtectionKey
  | .contentPaddingAddition => c.contentPaddingAddition
  | .rekeyAfterTime => c.timingRanges.rekeyAfterTime
  | .rekeyTimeout => c.timingRanges.rekeyTimeout
  | .rejectAfterTime => c.timingRanges.rejectAfterTime
  | .keepaliveTimeout => c.timingRanges.keepaliveTimeout
  | .maxHandshakeAttempts => c.timingRanges.maxHandshakeAttempts
  | .persistentKeepaliveInterval => c.timingRanges.persistentKeepalive
  | .randomTrailers => c.randomTrailers
  | .disableCookies => c.disableCookies
  | .mtu => c.mtu

/-- The configuration with given values. -/
def ofValues (g : (f : Field) → f.Value) : Amnezia3Config where
  junk := ⟨g .jc, g .jmin, g .jmax⟩
  paddings := ⟨g .s1, g .s2, g .s3, g .s4⟩
  headers := ⟨g .h1, g .h2, g .h3, g .h4⟩
  initPackets := ⟨g .i1, g .i2, g .i3, g .i4, g .i5⟩
  headerProtectionKey := g .headerProtectionKey
  contentPaddingAddition := g .contentPaddingAddition
  timingRanges :=
    ⟨g .rekeyAfterTime, g .rekeyTimeout, g .rejectAfterTime, g .keepaliveTimeout,
      g .maxHandshakeAttempts, g .persistentKeepaliveInterval⟩
  randomTrailers := g .randomTrailers
  disableCookies := g .disableCookies
  mtu := g .mtu

/-- Give a field a value. -/
def set (c : Amnezia3Config) (f : Field) (x : f.Value) : Amnezia3Config :=
  ofValues (Function.update c.get f x)

theorem get_ofValues (g : (f : Field) → f.Value) : (ofValues g).get = g := by
  funext f
  cases f <;> rfl

theorem ofValues_get (c : Amnezia3Config) : ofValues c.get = c := rfl

/-- A configuration is known by the values of its fields. -/
theorem ext_get {c c' : Amnezia3Config} (h : c.get = c'.get) : c = c' := by
  rw [← ofValues_get c, h, ofValues_get]

theorem get_set (c : Amnezia3Config) (f : Field) (x : f.Value) :
    (c.set f x).get = Function.update c.get f x :=
  get_ofValues _

/-! ## Readers -/

/-- The reader of a kind, for the text of a value behind a key. -/
def Kind.read [Hex] (key value : Text) : (k : Kind) → Fallible ConfigError k.Value
  | .u16 => Fallible.ofExcept (parseFieldU16 key value)
  | .header => Fallible.ofExcept (HeaderRange.parse value)
  | .chain => do return some (← CpsChain.parse value)
  | .key => Fallible.ofExcept ((parseHeaderProtectionKey value).map fun k =>
      if k.toList.all (· == 0) then none else some k)
  | .padding => Fallible.ofExcept ((U32Range.parse value).map fun r =>
      if r.isZero then none else some r)
  | .range => Fallible.ofExcept (U32Range.parse value)
  | .bool => Fallible.ofExcept (parseFieldBool key value)
  | .u32 => Fallible.ofExcept (parseFieldU32 key value)

/-- The reader of a field. -/
def Field.read [Hex] (f : Field) (value : Text) : Fallible ConfigError f.Value :=
  f.kind.read f.key value

/-! ## One line -/

namespace ParseState

/-- The configuration the parser has collected. -/
def toConfig (st : ParseState) : Amnezia3Config := { st.config with headers := st.headers }

/-- Give a field a value; header ranges go to the ranges collected apart. -/
def write (st : ParseState) (f : Field) (x : f.Value) : ParseState :=
  if f.kind = .header then
    { st with headers := (st.toConfig.set f x).headers, sawHeader := true }
  else { st with config := st.config.set f x }

theorem toConfig_write (st : ParseState) (f : Field) (x : f.Value) :
    (st.write f x).toConfig = st.toConfig.set f x := by
  cases f <;> rfl

end ParseState

/-- A line for a field reads a value and gives it to the field. -/
theorem setField_eq [Hex] (st : ParseState) (f : Field) (value : Text) :
    setField st f.key value = do return st.write f (← f.read value) := by
  cases f <;>
    simp only [setField, Field.key, Field.name, String.ofList_toList, Field.read, Kind.read,
      Fallible.ofExcept_map, bind_pure_comp, Functor.map_map] <;>
    rfl

/-- A line for no field is refused. -/
theorem setField_unknown [Hex] {key : Text} (h : ∀ f : Field, key ≠ f.key) (st : ParseState)
    (value : Text) : ∃ err, setField st key value = throw err := by
  have hname : ∀ f ∈ Field.all, String.ofList key ≠ f.name := by
    intro f _ heq
    exact h f (by rw [Field.key, ← heq, String.toList_ofList])
  simp only [Field.all, Field.name, List.forall_mem_cons, List.not_mem_nil, false_imp_iff,
    implies_true, and_true] at hname
  unfold setField
  simp only
  split
  case h_28 =>
    cases hlegacy : validateFieldName key with
    | error err => exact ⟨err, rfl⟩
    | ok => exact ⟨.unsupportedLegacyField key, rfl⟩
  all_goals simp_all

/-- What a line can do to the collected values. -/
theorem parseLine_cases [Hex] {st st' : ParseState} {line : Text}
    (h : (parseLine st line).run = .ok (.ok st')) :
    st' = st ∨ ∃ (f : Field) (value : Text) (x : f.Value),
      (f.read value).run = .ok (.ok x) ∧ st' = st.write f x := by
  unfold parseLine at h
  simp only at h
  split_ifs at h with hblank
  · cases h
    exact .inl rfl
  split at h
  · cases h
  rename_i key value _
  by_cases hkey : ∃ f : Field, toAsciiLowercase (trim key) = f.key
  · obtain ⟨f, hf⟩ := hkey
    rw [hf, setField_eq, Fallible.bind_eq_ok] at h
    obtain ⟨x, hx, h⟩ := h
    cases h
    exact .inr ⟨f, trim value, x, hx, rfl⟩
  · push Not at hkey
    obtain ⟨err, hthrow⟩ := setField_unknown hkey st (trim value)
    rw [hthrow] at h
    cases h

/-! ## The end of the parser -/

/-- What `parse` does with the collected values. -/
def finish (st : ParseState) : Fallible ConfigError Amnezia3Config := do
  let config ← Fallible.ofExcept (installHeaders st)
  Fallible.ofExcept config.validate
  return config

/-- Where the parser starts. -/
def ParseState.start : ParseState := ⟨default, .wireguardCompatible, false⟩

theorem parse_eq [Hex] (input : Text) :
    parse input = (lines input).foldlM parseLine ParseState.start >>= finish := rfl

/-- The configuration has the standard ranges until the end, and so have the collected
ranges until a line sets one of them. -/
structure ParseState.Collecting (st : ParseState) : Prop where
  config : st.config.headers = .wireguardCompatible
  headers : st.sawHeader = false → st.headers = .wireguardCompatible

theorem ParseState.collecting_start : ParseState.start.Collecting := ⟨rfl, fun _ => rfl⟩

theorem ParseState.Collecting.write (h : st.Collecting) (f : Field) (x : f.Value) :
    (st.write f x).Collecting := by
  obtain ⟨hconfig, hheaders⟩ := h
  cases f
  case h1 | h2 | h3 | h4 => exact ⟨hconfig, fun hsaw => by cases hsaw⟩
  all_goals exact ⟨hconfig, hheaders⟩

theorem new_of_disjoint {headers : HeaderConfig} (h : headers.validate = .ok ()) :
    HeaderConfig.new headers.init headers.response headers.cookie headers.transport =
      .ok headers := by
  change headers.validate >>= _ = _
  rw [h]
  rfl

/-- Nothing but the collected values is installed. -/
theorem eq_toConfig_of_installHeaders (hst : st.Collecting) (h : installHeaders st = .ok c) :
    c = st.toConfig := by
  unfold installHeaders at h
  split_ifs at h with hsaw
  · obtain ⟨headers, hnew, rfl⟩ := map_eq_ok.mp h
    obtain ⟨-, -, hheaders⟩ := bind_eq_ok.mp hnew
    cases hheaders
    rfl
  · cases h
    rw [ParseState.toConfig, hst.headers (by simpa using hsaw), ← hst.config]

theorem installHeaders_of_disjoint (hst : st.Collecting) (h : st.headers.validate = .ok ()) :
    installHeaders st = .ok st.toConfig := by
  have hsome : ∃ c, installHeaders st = .ok c := by
    unfold installHeaders
    split_ifs
    · exact ⟨_, by rw [new_of_disjoint h]; rfl⟩
    · exact ⟨_, rfl⟩
  obtain ⟨c, hc⟩ := hsome
  rw [hc, eq_toConfig_of_installHeaders hst hc]

/-- Values that pass as a set are the configuration. -/
theorem finish_of_valid (hst : st.Collecting) (h : st.toConfig.validate = .ok ()) :
    finish st = return st.toConfig := by
  rw [finish, installHeaders_of_disjoint hst (validate_eq_ok_iff.mp h).headers,
    Fallible.ofExcept_ok_bind, h,
    Fallible.ofExcept_ok_bind]

/-- Values that do not are refused. -/
theorem finish_of_invalid (hst : st.Collecting) (h : st.toConfig.validate ≠ .ok ()) :
    ∃ err, finish st = throw err := by
  cases hinstall : installHeaders st with
  | error err => exact ⟨err, by rw [finish, hinstall, Fallible.ofExcept_error_bind]⟩
  | ok c =>
    obtain rfl := eq_toConfig_of_installHeaders hst hinstall
    cases hvalid : st.toConfig.validate with
    | ok => exact absurd hvalid h
    | error err =>
      refine ⟨err, ?_⟩
      rw [finish, hinstall, Fallible.ofExcept_ok_bind, hvalid, Fallible.ofExcept_error_bind]

/-! ## Values that the parser returns -/

/-- A value that a reader can return: ranges are not inverted, and what means unset is not
there. -/
def Kind.Valid : (k : Kind) → k.Value → Prop
  | .header, r => r.Ordered
  | .chain, x => ∀ c ∈ x, c.Valid
  | .key, x => ∀ k ∈ x, k.toList.all (· == 0) = false
  | .padding, x => ∀ r ∈ x, r.isZero = false ∧ r.Ordered
  | .range, r => r.Ordered
  | .u16, _ | .bool, _ | .u32, _ => True

theorem Kind.read_valid [Hex] {k : Kind} {key value : Text} {x : k.Value}
    (h : (k.read key value).run = .ok (.ok x)) : k.Valid x := by
  cases k with
  | u16 | bool | u32 => trivial
  | header => exact HeaderRange.parse_ordered (Fallible.ofExcept_eq_ok.mp h)
  | range => exact U32Range.parse_ordered (Fallible.ofExcept_eq_ok.mp h)
  | chain =>
    obtain ⟨chain, hchain, h⟩ := Fallible.bind_eq_ok.mp h
    cases h
    rintro c ⟨⟩
    exact CpsChain.parse_valid hchain
  | key =>
    obtain ⟨k, -, rfl⟩ := map_eq_ok.mp (Fallible.ofExcept_eq_ok.mp h)
    intro k' hk
    split_ifs at hk with hzero
    · cases hk
    · cases hk
      simpa using hzero
  | padding =>
    obtain ⟨r, hr, rfl⟩ := map_eq_ok.mp (Fallible.ofExcept_eq_ok.mp h)
    intro r' hmem
    split_ifs at hmem with hzero
    · cases hmem
    · cases hmem
      exact ⟨by simpa using hzero, U32Range.parse_ordered hr⟩

/-- Every value of a configuration is one that a reader can return. -/
def Valid (c : Amnezia3Config) : Prop := ∀ f : Field, f.kind.Valid (c.get f)

theorem Valid.set (h : c.Valid) {f : Field} {x : f.Value} (hx : f.kind.Valid x) :
    (c.set f x).Valid := by
  intro g
  rw [get_set]
  by_cases hg : g = f
  · subst hg
    rw [Function.update_self]
    exact hx
  · rw [Function.update_of_ne hg]
    exact h g

theorem valid_default : default.Valid := by
  intro f
  cases f
  case h1 | h2 | h3 | h4 => exact HeaderRange.single_ordered _
  case rekeyAfterTime | rekeyTimeout | rejectAfterTime | keepaliveTimeout | maxHandshakeAttempts |
      persistentKeepaliveInterval => exact UInt32.le_refl 0
  case i1 | i2 | i3 | i4 | i5 | headerProtectionKey | contentPaddingAddition =>
    intro _ hmem
    cases hmem
  all_goals trivial

/-- What the parser returns passes as a set, and each of its values is one that a reader can
return. -/
theorem parse_valid [Hex] {input : Text} (h : (parse input).run = .ok (.ok c)) :
    c.validate = .ok () ∧ c.Valid := by
  rw [parse_eq] at h
  obtain ⟨st, hloop, h⟩ := Fallible.bind_eq_ok.mp h
  have hstep : ∀ st line st', st.Collecting ∧ st.toConfig.Valid →
      (parseLine st line).run = .ok (.ok st') → st'.Collecting ∧ st'.toConfig.Valid := by
    rintro st line st' ⟨hst, hvalid⟩ hline
    rcases parseLine_cases hline with rfl | ⟨f, value, x, hx, rfl⟩
    · exact ⟨hst, hvalid⟩
    · rw [ParseState.toConfig_write]
      exact ⟨hst.write f x, hvalid.set (Kind.read_valid hx)⟩
  obtain ⟨hst, hvalid⟩ :=
    Fallible.foldlM_inv (fun st => st.Collecting ∧ st.toConfig.Valid) hstep _ _ _
      ⟨ParseState.collecting_start, valid_default⟩ hloop
  by_cases hpass : st.toConfig.validate = .ok ()
  · rw [finish_of_valid hst hpass] at h
    cases h
    exact ⟨hpass, hvalid⟩
  · obtain ⟨err, hfinish⟩ := finish_of_invalid hst hpass
    rw [hfinish] at h
    cases h

/-! ## Values as text -/

/-- A value as text; one that means unset has none. -/
def Kind.display : (k : Kind) → k.Value → Text
  | .u16, n => decimal n.toNat
  | .header, r => r.display
  | .chain, x => (x.map CpsChain.display).getD []
  | .key, x => (x.map fun k => hexEncode k.toList).getD []
  | .padding, x => (x.map U32Range.display).getD []
  | .range, r => r.display
  | .bool, b => decimal b.toNat
  | .u32, n => decimal n.toNat

/-- There is a value to write. -/
def Kind.isSet : (k : Kind) → k.Value → Bool
  | .chain, x => x.isSome
  | .key, x => x.isSome
  | .padding, x => x.isSome
  | .u16, _ | .header, _ | .range, _ | .bool, _ | .u32, _ => true

/-- A value is written on one line. -/
theorem Kind.not_mem_display (k : Kind) (x : k.Value) : '\n' ∉ k.display x := by
  have hdecimal (n : Nat) : '\n' ∉ decimal n := (decimal_isWord n).not_mem (by decide)
  have hbounds (lo hi : UInt32) : '\n' ∉ displayBounds lo hi :=
    (displayBounds_isWord lo hi).not_mem (by decide)
  cases k with
  | u16 | bool | u32 => exact hdecimal _
  | header | range => exact hbounds _ _
  | chain =>
    cases x with
    | none => exact List.not_mem_nil
    | some chain => exact chain.not_mem_display
  | key =>
    cases x with
    | none => exact List.not_mem_nil
    | some k =>
      intro hmem
      exact absurd (hexEncode_solid hmem).1 (by decide)
  | padding =>
    cases x with
    | none => exact List.not_mem_nil
    | some r => exact hbounds _ _

theorem parseFieldBool_decimal (field : Text) (b : Bool) :
    parseFieldBool field (decimal b.toNat) = .ok b := by
  cases b <;> rfl

theorem parseHeaderProtectionKey_hexEncode [Hex] (k : Key) :
    parseHeaderProtectionKey (hexEncode k.toList) = .ok k := by
  simp only [parseHeaderProtectionKey, Hex.decode_hexEncode]
  rw [dif_pos k.toList_length]
  rfl

/-- A value that a reader can return is read back. -/
theorem Kind.read_display [Hex] {k : Kind} {x : k.Value} (hvalid : k.Valid x)
    (hset : k.isSet x = true) (key : Text) : k.read key (trim (k.display x)) = return x := by
  cases k with
  | u16 =>
    simp only [display, (decimal_isWord _).trim, read, parseFieldU16, parseU16_decimal]
    rfl
  | u32 =>
    simp only [display, (decimal_isWord _).trim, read, parseFieldU32, parseU32_decimal]
    rfl
  | bool =>
    simp only [display, (decimal_isWord _).trim, read, parseFieldBool_decimal]
    rfl
  | header =>
    have htrim : trim (HeaderRange.display x) = HeaderRange.display x :=
      (displayBounds_isWord _ _).trim
    simp only [display, htrim, read, HeaderRange.parse_display hvalid]
    rfl
  | range =>
    have htrim : trim (U32Range.display x) = U32Range.display x := (displayBounds_isWord _ _).trim
    simp only [display, htrim, read, U32Range.parse_display hvalid]
    rfl
  | chain =>
    obtain ⟨chain, rfl⟩ := Option.isSome_iff_exists.mp hset
    have hchain : chain.Valid := hvalid chain rfl
    simp only [display, Option.map_some, Option.getD_some, hchain.trim_display, read,
      CpsChain.parse_display hchain, pure_bind]
  | key =>
    obtain ⟨k, rfl⟩ := Option.isSome_iff_exists.mp hset
    have hk : k.toList.all (· == 0) = false := hvalid k rfl
    have hne : k.toList ≠ [] := by
      intro hnil
      rw [hnil] at hk
      cases hk
    simp only [display, Option.map_some, Option.getD_some, (hexEncode_isWord hne).trim, read,
      parseHeaderProtectionKey_hexEncode, Except.map, hk]
    rfl
  | padding =>
    obtain ⟨r, rfl⟩ := Option.isSome_iff_exists.mp hset
    obtain ⟨hzero, hordered⟩ := hvalid r rfl
    have htrim : trim r.display = r.display := (displayBounds_isWord _ _).trim
    simp only [display, Option.map_some, Option.getD_some, htrim, read,
      U32Range.parse_display hordered, Except.map, hzero]
    rfl

end Amnezia3Config
