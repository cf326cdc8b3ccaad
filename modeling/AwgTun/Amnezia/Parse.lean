import AwgTun.Amnezia.Cps
import AwgTun.Lib.TextWrite

/-!
# The aggregate configuration and its parser

`Amnezia3Config` collects the parameter groups; `validate` checks them as a set and
`parse` reads them from the newline-separated `key=value` form of the UAPI socket.

`Amnezia3Config.WellFormed` is what the rest of the tunnel relies on: the four
header ranges are ordered and pairwise disjoint, content padding is not inverted,
and with header protection every padding has room for the nonce.
`parse_wellFormed` shows that every configuration `parse` returns has it.
-/

open Text Control Bytes

/-- The I1-I5 chains. -/
structure InitPacketConfig where
  i1 : Option CpsChain := none
  i2 : Option CpsChain := none
  i3 : Option CpsChain := none
  i4 : Option CpsChain := none
  i5 : Option CpsChain := none
  deriving DecidableEq, Repr

namespace InitPacketConfig

/-- `InitPacketConfig::validate`: any subset of the chains is valid. -/
def validate (_ : InitPacketConfig) : Except ConfigError Unit := .ok ()

/-- `InitPacketConfig::active_chains`. -/
def activeChains (c : InitPacketConfig) : List CpsChain :=
  [c.i1, c.i2, c.i3, c.i4, c.i5].filterMap id

end InitPacketConfig

/-- The AmneziaWG configuration of a tunnel. -/
structure Amnezia3Config where
  junk : JunkConfig := .disabled
  paddings : PaddingConfig := {}
  headers : HeaderConfig := .wireguardCompatible
  initPackets : InitPacketConfig := {}
  headerProtectionKey : Option Key := none
  contentPaddingAddition : Option U32Range := none
  timingRanges : TimingRanges := {}
  randomTrailers : Bool := false
  disableCookies : Bool := false
  mtu : UInt32 := awg3DefaultMtu
  deriving DecidableEq

namespace Amnezia3Config

variable {c : Amnezia3Config} {st st' : ParseState}

/-- `Amnezia3Config::default`. -/
def default : Amnezia3Config := {}

/-- The loop of `validate` over S1-S4 when header protection is on. -/
def validatePaddings : List (PaddingKind × UInt16) → Except ConfigError Unit
  | [] => .ok ()
  | (field, value) :: rest =>
      if value < headerProtectionMinPadding then
        .error (.headerProtectionPaddingTooSmall field value headerProtectionMinPadding)
      else validatePaddings rest

/-- The content padding range, when there is one. -/
def validateContentPadding : Option U32Range → Except ConfigError Unit
  | some range => range.validate "content_padding_addition"
  | none => .ok ()

/-- `Amnezia3Config::validate`. -/
def validate (c : Amnezia3Config) : Except ConfigError Unit := do
  c.junk.validate
  c.paddings.validate
  c.initPackets.validate
  c.headers.validate
  validateContentPadding c.contentPaddingAddition
  c.timingRanges.validate
  if c.headerProtectionKey.isSome then
    validatePaddings [(.init, c.paddings.s1), (.response, c.paddings.s2), (.cookie, c.paddings.s3),
      (.transport, c.paddings.s4)]

/-- `Amnezia3Config::header_protection`. -/
def headerProtection (c : Amnezia3Config) : Option HeaderProtection :=
  c.headerProtectionKey.map HeaderProtection.mk

/-! ## Field parsers -/

/-- `parse_field_bool`. -/
def parseFieldBool (field value : Text) : Except ConfigError Bool :=
  if String.ofList value ∈ ["1", "t", "T", "true", "TRUE", "True", "on", "ON", "On"] then .ok true
  else if String.ofList value ∈ ["0", "f", "F", "false", "FALSE", "False", "off", "OFF", "Off"] then
    .ok false
  else .error (.invalidFieldValue field "expected a boolean (0/1, true/false, on/off)")

/-- `parse_field_u16`. -/
def parseFieldU16 (field value : Text) : Except ConfigError UInt16 :=
  (parseU16 value).mapError fun _ => .invalidFieldValue field "expected a decimal value in 0-65535"

/-- `parse_field_u32`. -/
def parseFieldU32 (field value : Text) : Except ConfigError UInt32 :=
  (parseU32 value).mapError fun _ => .invalidFieldValue field "expected a decimal value"

/-- `parse_header_protection_key`. -/
def parseHeaderProtectionKey [Hex] (value : Text) : Except ConfigError Key :=
  match Hex.decode value with
  | none =>
      .error (.invalidFieldValue "header_protection_key".toList "expected hex characters")
  | some bytes =>
      if h : bytes.length = 32 then .ok ⟨bytes, h⟩
      else
        .error (.invalidFieldValue "header_protection_key".toList
          "expected exactly 32 bytes (64 hex characters)")

/-- `Amnezia2Config::validate_field_name`. -/
def validateFieldName (field : Text) : Except ConfigError Unit :=
  if String.ofList (toAsciiLowercase field) ∈ ["jc", "jmin", "jmax", "s1", "s2", "s3", "s4",
      "h1", "h2", "h3", "h4", "i1", "i2", "i3", "i4", "i5"] then .ok ()
  else .error (.unsupportedLegacyField field)

/-! ## The line loop -/

/-- What `parse` carries from line to line.  The header ranges are collected apart:
they are checked as a set at the end. -/
structure ParseState where
  config : Amnezia3Config
  headers : HeaderConfig
  sawHeader : Bool

/-- One `key=value` line. -/
def setField [Hex] (st : ParseState) (key value : Text) : Fallible ConfigError ParseState :=
  let c := st.config
  let junk (j : JunkConfig) : ParseState := { st with config := { c with junk := j } }
  let paddings (p : PaddingConfig) : ParseState := { st with config := { c with paddings := p } }
  let headers (h : HeaderConfig) : ParseState := { st with headers := h, sawHeader := true }
  let initPackets (i : InitPacketConfig) : ParseState :=
    { st with config := { c with initPackets := i } }
  let timing (t : TimingRanges) : ParseState := { st with config := { c with timingRanges := t } }
  let u16 (set : UInt16 → ParseState) : Fallible ConfigError ParseState :=
    Fallible.ofExcept ((parseFieldU16 key value).map set)
  let header (set : HeaderRange → ParseState) : Fallible ConfigError ParseState :=
    Fallible.ofExcept ((HeaderRange.parse value).map set)
  let chain (set : CpsChain → ParseState) : Fallible ConfigError ParseState := do
    let chain ← CpsChain.parse value
    return set chain
  let range (set : U32Range → ParseState) : Fallible ConfigError ParseState :=
    Fallible.ofExcept ((U32Range.parse value).map set)
  match String.ofList key with
  | "jc" => u16 fun v => junk { c.junk with count := v }
  | "jmin" => u16 fun v => junk { c.junk with minSize := v }
  | "jmax" => u16 fun v => junk { c.junk with maxSize := v }
  | "s1" => u16 fun v => paddings { c.paddings with s1 := v }
  | "s2" => u16 fun v => paddings { c.paddings with s2 := v }
  | "s3" => u16 fun v => paddings { c.paddings with s3 := v }
  | "s4" => u16 fun v => paddings { c.paddings with s4 := v }
  | "h1" => header fun r => headers { st.headers with init := r }
  | "h2" => header fun r => headers { st.headers with response := r }
  | "h3" => header fun r => headers { st.headers with cookie := r }
  | "h4" => header fun r => headers { st.headers with transport := r }
  | "i1" => chain fun i => initPackets { c.initPackets with i1 := some i }
  | "i2" => chain fun i => initPackets { c.initPackets with i2 := some i }
  | "i3" => chain fun i => initPackets { c.initPackets with i3 := some i }
  | "i4" => chain fun i => initPackets { c.initPackets with i4 := some i }
  | "i5" => chain fun i => initPackets { c.initPackets with i5 := some i }
  | "header_protection_key" =>
      Fallible.ofExcept ((parseHeaderProtectionKey value).map fun k =>
        { st with config := { c with
            headerProtectionKey := if k.toList.all (· == 0) then none else some k } })
  | "content_padding_addition" => range fun r =>
      { st with config := { c with contentPaddingAddition := if r.isZero then none else some r } }
  | "rekey_after_time" => range fun r => timing { c.timingRanges with rekeyAfterTime := r }
  | "rekey_timeout" => range fun r => timing { c.timingRanges with rekeyTimeout := r }
  | "reject_after_time" => range fun r => timing { c.timingRanges with rejectAfterTime := r }
  | "keepalive_timeout" => range fun r => timing { c.timingRanges with keepaliveTimeout := r }
  | "max_handshake_attempts" =>
      range fun r => timing { c.timingRanges with maxHandshakeAttempts := r }
  | "persistent_keepalive_interval" =>
      range fun r => timing { c.timingRanges with persistentKeepalive := r }
  | "random_trailers" =>
      Fallible.ofExcept ((parseFieldBool key value).map fun b =>
        { st with config := { c with randomTrailers := b } })
  | "disable_cookies" =>
      Fallible.ofExcept ((parseFieldBool key value).map fun b =>
        { st with config := { c with disableCookies := b } })
  | "mtu" =>
      Fallible.ofExcept ((parseFieldU32 key value).map fun v =>
        { st with config := { c with mtu := v } })
  | _ => Fallible.ofExcept do
      validateFieldName key
      throw (.unsupportedLegacyField key)

/-- One line of the input. -/
def parseLine [Hex] (st : ParseState) (rawLine : Text) : Fallible ConfigError ParseState :=
  let line := trim rawLine
  if line = [] ∨ line.head? = some '#' then return st
  else
    match splitOnce '=' line with
    | none => throw (.invalidConfigLine line "expected `key=value`")
    | some (key, value) => setField st (toAsciiLowercase (trim key)) (trim value)

/-- Put the collected header ranges into the configuration, if any was given. -/
def installHeaders (st : ParseState) : Except ConfigError Amnezia3Config :=
  if st.sawHeader then
    (HeaderConfig.new st.headers.init st.headers.response st.headers.cookie
      st.headers.transport).map fun headers => { st.config with headers := headers }
  else .ok st.config

/-- `Amnezia3Config::parse`. -/
def parse [Hex] (input : Text) : Fallible ConfigError Amnezia3Config := do
  let start : ParseState := ⟨default, .wireguardCompatible, false⟩
  let st ← (lines input).foldlM parseLine start
  let config ← Fallible.ofExcept (installHeaders st)
  Fallible.ofExcept config.validate
  return config

/-! ## What the parser guarantees -/

/-- Every S1-S4 prefix has room for the header protection nonce. -/
structure NonceFits (p : PaddingConfig) : Prop where
  s1 : 12 ≤ p.s1.toNat
  s2 : 12 ≤ p.s2.toNat
  s3 : 12 ≤ p.s3.toNat
  s4 : 12 ≤ p.s4.toNat

/-- What the tunnel relies on. -/
structure WellFormed (c : Amnezia3Config) : Prop where
  disjoint : c.headers.Disjoint
  ordered : c.headers.Ordered
  nonceFits : c.headerProtectionKey.isSome → NonceFits c.paddings

theorem validatePaddings_eq_ok {entries : List (PaddingKind × UInt16)}
    (h : validatePaddings entries = .ok ()) : ∀ p ∈ entries, 12 ≤ p.2.toNat := by
  induction entries with
  | nil => simp
  | cons p entries ih =>
    rw [validatePaddings] at h
    split_ifs at h with hlt
    have hp : 12 ≤ p.2.toNat := UInt16.le_iff_toNat_le.mp (UInt16.not_lt.mp hlt)
    simpa [hp] using ih h

/-- The checks of `validate`, one by one. -/
structure Checked (c : Amnezia3Config) : Prop where
  junk : c.junk.validate = .ok ()
  paddings : c.paddings.validate = .ok ()
  initPackets : c.initPackets.validate = .ok ()
  headers : c.headers.validate = .ok ()
  contentPadding : validateContentPadding c.contentPaddingAddition = .ok ()
  timingRanges : c.timingRanges.validate = .ok ()
  nonces : c.headerProtectionKey.isSome →
    validatePaddings [(.init, c.paddings.s1), (.response, c.paddings.s2), (.cookie, c.paddings.s3),
      (.transport, c.paddings.s4)] = .ok ()

theorem validate_eq_ok_iff : c.validate = .ok () ↔ c.Checked := by
  simp only [validate, check_bind_eq_ok]
  constructor
  · rintro ⟨hjunk, hpaddings, hinit, hheaders, hcontent, htiming, h⟩
    refine ⟨hjunk, hpaddings, hinit, hheaders, hcontent, htiming, fun hsome => ?_⟩
    rwa [if_pos hsome] at h
  · intro h
    refine ⟨h.junk, h.paddings, h.initPackets, h.headers, h.contentPadding, h.timingRanges, ?_⟩
    split_ifs with hsome
    · exact h.nonces hsome
    · rfl

theorem validate_eq_ok (h : c.validate = .ok ()) :
    c.headers.Disjoint ∧ (c.headerProtectionKey.isSome → NonceFits c.paddings) := by
  have hchecked := validate_eq_ok_iff.mp h
  refine ⟨HeaderConfig.validate_eq_ok_iff.mp hchecked.headers, fun hsome => ?_⟩
  have hall := validatePaddings_eq_ok (hchecked.nonces hsome)
  exact ⟨hall (.init, _) (by simp), hall (.response, _) (by simp), hall (.cookie, _) (by simp),
    hall (.transport, _) (by simp)⟩

/-- While lines are read, the collected ranges stay ordered and the configuration
keeps its default ranges. -/
structure ParseState.Inv (st : ParseState) : Prop where
  ordered : st.headers.Ordered
  defaultHeaders : st.config.headers = .wireguardCompatible

theorem setField_inv [Hex] {key value : Text} (hst : st.Inv)
    (h : (setField st key value).run = .ok (.ok st')) : st'.Inv := by
  unfold setField at h
  simp only at h
  split at h
  -- H1-H4: the new range comes out of the range parser
  case h_8 | h_9 | h_10 | h_11 =>
    obtain ⟨r, hr, rfl⟩ := map_eq_ok.mp (Fallible.ofExcept_eq_ok.mp h)
    have hr' := HeaderRange.parse_ordered hr
    obtain ⟨⟨hi, hp, hc, ht⟩, hd⟩ := hst
    exact ⟨by constructor <;> assumption, hd⟩
  case h_12 | h_13 | h_14 | h_15 | h_16 =>
    obtain ⟨i, -, hi⟩ := Fallible.bind_eq_ok.mp h
    cases hi
    exact ⟨hst.ordered, hst.defaultHeaders⟩
  case h_28 =>
    obtain ⟨-, -, hthrow⟩ := bind_eq_ok.mp (Fallible.ofExcept_eq_ok.mp h)
    cases hthrow
  all_goals
    obtain ⟨v, -, rfl⟩ := map_eq_ok.mp (Fallible.ofExcept_eq_ok.mp h)
    exact ⟨hst.ordered, hst.defaultHeaders⟩

theorem parseLine_inv [Hex] {line : Text} (hst : st.Inv)
    (h : (parseLine st line).run = .ok (.ok st')) : st'.Inv := by
  unfold parseLine at h
  simp only at h
  split_ifs at h with hblank
  · cases h
    exact hst
  · split at h
    · cases h
    · exact setField_inv hst h

theorem installHeaders_ordered {st : ParseState} (hst : st.Inv) (h : installHeaders st = .ok c) :
    c.headers.Ordered := by
  unfold installHeaders at h
  split_ifs at h with hsaw
  · obtain ⟨headers, hnew, rfl⟩ := map_eq_ok.mp h
    obtain ⟨-, -, hheaders⟩ := bind_eq_ok.mp hnew
    cases hheaders
    exact hst.ordered
  · cases h
    rw [hst.defaultHeaders]
    exact HeaderConfig.wireguardCompatible_ordered

/-- **The parser returns well-formed configurations only.** -/
theorem parse_wellFormed [Hex] {input : Text} (h : (parse input).run = .ok (.ok c)) :
    c.WellFormed := by
  obtain ⟨st, hloop, h⟩ := Fallible.bind_eq_ok.mp h
  obtain ⟨c', hinstall, h⟩ := Fallible.bind_eq_ok.mp h
  obtain ⟨⟨⟩, hvalid, h⟩ := Fallible.bind_eq_ok.mp h
  cases h
  have hstart : ParseState.Inv ⟨default, .wireguardCompatible, false⟩ :=
    ⟨HeaderConfig.wireguardCompatible_ordered, rfl⟩
  have hst : st.Inv :=
    Fallible.foldlM_inv ParseState.Inv (fun _ _ _ => parseLine_inv) _ _ _ hstart hloop
  obtain ⟨hdisjoint, hnonce⟩ := validate_eq_ok (Fallible.ofExcept_eq_ok.mp hvalid)
  exact ⟨hdisjoint, installHeaders_ordered hst (Fallible.ofExcept_eq_ok.mp hinstall), hnonce⟩

end Amnezia3Config
