import AwgTun.Lib.Control
import AwgTun.Lib.Text
import AwgTun.Amnezia.Random

/-!
# AmneziaWG parameters

The parameter groups of `amnezia.rs` other than the init-packet chains: header
ranges H1-H4, paddings S1-S4, junk packets, the inclusive `u32` ranges of content
padding and timing, and header protection.

* `HeaderConfig.validate_eq_ok_iff` — validation accepts exactly the pairwise
  disjoint ranges.
* `HeaderRange.parse_ordered`, `HeaderRange.generate_contains` — a parsed range is
  not inverted, and a value drawn from such a range is one the range contains.
* `HeaderProtection.apply_apply` — masking a message twice gives it back.
-/

open Text Control Bytes

/-! ## Errors -/

/-- The message kinds, named by their header range in error texts. -/
inductive HeaderKind
  | init
  | response
  | cookie
  | transport
  deriving DecidableEq, Repr

/-- The message kinds, named by their padding in error texts. -/
inductive PaddingKind
  | init
  | response
  | cookie
  | transport
  deriving DecidableEq, Repr

/-- Why a configuration was refused. -/
inductive ConfigError
  | invalidHeaderRange (value : Text) (reason : String)
  | headerRangesOverlap (first second : HeaderKind)
  | junkMinExceedsMax (min max : UInt16)
  | invalidCps (reason : Text)
  | unsupportedCpsTag (tag : Text)
  | cpsValueOutOfRange (tag : String) (value max : Nat)
  | unsupportedLegacyField (field : Text)
  | invalidRange (value : Text) (reason : String)
  | invalidConfigLine (line : Text) (reason : String)
  | invalidFieldValue (field : Text) (reason : String)
  | headerProtectionPaddingTooSmall (field : PaddingKind) (value min : UInt16)
  deriving DecidableEq, Repr

/-! ## Parsing `a` and `a-b` -/

/-- What both range parsers do with a trimmed text: one bound, or two separated by
`-`.  They differ in the errors they report. -/
def parseBounds (fail : Text → String → ConfigError)
    (parsePart : Text → Option Text → Except ConfigError UInt32) (input : Text) :
    Except ConfigError (UInt32 × UInt32) := do
  if input = [] then throw (fail input "empty value")
  let parts := splitChar '-' input
  let start ← parsePart input parts[0]?
  let stop ← match parts[1]? with
    | some part => parsePart input (some part)
    | none => pure start
  if parts[2]?.isSome then throw (fail input "expected `value` or `start-end`")
  return (start, stop)

/-- `format!("{}-{}", start, end)`. -/
def boundsText (start stop : UInt32) : Text := decimal start.toNat ++ '-' :: decimal stop.toNat

/-! ## Header ranges -/

/-- An inclusive range of message types. -/
structure HeaderRange where
  start : UInt32
  stop : UInt32
  deriving DecidableEq, Repr

namespace HeaderRange

variable {r : HeaderRange} {v : UInt32}

/-- `HeaderRange::single`. -/
def single (value : UInt32) : HeaderRange := ⟨value, value⟩

/-- `HeaderRange::new`. -/
def new (start stop : UInt32) : Except ConfigError HeaderRange :=
  if stop < start then
    .error (.invalidHeaderRange (boundsText start stop) "range end is smaller than start")
  else .ok ⟨start, stop⟩

/-- `header_parse_error`. -/
def headerParseError (input : Text) (err : IntErrorKind) : ConfigError :=
  .invalidHeaderRange input <|
    match err with
    | .posOverflow => "value exceeds u32"
    | .invalidDigit => "expected decimal digits"
    | .empty => "empty range bound"

/-- `parse_u32_part`. -/
def parseU32Part (input : Text) (part : Option Text) : Except ConfigError UInt32 :=
  let part := trim (part.getD [])
  if part = [] then .error (.invalidHeaderRange input "empty range bound")
  else (parseU32 part).mapError (headerParseError input)

/-- `HeaderRange::parse`. -/
def parse (input : Text) : Except ConfigError HeaderRange := do
  let input := trim input
  let (start, stop) ← parseBounds .invalidHeaderRange parseU32Part input
  (new start stop).mapError fun _ =>
    .invalidHeaderRange input "range end is smaller than start"

/-- `HeaderRange::contains`. -/
def contains (r : HeaderRange) (value : UInt32) : Bool :=
  decide (r.start ≤ value) && decide (value ≤ r.stop)

/-- `HeaderRange::overlaps`. -/
def overlaps (r other : HeaderRange) : Bool :=
  decide (r.start ≤ other.stop) && decide (other.start ≤ r.stop)

/-- `HeaderRange::generate`. -/
def generate {ρ : Type} [RandomSource ρ] (r : HeaderRange) (rng : ρ) : UInt32 × ρ :=
  genRangeU32 rng r.start r.stop

/-- A range that is not inverted. -/
def Ordered (r : HeaderRange) : Prop := r.start ≤ r.stop

theorem contains_iff :
    r.contains v = true ↔ r.start ≤ v ∧ v ≤ r.stop := by
  simp [contains]

theorem new_ordered {start stop : UInt32} (h : new start stop = .ok r) :
    r.Ordered := by
  unfold new at h
  split_ifs at h with hlt
  cases h
  exact UInt32.not_lt.mp hlt

theorem single_ordered (v : UInt32) : (single v).Ordered := UInt32.le_refl v

/-- What a parsed range accepts is what it would draw: it is never inverted. -/
theorem parse_ordered {input : Text} (h : parse input = .ok r) : r.Ordered := by
  obtain ⟨bounds, -, hnew⟩ := bind_eq_ok.mp h
  exact new_ordered (mapError_eq_ok.mp hnew)

/-- A value drawn from a range that is not inverted lies in it. -/
theorem generate_contains {ρ : Type} [RandomSource ρ] {r : HeaderRange} (h : r.Ordered) (rng : ρ) :
    r.contains (r.generate rng).1 = true :=
  contains_iff.mpr (genRangeU32_mem rng h)

/-- Two ranges with a value in common overlap. -/
theorem overlaps_of_contains {r other : HeaderRange} (h : r.contains v = true)
    (h' : other.contains v = true) : r.overlaps other = true := by
  rw [contains_iff] at h h'
  simp only [overlaps, Bool.and_eq_true, decide_eq_true_eq]
  exact ⟨UInt32.le_trans h.1 h'.2, UInt32.le_trans h'.1 h.2⟩

end HeaderRange

/-! ## The four header ranges -/

/-- The pairs of a list in the order of the loops `for left .. { for right in left + 1 .. }`. -/
def orderedPairs {α : Type} : List α → List (α × α)
  | [] => []
  | x :: xs => xs.map (fun y => (x, y)) ++ orderedPairs xs

/-- H1-H4. -/
structure HeaderConfig where
  init : HeaderRange
  response : HeaderRange
  cookie : HeaderRange
  transport : HeaderRange
  deriving DecidableEq, Repr

namespace HeaderConfig

variable {c : HeaderConfig}

/-- `HeaderConfig::wireguard_compatible`: the standard message types. -/
def wireguardCompatible : HeaderConfig where
  init := .single 1
  response := .single 2
  cookie := .single 3
  transport := .single 4

/-- `HeaderConfig::entries`. -/
def entries (c : HeaderConfig) : List (HeaderKind × HeaderRange) :=
  [(.init, c.init), (.response, c.response), (.cookie, c.cookie), (.transport, c.transport)]

/-- `HeaderConfig::validate_no_overlap`. -/
def validateNoOverlap (c : HeaderConfig) : Except ConfigError Unit :=
  match (orderedPairs c.entries).find? fun p => p.1.2.overlaps p.2.2 with
  | some (left, right) => .error (.headerRangesOverlap left.1 right.1)
  | none => .ok ()

/-- `HeaderConfig::validate`. -/
def validate (c : HeaderConfig) : Except ConfigError Unit := c.validateNoOverlap

/-- `HeaderConfig::new`. -/
def new (init response cookie transport : HeaderRange) : Except ConfigError HeaderConfig := do
  let config : HeaderConfig := { init, response, cookie, transport }
  config.validateNoOverlap
  return config

/-- No two of the four ranges have a message type in common. -/
structure Disjoint (c : HeaderConfig) : Prop where
  initResponse : c.init.overlaps c.response = false
  initCookie : c.init.overlaps c.cookie = false
  initTransport : c.init.overlaps c.transport = false
  responseCookie : c.response.overlaps c.cookie = false
  responseTransport : c.response.overlaps c.transport = false
  cookieTransport : c.cookie.overlaps c.transport = false

/-- None of the four ranges is inverted. -/
structure Ordered (c : HeaderConfig) : Prop where
  init : c.init.Ordered
  response : c.response.Ordered
  cookie : c.cookie.Ordered
  transport : c.transport.Ordered

/-- Validation accepts exactly the pairwise disjoint ranges. -/
theorem validate_eq_ok_iff : c.validate = .ok () ↔ c.Disjoint := by
  have hfind : c.validate = .ok () ↔
      (orderedPairs c.entries).find? (fun p => p.1.2.overlaps p.2.2) = none := by
    unfold validate validateNoOverlap
    cases (orderedPairs c.entries).find? (fun p => p.1.2.overlaps p.2.2) <;> simp
  rw [hfind, List.find?_eq_none]
  simp only [orderedPairs, entries, List.map_cons, List.map_nil, List.cons_append,
    List.nil_append, List.forall_mem_cons, List.not_mem_nil, false_imp_iff, implies_true,
    and_true, Bool.not_eq_true]
  constructor
  · rintro ⟨h12, h13, h14, h23, h24, h34⟩
    exact ⟨h12, h13, h14, h23, h24, h34⟩
  · rintro ⟨h12, h13, h14, h23, h24, h34⟩
    exact ⟨h12, h13, h14, h23, h24, h34⟩

/-- A transport type is no other type. -/
theorem Disjoint.of_transport (h : c.Disjoint) {v : UInt32} (hv : c.transport.contains v = true) :
    c.init.contains v = false ∧ c.response.contains v = false ∧ c.cookie.contains v = false := by
  have none_of {r : HeaderRange} (hr : r.overlaps c.transport = false) : r.contains v = false :=
    Bool.eq_false_iff.mpr fun hc =>
      Bool.eq_false_iff.mp hr (HeaderRange.overlaps_of_contains hc hv)
  exact ⟨none_of h.initTransport, none_of h.responseTransport, none_of h.cookieTransport⟩

theorem wireguardCompatible_ordered : wireguardCompatible.Ordered where
  init := HeaderRange.single_ordered 1
  response := HeaderRange.single_ordered 2
  cookie := HeaderRange.single_ordered 3
  transport := HeaderRange.single_ordered 4

end HeaderConfig

/-! ## Paddings and junk packets -/

/-- S1-S4. -/
structure PaddingConfig where
  s1 : UInt16 := 0
  s2 : UInt16 := 0
  s3 : UInt16 := 0
  s4 : UInt16 := 0
  deriving DecidableEq, Repr

/-- `PaddingConfig::validate`: there is no upper bound. -/
def PaddingConfig.validate (_ : PaddingConfig) : Except ConfigError Unit := .ok ()

/-- Jc, Jmin and Jmax. -/
structure JunkConfig where
  count : UInt16
  minSize : UInt16
  maxSize : UInt16
  deriving DecidableEq, Repr

namespace JunkConfig

/-- `JunkConfig::disabled`. -/
def disabled : JunkConfig := ⟨0, 0, 0⟩

/-- `JunkConfig::validate`. -/
def validate (c : JunkConfig) : Except ConfigError Unit :=
  if c.count = 0 then .ok ()
  else if c.minSize > c.maxSize then .error (.junkMinExceedsMax c.minSize c.maxSize)
  else .ok ()

variable {ρ : Type} [RandomSource ρ]

/-- One round of the junk loop: a size, then that many random bytes. -/
def generateJunkPacket (c : JunkConfig) (rng : ρ) : Bytes × ρ :=
  let (size, rng) :=
    if c.maxSize ≤ c.minSize then (c.minSize, rng)
    -- half-open, as the reference draws it
    else genRangeU16 rng c.minSize (c.maxSize - 1)
  let (buf, rng) := RandomSource.fillBytes rng size.toNat
  (buf.toList, rng)

/-- `for _ in 0..n`. -/
def junkLoop (c : JunkConfig) : Nat → ρ → List Bytes × ρ
  | 0, rng => ([], rng)
  | n + 1, rng =>
      let (packet, rng) := c.generateJunkPacket rng
      let (packets, rng) := c.junkLoop n rng
      (packet :: packets, rng)

/-- `JunkConfig::generate_junk_packets`. -/
def generateJunkPackets (c : JunkConfig) (rng : ρ) : List Bytes × ρ :=
  if c.count = 0 then ([], rng) else c.junkLoop c.count.toNat rng

end JunkConfig

/-! ## Ranges of content padding and timing -/

/-- An inclusive `u32` range; the zero range means unset. -/
structure U32Range where
  lo : UInt32 := 0
  hi : UInt32 := 0
  deriving DecidableEq, Repr

namespace U32Range

/-- `U32Range::single`. -/
def single (value : UInt32) : U32Range := ⟨value, value⟩

/-- `U32Range::new`. -/
def new (lo hi : UInt32) : Except ConfigError U32Range :=
  if hi < lo then .error (.invalidRange (boundsText lo hi) "range end is smaller than start")
  else .ok ⟨lo, hi⟩

/-- `parse_range_part`. -/
def parseRangePart (input : Text) (part : Option Text) : Except ConfigError UInt32 :=
  let part := trim (part.getD [])
  if part = [] then .error (.invalidRange input "empty range bound")
  else (parseU32 part).mapError fun _ => .invalidRange input "expected decimal digits"

/-- `U32Range::parse`. -/
def parse (input : Text) : Except ConfigError U32Range := do
  let (lo, hi) ← parseBounds .invalidRange parseRangePart (trim input)
  new lo hi

/-- `U32Range::is_zero`. -/
def isZero (r : U32Range) : Bool := r.lo == 0 && r.hi == 0

/-- `U32Range::validate`. -/
def validate (r : U32Range) (field : String) : Except ConfigError Unit :=
  if r.hi < r.lo then
    .error (.invalidRange (field.toList ++ '=' :: boundsText r.lo r.hi)
      "range end is smaller than start")
  else .ok ()

variable {ρ : Type} [RandomSource ρ]

/-- `U32Range::generate`. -/
def generate (r : U32Range) (rng : ρ) : UInt32 × ρ := genRangeU32 rng r.lo r.hi

/-- `U32Range::pick_or`. -/
def pickOr (r : U32Range) (rng : ρ) (default : UInt32) : UInt32 × ρ :=
  if r.isZero then (default, rng) else r.generate rng

/-- `U32Range::lo_or`. -/
def loOr (r : U32Range) (default : UInt32) : UInt32 := if r.isZero then default else r.lo

/-- `U32Range::hi_or`. -/
def hiOr (r : U32Range) (default : UInt32) : UInt32 := if r.isZero then default else r.hi

end U32Range

/-- The randomized timing parameters. -/
structure TimingRanges where
  rekeyAfterTime : U32Range := {}
  rekeyTimeout : U32Range := {}
  rejectAfterTime : U32Range := {}
  keepaliveTimeout : U32Range := {}
  maxHandshakeAttempts : U32Range := {}
  persistentKeepalive : U32Range := {}
  deriving DecidableEq, Repr

/-- `TimingRanges::validate`. -/
def TimingRanges.validate (t : TimingRanges) : Except ConfigError Unit := do
  t.rekeyAfterTime.validate "rekey_after_time"
  t.rekeyTimeout.validate "rekey_timeout"
  t.rejectAfterTime.validate "reject_after_time"
  t.keepaliveTimeout.validate "keepalive_timeout"
  t.maxHandshakeAttempts.validate "max_handshake_attempts"
  t.persistentKeepalive.validate "persistent_keepalive"

/-- Another range of keepalive intervals is checked by itself. -/
theorem TimingRanges.validate_keepalive {t : TimingRanges} (h : t.validate = .ok ())
    (range : U32Range) :
    { t with persistentKeepalive := range }.validate = .ok () ↔
      range.validate "persistent_keepalive" = .ok () := by
  simp only [validate, check_bind_eq_ok] at h ⊢
  obtain ⟨h₁, h₂, h₃, h₄, h₅, -⟩ := h
  exact ⟨fun hall => hall.2.2.2.2.2, fun hrange => ⟨h₁, h₂, h₃, h₄, h₅, hrange⟩⟩

/-! ## Random trailers -/

/-- `AWG3_DEFAULT_MTU`. -/
def awg3DefaultMtu : UInt32 := 1420

/-- `AWG31_DEFAULT_UDP_WINDOW`. -/
def awg31DefaultUdpWindow : UInt32 := 500

/-- `random_trailer_len`: a draw from what the window leaves beyond the packet. -/
def randomTrailerLen {ρ : Type} [RandomSource ρ] (packetSize : Nat) (udpWindow : UInt32) (rng : ρ) :
    Nat × ρ :=
  if packetSize < udpWindow.toNat then
    let space := udpWindow.toNat - packetSize
    let (draw, rng) := genRangeU32 rng 0 (UInt32.ofNat space - 1)
    (draw.toNat, rng)
  else (0, rng)

/-! ## Header protection -/

/-- `HEADER_PROTECTION_MIN_PADDING`: the nonce is the first 12 bytes of the prefix. -/
def headerProtectionMinPadding : UInt16 := 12

/-- `HEADER_PROTECTION_NONCE_SIZE`. -/
def headerProtectionNonceSize : Nat := 12

/-- The header protection key. -/
structure HeaderProtection where
  key : Key
  deriving DecidableEq

namespace HeaderProtection

variable (C : Crypto) (hp : HeaderProtection) {before : Bytes} {nonce : Nonce}

/-- The nonce in front of a prefix, if the prefix is long enough to hold one. -/
def nonceOf (before : Bytes) : Option Nonce :=
  if h : headerProtectionNonceSize ≤ before.length then
    some ⟨before.take headerProtectionNonceSize, List.length_take_of_le h⟩
  else none

/-- `HeaderProtection::apply`: XOR with the keystream; a prefix shorter than the
nonce panics. -/
def apply (before message : Bytes) : Outcome Bytes :=
  match nonceOf before with
  | some nonce => .ok (xorBytes message (C.keystream hp.key nonce message.length))
  | none => .panic "range end index 12 out of range for slice"

/-- `HeaderProtection::keystream`. -/
def keystream (n : Nat) (before : Bytes) : Outcome Bytes :=
  hp.apply C before (List.replicate n 0)

theorem nonceOf_eq_some (h : 12 ≤ before.length) :
    ∃ nonce, nonceOf before = some nonce := by
  exact ⟨⟨before.take 12, List.length_take_of_le h⟩, dif_pos h⟩

/-- The nonce does not depend on what follows the first 12 bytes. -/
theorem nonceOf_append (h : 12 ≤ before.length) (after : Bytes) :
    nonceOf (before ++ after) = nonceOf before := by
  have hlen : headerProtectionNonceSize ≤ (before ++ after).length := by
    simp only [headerProtectionNonceSize, List.length_append]
    omega
  simp only [nonceOf]
  rw [dif_pos hlen, dif_pos (show headerProtectionNonceSize ≤ before.length from h)]
  congr 2
  exact List.take_append_of_le_length h

theorem apply_eq_ok (h : nonceOf before = some nonce) (message : Bytes) :
    hp.apply C before message =
      .ok (xorBytes message (C.keystream hp.key nonce message.length)) := by
  rw [apply, h]

theorem keystream_eq_ok (h : nonceOf before = some nonce) (n : Nat) :
    hp.keystream C n before = .ok (C.keystream hp.key nonce n) := by
  have hzeros := xorBytes_zeros (C.keystream hp.key nonce n)
  rw [Crypto.length_keystream] at hzeros
  rw [keystream, apply_eq_ok C hp h, List.length_replicate, hzeros]

/-- Masking a message twice under one prefix gives it back. -/
theorem apply_apply {before message masked : Bytes} (h : hp.apply C before message = .ok masked) :
    hp.apply C before masked = .ok message := by
  cases hn : nonceOf before with
  | none => simp [apply, hn] at h
  | some nonce =>
    rw [apply_eq_ok C hp hn, Except.ok.injEq] at h
    subst h
    rw [apply_eq_ok C hp hn, length_xorBytes, xorBytes_xorBytes]

end HeaderProtection
