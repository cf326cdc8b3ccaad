import AwgTun.Noise.Plain

/-!
# Message types

Each kind of message has a range of types, H1-H4.  A sender draws the type of a message from the
range of its kind and a receiver looks for the range it is in, so the ranges must not overlap, and
`HeaderConfig::validate` sees to that.  It does not see to it that a range has its bounds in order:
`HeaderRange::new` and the text parser do, but the fields are public, and the C interface fills
them as it gets them.  An inverted range overlaps little and contains nothing; a draw from it is
its start.

* `Ffi.amnezia2FromC` — a configuration from the C structure.
* `HeaderConfig.unambiguous_iff` — a validated configuration has unambiguous types exactly if no
  range is inverted.
* `Ffi.inverted_range_accepted` — the C interface takes one that is.
-/

open Control Bytes

/-! ## Types on the wire -/

namespace HeaderConfig

variable {c : HeaderConfig}

/-- The range of a kind. -/
def range (c : HeaderConfig) : HeaderKind → HeaderRange
  | .init => c.init
  | .response => c.response
  | .cookie => c.cookie
  | .transport => c.transport

/-- Whatever type is drawn for a message, the range of its kind contains it and no other does. -/
def Unambiguous (c : HeaderConfig) : Prop :=
  ∀ (kind : HeaderKind) (ρ : Type) [RandomSource ρ] (rng : ρ),
    (c.range kind).contains ((c.range kind).generate rng).1 = true ∧
      ∀ other, other ≠ kind → (c.range other).contains ((c.range kind).generate rng).1 = false

theorem ordered_iff : c.Ordered ↔ ∀ kind, (c.range kind).Ordered := by
  constructor
  · intro h kind
    cases kind with
    | init => exact h.init
    | response => exact h.response
    | cookie => exact h.cookie
    | transport => exact h.transport
  · intro h
    exact ⟨h .init, h .response, h .cookie, h .transport⟩

end HeaderConfig

theorem HeaderRange.overlaps_comm (r other : HeaderRange) : r.overlaps other = other.overlaps r :=
  Bool.and_comm _ _

/-- Two kinds of a validated configuration have no type in common. -/
theorem HeaderConfig.Disjoint.range {c : HeaderConfig} (h : c.Disjoint) {kind other : HeaderKind}
    (hne : other ≠ kind) : (c.range other).overlaps (c.range kind) = false := by
  have hsymm {r r' : HeaderRange} (hr : r.overlaps r' = false) : r'.overlaps r = false :=
    (HeaderRange.overlaps_comm r' r).trans hr
  cases kind <;> cases other <;>
    first
    | exact absurd rfl hne
    | exact h.initResponse
    | exact h.initCookie
    | exact h.initTransport
    | exact h.responseCookie
    | exact h.responseTransport
    | exact h.cookieTransport
    | exact hsymm h.initResponse
    | exact hsymm h.initCookie
    | exact hsymm h.initTransport
    | exact hsymm h.responseCookie
    | exact hsymm h.responseTransport
    | exact hsymm h.cookieTransport

/-- A draw from an inverted range is its start, which it does not contain. -/
theorem HeaderRange.generate_of_inverted {ρ : Type} [RandomSource ρ] {r : HeaderRange}
    (h : ¬ r.Ordered) (rng : ρ) : r.contains (r.generate rng).1 = false := by
  have hlt : r.stop < r.start := UInt32.not_le.mp h
  have hdraw : (r.generate rng).1 = r.start := by
    rw [generate, genRangeU32, if_pos (UInt32.le_of_lt hlt)]
  rw [hdraw, Bool.eq_false_iff]
  intro hcontains
  exact h (contains_iff.mp hcontains).2

/-- **Message types are unambiguous** in a validated configuration exactly if none of its ranges
is inverted. -/
theorem HeaderConfig.unambiguous_iff {c : HeaderConfig} (hvalid : c.validate = .ok ()) :
    c.Unambiguous ↔ c.Ordered := by
  rw [ordered_iff]
  constructor
  · intro h kind
    by_contra hinverted
    have hno := HeaderRange.generate_of_inverted hinverted ({} : StillMachine)
    have hyes := (h kind StillMachine {}).1
    rw [hno] at hyes
    cases hyes
  · intro hordered kind ρ _ rng
    have hown := HeaderRange.generate_contains (hordered kind) rng
    refine ⟨hown, ?_⟩
    intro other hne
    rw [Bool.eq_false_iff]
    intro hother
    have hoverlap := HeaderRange.overlaps_of_contains hother hown
    rw [(validate_eq_ok_iff.mp hvalid).range hne] at hoverlap
    cases hoverlap

/-- Four ranges next to each other. -/
def HeaderConfig.adjacent : HeaderConfig := ⟨⟨100, 199⟩, ⟨200, 299⟩, ⟨300, 399⟩, ⟨400, 499⟩⟩

theorem HeaderConfig.unambiguous_iff_adjacent :
    adjacent.validate = .ok () ∧ adjacent.Unambiguous :=
  have hvalid : adjacent.validate = .ok () := by decide
  have hordered (kind : HeaderKind) : (adjacent.range kind).Ordered := by
    cases kind <;> exact UInt32.le_of_lt (by decide)
  ⟨hvalid, (unambiguous_iff hvalid).mpr (ordered_iff.mpr hordered)⟩

/-! ## The C structure -/

/-- `PaddingConfig::new`. -/
def PaddingConfig.new (s1 s2 s3 s4 : UInt16) : Except ConfigError PaddingConfig := do
  let config : PaddingConfig := { s1, s2, s3, s4 }
  config.validate
  return config

/-- `JunkConfig::new`. -/
def JunkConfig.new (count minSize maxSize : UInt16) : Except ConfigError JunkConfig := do
  let config : JunkConfig := { count, minSize, maxSize }
  config.validate
  return config

namespace Ffi

/-- What a pointer to characters points to. -/
inductive CStr
  | null
  /-- The bytes are not UTF-8. -/
  | invalid
  | text (s : Text)
  deriving DecidableEq

/-- `amnezia_config`. -/
structure AmneziaConfig where
  h1Start : UInt32 := 0
  h1End : UInt32 := 0
  h2Start : UInt32 := 0
  h2End : UInt32 := 0
  h3Start : UInt32 := 0
  h3End : UInt32 := 0
  h4Start : UInt32 := 0
  h4End : UInt32 := 0
  s1 : UInt16 := 0
  s2 : UInt16 := 0
  s3 : UInt16 := 0
  s4 : UInt16 := 0
  jc : UInt16 := 0
  jmin : UInt16 := 0
  jmax : UInt16 := 0
  i1 : CStr := .null
  i2 : CStr := .null
  i3 : CStr := .null
  i4 : CStr := .null
  i5 : CStr := .null
  deriving DecidableEq

/-- `parse_optional_cps`. -/
def parseOptionalCps (ptr : CStr) : Fallible Unit (Option CpsChain) :=
  match ptr with
  | .null => return none
  | .invalid => throw ()
  | .text s =>
      if s = [] then return none
      else do
        let chain ← (CpsChain.parse s).adapt fun _ => ()
        return some chain

/-- The ranges of the C structure, as they are. -/
def headersFromC (cfg : AmneziaConfig) : Except ConfigError HeaderConfig :=
  let headerBounds := [cfg.h1Start, cfg.h1End, cfg.h2Start, cfg.h2End, cfg.h3Start, cfg.h3End,
    cfg.h4Start, cfg.h4End]
  -- all zero means the standard types
  if headerBounds.all (· == 0) then .ok .wireguardCompatible
  else
    HeaderConfig.new ⟨cfg.h1Start, cfg.h1End⟩ ⟨cfg.h2Start, cfg.h2End⟩ ⟨cfg.h3Start, cfg.h3End⟩
      ⟨cfg.h4Start, cfg.h4End⟩

/-- `amnezia2_from_c`. -/
def amnezia2FromC (cfg : AmneziaConfig) : Fallible Unit Amnezia2Config := do
  let headers ← Fallible.ofExcept ((headersFromC cfg).mapError fun _ => ())
  let paddings ← Fallible.ofExcept <|
    (PaddingConfig.new cfg.s1 cfg.s2 cfg.s3 cfg.s4).mapError fun _ => ()
  let junk ←
    if cfg.jc = 0 then pure JunkConfig.disabled
    else Fallible.ofExcept ((JunkConfig.new cfg.jc cfg.jmin cfg.jmax).mapError fun _ => ())
  let i1 ← parseOptionalCps cfg.i1
  let i2 ← parseOptionalCps cfg.i2
  let i3 ← parseOptionalCps cfg.i3
  let i4 ← parseOptionalCps cfg.i4
  let i5 ← parseOptionalCps cfg.i5
  return { headers, paddings, junk, initPackets := { i1, i2, i3, i4, i5 } }

/-- What the C interface accepts has been validated. -/
theorem headersFromC_validated {cfg : AmneziaConfig} {headers : HeaderConfig}
    (h : headersFromC cfg = .ok headers) : headers.validate = .ok () := by
  simp only [headersFromC] at h
  split_ifs at h
  · cases h
    decide
  · obtain ⟨hvalid, h⟩ := check_bind_eq_ok.mp h
    cases h
    exact hvalid

/-- H1 from 10 down to 5, the others in order. -/
def invertedConfig : AmneziaConfig where
  h1Start := 10
  h1End := 5
  h2Start := 20
  h2End := 20
  h3Start := 30
  h3End := 30
  h4Start := 40
  h4End := 40

/-- The configuration is accepted and validated, and the type of an initiation is always 10, which
H1 does not contain. -/
theorem inverted_range_accepted :
    ∃ config, (amnezia2FromC invertedConfig).run = .ok (.ok config) ∧
      config.headers.validate = .ok () ∧
      (∀ (ρ : Type) [RandomSource ρ] (rng : ρ), (config.headers.init.generate rng).1 = 10) ∧
      config.headers.init.contains 10 = false := by
  refine ⟨{ headers := ⟨⟨10, 5⟩, ⟨20, 20⟩, ⟨30, 30⟩, ⟨40, 40⟩⟩ }, rfl, by decide, ?_, by decide⟩
  intro ρ _ rng
  rfl

end Ffi
