import AwgTun.Amnezia.Field

/-!
# Configurations as blocks of settings

`Amnezia3Config::to_uapi_block` writes what differs from the default as `key=value` lines.
A block of such lines is a list of settings, one a line; `parse` of a block reads the
settings and takes them in order.

* `Amnezia3Config.parse_block` — the parser on a block of settings.
* `Amnezia3Config.toUapiBlock_eq_block` — a written configuration is a block of settings.
* `Amnezia3Config.assignments_settings` — these settings, taken from the default, give the
  configuration.
* `Amnezia3Config.parse_toUapiBlock` — a parsed configuration is read back from what is
  written for it.
-/

open Text Control

namespace Amnezia3Config

variable {c : Amnezia3Config} {f : Field}

/-! ## Blocks -/

/-- A `key=value` line for a field. -/
structure Setting where
  field : Field
  value : Text
  /-- The value is on one line. -/
  oneLine : '\n' ∉ value

namespace Setting

/-- The line as it is written. -/
def text (s : Setting) : Text := writeln s.field.key s.value

/-- The line as `str::lines` gives it. -/
def line (s : Setting) : Text := stripTerminator ((s.field.key ++ '=' :: s.value) ++ ['\n'])

/-- Read the setting. -/
def read [Hex] (s : Setting) : Fallible ConfigError (Σ f : Field, f.Value) := do
  return ⟨s.field, ← s.field.read (trim s.value)⟩

/-- The value that the line denotes. -/
def Denotes [Hex] (s : Setting) (x : s.field.Value) : Prop :=
  (s.field.read (trim s.value)).run = .ok (.ok x)

end Setting

/-- A block of lines. -/
def block (settings : List Setting) : Text := settings.flatMap Setting.text

theorem block_append (first second : List Setting) :
    block (first ++ second) = block first ++ block second :=
  List.flatMap_append

namespace Field

theorem key_isWord (f : Field) : IsWord f.key := by
  cases f <;> decide

/-- Keys are in lower case, and neither a comment sign nor a separator is in them. -/
theorem key_plain (f : Field) :
    toAsciiLowercase f.key = f.key ∧ '#' ∉ f.key ∧ '=' ∉ f.key := by
  cases f <;> decide

end Field

/-- A line of a block is the setting of a field. -/
theorem parseLine_line [Hex] (st : ParseState) (s : Setting) :
    parseLine st s.line = do return st.write s.field (← s.field.read (trim s.value)) := by
  obtain ⟨f, value, hvalue⟩ := s
  obtain ⟨hlower, hcomment, hsep⟩ := f.key_plain
  have hword := f.key_isWord
  obtain ⟨c, key, hkey⟩ := List.exists_cons_of_ne_nil hword.ne_nil
  have hline : trim (Setting.line ⟨f, value, hvalue⟩) =
      f.key ++ '=' :: value.rdropWhile isWhitespace := by
    rw [Setting.line, trim_stripTerminator, hkey, List.cons_append,
      trim_cons (hword.solid c (by simp [hkey])), rdropWhile_append_cons (by decide)]
    rfl
  have hhead : (f.key ++ '=' :: value.rdropWhile isWhitespace).head? ≠ some '#' := by
    rw [hkey] at hcomment ⊢
    rintro hhash
    cases hhash
    exact hcomment List.mem_cons_self
  simp only [parseLine, hline]
  rw [if_neg (not_or.mpr ⟨by simp, hhead⟩), splitOnce_append hsep]
  simp only [hword.trim, hlower, trim_rdropWhile]
  exact setField_eq st f (trim value)

theorem lines_block (settings : List Setting) :
    lines (block settings) = settings.map Setting.line := by
  induction settings with
  | nil => rfl
  | cons s settings ih =>
    have hkey : '\n' ∉ s.field.key := s.field.key_isWord.not_mem (by decide)
    change lines (writeln s.field.key s.value ++ block settings) = _
    rw [lines_writeln hkey s.oneLine, ih]
    rfl

/-- The collected values after a list of settings. -/
def ParseState.writeAll (settings : List (Σ f : Field, f.Value)) (st : ParseState) : ParseState :=
  settings.foldl (fun st a => st.write a.1 a.2) st

/-- The parser on a block: read the settings, take them in order, and finish. -/
theorem parse_block [Hex] (settings : List Setting) :
    parse (block settings) =
      settings.mapM Setting.read >>= fun as => finish (ParseState.start.writeAll as) := by
  have hfold : ∀ st, (settings.map Setting.line).foldlM parseLine st =
      settings.mapM Setting.read >>= fun as => return ParseState.writeAll as st := by
    intro st
    rw [List.foldlM_map]
    refine Fallible.foldlM_eq_mapM (fun st s => ?_) settings st
    rw [parseLine_line]
    simp [Setting.read]
  rw [parse_eq, lines_block, hfold, bind_assoc]
  simp only [pure_bind]

theorem get_writeAll (as : List (Σ f : Field, f.Value)) (st : ParseState) :
    (st.writeAll as).toConfig.get = assignAll st.toConfig.get as := by
  induction as generalizing st with
  | nil => rfl
  | cons a as ih =>
    change (ParseState.writeAll as (st.write a.1 a.2)).toConfig.get = _
    rw [ih, ParseState.toConfig_write, get_set]
    rfl

theorem ParseState.Collecting.writeAll {st : ParseState} (h : st.Collecting)
    (as : List (Σ f : Field, f.Value)) : (st.writeAll as).Collecting := by
  induction as generalizing st with
  | nil => exact h
  | cons a as ih => exact ih (h.write a.1 a.2)

/-! ## A configuration as a block -/

/-- `writeln!(out, "{}={}", key, value)`. -/
def uapiLine (key : String) (value : Text) : Text := writeln key.toList value

/-- `Amnezia3Config::to_uapi_block`. -/
def toUapiBlock (c : Amnezia3Config) : Text :=
  (if c.junk ≠ default.junk then
    uapiLine "jc" (decimal c.junk.count.toNat) ++ (uapiLine "jmin" (decimal c.junk.minSize.toNat) ++
      uapiLine "jmax" (decimal c.junk.maxSize.toNat))
  else []) ++
  ([("s1", c.paddings.s1, default.paddings.s1), ("s2", c.paddings.s2, default.paddings.s2),
    ("s3", c.paddings.s3, default.paddings.s3),
    ("s4", c.paddings.s4, default.paddings.s4)].flatMap fun (key, value, fallback) =>
      if value ≠ fallback then uapiLine key (decimal value.toNat) else []) ++
  -- the ranges are a set: all four if any one differs
  (if c.headers ≠ default.headers then
    uapiLine "h1" c.headers.init.display ++ (uapiLine "h2" c.headers.response.display ++
      (uapiLine "h3" c.headers.cookie.display ++ uapiLine "h4" c.headers.transport.display))
  else []) ++
  ([("i1", c.initPackets.i1), ("i2", c.initPackets.i2), ("i3", c.initPackets.i3),
    ("i4", c.initPackets.i4), ("i5", c.initPackets.i5)].flatMap fun (key, chain) =>
      chain.elim [] fun chain => uapiLine key chain.display) ++
  (c.headerProtectionKey.elim [] fun key =>
    uapiLine "header_protection_key" (hexEncode key.toList)) ++
  (c.contentPaddingAddition.elim [] fun range =>
    uapiLine "content_padding_addition" range.display) ++
  ([("rekey_after_time", c.timingRanges.rekeyAfterTime),
    ("rekey_timeout", c.timingRanges.rekeyTimeout),
    ("reject_after_time", c.timingRanges.rejectAfterTime),
    ("keepalive_timeout", c.timingRanges.keepaliveTimeout),
    ("max_handshake_attempts", c.timingRanges.maxHandshakeAttempts),
    ("persistent_keepalive_interval",
      c.timingRanges.persistentKeepalive)].flatMap fun (key, range) =>
        if range.isZero then [] else uapiLine key range.display) ++
  ([("random_trailers", c.randomTrailers, default.randomTrailers),
    ("disable_cookies", c.disableCookies,
      default.disableCookies)].flatMap fun (key, value, fallback) =>
        if value ≠ fallback then uapiLine key (decimal value.toNat) else []) ++
  (if c.mtu ≠ default.mtu then uapiLine "mtu" (decimal c.mtu.toNat) else [])

instance : (k : Kind) → DecidableEq k.Value
  | .u16 => inferInstanceAs (DecidableEq UInt16)
  | .header => inferInstanceAs (DecidableEq HeaderRange)
  | .chain => inferInstanceAs (DecidableEq (Option CpsChain))
  | .key => inferInstanceAs (DecidableEq (Option Key))
  | .padding => inferInstanceAs (DecidableEq (Option U32Range))
  | .range => inferInstanceAs (DecidableEq U32Range)
  | .bool => inferInstanceAs (DecidableEq Bool)
  | .u32 => inferInstanceAs (DecidableEq UInt32)

/-- The fields that are written together: the junk settings, and the header ranges. -/
def Field.grouped : Field → Bool
  | .jc | .jmin | .jmax | .h1 | .h2 | .h3 | .h4 => true
  | _ => false

/-- Is a line written for the field?  A group is written where any of it differs from the
default, any other field where the field does. -/
def emits (c : Amnezia3Config) (f : Field) : Bool :=
  match f with
  | .jc | .jmin | .jmax => decide (c.junk ≠ default.junk)
  | .h1 | .h2 | .h3 | .h4 => decide (c.headers ≠ default.headers)
  | f => decide (c.get f ≠ default.get f)

/-- The setting of a field. -/
def setting (c : Amnezia3Config) (f : Field) : Setting :=
  ⟨f, f.kind.display (c.get f), f.kind.not_mem_display _⟩

/-- The settings that are written. -/
def settings (c : Amnezia3Config) : List Setting := (Field.all.filter c.emits).map c.setting

/-- What is written for a field. -/
def written (c : Amnezia3Config) (f : Field) : Text :=
  if c.emits f then (c.setting f).text else []

theorem block_settings (c : Amnezia3Config) : block c.settings = Field.all.flatMap c.written := by
  have hfilter : ∀ fs : List Field,
      block ((fs.filter c.emits).map c.setting) = fs.flatMap c.written := by
    intro fs
    induction fs with
    | nil => rfl
    | cons f fs ih =>
      rw [List.flatMap_cons, ← ih, written]
      by_cases hf : c.emits f = true
      · rw [List.filter_cons_of_pos hf, if_pos hf]
        rfl
      · rw [List.filter_cons_of_neg hf, if_neg hf]
        rfl
  exact hfilter Field.all

/-- A field that is not written in a group is written where it differs from the default. -/
theorem written_single (h : f.grouped = false) :
    c.written f = if c.get f ≠ default.get f then (c.setting f).text else [] := by
  have hemits : c.emits f = decide (c.get f ≠ default.get f) := by
    cases f <;> first | rfl | cases h
  simp only [written, hemits, decide_eq_true_eq]

theorem elim_eq_ite {α : Type} [DecidableEq α] (x : Option α) (key : String) (display : α → Text) :
    (x.elim [] fun a => uapiLine key (display a)) =
      if x ≠ none then uapiLine key ((x.map display).getD []) else [] := by
  cases x <;> simp

theorem isZero_eq_ite (r : U32Range) (text : Text) :
    (if r.isZero then [] else text) = if r ≠ {} then text else [] := by
  have hzero : r.isZero = true ↔ r = {} := by
    obtain ⟨lo, hi⟩ := r
    simp [U32Range.isZero]
  by_cases h : r = {}
  · rw [if_pos (hzero.mpr h), if_neg (by simp [h])]
  · rw [if_neg (mt hzero.mp h), if_pos h]

/-- A written configuration is a block of settings. -/
theorem toUapiBlock_eq_block (c : Amnezia3Config) : c.toUapiBlock = block c.settings := by
  have hjunk : (if c.junk ≠ default.junk then
      uapiLine "jc" (decimal c.junk.count.toNat) ++
        (uapiLine "jmin" (decimal c.junk.minSize.toNat) ++
        uapiLine "jmax" (decimal c.junk.maxSize.toNat))
      else []) = c.written .jc ++ (c.written .jmin ++ c.written .jmax) := by
    by_cases h : c.junk = default.junk
    · simp [written, emits, h]
    · simp only [written, emits, h, ne_eq, not_false_eq_true, decide_true, if_true]
      rfl
  have hheaders : (if c.headers ≠ default.headers then
      uapiLine "h1" c.headers.init.display ++ (uapiLine "h2" c.headers.response.display ++
        (uapiLine "h3" c.headers.cookie.display ++ uapiLine "h4" c.headers.transport.display))
      else []) = c.written .h1 ++ (c.written .h2 ++ (c.written .h3 ++ c.written .h4)) := by
    by_cases h : c.headers = default.headers
    · simp [written, emits, h]
    · simp only [written, emits, h, ne_eq, not_false_eq_true, decide_true, if_true]
      rfl
  rw [block_settings, toUapiBlock, hjunk, hheaders]
  simp only [Field.all, List.flatMap_cons, List.flatMap_nil, List.append_nil, List.append_assoc,
    elim_eq_ite, isZero_eq_ite]
  simp (disch := decide) only [written_single]
  rfl

/-! ## Reading it back -/

/-- A field for which no line is written has the default value. -/
theorem get_of_not_emits (h : c.emits f = false) :
    c.get f = default.get f := by
  cases f
  case jc | jmin | jmax =>
    have hjunk : c.junk = default.junk := by simpa [emits] using h
    simp only [get, hjunk]
  case h1 | h2 | h3 | h4 =>
    have hheaders : c.headers = default.headers := by simpa [emits] using h
    simp only [get, hheaders]
  all_goals exact not_not.mp (of_decide_eq_false h)

/-- A field for which a line is written has a value to write. -/
theorem isSet_of_emits (h : c.emits f = true) :
    f.kind.isSet (c.get f) = true := by
  cases f
  case i1 | i2 | i3 | i4 | i5 | headerProtectionKey | contentPaddingAddition =>
    exact Option.isSome_iff_ne_none.mpr (of_decide_eq_true h)
  all_goals rfl

/-- The setting that a configuration has for a field. -/
def assignment (c : Amnezia3Config) (f : Field) : Σ f : Field, f.Value := ⟨f, c.get f⟩

theorem read_setting [Hex] (hc : c.Valid) (hf : c.emits f = true) :
    (c.setting f).read = return c.assignment f := by
  have hread : (c.setting f).field.read (trim (c.setting f).value) = return c.get f :=
    Kind.read_display (hc f) (isSet_of_emits hf) f.key
  rw [Setting.read, hread]
  rfl

/-- The written settings are read as those of the configuration. -/
theorem mapM_read_settings [Hex] (hc : c.Valid) :
    c.settings.mapM Setting.read = return (Field.all.filter c.emits).map c.assignment := by
  have hmap : ∀ fs : List Field, (∀ f ∈ fs, c.emits f = true) →
      (fs.map c.setting).mapM Setting.read = return fs.map c.assignment := by
    intro fs hfs
    induction fs with
    | nil => rfl
    | cons f fs ih =>
      rw [List.forall_mem_cons] at hfs
      rw [List.map_cons, List.mapM_cons, read_setting hc hfs.1, pure_bind, ih hfs.2]
      rfl
  exact hmap _ fun f hf => (List.mem_filter.mp hf).2

/-- Taken from the default, the written settings give the configuration. -/
theorem assignments_settings (c : Amnezia3Config) :
    assignAll default.get ((Field.all.filter c.emits).map c.assignment) = c.get := by
  refine assignAll_eq_of_agree ?_ ?_
  · intro a ha
    obtain ⟨f, -, rfl⟩ := List.mem_map.mp ha
    rfl
  · intro f hf
    refine (get_of_not_emits ?_).symm
    by_contra hemits
    refine hf (List.mem_map.mpr ⟨c.assignment f, List.mem_map_of_mem ?_, rfl⟩)
    exact List.mem_filter.mpr ⟨f.mem_all, by simpa using hemits⟩

/-- The collected values after the settings of a configuration and those of a list. -/
def overlay (c : Amnezia3Config) (as : List (Σ f : Field, f.Value)) : ParseState :=
  ParseState.start.writeAll ((Field.all.filter c.emits).map c.assignment ++ as)

theorem get_overlay (c : Amnezia3Config) (as : List (Σ f : Field, f.Value)) :
    (c.overlay as).toConfig.get = assignAll c.get as := by
  rw [overlay, get_writeAll, assignAll_append]
  exact congrArg (assignAll · as) c.assignments_settings

theorem collecting_overlay (c : Amnezia3Config) (as : List (Σ f : Field, f.Value)) :
    (c.overlay as).Collecting :=
  ParseState.collecting_start.writeAll _

/-- The parser on a written configuration with further settings behind it. -/
theorem parse_toUapiBlock_append [Hex] (hc : c.Valid) (b : List Setting) :
    parse (c.toUapiBlock ++ block b) =
      b.mapM Setting.read >>= fun as => finish (c.overlay as) := by
  rw [toUapiBlock_eq_block, ← block_append, parse_block, List.mapM_append, mapM_read_settings hc]
  simp only [pure_bind, bind_assoc]
  rfl

/-- **Configurations are read back.**  What is written for a configuration that the parser
returned is parsed as that configuration. -/
theorem parse_toUapiBlock [Hex] {input : Text} {c : Amnezia3Config}
    (h : (parse input).run = .ok (.ok c)) : (parse c.toUapiBlock).run = .ok (.ok c) := by
  obtain ⟨hpass, hvalid⟩ := parse_valid h
  have hsame : (c.overlay []).toConfig = c := ext_get (c.get_overlay [])
  have hrun := parse_toUapiBlock_append hvalid []
  rw [← hsame] at hpass
  simp only [block, List.flatMap_nil, List.append_nil, List.mapM_nil, pure_bind,
    finish_of_valid (c.collecting_overlay []) hpass, hsame] at hrun
  rw [hrun]
  rfl

/-- A configuration in another spelling than the one that is written. -/
def looseText : Text :=
  ("# office\nJc = 0\njmin=+5\ns1=12\ns2=12\ns3=012\ns4=16\n\nH1= 100 - 200\n".toList ++
    "I1 = <b 0xC0ff> <t><r 8>\nrekey_timeout=0-7\r\nrandom_trailers=on\n".toList ++
    "mtu=1280\nheader_protection_key=".toList) ++
    hexEncode (List.replicate 32 0xA1) ++ "\ns1=40".toList

/-- The configuration it is. -/
def looseConfig : Amnezia3Config where
  junk := ⟨0, 5, 0⟩
  paddings := ⟨40, 12, 12, 16⟩
  headers := { HeaderConfig.wireguardCompatible with init := ⟨100, 200⟩ }
  initPackets := { i1 := some ⟨[.bytes [0xC0, 0xFF], .timestamp, .randomBytes 8]⟩ }
  headerProtectionKey := some (List.Vector.replicate 32 0xA1)
  timingRanges := { rekeyTimeout := ⟨0, 7⟩ }
  randomTrailers := true
  mtu := 1280

/-- With comments, signs, a chain and a repeated key, and values that only look like defaults. -/
theorem parse_toUapiBlock_loose :
    (parse looseText).run = .ok (.ok looseConfig) ∧
      (parse looseConfig.toUapiBlock).run = .ok (.ok looseConfig) := by
  have h : (parse looseText).run = .ok (.ok looseConfig) := by decide +kernel
  exact ⟨h, parse_toUapiBlock h⟩

end Amnezia3Config
