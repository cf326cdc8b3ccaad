import AwgTun.Lib.Settings
import AwgTun.Lib.TextWrite
import AwgTun.Amnezia.Cps
import AwgTun.Serialization

/-!
# Values of the configuration as text

The `Display` forms of ranges, tags and chains, and that the parsers read them back.

* `HeaderRange.parse_display`, `U32Range.parse_display` — a range that is not inverted.
* `parseCpsLoop_done`, `parseCpsLoop_tag`, `parseCpsLoop_stop` — what the loop of the chain
  parser does with the input that is left; `input_induction` is the induction that goes
  with them.
* `CpsChain.parse_valid`, `CpsChain.parse_display` — a parsed chain can be written, and what
  is written for such a chain is read as that chain.
-/

open Text Control Bytes

/-! ## Ranges -/

/-- `a`, or `a-b` for two different bounds. -/
def displayBounds (lo hi : UInt32) : Text :=
  if lo = hi then decimal lo.toNat else boundsText lo hi

/-- `HeaderRange::fmt`. -/
def HeaderRange.display (r : HeaderRange) : Text := displayBounds r.start r.stop

/-- `U32Range::fmt`. -/
def U32Range.display (r : U32Range) : Text := displayBounds r.lo r.hi

theorem displayBounds_isWord (lo hi : UInt32) : (displayBounds lo hi).IsWord := by
  unfold displayBounds boundsText
  split_ifs
  · exact decimal_isWord _
  · have hdash : Text.IsWord ['-'] := by decide
    exact (decimal_isWord _).append (hdash.append (decimal_isWord _))

/-- Both bounds are read back, whatever the parser of a bound makes of other texts. -/
theorem parseBounds_displayBounds {fail : Text → String → ConfigError}
    {parsePart : Text → Option Text → Except ConfigError UInt32}
    (hpart : ∀ (input : Text) (n : UInt32), parsePart input (some (decimal n.toNat)) = .ok n)
    (lo hi : UInt32) : parseBounds fail parsePart (displayBounds lo hi) = .ok (lo, hi) := by
  have hne := (displayBounds_isWord lo hi).ne_nil
  have hdash (n : UInt32) : '-' ∉ decimal n.toNat := not_mem_decimal (by decide) _
  rw [parseBounds, if_neg hne]
  by_cases heq : lo = hi
  · subst heq
    have hparts : splitChar '-' (displayBounds lo lo) = [decimal lo.toNat] := by
      rw [displayBounds, if_pos rfl, splitChar_of_not_mem (hdash lo)]
    simp [hparts, hpart]
  · have hparts : splitChar '-' (displayBounds lo hi) = [decimal lo.toNat, decimal hi.toNat] := by
      rw [displayBounds, if_neg heq, boundsText, splitChar_append (hdash lo),
        splitChar_of_not_mem (hdash hi)]
    simp [hparts, hpart]

namespace HeaderRange

theorem parseU32Part_decimal (input : Text) (n : UInt32) :
    parseU32Part input (some (decimal n.toNat)) = .ok n := by
  have hword := decimal_isWord n.toNat
  simp only [parseU32Part, Option.getD_some, hword.trim, parseU32_decimal]
  rw [if_neg hword.ne_nil]
  rfl

/-- A header range that is not inverted is read back. -/
theorem parse_display {r : HeaderRange} (h : r.Ordered) : parse r.display = .ok r := by
  have hnew : new r.start r.stop = .ok r := if_neg (UInt32.not_lt.mpr h)
  simp only [parse, display, (displayBounds_isWord _ _).trim,
    parseBounds_displayBounds parseU32Part_decimal, ok_bind, hnew]
  rfl

end HeaderRange

namespace U32Range

variable {r : U32Range}

/-- A range that is not inverted. -/
def Ordered (r : U32Range) : Prop := r.lo ≤ r.hi

theorem parse_ordered {input : Text} (h : parse input = .ok r) : r.Ordered := by
  obtain ⟨⟨lo, hi⟩, -, hnew⟩ := bind_eq_ok.mp h
  unfold new at hnew
  simp only at hnew
  split_ifs at hnew with hlt
  cases hnew
  exact UInt32.not_lt.mp hlt

theorem parseRangePart_decimal (input : Text) (n : UInt32) :
    parseRangePart input (some (decimal n.toNat)) = .ok n := by
  have hword := decimal_isWord n.toNat
  simp only [parseRangePart, Option.getD_some, hword.trim, parseU32_decimal]
  rw [if_neg hword.ne_nil]
  rfl

/-- A range that is not inverted is read back. -/
theorem parse_display (h : r.Ordered) : parse r.display = .ok r := by
  have hnew : new r.lo r.hi = .ok r := if_neg (UInt32.not_lt.mpr h)
  simp only [parse, display, (displayBounds_isWord _ _).trim,
    parseBounds_displayBounds parseRangePart_decimal, ok_bind, hnew]

end U32Range

/-! ## Tags -/

namespace CpsTag

variable {tag : CpsTag}

/-- Write the start of a tag, its argument and the closing bracket. -/
def writeArg (start : String) (arg : Text) : Text := start.toList ++ (arg ++ ['>'])

/-- `CpsTag::fmt`. -/
def display : CpsTag → Text
  | .bytes bs => writeArg "<b 0x" (hexEncode bs)
  | .timestamp => "<t>".toList
  | .randomBytes len => writeArg "<r " (decimal len)
  | .randomChars len => writeArg "<rc " (decimal len)
  | .randomDigits len => writeArg "<rd " (decimal len)
  | .data => "<d>".toList
  | .dataString => "<ds>".toList
  | .dataSize len => writeArg "<dz " (decimal len)

/-- The name of a tag. -/
def name : CpsTag → String
  | .bytes _ => "b"
  | .timestamp => "t"
  | .randomBytes _ => "r"
  | .randomChars _ => "rc"
  | .randomDigits _ => "rd"
  | .data => "d"
  | .dataString => "ds"
  | .dataSize _ => "dz"

/-- The argument of a tag. -/
def arg : CpsTag → Option Text
  | .bytes bs => some ("0x".toList ++ hexEncode bs)
  | .randomBytes len | .randomChars len | .randomDigits len | .dataSize len => some (decimal len)
  | .timestamp | .data | .dataString => none

/-- What is written between the brackets. -/
def body (tag : CpsTag) : Text :=
  match tag.arg with
  | some arg => tag.name.toList ++ ([' '] ++ arg)
  | none => tag.name.toList

theorem display_eq (tag : CpsTag) : tag.display = '<' :: (tag.body ++ ['>']) := by
  cases tag <;> simp [display, writeArg, body, name, arg]

theorem name_isWord (tag : CpsTag) : IsWord tag.name.toList := by
  cases tag <;> simp only [name] <;> decide

theorem arg_isWord {a : Text} (h : tag.arg = some a) : a.IsWord := by
  cases tag <;> cases h
  case bytes bs =>
    refine ⟨by simp, ?_⟩
    intro c hc
    rcases List.mem_append.mp hc with hc | hc
    · exact (show Text.IsWord "0x".toList by decide).solid c hc
    · exact (hexEncode_solid hc).1
  all_goals exact decimal_isWord _

theorem trim_body (tag : CpsTag) : trim tag.body = tag.body := by
  unfold body
  split
  · rename_i a ha
    exact trim_words tag.name_isWord (arg_isWord ha) _
  · exact tag.name_isWord.trim

theorem splitWhitespace_body (tag : CpsTag) :
    splitWhitespace tag.body = tag.name.toList :: tag.arg.toList := by
  unfold body
  split
  · rename_i a ha
    rw [ha]
    exact splitWhitespace_pair tag.name_isWord (arg_isWord ha)
  · rename_i hnone
    rw [hnone]
    exact splitWhitespace_word tag.name_isWord

/-- Neither a bracket nor a line feed is written inside the brackets. -/
theorem ne_of_mem_body {c : Char} (h : c ∈ tag.body) : c ≠ '>' ∧ c ≠ '\n' := by
  have hname : ∀ c ∈ tag.name.toList ++ [' '], c ≠ '>' ∧ c ≠ '\n' := by
    cases tag <;> simp [name]
  have harg : ∀ a, tag.arg = some a → ∀ c ∈ a, c ≠ '>' ∧ c ≠ '\n' := by
    intro a ha c hc
    have hline : c ≠ '\n' := by
      rintro rfl
      exact absurd ((arg_isWord ha).solid _ hc) (by decide)
    refine ⟨?_, hline⟩
    rintro rfl
    cases tag <;> cases ha
    case bytes bs =>
      rcases List.mem_append.mp hc with hc | hc
      · simp at hc
      · obtain ⟨-, d, hd, heq⟩ := hexEncode_solid hc
        exact absurd heq ((show ∀ d < 16, '>' ≠ Nat.digitChar d by decide) d hd)
    all_goals exact not_mem_decimal (by decide) _ hc
  unfold body at h
  split at h
  · rename_i a ha
    rw [← List.append_assoc] at h
    rcases List.mem_append.mp h with h | h
    · exact hname c h
    · exact harg a ha c h
  · exact hname c (List.mem_append_left _ h)

/-- A tag that the parser can return: there are bytes to write, and a length is within the
limit. -/
def Valid : CpsTag → Prop
  | .bytes bs => bs ≠ []
  | .randomBytes len | .randomChars len | .randomDigits len | .dataSize len =>
      len ≤ awg2MaxCpsRandomLen
  | .timestamp | .data | .dataString => True

end CpsTag

theorem parseLenTag_decimal {len : Nat} (h : len ≤ awg2MaxCpsRandomLen) (tag : String) :
    parseLenTag tag (some (decimal len)) = .ok len := by
  have hparse : parseUsize (decimal len) = .ok len :=
    fromStrRadix_decimal (h.trans (by decide))
  simp only [parseLenTag, hparse]
  rw [if_neg (Nat.not_lt.mpr h)]

/-- The pairs of digits are read as those of a key are; only the error differs. -/
theorem parseHexPair_eq (hex : Text) (i : Nat) :
    parseHexPair hex (2 * i) =
      ExceptT.adapt (fun _ => .invalidCps "<b> contains non-hex data".toList)
        (KeyBytes.hexPair hex i) := by
  rw [parseHexPair, KeyBytes.hexPair, Nat.mul_comm 2 i]
  rcases byteSlice hex (i * 2) (i * 2 + 2) with _ | pair
  · rfl
  · rcases hpair : fromStrRadix 16 255 pair with err | n
    · simp only [hpair]
      rfl
    · simp only [hpair]
      rfl

/-- The bytes of an argument of full bytes. -/
theorem parseBytesTag_eq {hex : Text} (hne : hex ≠ []) (heven : utf8Len hex % 2 = 0) :
    parseBytesTag (some ("0x".toList ++ hex)) =
      ExceptT.adapt (fun _ => .invalidCps "<b> contains non-hex data".toList)
        ((List.range' 0 (utf8Len hex / 2)).mapM (KeyBytes.hexPair hex)) >>=
        fun bs => return .bytes bs := by
  have hstrip : (some ("0x".toList ++ hex)).bind (stripStart "0x".toList) = some hex := by
    simp [stripStart]
  simp only [parseBytesTag, hstrip, if_neg hne, heven, ne_eq, not_true_eq_false, if_false,
    parseHexPair_eq, Fallible.mapM_adapt, List.range_eq_range']

theorem parseBytesTag_hexEncode {bs : Bytes} (h : bs ≠ []) :
    parseBytesTag (some ("0x".toList ++ hexEncode bs)) = return .bytes bs := by
  have hdecode := hexDecode_hexEncode bs
  have hlen := KeyBytes.utf8Len_of_hexDecode hdecode
  have hstart : dropBytes (hexEncode bs) (0 * 2) = some (hexEncode bs) := by rw [dropBytes]
  have hloop := KeyBytes.hexLoop_of_hexDecode hstart hdecode
  have hhalf : utf8Len (hexEncode bs) / 2 = bs.length := by omega
  rw [parseBytesTag_eq (hexEncode_isWord h).ne_nil (by omega), hhalf, ExceptT.ext hloop]
  rfl

/-- A tag that the parser can return is read back. -/
theorem parseCpsTag_body {tag : CpsTag} (h : tag.Valid) : parseCpsTag tag.body = return tag := by
  cases tag <;>
    simp only [parseCpsTag, CpsTag.splitWhitespace_body, CpsTag.name, CpsTag.arg,
      Option.toList_some, Option.toList_none, List.getElem?_cons_zero, List.getElem?_cons_succ,
      List.getElem?_nil, Option.isSome_none, Bool.false_eq_true, if_false, String.ofList_toList]
  case bytes bs => exact parseBytesTag_hexEncode h
  case randomBytes len => rw [parseLenTag_decimal h]; rfl
  case randomChars len => rw [parseLenTag_decimal h]; rfl
  case randomDigits len => rw [parseLenTag_decimal h]; rfl
  case dataSize len => rw [parseLenTag_decimal h]; rfl
  all_goals rfl

/-! ## The loop over a chain -/

/-- What the parser finds in the input that is left: behind white space a tag between
brackets, and a rest. -/
def OpensTag (input tag rest : Text) : Prop :=
  ∃ inner, input.dropWhile isAsciiWhitespace = '<' :: inner ∧
    splitOnce '>' inner = some (tag, rest)

theorem OpensTag.length_lt {input tag rest : Text} (h : OpensTag input tag rest) :
    rest.length < input.length := by
  obtain ⟨inner, hinput, hsplit⟩ := h
  have hrest := splitOnce_length hsplit
  have hdrop : (input.dropWhile isAsciiWhitespace).length ≤ input.length :=
    (List.dropWhile_suffix _).length_le
  rw [hinput, List.length_cons] at hdrop
  omega

section Loop

variable {input : Text}

/-- Behind white space the input is over, opens a tag, or does neither. -/
theorem input_cases (input : Text) :
    input.dropWhile isAsciiWhitespace = [] ∨ (∃ tag rest, OpensTag input tag rest) ∨
      (input.dropWhile isAsciiWhitespace ≠ [] ∧ ∀ tag rest, ¬ OpensTag input tag rest) := by
  by_cases hopen : ∃ tag rest, OpensTag input tag rest
  · exact .inr (.inl hopen)
  · by_cases hdone : input.dropWhile isAsciiWhitespace = []
    · exact .inl hdone
    · push Not at hopen
      exact .inr (.inr ⟨hdone, hopen⟩)

/-- At the end of the input the tags are complete. -/
theorem parseCpsLoop_done (h : input.dropWhile isAsciiWhitespace = []) (offset : Nat)
    (tags : List CpsTag) : parseCpsLoop input offset tags = return tags := by
  unfold parseCpsLoop
  split
  · rfl
  · rename_i c rest _ hskip
    simp only [skipWhitespace, h, Prod.mk.injEq] at hskip
    cases hskip.1

/-- A tag is parsed and the loop goes on behind it. -/
theorem parseCpsLoop_tag {tag rest : Text} (h : OpensTag input tag rest) (offset : Nat)
    (tags : List CpsTag) :
    ∃ offset', parseCpsLoop input offset tags =
      parseCpsTag (trim tag) >>= fun parsed => parseCpsLoop rest offset' (tags ++ [parsed]) := by
  obtain ⟨inner, hinput, hsplit⟩ := h
  rw [parseCpsLoop]
  split
  · rename_i hskip
    simp [skipWhitespace, hinput] at hskip
  · rename_i c rest' offset' hskip
    simp only [skipWhitespace, hinput, Prod.mk.injEq, List.cons.injEq] at hskip
    obtain ⟨⟨rfl, rfl⟩, -⟩ := hskip
    rw [if_neg (by simp)]
    split
    · rename_i hnone
      rw [hsplit] at hnone
      cases hnone
    · rename_i tag' rest'' hsome
      rw [hsplit] at hsome
      cases hsome
      exact ⟨_, rfl⟩

/-- Anything else is refused. -/
theorem parseCpsLoop_stop (hdone : input.dropWhile isAsciiWhitespace ≠ [])
    (hopen : ∀ tag rest, ¬ OpensTag input tag rest) (offset : Nat) (tags : List CpsTag) :
    ∃ err, parseCpsLoop input offset tags = throw err := by
  rw [parseCpsLoop]
  split
  · rename_i hskip
    simp only [skipWhitespace, Prod.mk.injEq] at hskip
    exact absurd hskip.1 hdone
  · rename_i c rest offset' hskip
    simp only [skipWhitespace, Prod.mk.injEq] at hskip
    split_ifs with hc
    · exact ⟨_, rfl⟩
    · rw [not_not] at hc
      subst hc
      split
      · exact ⟨_, rfl⟩
      · rename_i tag rest' hsome
        exact absurd ⟨rest, hskip.1, hsome⟩ (hopen tag rest')

end Loop

/-- The induction of the loop: from the input behind a tag to the input with it. -/
theorem input_induction {P : Text → Prop}
    (hdone : ∀ input, input.dropWhile isAsciiWhitespace = [] → P input)
    (htag : ∀ input tag rest, OpensTag input tag rest → P rest → P input)
    (hstop : ∀ input, input.dropWhile isAsciiWhitespace ≠ [] →
      (∀ tag rest, ¬ OpensTag input tag rest) → P input) (input : Text) : P input := by
  induction hn : input.length using Nat.strong_induction_on generalizing input with
  | _ n ih =>
    subst hn
    rcases input_cases input with h | ⟨tag, rest, h⟩ | ⟨hne, hno⟩
    · exact hdone input h
    · exact htag input tag rest h (ih rest.length h.length_lt rest rfl)
    · exact hstop input hne hno

/-! ## Chains -/

theorem parseLenTag_le {name : String} {arg : Option Text} {len : Nat}
    (h : parseLenTag name arg = .ok len) : len ≤ awg2MaxCpsRandomLen := by
  unfold parseLenTag at h
  split at h
  · cases h
  · split at h
    · cases h
    · split_ifs at h with hlen
      cases h
      exact Nat.not_lt.mp hlen

theorem parseBytesTag_valid {arg : Option Text} {tag : CpsTag}
    (h : (parseBytesTag arg).run = .ok (.ok tag)) : tag.Valid := by
  unfold parseBytesTag at h
  split at h
  · cases h
  · rename_i hex _
    by_cases hne : hex = []
    · rw [if_pos hne] at h
      cases h
    by_cases heven : utf8Len hex % 2 ≠ 0
    · rw [if_neg hne, if_pos heven] at h
      cases h
    rw [if_neg hne, if_neg heven] at h
    obtain ⟨bs, hloop, h⟩ := Fallible.bind_eq_ok.mp h
    cases h
    have hlen := Fallible.length_of_mapM hloop
    obtain ⟨c, hex, rfl⟩ := List.exists_cons_of_ne_nil hne
    have hsize := c.utf8Size_pos
    rw [List.length_range, utf8Len_cons] at hlen
    rw [utf8Len_cons] at heven
    change bs ≠ []
    rintro rfl
    rw [List.length_nil] at hlen
    omega

/-- A tag that was parsed can be written. -/
theorem parseCpsTag_valid {text : Text} {tag : CpsTag}
    (h : (parseCpsTag text).run = .ok (.ok tag)) :
    tag.Valid := by
  simp only [parseCpsTag] at h
  split at h
  · cases h
  · split_ifs at h with hmore
    · cases h
    · split at h
      case h_1 => exact parseBytesTag_valid h
      case h_9 => cases h
      all_goals
        obtain ⟨len, hlen, rfl⟩ := map_eq_ok.mp (Fallible.ofExcept_eq_ok.mp h)
        first | exact parseLenTag_le hlen | trivial

namespace CpsChain

/-- `CpsChain::fmt`. -/
def display (chain : CpsChain) : Text := chain.tags.flatMap CpsTag.display

/-- A chain is written from a bracket to a bracket. -/
theorem display_enclosed {chain : CpsChain} (h : chain.tags ≠ []) :
    ∃ inner, chain.display = '<' :: (inner ++ ['>']) := by
  obtain ⟨tags⟩ := chain
  change ∃ inner, tags.flatMap CpsTag.display = _
  induction tags with
  | nil => exact absurd rfl h
  | cons tag tags ih =>
    rw [List.flatMap_cons, CpsTag.display_eq]
    by_cases hlast : tags = []
    · exact ⟨tag.body, by simp [hlast]⟩
    · obtain ⟨inner, hinner⟩ := ih hlast
      exact ⟨tag.body ++ '>' :: '<' :: inner, by simp [hinner]⟩

/-- A chain that the parser can return. -/
structure Valid (chain : CpsChain) : Prop where
  ne_nil : chain.tags ≠ []
  tags : ∀ tag ∈ chain.tags, tag.Valid

theorem not_mem_display (chain : CpsChain) : '\n' ∉ chain.display := by
  intro h
  obtain ⟨tag, -, hc⟩ := List.mem_flatMap.mp h
  rw [CpsTag.display_eq] at hc
  simp only [List.mem_cons, List.mem_append, List.not_mem_nil, or_false] at hc
  rcases hc with hc | hc | hc
  · cases hc
  · exact (CpsTag.ne_of_mem_body hc).2 rfl
  · cases hc

end CpsChain

theorem opensTag_display (tag : CpsTag) (rest : Text) :
    OpensTag (tag.display ++ rest) tag.body rest := by
  refine ⟨tag.body ++ '>' :: rest, ?_, ?_⟩
  · rw [CpsTag.display_eq]
    simp [isAsciiWhitespace]
  · exact splitOnce_append (fun hmem => (CpsTag.ne_of_mem_body hmem).1 rfl) rest

/-- The loop reads back what was written, behind the tags it has. -/
theorem parseCpsLoop_display {tags : List CpsTag} (h : ∀ tag ∈ tags, tag.Valid) (offset : Nat)
    (before : List CpsTag) :
    parseCpsLoop (tags.flatMap CpsTag.display) offset before = return (before ++ tags) := by
  induction tags generalizing offset before with
  | nil =>
    rw [List.append_nil]
    exact parseCpsLoop_done rfl offset before
  | cons tag tags ih =>
    rw [List.forall_mem_cons] at h
    rw [List.flatMap_cons]
    obtain ⟨offset', hloop⟩ := parseCpsLoop_tag (opensTag_display tag _) offset before
    rw [hloop, CpsTag.trim_body, parseCpsTag_body h.1, pure_bind, ih h.2, List.append_assoc]
    rfl

/-- Tags that the loop returns can be written. -/
theorem parseCpsLoop_valid (input : Text) : ∀ {offset : Nat} {before tags : List CpsTag},
    (∀ tag ∈ before, tag.Valid) → (parseCpsLoop input offset before).run = .ok (.ok tags) →
      ∀ tag ∈ tags, tag.Valid := by
  induction input using input_induction with
  | hdone input hdone =>
    intro offset before tags hbefore h
    rw [parseCpsLoop_done hdone] at h
    cases h
    exact hbefore
  | htag input tag rest hopen ih =>
    intro offset before tags hbefore h
    obtain ⟨offset', hloop⟩ := parseCpsLoop_tag hopen offset before
    rw [hloop, Fallible.bind_eq_ok] at h
    obtain ⟨parsed, hparsed, h⟩ := h
    refine ih ?_ h
    intro t ht
    rcases List.mem_append.mp ht with ht | ht
    · exact hbefore t ht
    · rw [List.mem_singleton.mp ht]
      exact parseCpsTag_valid hparsed
  | hstop input hdone hopen =>
    intro offset before tags hbefore h
    obtain ⟨err, hloop⟩ := parseCpsLoop_stop hdone hopen offset before
    rw [hloop] at h
    cases h

namespace CpsChain

variable {chain : CpsChain}

/-- A parsed chain can be written. -/
theorem parse_valid {input : Text} (h : (parse input).run = .ok (.ok chain)) :
    chain.Valid := by
  obtain ⟨tags, hloop, h⟩ := Fallible.bind_eq_ok.mp h
  by_cases hne : tags = []
  · rw [if_pos hne] at h
    cases h
  · rw [if_neg hne] at h
    cases h
    exact ⟨hne, parseCpsLoop_valid input (by simp) hloop⟩

theorem Valid.trim_display (h : chain.Valid) : trim chain.display = chain.display := by
  obtain ⟨inner, hinner⟩ := display_enclosed h.ne_nil
  rw [hinner]
  exact trim_enclosed (by decide) (by decide) inner

/-- **Chains are read back.** -/
theorem parse_display (h : chain.Valid) : parse chain.display = return chain := by
  rw [parse, display, parseCpsLoop_display h.tags, pure_bind, List.nil_append, if_neg h.ne_nil]

end CpsChain
