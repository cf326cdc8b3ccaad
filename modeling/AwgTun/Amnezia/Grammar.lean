import AwgTun.Amnezia.Cuts

/-!
# The grammar of chains

The notation of chains, written down without the parser, and how far the parser keeps to it.  The
library routines that read a number take a `+` in front of it: `parse_len_tag` in front of a
length, and `parse_bytes_tag` in the place of the first digit of a byte.

* `CpsTag.Written`, `ChainWritten` — the grammar; with `signs` it has those signs too.
* `CpsChain.parse_eq_iff` — what the parser accepts is the grammar with signs, and it returns the
  tags that are written.
* `CpsChain.parse_exact_iff` — so on a text it is the grammar without them exactly if the text
  cuts no character and is no chain with a sign in it.
-/

open Text Control Bytes KeyBytes

/-! ## Numbers -/

/-- The number that decimal digits write. -/
def decimalValue (digits : Text) : Nat := digits.foldl (fun n c => n * 10 + (c.toNat - 48)) 0

/-- A number in decimal, perhaps with a sign. -/
def Number (signs : Bool) (arg : Text) (n : Nat) : Prop :=
  ∃ digits, (arg = digits ∨ (signs = true ∧ arg = '+' :: digits)) ∧ digits ≠ [] ∧
    (∀ c ∈ digits, c.isDigit = true) ∧ decimalValue digits = n

/-- Bytes in hexadecimal, two digits each; perhaps a sign and one digit. -/
inductive HexBytes (signs : Bool) : Text → Bytes → Prop
  | nil : HexBytes signs [] []
  | pair {a b : Char} {x y : Nat} {s : Text} {bs : Bytes} (ha : toDigit 16 a = some x)
      (hb : toDigit 16 b = some y) (h : HexBytes signs s bs) :
      HexBytes signs (a :: b :: s) (UInt8.ofNat (16 * x + y) :: bs)
  | signed {b : Char} {y : Nat} {s : Text} {bs : Bytes} (hsigns : signs = true)
      (hb : toDigit 16 b = some y) (h : HexBytes signs s bs) :
      HexBytes signs ('+' :: b :: s) (UInt8.ofNat y :: bs)

theorem toDigit_ten (c : Char) :
    toDigit 10 c = if c.isDigit = true then some (c.toNat - 48) else none := by
  have hiff : c.isDigit = true ↔ '0' ≤ c ∧ c ≤ '9' := by
    rw [Char.isDigit, Bool.and_eq_true, decide_eq_true_iff, decide_eq_true_iff]
    rfl
  by_cases hc : c.isDigit = true
  · have hnine : c.toNat ≤ 57 := UInt32.le_iff_toNat_le.mp (hiff.mp hc).2
    simp only [toDigit, if_pos (hiff.mp hc), if_pos hc]
    exact Option.filter_eq_some_iff.mpr ⟨rfl, by simp; omega⟩
  · simp only [toDigit, if_neg (mt hiff.mpr hc), if_neg hc]
    -- the letters count from ten
    split_ifs <;> simp

theorem le_decimalFold (s : Text) (acc : Nat) :
    acc ≤ s.foldl (fun n c => n * 10 + (c.toNat - 48)) acc := by
  induction s generalizing acc with
  | nil => exact Nat.le_refl acc
  | cons c s ih =>
    have hgrow : acc ≤ acc * 10 + (c.toNat - 48) := by omega
    exact hgrow.trans (ih _)

theorem digitLoop_ten {max acc n : Nat} {s : Text} (hacc : acc ≤ max) :
    digitLoop 10 max acc s = .ok n ↔ (∀ c ∈ s, c.isDigit = true) ∧
      s.foldl (fun n c => n * 10 + (c.toNat - 48)) acc = n ∧ n ≤ max := by
  induction s generalizing acc with
  | nil =>
    simp only [digitLoop, List.foldl_nil]
    constructor
    · intro h
      cases h
      exact ⟨by simp, rfl, hacc⟩
    · rintro ⟨-, rfl, -⟩
      rfl
  | cons c s ih =>
    rw [digitLoop, toDigit_ten]
    by_cases hc : c.isDigit = true
    · simp only [hc, if_true, List.foldl_cons, List.mem_cons, forall_eq_or_imp, true_and]
      split_ifs with hle
      · exact ih hle
      · -- the number only grows from here
        refine iff_of_false (by simp) ?_
        rintro ⟨-, rfl, hmax⟩
        exact hle (Nat.le_trans (le_decimalFold s _) hmax)
    · simp only [hc, Bool.false_eq_true, if_false, List.mem_cons, forall_eq_or_imp, false_and]
      exact iff_of_false (by simp) (by simp)

/-- What the integer parser reads is a number, perhaps with a sign. -/
theorem parseUsize_eq_ok_iff {arg : Text} {n : Nat} :
    parseUsize arg = .ok n ↔ Number true arg n ∧ n ≤ 2 ^ 64 - 1 := by
  constructor
  · intro h
    unfold parseUsize fromStrRadix at h
    split at h
    · cases h
    · cases h
    · cases h
    · rename_i digits hne
      obtain ⟨hdigits, hvalue, hle⟩ := (digitLoop_ten (Nat.zero_le _)).mp h
      exact ⟨⟨digits, .inr ⟨rfl, rfl⟩, fun h => hne (by rw [h]), hdigits, hvalue⟩, hle⟩
    · rename_i hnil _ _ _
      obtain ⟨hdigits, hvalue, hle⟩ := (digitLoop_ten (Nat.zero_le _)).mp h
      exact ⟨⟨arg, .inl rfl, hnil, hdigits, hvalue⟩, hle⟩
  · rintro ⟨⟨digits, harg, hne, hdigits, hvalue⟩, hle⟩
    have hloop : digitLoop 10 (2 ^ 64 - 1) 0 digits = .ok n :=
      (digitLoop_ten (Nat.zero_le _)).mpr ⟨hdigits, hvalue, hle⟩
    obtain ⟨c, digits, rfl⟩ := List.exists_cons_of_ne_nil hne
    rcases harg with rfl | ⟨-, rfl⟩
    · have hdigit := hdigits c List.mem_cons_self
      have hne {d : Char} (hd : d.isDigit = false) : c ≠ d := by
        rintro rfl
        rw [hd] at hdigit
        cases hdigit
      rw [parseUsize, fromStrRadix_of_digit (hne (by decide)) (hne (by decide)), hloop]
    · rw [← hloop]
      rfl

/-! ## Bytes -/

section Hex

variable {signs : Bool} {s rest hex : Text} {bs : Bytes} {i n : Nat}

theorem HexBytes.length (h : HexBytes signs hex bs) : utf8Len hex = 2 * bs.length := by
  induction h with
  | nil => rfl
  | pair ha hb h ih =>
    rw [utf8Len_cons, utf8Len_cons, utf8Size_of_toDigit ha, utf8Size_of_toDigit hb, ih,
      List.length_cons]
    omega
  | signed hsigns hb h ih =>
    rw [utf8Len_cons, utf8Len_cons, utf8Size_of_toDigit hb, ih, List.length_cons]
    have hplus : ('+' : Char).utf8Size = 1 := by decide
    omega

/-- Units that are read are bytes, perhaps with signs. -/
theorem PairsRead.hexBytes (h : PairsRead hex) : ∃ bs, HexBytes true hex bs := by
  induction h with
  | nil => exact ⟨[], .nil⟩
  | cons hyes h ih =>
    obtain ⟨bs, hbs⟩ := ih
    obtain ⟨ha, hb⟩ := hyes
    obtain ⟨y, hy⟩ := Option.isSome_iff_exists.mp hb
    rcases ha with ha | rfl
    · obtain ⟨x, hx⟩ := Option.isSome_iff_exists.mp ha
      exact ⟨_, .pair hx hy hbs⟩
    · exact ⟨_, .signed rfl hy hbs⟩

/-- A sign and a digit are the digit. -/
theorem hexPair_signed {b : Char} {y : Nat} {t : Text}
    (hrest : dropBytes s (i * 2) = some ('+' :: b :: t)) (hb : toDigit 16 b = some y) :
    (hexPair s i).run = .ok (.ok (UInt8.ofNat y)) := by
  have hy := toDigit_lt hb
  have hread : fromStrRadix 16 255 ['+', b] = .ok y := by
    change digitLoop 16 255 0 [b] = .ok y
    simp only [digitLoop, hb, Nat.zero_mul, Nat.zero_add]
    rw [if_pos (by omega)]
  rw [hexPair_pair hrest (by decide) (utf8Size_of_toDigit hb), hread]

/-- The loop reads the bytes that are written. -/
theorem hexLoop_of_hexBytes (hrest : dropBytes s (i * 2) = some rest)
    (h : HexBytes signs rest bs) :
    ((List.range' i bs.length).mapM (hexPair s)).run = .ok (.ok bs) := by
  induction h generalizing i with
  | nil => rfl
  | pair ha hb h ih =>
    have hnext := dropBytes_next hrest (utf8Size_of_toDigit ha) (utf8Size_of_toDigit hb)
    rw [List.length_cons, hexLoop_of_ok (hexPair_digits hrest ha hb), ih hnext]
    rfl
  | signed hsigns hb h ih =>
    have hnext := dropBytes_next hrest (by decide) (utf8Size_of_toDigit hb)
    rw [List.length_cons, hexLoop_of_ok (hexPair_signed hrest hb), ih hnext]
    rfl

theorem parseBytesTag_of_hexBytes (hne : hex ≠ []) (h : HexBytes signs hex bs) :
    (parseBytesTag (some ("0x".toList ++ hex))).run = .ok (.ok (.bytes bs)) := by
  have hlen : utf8Len hex / 2 = bs.length := by rw [h.length]; omega
  have hloop := hexLoop_of_hexBytes (i := 0) (by rw [dropBytes]) h
  rw [parseBytesTag_eq hne (by rw [h.length]; omega), hlen, ExceptT.ext hloop]
  rfl

end Hex

/-! ## Tags -/

/-- The tags that have a length. -/
def lenTags : List (String × (Nat → CpsTag)) :=
  [("r", .randomBytes), ("rc", .randomChars), ("rd", .randomDigits), ("dz", .dataSize)]

/-- A tag by its words: the name, and the argument if it has one. -/
inductive CpsTag.Written (signs : Bool) : List Text → CpsTag → Prop
  | timestamp : Written signs ["t".toList] .timestamp
  | data : Written signs ["d".toList] .data
  | dataString : Written signs ["ds".toList] .dataString
  | length {name : String} {make : Nat → CpsTag} {arg : Text} {n : Nat}
      (hname : (name, make) ∈ lenTags) (harg : Number signs arg n)
      (hn : n ≤ awg2MaxCpsRandomLen) : Written signs [name.toList, arg] (make n)
  | bytes {hex : Text} {bs : Bytes} (hne : hex ≠ []) (h : HexBytes signs hex bs) :
      Written signs ["b".toList, "0x".toList ++ hex] (.bytes bs)

/-- A chain: tags in angle brackets, with ASCII white space before, between and behind them. -/
inductive ChainWritten (signs : Bool) : Text → List CpsTag → Prop
  | nil {space : Text} (hspace : ∀ c ∈ space, isAsciiWhitespace c = true) :
      ChainWritten signs space []
  | cons {space body rest : Text} {tag : CpsTag} {tags : List CpsTag}
      (hspace : ∀ c ∈ space, isAsciiWhitespace c = true) (hbody : '>' ∉ body)
      (htag : CpsTag.Written signs (splitWhitespace body) tag)
      (h : ChainWritten signs rest tags) :
      ChainWritten signs (space ++ '<' :: (body ++ '>' :: rest)) (tag :: tags)

/-- What is written for a tag is read as that tag. -/
theorem parseCpsTag_of_written {signs : Bool} {text : Text} {tag : CpsTag}
    (h : CpsTag.Written signs (splitWhitespace text) tag) :
    (parseCpsTag text).run = .ok (.ok tag) := by
  generalize hparts : splitWhitespace text = parts at h
  cases h with
  | timestamp | data | dataString =>
    simp only [parseCpsTag, hparts]
    rfl
  | @length name make arg n hname harg hn =>
    have hsigned : Number true arg n := by
      obtain ⟨digits, harg | ⟨-, harg⟩, hdigits⟩ := harg
      · exact ⟨digits, .inl harg, hdigits⟩
      · exact ⟨digits, .inr ⟨rfl, harg⟩, hdigits⟩
    have hparse := parseUsize_eq_ok_iff.mpr ⟨hsigned, hn.trans (by decide)⟩
    have hrun (name : String) : parseLenTag name (some arg) = .ok n := by
      simp only [parseLenTag, hparse]
      rw [if_neg (Nat.not_lt.mpr hn)]
    simp only [lenTags, List.mem_cons, Prod.mk.injEq, List.not_mem_nil, or_false] at hname
    rcases hname with ⟨rfl, rfl⟩ | ⟨rfl, rfl⟩ | ⟨rfl, rfl⟩ | ⟨rfl, rfl⟩ <;>
      simp only [parseCpsTag, hparts, List.getElem?_cons_zero, List.getElem?_cons_succ,
        List.getElem?_nil, Option.isSome_none, Bool.false_eq_true, if_false, String.ofList_toList,
        hrun] <;>
      rfl
  | bytes hne h => rw [parseCpsTag_bytes hparts, parseBytesTag_of_hexBytes hne h]

/-- A tag that is accepted is written as the grammar with signs has it. -/
theorem TagReads.written {text : Text} (h : TagReads text) :
    ∃ tag, CpsTag.Written true (splitWhitespace text) tag := by
  cases h with
  | @bare name hname hparts =>
    rw [hparts]
    fin_cases hname
    · exact ⟨_, .timestamp⟩
    · exact ⟨_, .data⟩
    · exact ⟨_, .dataString⟩
  | @length name arg len hname hparts harg hlen =>
    obtain ⟨make, hmake⟩ : ∃ make, (name, make) ∈ lenTags := by
      fin_cases hname <;> simp [lenTags]
    rw [hparts]
    exact ⟨make len, .length hmake (parseUsize_eq_ok_iff.mp harg).1 hlen⟩
  | bytes hparts hne h =>
    obtain ⟨bs, hbs⟩ := h.hexBytes
    rw [hparts]
    exact ⟨_, .bytes hne hbs⟩

/-- The tag parser accepts the grammar with signs. -/
theorem parseCpsTag_eq_ok_iff {text : Text} {tag : CpsTag} :
    (parseCpsTag text).run = .ok (.ok tag) ↔ CpsTag.Written true (splitWhitespace text) tag := by
  refine ⟨fun h => ?_, parseCpsTag_of_written⟩
  rcases parseCpsTag_cases text with ⟨hreads, -⟩ | ⟨-, hpanics⟩ | ⟨err, herr⟩
  · obtain ⟨tag', hwritten⟩ := hreads.written
    have hsame := parseCpsTag_of_written hwritten
    rw [h] at hsame
    cases hsame
    exact hwritten
  · exact absurd ⟨_, h⟩ hpanics
  · rw [h] at herr
    cases herr

/-! ## Chains -/

/-- Where a tag is opened, as a text. -/
theorem opensTag_iff {input tag rest : Text} :
    OpensTag input tag rest ↔ '>' ∉ tag ∧ ∃ space, (∀ c ∈ space, isAsciiWhitespace c = true) ∧
      input = space ++ '<' :: (tag ++ '>' :: rest) := by
  constructor
  · rintro ⟨inner, hinner, hsplit⟩
    obtain ⟨rfl, hnot⟩ := splitOnce_eq_some_iff.mp hsplit
    refine ⟨hnot, input.takeWhile isAsciiWhitespace, fun c hc => List.mem_takeWhile_imp hc, ?_⟩
    rw [← hinner, List.takeWhile_append_dropWhile]
  · rintro ⟨hnot, space, hspace, rfl⟩
    refine ⟨tag ++ '>' :: rest, ?_, splitOnce_eq_some_iff.mpr ⟨rfl, hnot⟩⟩
    rw [List.dropWhile_append_of_pos hspace]
    exact List.dropWhile_cons_of_neg (by decide)

/-- At white space the chain is over. -/
theorem chainWritten_done {signs : Bool} {input : Text} {tags : List CpsTag}
    (hdone : input.dropWhile isAsciiWhitespace = []) :
    ChainWritten signs input tags ↔ tags = [] := by
  have hspace : ∀ c ∈ input, isAsciiWhitespace c = true := List.dropWhile_eq_nil_iff.mp hdone
  constructor
  · intro h
    cases h with
    | nil _ => rfl
    | cons _ _ _ _ => exact absurd (hspace '<' (by simp)) (by decide)
  · rintro rfl
    exact .nil hspace

/-- At a tag the chain is the tag and a chain behind it. -/
theorem chainWritten_tag {signs : Bool} {input body rest : Text} {tags : List CpsTag}
    (hopen : OpensTag input body rest) :
    ChainWritten signs input tags ↔ ∃ tag tags', tags = tag :: tags' ∧
      CpsTag.Written signs (splitWhitespace body) tag ∧ ChainWritten signs rest tags' := by
  constructor
  · intro h
    cases h with
    | nil hspace =>
      obtain ⟨inner, hinner, -⟩ := hopen
      rw [List.dropWhile_eq_nil_iff.mpr hspace] at hinner
      cases hinner
    | cons hspace hbody htag h =>
      obtain ⟨rfl, rfl⟩ := hopen.unique (opensTag_iff.mpr ⟨hbody, _, hspace, rfl⟩)
      exact ⟨_, _, rfl, htag, h⟩
  · rintro ⟨tag, tags', rfl, htag, h⟩
    obtain ⟨hnot, space, hspace, rfl⟩ := opensTag_iff.mp hopen
    exact .cons hspace hnot htag h

/-- Anything else is no chain. -/
theorem not_chainWritten_stop {signs : Bool} {input : Text} {tags : List CpsTag}
    (hdone : input.dropWhile isAsciiWhitespace ≠ [])
    (hopen : ∀ tag rest, ¬ OpensTag input tag rest) :
    ¬ ChainWritten signs input tags := by
  intro h
  cases h with
  | nil hspace => exact hdone (List.dropWhile_eq_nil_iff.mpr hspace)
  | cons hspace hbody _ _ => exact hopen _ _ (opensTag_iff.mpr ⟨hbody, _, hspace, rfl⟩)

/-- The loop adds the tags of the chain that is left. -/
theorem parseCpsLoop_eq_ok_iff (input : Text) : ∀ {offset : Nat} {before tags : List CpsTag},
    (parseCpsLoop input offset before).run = .ok (.ok tags) ↔
      ∃ more, tags = before ++ more ∧ ChainWritten true input more := by
  induction input using input_induction with
  | hdone input hdone =>
    intro offset before tags
    rw [parseCpsLoop_done hdone]
    constructor
    · intro h
      cases h
      exact ⟨[], (List.append_nil before).symm, (chainWritten_done hdone).mpr rfl⟩
    · rintro ⟨more, rfl, h⟩
      rw [(chainWritten_done hdone).mp h, List.append_nil]
      rfl
  | htag input body rest hopen ih =>
    intro offset before tags
    obtain ⟨offset', hloop⟩ := parseCpsLoop_tag hopen offset before
    rw [hloop, Fallible.bind_eq_ok]
    constructor
    · rintro ⟨tag, htag, h⟩
      rw [parseCpsTag_eq_ok_iff, splitWhitespace_trim] at htag
      obtain ⟨more, rfl, hmore⟩ := ih.mp h
      refine ⟨tag :: more, by rw [List.append_assoc]; rfl, ?_⟩
      exact (chainWritten_tag hopen).mpr ⟨tag, more, rfl, htag, hmore⟩
    · rintro ⟨more, rfl, h⟩
      obtain ⟨tag, more, rfl, htag, hmore⟩ := (chainWritten_tag hopen).mp h
      refine ⟨tag, ?_, ih.mpr ⟨more, by rw [List.append_assoc]; rfl, hmore⟩⟩
      rw [parseCpsTag_eq_ok_iff, splitWhitespace_trim]
      exact htag
  | hstop input hdone hopen =>
    intro offset before tags
    obtain ⟨err, hloop⟩ := parseCpsLoop_stop hdone hopen offset before
    rw [hloop]
    refine iff_of_false (fun h => by cases h) ?_
    rintro ⟨more, -, h⟩
    exact not_chainWritten_stop hdone hopen h

/-- **What the parser accepts.**  The grammar with signs, and the tags are those written. -/
theorem CpsChain.parse_eq_iff {input : Text} {chain : CpsChain} :
    (CpsChain.parse input).run = .ok (.ok chain) ↔
      chain.tags ≠ [] ∧ ChainWritten true input chain.tags := by
  rw [CpsChain.parse, Fallible.bind_eq_ok]
  constructor
  · rintro ⟨tags, htags, h⟩
    obtain ⟨more, rfl, hmore⟩ := (parseCpsLoop_eq_ok_iff input).mp htags
    by_cases hne : tags = []
    · rw [if_pos hne] at h
      cases h
    · rw [if_neg hne] at h
      cases h
      exact ⟨hne, hmore⟩
  · rintro ⟨hne, h⟩
    refine ⟨chain.tags, (parseCpsLoop_eq_ok_iff input).mpr ⟨chain.tags, rfl, h⟩, ?_⟩
    rw [if_neg hne]
    rfl

/-! ## Signs -/

theorem HexBytes.strict {hex : Text} {bs : Bytes} :
    HexBytes false hex bs ↔ '+' ∉ hex ∧ HexBytes true hex bs := by
  constructor
  · intro h
    induction h with
    | nil => exact ⟨by simp, .nil⟩
    | pair ha hb h ih =>
      refine ⟨?_, .pair ha hb ih.2⟩
      have hplus : toDigit 16 '+' = none := by decide
      simp only [List.mem_cons, not_or]
      refine ⟨?_, ?_, ih.1⟩
      · rintro rfl
        rw [hplus] at ha
        cases ha
      · rintro rfl
        rw [hplus] at hb
        cases hb
    | signed hsigns _ _ _ => cases hsigns
  · rintro ⟨hplus, h⟩
    induction h with
    | nil => exact .nil
    | pair ha hb h ih =>
      simp only [List.mem_cons, not_or] at hplus
      exact .pair ha hb (ih hplus.2.2)
    | signed _ _ _ _ => exact absurd List.mem_cons_self hplus

theorem Number.strict {arg : Text} {n : Nat} :
    Number false arg n ↔ '+' ∉ arg ∧ Number true arg n := by
  constructor
  · rintro ⟨digits, rfl | ⟨hsigns, -⟩, hne, hdigits, hvalue⟩
    · exact ⟨fun h => absurd (hdigits _ h) (by decide), arg, .inl rfl, hne, hdigits, hvalue⟩
    · cases hsigns
  · rintro ⟨hplus, digits, rfl | ⟨-, rfl⟩, hne, hdigits, hvalue⟩
    · exact ⟨arg, .inl rfl, hne, hdigits, hvalue⟩
    · exact absurd List.mem_cons_self hplus

/-- The names of the tags have no sign. -/
theorem lenTags_unsigned {name : String} {make : Nat → CpsTag} (h : (name, make) ∈ lenTags) :
    '+' ∉ name.toList := by
  simp only [lenTags, List.mem_cons, Prod.mk.injEq, List.not_mem_nil, or_false] at h
  rcases h with ⟨rfl, -⟩ | ⟨rfl, -⟩ | ⟨rfl, -⟩ | ⟨rfl, -⟩ <;> decide

theorem CpsTag.Written.strict {words : List Text} {tag : CpsTag} :
    CpsTag.Written false words tag ↔
      (∀ word ∈ words, '+' ∉ word) ∧ CpsTag.Written true words tag := by
  constructor
  · intro h
    cases h with
    | timestamp => exact ⟨by decide, .timestamp⟩
    | data => exact ⟨by decide, .data⟩
    | dataString => exact ⟨by decide, .dataString⟩
    | length hname harg hn =>
      obtain ⟨hplus, harg⟩ := Number.strict.mp harg
      refine ⟨?_, .length hname harg hn⟩
      simpa using ⟨lenTags_unsigned hname, hplus⟩
    | bytes hne h =>
      obtain ⟨hplus, h⟩ := HexBytes.strict.mp h
      exact ⟨by simpa using hplus, .bytes hne h⟩
  · rintro ⟨hplus, h⟩
    cases h with
    | timestamp => exact .timestamp
    | data => exact .data
    | dataString => exact .dataString
    | length hname harg hn =>
      exact .length hname (Number.strict.mpr ⟨hplus _ (by simp), harg⟩) hn
    | @bytes hex bs hne h =>
      have hhex : '+' ∉ "0x".toList ++ hex := hplus _ (by simp)
      exact .bytes hne (HexBytes.strict.mpr ⟨fun h => hhex (List.mem_append_right _ h), h⟩)

/-- A text has no sign if no word of it has one. -/
theorem plus_notMem_iff (s : Text) : '+' ∉ s ↔ ∀ word ∈ splitWhitespace s, '+' ∉ word := by
  constructor
  · exact fun h word hword hplus => h (mem_of_mem_word hword hplus)
  · intro h hplus
    rcases mem_word_or_whitespace hplus with hspace | ⟨word, hword, hmem⟩
    · exact absurd hspace (by decide)
    · exact h word hword hmem

/-- The grammar without signs is that with signs, on a text without one. -/
theorem ChainWritten.strict {input : Text} {tags : List CpsTag} :
    ChainWritten false input tags ↔ '+' ∉ input ∧ ChainWritten true input tags := by
  have hblank {space : Text} (hspace : ∀ c ∈ space, isAsciiWhitespace c = true) : '+' ∉ space :=
    fun h => absurd (hspace _ h) (by decide)
  constructor
  · intro h
    induction h with
    | nil hspace => exact ⟨hblank hspace, .nil hspace⟩
    | cons hspace hbody htag h ih =>
      obtain ⟨hwords, htag⟩ := CpsTag.Written.strict.mp htag
      have hplus := (plus_notMem_iff _).mpr hwords
      refine ⟨?_, .cons hspace hbody htag ih.2⟩
      simp [hblank hspace, hplus, ih.1]
  · rintro ⟨hplus, h⟩
    induction h with
    | nil hspace => exact .nil hspace
    | cons hspace hbody htag h ih =>
      simp only [List.mem_append, List.mem_cons, not_or] at hplus
      obtain ⟨-, -, hbodyPlus, -, hrest⟩ := hplus
      exact .cons hspace hbody
        (CpsTag.Written.strict.mpr ⟨(plus_notMem_iff _).mp hbodyPlus, htag⟩) (ih hrest)

/-- **The grammar.**  The parser comes back from a text and accepts it exactly if it is a chain
of the grammar, with the tags that are written, if and only if the text cuts no character and
is no chain with a sign in it. -/
theorem CpsChain.parse_exact_iff (input : Text) :
    ((CpsChain.parse input).run.Returns ∧ ∀ chain : CpsChain,
        (CpsChain.parse input).run = .ok (.ok chain) ↔
          chain.tags ≠ [] ∧ ChainWritten false input chain.tags) ↔
      ¬ ChainCuts input ∧
        ¬ ('+' ∈ input ∧ ∃ tags, tags ≠ [] ∧ ChainWritten true input tags) := by
  rw [CpsChain.parse_returns_iff]
  refine and_congr_right fun _ => ?_
  constructor
  · rintro h ⟨hplus, tags, hne, hwritten⟩
    have haccepted := (h ⟨tags⟩).mp (CpsChain.parse_eq_iff.mpr ⟨hne, hwritten⟩)
    exact (ChainWritten.strict.mp haccepted.2).1 hplus
  · intro h chain
    rw [CpsChain.parse_eq_iff]
    refine and_congr_right fun hne => ?_
    rw [ChainWritten.strict, iff_and_self]
    exact fun hwritten hplus => h ⟨hplus, _, hne, hwritten⟩

/-- A length and a byte with a sign are accepted, and a character cut by the units of a `<b>`
stops the parser. -/
theorem CpsChain.signs_accepted :
    (CpsChain.parse "<r +5>".toList).run = .ok (.ok ⟨[.randomBytes 5]⟩) ∧
      (CpsChain.parse "<b 0x+f>".toList).run = .ok (.ok ⟨[.bytes [15]]⟩) ∧
      (∀ tags, ¬ ChainWritten false "<r +5>".toList tags) ∧
      (∀ tags, ¬ ChainWritten false "<b 0x+f>".toList tags) ∧
      ¬ (CpsChain.parse "<b 0x0é0>".toList).run.Returns := by
  have hlength : ChainWritten true "<r +5>".toList [.randomBytes 5] := by
    have hnumber : Number true "+5".toList 5 :=
      ⟨"5".toList, .inr ⟨rfl, rfl⟩, by decide, by simp, rfl⟩
    have hwords : splitWhitespace "r +5".toList = ["r".toList, "+5".toList] := by decide
    refine @ChainWritten.cons true [] "r +5".toList [] _ _ (by simp) (by decide) ?_ (.nil (by simp))
    rw [hwords]
    exact @CpsTag.Written.length true "r" .randomBytes _ _ (by simp [lenTags]) hnumber (by decide)
  have hbytes : ChainWritten true "<b 0x+f>".toList [.bytes [15]] := by
    have hhex : HexBytes true "+f".toList [15] := .signed (y := 15) rfl rfl .nil
    have hwords : splitWhitespace "b 0x+f".toList = ["b".toList, "0x".toList ++ "+f".toList] := by
      decide
    refine @ChainWritten.cons true [] "b 0x+f".toList [] _ _ (by simp) (by decide) ?_
      (.nil (by simp))
    rw [hwords]
    exact .bytes (by decide) hhex
  refine ⟨CpsChain.parse_eq_iff.mpr ⟨by simp, hlength⟩, CpsChain.parse_eq_iff.mpr ⟨by simp, hbytes⟩,
    fun tags h => absurd (ChainWritten.strict.mp h).1 (by decide),
    fun tags h => absurd (ChainWritten.strict.mp h).1 (by decide), ?_⟩
  rw [CpsChain.parse_returns_iff, not_not]
  refine .here ⟨"b 0x0é0>".toList, by decide, show _ = some ("b 0x0é0".toList, []) by decide⟩ ?_
  exact ⟨"0é0".toList, by decide, by decide, .second (by decide) (by decide)⟩
