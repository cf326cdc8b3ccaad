import AwgTun.Amnezia.Display

/-!
# Chains that stop the parser

`parse_bytes_tag` takes the argument of `<b>` apart in units of two bytes.  A unit that ends
inside a character panics, so a chain can stop the parser where it should be refused.

* `PairsRead`, `KeyBytes.Refused`, `CutsCharacter` — the three ways such a reading can end.
* `TagReads`, `TagCuts` — the tags that are accepted and those that stop the parser.
* `ChainCuts`, `CpsChain.parse_returns_iff` — the chains that do.
-/

open Text Control Bytes KeyBytes

/-! ## Units of two bytes -/

/-- Every unit is a byte. -/
inductive PairsRead : Text → Prop
  | nil : PairsRead []
  | cons {a b : Char} {s : Text} (hyes : ReadsAsByte a b) (h : PairsRead s) :
      PairsRead (a :: b :: s)

/-- A unit ends inside a character, and every unit before it is a byte. -/
inductive CutsCharacter : Text → Prop
  /-- One character of three or four bytes. -/
  | wide {c : Char} {s : Text} (hc : 2 < c.utf8Size) : CutsCharacter (c :: s)
  /-- The second byte of the unit is the first of a longer character. -/
  | second {a b : Char} {s : Text} (ha : a.utf8Size = 1) (hb : 1 < b.utf8Size) :
      CutsCharacter (a :: b :: s)
  | later {a b : Char} {s : Text} (hyes : ReadsAsByte a b) (h : CutsCharacter s) :
      CutsCharacter (a :: b :: s)

/-- A text of an even number of bytes ends in one of three ways. -/
theorem pairs_cases {n : Nat} {s : Text} (hn : utf8Len s = 2 * n) :
    PairsRead s ∨ Refused s ∨ CutsCharacter s := by
  induction n generalizing s with
  | zero =>
    match s with
    | [] => exact .inl .nil
    | c :: s =>
      have hc := c.utf8Size_pos
      rw [utf8Len_cons] at hn
      omega
  | succ n ih =>
    match s with
    | [] => cases hn
    | [c] =>
      rw [utf8Len_cons, utf8Len_nil] at hn
      rcases Nat.lt_or_ge 2 c.utf8Size with hwide | hle
      · exact .inr (.inr (.wide hwide))
      · exact .inr (.inl (.wide (by omega)))
    | a :: b :: s =>
      have ha := a.utf8Size_pos
      have hb := b.utf8Size_pos
      rw [utf8Len_cons, utf8Len_cons] at hn
      obtain hwide | htwo | hone : 2 < a.utf8Size ∨ a.utf8Size = 2 ∨ a.utf8Size = 1 := by omega
      · exact .inr (.inr (.wide hwide))
      · exact .inr (.inl (.wide htwo))
      · rcases Nat.lt_or_ge 1 b.utf8Size with hlong | hshort
        · exact .inr (.inr (.second hone hlong))
        · have hbone : b.utf8Size = 1 := by omega
          by_cases hyes : ReadsAsByte a b
          · rcases ih (show utf8Len s = 2 * n by omega) with h | h | h
            · exact .inl (.cons hyes h)
            · exact .inr (.inl (.later hyes h))
            · exact .inr (.inr (.later hyes h))
          · exact .inr (.inl (.pair hone hbone hyes))

section Loop

variable {s rest : Text} {i : Nat} {n : Nat}

/-- A unit that ends inside a character panics. -/
theorem hexPair_panics (hrest : dropBytes s (i * 2) = some rest) (h : takeBytes rest 2 = none) :
    (hexPair s i).run = .panic "byte index is not a char boundary" := by
  simp only [hexPair, byteSlice, hrest, Option.bind_some, Nat.add_sub_cancel_left, h]
  rfl

theorem hexLoop_of_panic {p : Panic} (h : (hexPair s i).run = .error p) (n : Nat) :
    ((List.range' i (n + 1)).mapM (hexPair s)).run = .error p := by
  rw [List.range'_succ, List.mapM_cons, ExceptT.run_bind, h]
  rfl

theorem hexLoop_of_cuts (hrest : dropBytes s (i * 2) = some rest) (h : CutsCharacter rest)
    (hn : utf8Len rest = 2 * n) : ¬ ((List.range' i n).mapM (hexPair s)).run.Returns := by
  induction h generalizing i n with
  | @wide c t hc =>
    have hcut : takeBytes (c :: t) 2 = none := by
      rw [takeBytes, if_neg (by omega)]
    rw [utf8Len_cons] at hn
    obtain ⟨n, rfl⟩ := Nat.exists_eq_add_one.mpr (show 0 < n by omega)
    rw [hexLoop_of_panic (hexPair_panics hrest hcut)]
    exact Outcome.not_returns_panic _
  | @second a b t ha hb =>
    have hcut : takeBytes (a :: b :: t) 2 = none := by
      rw [takeBytes, if_pos (by omega), ha, takeBytes, if_neg (by omega)]
      rfl
    rw [utf8Len_cons] at hn
    obtain ⟨n, rfl⟩ := Nat.exists_eq_add_one.mpr (show 0 < n by omega)
    rw [hexLoop_of_panic (hexPair_panics hrest hcut)]
    exact Outcome.not_returns_panic _
  | @later a b t hyes h ih =>
    obtain ⟨ha, hb⟩ := hyes.utf8Size
    rw [utf8Len_cons, utf8Len_cons, ha, hb] at hn
    obtain ⟨n, rfl⟩ := Nat.exists_eq_add_one.mpr (show 0 < n by omega)
    obtain ⟨x, hx⟩ := hexPair_of_readsAsByte hrest hyes
    have hnext := ih (dropBytes_next hrest ha hb) (n := n) (by omega)
    rw [hexLoop_of_ok hx]
    rintro ⟨r, hr⟩
    obtain ⟨r', hr', -⟩ := map_eq_ok.mp hr
    exact hnext ⟨r', hr'⟩

theorem hexLoop_of_pairsRead (hrest : dropBytes s (i * 2) = some rest) (h : PairsRead rest)
    (hn : utf8Len rest = 2 * n) :
    ∃ bs, ((List.range' i n).mapM (hexPair s)).run = .ok (.ok bs) := by
  induction h generalizing i n with
  | nil =>
    obtain rfl : n = 0 := by
      rw [utf8Len_nil] at hn
      omega
    exact ⟨[], rfl⟩
  | @cons a b t hyes h ih =>
    obtain ⟨ha, hb⟩ := hyes.utf8Size
    rw [utf8Len_cons, utf8Len_cons, ha, hb] at hn
    obtain ⟨n, rfl⟩ := Nat.exists_eq_add_one.mpr (show 0 < n by omega)
    obtain ⟨x, hx⟩ := hexPair_of_readsAsByte hrest hyes
    obtain ⟨bs, hbs⟩ := ih (dropBytes_next hrest ha hb) (n := n) (by omega)
    exact ⟨x :: bs, by rw [hexLoop_of_ok hx, hbs]; rfl⟩

end Loop

/-! ## Tags -/

theorem PairsRead.even {s : Text} (h : PairsRead s) : utf8Len s % 2 = 0 := by
  induction h with
  | nil => rfl
  | cons hyes h ih =>
    obtain ⟨ha, hb⟩ := hyes.utf8Size
    rw [utf8Len_cons, utf8Len_cons, ha, hb]
    omega

theorem CutsCharacter.ne_nil {s : Text} (h : CutsCharacter s) : s ≠ [] := by
  rintro rfl
  cases h

/-- An argument of `<b>` that is a number of full bytes, or is refused. -/
theorem parseBytesTag_cases (arg : Option Text) :
    (∃ hex, arg = some ("0x".toList ++ hex) ∧ hex ≠ [] ∧ utf8Len hex % 2 = 0) ∨
      ∃ err, parseBytesTag arg = throw err := by
  cases hstrip : arg.bind (stripStart "0x".toList) with
  | none =>
    refine .inr ⟨.invalidCps "<b> requires a 0x-prefixed hex argument".toList, ?_⟩
    rw [parseBytesTag, hstrip]
  | some hex =>
    obtain ⟨text, rfl, hpre⟩ := Option.bind_eq_some_iff.mp hstrip
    by_cases hne : hex = []
    · refine .inr ⟨.invalidCps "<b> hex data is empty".toList, ?_⟩
      simp only [parseBytesTag, hstrip, if_pos hne]
      rfl
    by_cases heven : utf8Len hex % 2 = 0
    · refine .inl ⟨hex, ?_, hne, heven⟩
      unfold stripStart at hpre
      split_ifs at hpre with hprefix
      cases hpre
      obtain ⟨rest, rfl⟩ := List.isPrefixOf_iff_prefix.mp hprefix
      rw [List.drop_left]
    · refine .inr ⟨.invalidCps "<b> hex data must contain full bytes".toList, ?_⟩
      simp only [parseBytesTag, hstrip, if_neg hne, ne_eq, heven, not_false_eq_true, if_true]
      rfl

section Bytes

variable {hex : Text}

theorem parseBytesTag_of_pairsRead (hne : hex ≠ []) (h : PairsRead hex) :
    ∃ bs, (parseBytesTag (some ("0x".toList ++ hex))).run = .ok (.ok (.bytes bs)) := by
  have hlen : utf8Len hex = 2 * (utf8Len hex / 2) := by have := h.even; omega
  obtain ⟨bs, hbs⟩ := hexLoop_of_pairsRead (i := 0) (by rw [dropBytes]) h hlen
  refine ⟨bs, ?_⟩
  rw [parseBytesTag_eq hne h.even, ExceptT.ext hbs]
  rfl

theorem parseBytesTag_of_refused (hne : hex ≠ []) (heven : utf8Len hex % 2 = 0) (h : Refused hex) :
    ∃ err, (parseBytesTag (some ("0x".toList ++ hex))).run = .ok (.error err) := by
  have hlen : utf8Len hex = 2 * (utf8Len hex / 2) := by omega
  have hloop := hexLoop_of_refused (i := 0) (by rw [dropBytes]) h hlen
  refine ⟨.invalidCps "<b> contains non-hex data".toList, ?_⟩
  rw [parseBytesTag_eq hne heven, ExceptT.ext hloop]
  rfl

theorem parseBytesTag_of_cuts (heven : utf8Len hex % 2 = 0) (h : CutsCharacter hex) :
    ¬ (parseBytesTag (some ("0x".toList ++ hex))).run.Returns := by
  have hlen : utf8Len hex = 2 * (utf8Len hex / 2) := by omega
  have hloop := hexLoop_of_cuts (i := 0) (by rw [dropBytes]) h hlen
  rw [parseBytesTag_eq h.ne_nil heven]
  rintro ⟨r, hr⟩
  rw [ExceptT.run_bind] at hr
  obtain ⟨r', hr', -⟩ := bind_eq_ok.mp hr
  obtain ⟨r'', hr'', -⟩ := map_eq_ok.mp hr'
  exact hloop ⟨r'', hr''⟩

end Bytes

/-- The tag is accepted: it has a name and at most one argument, and the argument is what
the name asks for. -/
inductive TagReads (text : Text) : Prop
  | bare {name : String} (hname : name ∈ ["t", "d", "ds"])
      (hparts : splitWhitespace text = [name.toList]) : TagReads text
  | length {name : String} {arg : Text} {len : Nat} (hname : name ∈ ["r", "rc", "rd", "dz"])
      (hparts : splitWhitespace text = [name.toList, arg]) (harg : parseUsize arg = .ok len)
      (hlen : len ≤ awg2MaxCpsRandomLen) : TagReads text
  | bytes {hex : Text} (hparts : splitWhitespace text = ["b".toList, "0x".toList ++ hex])
      (hne : hex ≠ []) (h : PairsRead hex) : TagReads text

/-- The tag stops the parser: it is a `<b>` whose argument is cut inside a character. -/
def TagCuts (text : Text) : Prop :=
  ∃ hex, splitWhitespace text = ["b".toList, "0x".toList ++ hex] ∧ utf8Len hex % 2 = 0 ∧
    CutsCharacter hex

section Tag

variable {text : Text} {name : String} {arg : Option Text}

/-- A tag with a length as its argument is accepted or refused. -/
theorem lenTag_cases (hname : name ∈ ["r", "rc", "rd", "dz"])
    (hparts : splitWhitespace text = name.toList :: arg.toList) (make : Nat → CpsTag) :
    (TagReads text ∧
        ∃ tag, (Fallible.ofExcept ((parseLenTag name arg).map make)).run = .ok (.ok tag)) ∨
      ∃ err, (Fallible.ofExcept ((parseLenTag name arg).map make)).run = .ok (.error err) := by
  cases hrun : parseLenTag name arg with
  | error err => exact .inr ⟨err, rfl⟩
  | ok len =>
    refine .inl ⟨?_, make len, rfl⟩
    have hlen := parseLenTag_le hrun
    unfold parseLenTag at hrun
    split at hrun
    · cases hrun
    · rename_i a
      split at hrun
      · cases hrun
      · rename_i n hn
        split_ifs at hrun
        cases hrun
        exact .length hname hparts hn hlen

/-- A tag without argument is accepted or refused. -/
theorem bareTag_cases (hname : name ∈ ["t", "d", "ds"])
    (hparts : splitWhitespace text = name.toList :: arg.toList) (tag : CpsTag) :
    (TagReads text ∧
        ∃ tag', (Fallible.ofExcept ((rejectArg name arg).map fun _ => tag)).run = .ok (.ok tag')) ∨
      ∃ err, (Fallible.ofExcept ((rejectArg name arg).map fun _ => tag)).run =
        .ok (.error err) := by
  cases arg with
  | none => exact .inl ⟨.bare hname hparts, tag, rfl⟩
  | some a => exact .inr ⟨_, rfl⟩

/-- A tag of bytes is accepted, stops the parser, or is refused. -/
theorem bytesTag_cases (hparts : splitWhitespace text = "b".toList :: arg.toList) :
    (TagReads text ∧ ∃ tag, (parseBytesTag arg).run = .ok (.ok tag)) ∨
      (TagCuts text ∧ ¬ (parseBytesTag arg).run.Returns) ∨
      ∃ err, (parseBytesTag arg).run = .ok (.error err) := by
  rcases parseBytesTag_cases arg with ⟨hex, rfl, hne, heven⟩ | ⟨err, herr⟩
  · rcases pairs_cases (show utf8Len hex = 2 * (utf8Len hex / 2) by omega) with h | h | h
    · obtain ⟨bs, hbs⟩ := parseBytesTag_of_pairsRead hne h
      exact .inl ⟨.bytes hparts hne h, _, hbs⟩
    · exact .inr (.inr (parseBytesTag_of_refused hne heven h))
    · exact .inr (.inl ⟨⟨hex, hparts, heven, h⟩, parseBytesTag_of_cuts heven h⟩)
  · exact .inr (.inr ⟨err, by rw [herr]; rfl⟩)

end Tag

/-- **Tags.**  A tag is accepted, stops the parser, or is refused. -/
theorem parseCpsTag_cases (text : Text) :
    (TagReads text ∧ ∃ tag, (parseCpsTag text).run = .ok (.ok tag)) ∨
      (TagCuts text ∧ ¬ (parseCpsTag text).run.Returns) ∨
      ∃ err, (parseCpsTag text).run = .ok (.error err) := by
  generalize hrun : parseCpsTag text = r
  simp only [parseCpsTag] at hrun
  split at hrun
  · subst hrun
    exact .inr (.inr ⟨_, rfl⟩)
  rename_i word hword
  split_ifs at hrun with hmore
  · subst hrun
    exact .inr (.inr ⟨_, rfl⟩)
  have hparts : splitWhitespace text = word :: (splitWhitespace text)[1]?.toList := by
    generalize splitWhitespace text = parts at hword hmore ⊢
    rcases parts with _ | ⟨a, _ | ⟨b, _ | ⟨c, rest⟩⟩⟩
    · cases hword
    · cases hword
      rfl
    · cases hword
      rfl
    · simp at hmore
  generalize (splitWhitespace text)[1]? = arg at hrun hparts
  have htwo {P Q : Prop} {r : Fallible ConfigError CpsTag}
      (h : (TagReads text ∧ ∃ tag, r.run = .ok (.ok tag)) ∨ ∃ err, r.run = .ok (.error err)) :
      (TagReads text ∧ ∃ tag, r.run = .ok (.ok tag)) ∨ (P ∧ Q) ∨ ∃ err, r.run = .ok (.error err) :=
    h.imp_right .inr
  have hname {name : String} (h : String.ofList word = name) :
      splitWhitespace text = name.toList :: arg.toList := by
    rw [hparts, ← h, String.toList_ofList]
  split at hrun <;> subst hrun
  case h_1 heq => exact bytesTag_cases (hname heq)
  case h_2 heq => exact htwo (bareTag_cases (by simp) (hname heq) .timestamp)
  case h_3 heq => exact htwo (lenTag_cases (by simp) (hname heq) .randomBytes)
  case h_4 heq => exact htwo (lenTag_cases (by simp) (hname heq) .randomChars)
  case h_5 heq => exact htwo (lenTag_cases (by simp) (hname heq) .randomDigits)
  case h_6 heq => exact htwo (bareTag_cases (by simp) (hname heq) .data)
  case h_7 heq => exact htwo (bareTag_cases (by simp) (hname heq) .dataString)
  case h_8 heq => exact htwo (lenTag_cases (by simp) (hname heq) .dataSize)
  case h_9 => exact .inr (.inr ⟨_, rfl⟩)

/-- The parser of a tag, by name and argument. -/
theorem parseCpsTag_bytes {text arg : Text} (h : splitWhitespace text = ["b".toList, arg]) :
    parseCpsTag text = parseBytesTag (some arg) := by
  simp [parseCpsTag, h]

theorem parseCpsTag_of_reads {text : Text} (h : TagReads text) :
    ∃ tag, (parseCpsTag text).run = .ok (.ok tag) := by
  cases h with
  | @bare name hname hparts =>
    fin_cases hname <;> simp only [parseCpsTag, hparts] <;> exact ⟨_, rfl⟩
  | @length name arg len hname hparts harg hlen =>
    have hrun (name : String) : parseLenTag name (some arg) = .ok len := by
      simp only [parseLenTag, harg]
      rw [if_neg (Nat.not_lt.mpr hlen)]
    fin_cases hname <;>
      simp only [parseCpsTag, hparts, List.getElem?_cons_zero, List.getElem?_cons_succ,
        List.getElem?_nil, Option.isSome_none, Bool.false_eq_true, if_false, String.ofList_toList,
        hrun] <;>
      exact ⟨_, rfl⟩
  | bytes hparts hne h =>
    obtain ⟨bs, hbs⟩ := parseBytesTag_of_pairsRead hne h
    exact ⟨_, by rw [parseCpsTag_bytes hparts, hbs]⟩

/-- The tag parser comes back exactly if the tag does not cut a character. -/
theorem parseCpsTag_returns_iff (text : Text) :
    (parseCpsTag text).run.Returns ↔ ¬ TagCuts text := by
  constructor
  · rintro hreturns ⟨hex, hparts, heven, h⟩
    rw [parseCpsTag_bytes hparts] at hreturns
    exact parseBytesTag_of_cuts heven h hreturns
  · intro hno
    rcases parseCpsTag_cases text with ⟨-, tag, htag⟩ | ⟨hcuts, -⟩ | ⟨err, herr⟩
    · exact ⟨_, htag⟩
    · exact absurd hcuts hno
    · exact ⟨_, herr⟩

/-! ## Chains -/

/-- A tag of the chain cuts a character, and every tag before it is accepted. -/
inductive ChainCuts : Text → Prop
  | here {input tag rest : Text} (hopen : OpensTag input tag rest) (h : TagCuts (trim tag)) :
      ChainCuts input
  | later {input tag rest : Text} (hopen : OpensTag input tag rest) (htag : TagReads (trim tag))
      (h : ChainCuts rest) : ChainCuts input

theorem OpensTag.unique {input tag rest tag' rest' : Text} (h : OpensTag input tag rest)
    (h' : OpensTag input tag' rest') : tag = tag' ∧ rest = rest' := by
  obtain ⟨inner, hinner, hsplit⟩ := h
  obtain ⟨inner', hinner', hsplit'⟩ := h'
  rw [hinner] at hinner'
  cases hinner'
  rw [hsplit] at hsplit'
  cases hsplit'
  exact ⟨rfl, rfl⟩

/-- A chain cuts a character in its first tag, or behind it. -/
theorem chainCuts_iff {input tag rest : Text} (hopen : OpensTag input tag rest) :
    ChainCuts input ↔ TagCuts (trim tag) ∨ (TagReads (trim tag) ∧ ChainCuts rest) := by
  constructor
  · intro h
    cases h with
    | here hopen' h =>
      obtain ⟨rfl, rfl⟩ := hopen.unique hopen'
      exact .inl h
    | later hopen' htag h =>
      obtain ⟨rfl, rfl⟩ := hopen.unique hopen'
      exact .inr ⟨htag, h⟩
  · rintro (h | ⟨htag, h⟩)
    · exact .here hopen h
    · exact .later hopen htag h

/-- The loop comes back exactly if the chain does not cut a character. -/
theorem parseCpsLoop_returns_iff (input : Text) :
    ∀ (offset : Nat) (tags : List CpsTag),
      (parseCpsLoop input offset tags).run.Returns ↔ ¬ ChainCuts input := by
  induction input using input_induction with
  | hdone input hdone =>
    intro offset tags
    rw [parseCpsLoop_done hdone]
    refine iff_of_true ⟨_, rfl⟩ fun h => ?_
    cases h with
    | here hopen _ | later hopen _ _ =>
      obtain ⟨inner, hinner, -⟩ := hopen
      rw [hdone] at hinner
      cases hinner
  | htag input tag rest hopen ih =>
    intro offset tags
    obtain ⟨offset', hloop⟩ := parseCpsLoop_tag hopen offset tags
    rw [hloop, chainCuts_iff hopen, ExceptT.run_bind]
    rcases parseCpsTag_cases (trim tag) with ⟨hreads, parsed, hparsed⟩ |
      ⟨hcuts, hpanics⟩ | ⟨err, herr⟩
    · have hnocut := (parseCpsTag_returns_iff (trim tag)).mp ⟨_, hparsed⟩
      rw [hparsed]
      change (parseCpsLoop rest offset' (tags ++ [parsed])).run.Returns ↔ _
      rw [ih]
      simp [hnocut, hreads]
    · refine iff_of_false ?_ fun h => h (.inl hcuts)
      rintro ⟨r, hr⟩
      obtain ⟨r', hr', -⟩ := bind_eq_ok.mp hr
      exact hpanics ⟨r', hr'⟩
    · have hnocut := (parseCpsTag_returns_iff (trim tag)).mp ⟨_, herr⟩
      have hnoread : ¬ TagReads (trim tag) := by
        intro hreads
        obtain ⟨t, ht⟩ := parseCpsTag_of_reads hreads
        rw [herr] at ht
        cases ht
      rw [herr]
      exact iff_of_true ⟨_, rfl⟩ (by simp [hnocut, hnoread])
  | hstop input hdone hopen =>
    intro offset tags
    obtain ⟨err, hloop⟩ := parseCpsLoop_stop hdone hopen offset tags
    rw [hloop]
    refine iff_of_true ⟨_, rfl⟩ fun h => ?_
    cases h with
    | here hopen' _ | later hopen' _ _ => exact hopen _ _ hopen'

/-- **Chains that stop the parser.**  The parser of a chain comes back exactly if no tag of
it is cut inside a character. -/
theorem CpsChain.parse_returns_iff (input : Text) :
    (CpsChain.parse input).run.Returns ↔ ¬ ChainCuts input := by
  rw [← parseCpsLoop_returns_iff input 0 [], CpsChain.parse]
  refine Fallible.returns_bind_iff fun tags => ?_
  cases tags with
  | nil => exact ⟨_, rfl⟩
  | cons tag tags => exact ⟨_, rfl⟩
