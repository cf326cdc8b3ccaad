import AwgTun.Lib.Text

/-!
# Text that is written and read back

What a program writes with `write!` and reads with the operations of `Text`: words between
white space, `key=value` lines, numbers in decimal and bytes in hexadecimal.

* `IsWord` — a piece of text that `trim` and `split_whitespace` leave whole.
* `lines_writeln`, `trim_stripTerminator` — the lines of a text written line by line.
* `fromStrRadix_decimal` — a number in decimal is read back.
* `hexDecode_hexEncode` — bytes in hexadecimal are read back.
-/

namespace Text

variable {c : Char} {s : Text} {sep : Char} {t : Text} {bytes : List UInt8} {n max : Nat}

/-! ## White space -/

/-- A word: there is something in it, and none of it is white space. -/
structure IsWord (s : Text) : Prop where
  ne_nil : s ≠ []
  solid : ∀ c ∈ s, isWhitespace c = false

theorem isWord_iff :
    s.IsWord ↔ (!s.isEmpty && s.all fun c => !isWhitespace c) = true := by
  simp only [Bool.and_eq_true, Bool.not_eq_true', List.isEmpty_eq_false_iff, List.all_eq_true]
  exact ⟨fun h => ⟨h.ne_nil, h.solid⟩, fun h => ⟨h.1, h.2⟩⟩

instance (s : Text) : Decidable s.IsWord := decidable_of_iff _ isWord_iff.symm

theorem IsWord.not_mem (h : s.IsWord) (hc : isWhitespace c = true) : c ∉ s := by
  intro hmem
  rw [h.solid c hmem] at hc
  cases hc

theorem IsWord.append (hs : s.IsWord) (ht : t.IsWord) : IsWord (s ++ t) := by
  refine ⟨by simp [hs.ne_nil], ?_⟩
  intro c hc
  rcases List.mem_append.mp hc with hc | hc
  · exact hs.solid c hc
  · exact ht.solid c hc

theorem rdropWhile_append_cons (hc : isWhitespace c = false) (s t : Text) :
    (s ++ c :: t).rdropWhile isWhitespace = s ++ c :: t.rdropWhile isWhitespace := by
  induction t using List.reverseRecOn with
  | nil =>
    rw [List.rdropWhile_concat_neg _ _ _ (by simp [hc])]
    rfl
  | append_singleton t d ih =>
    have hsplit : s ++ c :: (t ++ [d]) = (s ++ c :: t) ++ [d] := by simp
    rw [hsplit, List.rdropWhile_concat, List.rdropWhile_concat, ih]
    split_ifs
    · rfl
    · exact hsplit.symm

/-- In front of a character that is no white space, `trim` cuts at the end only. -/
theorem trim_cons (hc : isWhitespace c = false) (s : Text) :
    trim (c :: s) = c :: s.rdropWhile isWhitespace := by
  change ((c :: s).dropWhile isWhitespace).rdropWhile isWhitespace = _
  rw [List.dropWhile_cons_of_neg (by simp [hc])]
  exact rdropWhile_append_cons hc [] s

/-- A text between two characters that are no white space is whole. -/
theorem trim_enclosed {a c : Char} (ha : isWhitespace a = false) (hc : isWhitespace c = false)
    (s : Text) : trim (a :: (s ++ [c])) = a :: (s ++ [c]) := by
  rw [trim_cons ha, rdropWhile_append_cons hc]
  rfl

theorem IsWord.trim (h : s.IsWord) : Text.trim s = s := by
  cases s with
  | nil => rfl
  | cons c s =>
    rw [trim_cons (h.solid c List.mem_cons_self)]
    congr 1
    rw [List.rdropWhile_eq_self_iff]
    intro hne
    rw [h.solid _ (List.mem_cons_of_mem _ (List.getLast_mem hne))]
    simp

/-- White space between words is not cut off. -/
theorem trim_words (hs : s.IsWord) (ht : t.IsWord) (between : Text) :
    Text.trim (s ++ (between ++ t)) = s ++ (between ++ t) := by
  obtain ⟨c, s, rfl⟩ := List.exists_cons_of_ne_nil hs.ne_nil
  have hlast := List.dropLast_append_getLast ht.ne_nil
  have htext : s ++ (between ++ t) = (s ++ between ++ t.dropLast) ++ [t.getLast ht.ne_nil] := by
    rw [List.append_assoc, hlast, List.append_assoc]
  rw [List.cons_append, htext]
  exact trim_enclosed (hs.solid c List.mem_cons_self)
    (ht.solid _ (List.getLast_mem ht.ne_nil)) _

/-- White space behind a text does not matter to `trim`. -/
theorem trim_concat (hc : isWhitespace c = true) (s : Text) :
    trim (s ++ [c]) = trim s := by
  change ((s ++ [c]).dropWhile isWhitespace).rdropWhile isWhitespace =
    (s.dropWhile isWhitespace).rdropWhile isWhitespace
  rw [List.dropWhile_append]
  split_ifs with hempty
  · rw [List.isEmpty_iff.mp hempty, List.dropWhile_cons_of_pos hc]
    rfl
  · exact List.rdropWhile_concat_pos _ _ _ hc

theorem trim_rdropWhile (s : Text) : trim (s.rdropWhile isWhitespace) = trim s := by
  induction s using List.reverseRecOn with
  | nil => rfl
  | append_singleton s c ih =>
    by_cases hc : isWhitespace c = true
    · rw [List.rdropWhile_concat_pos _ _ _ hc, ih, trim_concat hc]
    · rw [List.rdropWhile_concat_neg _ _ _ hc]

theorem splitWhitespace_word (h : s.IsWord) : splitWhitespace s = [s] := by
  simp [splitWhitespace, List.splitOnP_eq_singleton h.solid, h.ne_nil]

theorem splitWhitespace_pair (hs : s.IsWord) (ht : t.IsWord) :
    splitWhitespace (s ++ ' ' :: t) = [s, t] := by
  rw [splitWhitespace, List.splitOnP_append_cons_of_forall_mem hs.solid ' ' (by decide),
    List.splitOnP_eq_singleton ht.solid]
  simp [hs.ne_nil, ht.ne_nil]

theorem splitWhitespace_append (hc : isWhitespace c = true) (s t : Text) :
    splitWhitespace (s ++ c :: t) = splitWhitespace s ++ splitWhitespace t := by
  rw [splitWhitespace, List.splitOnP_append_cons s t hc, List.filter_append]
  rfl

theorem splitWhitespace_dropWhile (s : Text) :
    splitWhitespace (s.dropWhile isWhitespace) = splitWhitespace s := by
  induction s with
  | nil => rfl
  | cons c s ih =>
    by_cases hc : isWhitespace c = true
    · rw [List.dropWhile_cons_of_pos hc, ih]
      exact (splitWhitespace_append hc [] s).symm
    · rw [List.dropWhile_cons_of_neg hc]

theorem splitWhitespace_rdropWhile (s : Text) :
    splitWhitespace (s.rdropWhile isWhitespace) = splitWhitespace s := by
  induction s using List.reverseRecOn with
  | nil => rfl
  | append_singleton s c ih =>
    by_cases hc : isWhitespace c = true
    · rw [List.rdropWhile_concat_pos _ _ _ hc, ih, splitWhitespace_append hc s []]
      exact (List.append_nil _).symm
    · rw [List.rdropWhile_concat_neg _ _ _ hc]

/-- The words of a text are those of the text without the white space around it. -/
theorem splitWhitespace_trim (s : Text) : splitWhitespace (trim s) = splitWhitespace s :=
  (splitWhitespace_rdropWhile _).trans (splitWhitespace_dropWhile s)

/-- A character of a text is white space or in a word. -/
theorem mem_word_or_whitespace (h : c ∈ s) :
    isWhitespace c = true ∨ ∃ word ∈ splitWhitespace s, c ∈ word := by
  by_cases hc : isWhitespace c = true
  · exact .inl hc
  · refine .inr ?_
    have hpiece : ∃ piece ∈ s.splitOnP isWhitespace, c ∈ piece := by
      induction s with
      | nil => cases h
      | cons d s ih =>
        rw [List.splitOnP_cons_eq_if_modifyHead]
        obtain ⟨piece, pieces, hpieces⟩ := List.exists_cons_of_ne_nil
          (List.splitOnP_ne_nil isWhitespace s)
        split_ifs with hd
        · rcases List.mem_cons.mp h with rfl | h
          · exact absurd hd hc
          · obtain ⟨piece, hpiece, hmem⟩ := ih h
            exact ⟨piece, List.mem_cons_of_mem _ hpiece, hmem⟩
        · rw [hpieces, List.modifyHead_cons]
          rcases List.mem_cons.mp h with rfl | h
          · exact ⟨c :: piece, List.mem_cons_self, List.mem_cons_self⟩
          · obtain ⟨other, hother, hmem⟩ := ih h
            rw [hpieces] at hother
            rcases List.mem_cons.mp hother with rfl | hother
            · exact ⟨d :: other, List.mem_cons_self, List.mem_cons_of_mem _ hmem⟩
            · exact ⟨other, List.mem_cons_of_mem _ hother, hmem⟩
    obtain ⟨piece, hpiece, hmem⟩ := hpiece
    exact ⟨piece, List.mem_filter.mpr ⟨hpiece, by simpa using List.ne_nil_of_mem hmem⟩, hmem⟩

/-- A character of a word is one of the text. -/
theorem mem_of_mem_word {s word : Text} (hword : word ∈ splitWhitespace s) (hc : c ∈ word) :
    c ∈ s := by
  have hpiece := (List.mem_filter.mp hword).1
  clear hword
  induction s generalizing word with
  | nil =>
    rw [List.splitOnP_nil, List.mem_singleton] at hpiece
    rw [hpiece] at hc
    cases hc
  | cons d s ih =>
    obtain ⟨piece, pieces, hpieces⟩ := List.exists_cons_of_ne_nil
      (List.splitOnP_ne_nil isWhitespace s)
    rw [List.splitOnP_cons_eq_if_modifyHead] at hpiece
    split_ifs at hpiece with hd
    · rcases List.mem_cons.mp hpiece with rfl | hpiece
      · cases hc
      · exact List.mem_cons_of_mem _ (ih hc hpiece)
    · rw [hpieces, List.modifyHead_cons] at hpiece
      rw [hpieces] at ih
      rcases List.mem_cons.mp hpiece with rfl | hpiece
      · rcases List.mem_cons.mp hc with rfl | hc
        · exact List.mem_cons_self
        · exact List.mem_cons_of_mem _ (ih hc List.mem_cons_self)
      · exact List.mem_cons_of_mem _ (ih hc (List.mem_cons_of_mem _ hpiece))

/-! ## Separators -/

theorem splitOnce_append (h : sep ∉ s) (t : Text) :
    splitOnce sep (s ++ sep :: t) = some (s, t) := by
  induction s with
  | nil => simp [splitOnce]
  | cons c s ih =>
    rw [List.mem_cons, not_or] at h
    rw [List.cons_append, splitOnce, if_neg (Ne.symm h.1), ih h.2]
    rfl

/-- What `split_once` has found. -/
theorem splitOnce_eq_some_iff {s before after : Text} :
    splitOnce sep s = some (before, after) ↔ s = before ++ sep :: after ∧ sep ∉ before := by
  constructor
  · intro h
    induction s generalizing before with
    | nil => cases h
    | cons c s ih =>
      rw [splitOnce] at h
      split_ifs at h with hc
      · cases h
        exact ⟨by rw [hc]; rfl, by simp⟩
      · obtain ⟨p, hp, heq⟩ := Option.map_eq_some_iff.mp h
        cases heq
        obtain ⟨hs, hnot⟩ := ih hp
        refine ⟨by rw [List.cons_append, ← hs], ?_⟩
        rw [List.mem_cons, not_or]
        exact ⟨Ne.symm hc, hnot⟩
  · rintro ⟨rfl, hnot⟩
    exact splitOnce_append hnot after

theorem splitOnce_eq_none_iff : splitOnce sep s = none ↔ sep ∉ s := by
  constructor
  · intro h hmem
    obtain ⟨front, rest, rfl, hfront⟩ := List.eq_append_cons_of_mem hmem
    rw [splitOnce_append hfront] at h
    cases h
  · intro h
    rw [← Option.not_isSome_iff_eq_none, Option.isSome_iff_exists]
    rintro ⟨⟨front, rest⟩, hsome⟩
    rw [(splitOnce_eq_some_iff.mp hsome).1] at h
    simp at h

theorem splitChar_of_not_mem (h : sep ∉ s) : splitChar sep s = [s] := by
  induction s with
  | nil => rfl
  | cons c s ih =>
    rw [List.mem_cons, not_or] at h
    rw [splitChar, if_neg (Ne.symm h.1), ih h.2]

theorem splitChar_append (h : sep ∉ s) (t : Text) :
    splitChar sep (s ++ sep :: t) = s :: splitChar sep t := by
  induction s with
  | nil => simp [splitChar]
  | cons c s ih =>
    rw [List.mem_cons, not_or] at h
    rw [List.cons_append, splitChar, if_neg (Ne.symm h.1), ih h.2]

/-! ## Lines -/

/-- `writeln!(out, "{}={}", key, value)`. -/
def writeln (key value : Text) : Text := key ++ '=' :: (value ++ ['\n'])

theorem splitInclusive_append {line : Text} (h : '\n' ∉ line) (rest : Text) :
    splitInclusive (line ++ '\n' :: rest) = (line ++ ['\n']) :: splitInclusive rest := by
  induction line with
  | nil => simp [splitInclusive]
  | cons c line ih =>
    rw [List.mem_cons, not_or] at h
    rw [List.cons_append, splitInclusive, if_neg (Ne.symm h.1), ih h.2]
    rfl

/-- A piece has a line feed at its end or none. -/
theorem not_mem_dropLast_of_splitInclusive {s line : Text} (h : line ∈ splitInclusive s) :
    '\n' ∉ line.dropLast := by
  induction s generalizing line with
  | nil => cases h
  | cons c s ih =>
    rw [splitInclusive] at h
    split_ifs at h with hc
    · rcases List.mem_cons.mp h with rfl | h
      · simp
      · exact ih h
    · split at h
      · cases List.mem_singleton.mp h
        simp
      · rename_i l ls hsplit
        rcases List.mem_cons.mp h with rfl | h
        · have hl : '\n' ∉ l.dropLast := ih (by rw [hsplit]; simp)
          cases l with
          | nil => simp
          | cons a l =>
            rw [List.dropLast_cons_cons, List.mem_cons, not_or]
            exact ⟨Ne.symm hc, hl⟩
        · exact ih (by rw [hsplit]; simp [h])

/-- All pieces but the last have their line feed. -/
theorem getLast?_of_mem_splitInclusive_dropLast {text line : Text}
    (h : line ∈ (splitInclusive text).dropLast) : line.getLast? = some '\n' := by
  induction text generalizing line with
  | nil => cases h
  | cons c text ih =>
    rw [splitInclusive] at h
    split_ifs at h with hc
    · cases hsplit : splitInclusive text with
      | nil =>
        rw [hsplit] at h
        cases h
      | cons piece pieces =>
        rw [hsplit, List.dropLast_cons_cons, List.mem_cons] at h
        rcases h with rfl | h
        · rw [hc]
          rfl
        · exact ih (hsplit ▸ h)
    · cases hsplit : splitInclusive text with
      | nil =>
        rw [hsplit] at h
        cases h
      | cons piece pieces =>
        simp only [hsplit] at h
        cases pieces with
        | nil => cases h
        | cons piece' pieces =>
          rw [List.dropLast_cons_cons, List.mem_cons] at h
          have hpiece : piece.getLast? = some '\n' := ih (by rw [hsplit]; simp)
          rcases h with rfl | h
          · cases piece with
            | nil => cases hpiece
            | cons a piece => exact hpiece
          · exact ih (by rw [hsplit, List.dropLast_cons_cons]; exact List.mem_cons_of_mem _ h)

/-- The terminator of a line is white space. -/
theorem trim_stripTerminator (line : Text) :
    trim (stripTerminator (line ++ ['\n'])) = trim line := by
  unfold stripTerminator
  rw [List.reverse_append, List.reverse_singleton, List.singleton_append]
  split
  · rename_i rest heq
    have hline : line = rest.reverse ++ ['\r'] := by
      have hreverse : line.reverse = '\r' :: rest := (List.cons.inj heq).2
      rw [← List.reverse_reverse line, hreverse, List.reverse_cons]
    rw [hline, trim_concat (by decide)]
  · rename_i rest _ heq
    rw [← (List.cons.inj heq).2, List.reverse_reverse]
  · rename_i hno
    exact absurd rfl (hno _)

theorem lines_writeln {key value : Text} (hkey : '\n' ∉ key) (hvalue : '\n' ∉ value) (rest : Text) :
    lines (writeln key value ++ rest) =
      stripTerminator ((key ++ '=' :: value) ++ ['\n']) :: lines rest := by
  have hline : '\n' ∉ key ++ '=' :: value := by simp [hkey, hvalue]
  have hsplit : writeln key value ++ rest = (key ++ '=' :: value) ++ '\n' :: rest := by
    simp [writeln]
  rw [lines, hsplit, splitInclusive_append hline, List.map_cons]
  rfl

/-! ## Decimal numbers -/

theorem toDigit_digitChar : ∀ d < 10, toDigit 10 (Nat.digitChar d) = some d := by decide

theorem digitLoop_concat {radix max acc n d : Nat} (h : digitLoop radix max acc s = .ok n)
    (hc : toDigit radix c = some d) (hle : n * radix + d ≤ max) :
    digitLoop radix max acc (s ++ [c]) = .ok (n * radix + d) := by
  induction s generalizing acc with
  | nil =>
    cases h
    simp only [List.nil_append, digitLoop, hc]
    rw [if_pos hle]
  | cons b s ih =>
    rw [digitLoop] at h
    rw [List.cons_append, digitLoop]
    cases hb : toDigit radix b with
    | none =>
      rw [hb] at h
      cases h
    | some x =>
      rw [hb] at h
      simp only at h ⊢
      split_ifs at h with hmax
      rw [if_pos hmax, ih h]

theorem digitLoop_decimal (h : n ≤ max) : digitLoop 10 max 0 (decimal n) = .ok n := by
  induction n using Nat.strong_induction_on with
  | _ n ih =>
    rw [decimal, Nat.toDigits_eq_if (by decide)]
    split_ifs with hlt
    · simp only [digitLoop, toDigit_digitChar n hlt, Nat.zero_mul, Nat.zero_add]
      rw [if_pos h]
    · have hdigit := toDigit_digitChar (n % 10) (Nat.mod_lt n (by decide))
      have hfront := ih (n / 10) (by omega) (by omega)
      have hloop := digitLoop_concat hfront hdigit (by omega)
      rw [Nat.div_add_mod' n 10] at hloop
      exact hloop

theorem isDigit_of_mem_decimal {n : Nat} (h : c ∈ decimal n) : c.isDigit = true :=
  Nat.isDigit_of_mem_toDigits (by decide) (by decide) h

theorem decimal_isWord (n : Nat) : (decimal n).IsWord := by
  refine ⟨Nat.toDigits_ne_nil, ?_⟩
  intro c hc
  have hdigit := isDigit_of_mem_decimal hc
  simp only [Char.isDigit, Bool.and_eq_true, decide_eq_true_eq] at hdigit
  have hlow : 48 ≤ c.toNat := hdigit.1
  have hhigh : c.toNat ≤ 57 := hdigit.2
  simp only [isWhitespace, Bool.or_eq_false_iff, decide_eq_false_iff_not, beq_eq_false_iff_ne]
  omega

theorem not_mem_decimal (h : c.isDigit = false) (n : Nat) : c ∉ decimal n := by
  intro hc
  rw [isDigit_of_mem_decimal hc] at h
  cases h

theorem fromStrRadix_of_digit {radix max : Nat} (hplus : c ≠ '+') (hminus : c ≠ '-') :
    fromStrRadix radix max (c :: s) = digitLoop radix max 0 (c :: s) := by
  unfold fromStrRadix
  split <;> simp_all

/-- A number in decimal is read back. -/
theorem fromStrRadix_decimal (h : n ≤ max) :
    fromStrRadix 10 max (decimal n) = .ok n := by
  cases hs : decimal n with
  | nil => exact absurd hs (decimal_isWord n).ne_nil
  | cons c s =>
    have hc : c ∈ decimal n := by rw [hs]; exact List.mem_cons_self
    have hne {d : Char} (hd : d.isDigit = false) : c ≠ d := by
      rintro rfl
      exact not_mem_decimal hd n hc
    rw [fromStrRadix_of_digit (hne (by decide)) (hne (by decide)), ← hs, digitLoop_decimal h]

theorem parseU16_decimal (n : UInt16) : parseU16 (decimal n.toNat) = .ok n := by
  have hle : n.toNat ≤ 65535 := Nat.le_of_lt_succ n.toNat_lt
  rw [parseU16, fromStrRadix_decimal hle]
  exact congrArg Except.ok UInt16.ofNat_toNat

theorem parseU32_decimal (n : UInt32) : parseU32 (decimal n.toNat) = .ok n := by
  have hle : n.toNat ≤ 4294967295 := Nat.le_of_lt_succ n.toNat_lt
  rw [parseU32, fromStrRadix_decimal hle]
  exact congrArg Except.ok UInt32.ofNat_toNat

/-! ## Hexadecimal -/

/-- `format!("{:02x}", byte)`. -/
def hexByte (byte : UInt8) : Text :=
  [Nat.digitChar (byte.toNat / 16), Nat.digitChar (byte.toNat % 16)]

/-- Bytes in hexadecimal, two digits each. -/
def hexEncode (bytes : List UInt8) : Text := bytes.flatMap hexByte

theorem toDigit_hexChar : ∀ d < 16, toDigit 16 (Nat.digitChar d) = some d := by decide

theorem isWhitespace_hexChar : ∀ d < 16, isWhitespace (Nat.digitChar d) = false := by decide

/-- Bytes in hexadecimal are read back. -/
theorem hexDecode_hexEncode (bytes : List UInt8) : hexDecode (hexEncode bytes) = some bytes := by
  induction bytes with
  | nil => rfl
  | cons byte bytes ih =>
    have hlt : byte.toNat < 256 := byte.toNat_lt
    have hhigh := toDigit_hexChar (byte.toNat / 16) (by omega)
    have hlow := toDigit_hexChar (byte.toNat % 16) (by omega)
    have hbyte : UInt8.ofNat (16 * (byte.toNat / 16) + byte.toNat % 16) = byte := by
      rw [Nat.div_add_mod, UInt8.ofNat_toNat]
    change hexDecode (Nat.digitChar (byte.toNat / 16) :: Nat.digitChar (byte.toNat % 16) ::
      hexEncode bytes) = _
    rw [hexDecode, hhigh, hlow]
    simp only [ih, Option.map_some, hbyte]

/-- `hex::decode` of the `hex` crate, of which it is assumed that it reads this back. -/
class Hex where
  decode : Text → Option (List UInt8)
  decode_hexEncode (bytes : List UInt8) : decode (hexEncode bytes) = some bytes

instance : Hex := ⟨hexDecode, hexDecode_hexEncode⟩

theorem hexEncode_solid (h : c ∈ hexEncode bytes) :
    isWhitespace c = false ∧ ∃ d < 16, c = Nat.digitChar d := by
  obtain ⟨byte, -, hc⟩ := List.mem_flatMap.mp h
  have hlt : byte.toNat < 256 := byte.toNat_lt
  have hdigit : ∃ d < 16, c = Nat.digitChar d := by
    simp only [hexByte, List.mem_cons, List.not_mem_nil, or_false] at hc
    rcases hc with rfl | rfl
    · exact ⟨_, by omega, rfl⟩
    · exact ⟨_, by omega, rfl⟩
  obtain ⟨d, hd, rfl⟩ := hdigit
  exact ⟨isWhitespace_hexChar d hd, d, hd, rfl⟩

theorem hexEncode_isWord (h : bytes ≠ []) : (hexEncode bytes).IsWord := by
  refine ⟨?_, fun c hc => (hexEncode_solid hc).1⟩
  cases bytes with
  | nil => exact absurd rfl h
  | cons byte bytes => simp [hexEncode, hexByte]

end Text
