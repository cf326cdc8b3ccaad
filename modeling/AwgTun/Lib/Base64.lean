import AwgTun.Lib.Bytes
import AwgTun.Lib.Text

/-!
# Canonical padded base64

The standard alphabet, three bytes to four characters, the last group padded with
`=`.  `decode` accepts the canonical spelling only: padding is required, and the
bits of the last character that encode nothing must be zero.

The main result is `decode_eq_some_iff`: a text decodes to a byte string exactly
when it is the encoding of that byte string.  `Base64` is an engine of which this is known; what
rests on it alone is stated for any.
-/

open Text

namespace StandardBase64

variable {c1 c2 c3 c4 : Char} {bs : Bytes} {c : Char} {n : Nat}

/-! ## Six bits to a character -/

/-- The standard alphabet. -/
def alphabet : Text := "ABCDEFGHIJKLMNOPQRSTUVWXYZabcdefghijklmnopqrstuvwxyz0123456789+/".toList

/-- The character for six bits. -/
def encodeSextet (n : Nat) : Char := alphabet.getD n 'A'

/-- The six bits a character stands for. -/
def decodeSextet (c : Char) : Option Nat := alphabet.idxOf? c

theorem length_alphabet : alphabet.length = 64 := by decide

theorem nodup_alphabet : alphabet.Nodup := by decide

theorem utf8Size_of_mem_alphabet (h : c ∈ alphabet) : c.utf8Size = 1 := by
  have hall : alphabet.all (fun c => c.val ≤ 127) = true := by rfl
  have hascii : ∀ c ∈ alphabet, c.val ≤ 127 := by simpa using hall
  exact Char.utf8Size_eq_one_iff.mpr (hascii c h)

theorem decodeSextet_eq_some_iff :
    decodeSextet c = some n ↔ n < 64 ∧ c = encodeSextet n := by
  rw [decodeSextet, List.idxOf?_eq_some_iff, encodeSextet]
  constructor
  · rintro ⟨hn, hc, -⟩
    rw [length_alphabet] at hn
    exact ⟨hn, by rw [List.getD_eq_getElem _ _ (by rwa [length_alphabet]), hc]⟩
  · rintro ⟨hn, rfl⟩
    have hn' : n < alphabet.length := by rwa [length_alphabet]
    refine ⟨hn', (List.getD_eq_getElem _ _ hn').symm, ?_⟩
    intro j hj heq
    rw [List.getD_eq_getElem _ _ hn'] at heq
    exact absurd (nodup_alphabet.getElem_inj_iff.mp heq) (by omega)

theorem encodeSextet_ne_pad (h : n < 64) : encodeSextet n ≠ '=' := by
  intro hpad
  have hd : decodeSextet '=' = some n := decodeSextet_eq_some_iff.mpr ⟨h, hpad.symm⟩
  exact absurd hd (by rw [show decodeSextet '=' = none by decide]; simp)

/-! ## Groups of three bytes -/

/-- The four characters for three bytes. -/
def encodeFull (a b c : UInt8) : Text :=
  [encodeSextet (a.toNat / 4), encodeSextet (a.toNat % 4 * 16 + b.toNat / 16),
    encodeSextet (b.toNat % 16 * 4 + c.toNat / 64), encodeSextet (c.toNat % 64)]

/-- The last group when two bytes are left. -/
def encodeTwo (a b : UInt8) : Text :=
  [encodeSextet (a.toNat / 4), encodeSextet (a.toNat % 4 * 16 + b.toNat / 16),
    encodeSextet (b.toNat % 16 * 4), '=']

/-- The last group when one byte is left. -/
def encodeOne (a : UInt8) : Text :=
  [encodeSextet (a.toNat / 4), encodeSextet (a.toNat % 4 * 16), '=', '=']

/-- `STANDARD.encode`. -/
def encode : Bytes → Text
  | [] => []
  | [a] => encodeOne a
  | [a, b] => encodeTwo a b
  | a :: b :: c :: rest => encodeFull a b c ++ encode rest

/-- Four characters that carry 24 bits. -/
def decodeFull (c1 c2 c3 c4 : Char) : Option (UInt8 × UInt8 × UInt8) := do
  let x1 ← decodeSextet c1
  let x2 ← decodeSextet c2
  let x3 ← decodeSextet c3
  let x4 ← decodeSextet c4
  return (UInt8.ofNat (x1 * 4 + x2 / 16), UInt8.ofNat (x2 % 16 * 16 + x3 / 4),
    UInt8.ofNat (x3 % 4 * 64 + x4))

/-- Three characters that carry 16 bits and two zero bits. -/
def decodeTwo (c1 c2 c3 : Char) : Option (UInt8 × UInt8) := do
  let x1 ← decodeSextet c1
  let x2 ← decodeSextet c2
  let x3 ← decodeSextet c3
  if x3 % 4 = 0 then
    return (UInt8.ofNat (x1 * 4 + x2 / 16), UInt8.ofNat (x2 % 16 * 16 + x3 / 4))
  else none

/-- Two characters that carry 8 bits and four zero bits. -/
def decodeOne (c1 c2 : Char) : Option UInt8 := do
  let x1 ← decodeSextet c1
  let x2 ← decodeSextet c2
  if x2 % 16 = 0 then return UInt8.ofNat (x1 * 4 + x2 / 16) else none

/-- The last group: padding is allowed here and nowhere else. -/
def decodeLast (c1 c2 c3 c4 : Char) : Option Bytes :=
  if c4 = '=' then
    if c3 = '=' then (decodeOne c1 c2).map fun a => [a]
    else (decodeTwo c1 c2 c3).map fun p => [p.1, p.2]
  else (decodeFull c1 c2 c3 c4).map fun p => [p.1, p.2.1, p.2.2]

/-- `STANDARD.decode`: the whole text in groups of four. -/
def decode : Text → Option Bytes
  | [] => some []
  | [c1, c2, c3, c4] => decodeLast c1 c2 c3 c4
  | c1 :: c2 :: c3 :: c4 :: rest =>
      match decodeFull c1 c2 c3 c4, decode rest with
      | some (a, b, c), some bs => some (a :: b :: c :: bs)
      | _, _ => none
  | _ => none

theorem decodeFull_eq_some_iff {a b c : UInt8} :
    decodeFull c1 c2 c3 c4 = some (a, b, c) ↔ [c1, c2, c3, c4] = encodeFull a b c := by
  have ha := a.toNat_lt
  have hb := b.toNat_lt
  have hc := c.toNat_lt
  simp only [decodeFull, Option.bind_eq_bind, Option.bind_eq_some_iff, Option.pure_def,
    Option.some.injEq, Prod.mk.injEq, decodeSextet_eq_some_iff, encodeFull, List.cons.injEq,
    and_true]
  constructor
  · rintro ⟨x1, ⟨h1, rfl⟩, x2, ⟨h2, rfl⟩, x3, ⟨h3, rfl⟩, x4, ⟨h4, rfl⟩, rfl, rfl, rfl⟩
    simp only [UInt8.toNat_ofNat']
    refine ⟨?_, ?_, ?_, ?_⟩ <;> congr 1 <;> omega
  · rintro ⟨rfl, rfl, rfl, rfl⟩
    refine ⟨_, ⟨?_, rfl⟩, _, ⟨?_, rfl⟩, _, ⟨?_, rfl⟩, _, ⟨?_, rfl⟩, ?_, ?_, ?_⟩
    any_goals omega
    all_goals
      apply UInt8.toNat_inj.mp
      simp only [UInt8.toNat_ofNat']
      omega

theorem decodeTwo_eq_some_iff {c1 c2 c3 : Char} {a b : UInt8} :
    decodeTwo c1 c2 c3 = some (a, b) ↔ [c1, c2, c3, '='] = encodeTwo a b := by
  have ha := a.toNat_lt
  have hb := b.toNat_lt
  simp only [decodeTwo, Option.bind_eq_bind, Option.bind_eq_some_iff, Option.pure_def,
    Option.ite_none_right_eq_some, Option.some.injEq, Prod.mk.injEq, decodeSextet_eq_some_iff,
    encodeTwo, List.cons.injEq, and_true]
  constructor
  · rintro ⟨x1, ⟨h1, rfl⟩, x2, ⟨h2, rfl⟩, x3, ⟨h3, rfl⟩, hz, rfl, rfl⟩
    simp only [UInt8.toNat_ofNat']
    refine ⟨?_, ?_, ?_⟩ <;> congr 1 <;> omega
  · rintro ⟨rfl, rfl, rfl⟩
    refine ⟨_, ⟨?_, rfl⟩, _, ⟨?_, rfl⟩, _, ⟨?_, rfl⟩, ?_, ?_, ?_⟩
    any_goals omega
    all_goals
      apply UInt8.toNat_inj.mp
      simp only [UInt8.toNat_ofNat']
      omega

theorem decodeOne_eq_some_iff {c1 c2 : Char} {a : UInt8} :
    decodeOne c1 c2 = some a ↔ [c1, c2, '=', '='] = encodeOne a := by
  have ha := a.toNat_lt
  simp only [decodeOne, Option.bind_eq_bind, Option.bind_eq_some_iff, Option.pure_def,
    Option.ite_none_right_eq_some, Option.some.injEq, decodeSextet_eq_some_iff,
    encodeOne, List.cons.injEq, and_true]
  constructor
  · rintro ⟨x1, ⟨h1, rfl⟩, x2, ⟨h2, rfl⟩, hz, rfl⟩
    simp only [UInt8.toNat_ofNat']
    refine ⟨?_, ?_⟩ <;> congr 1 <;> omega
  · rintro ⟨rfl, rfl⟩
    refine ⟨_, ⟨?_, rfl⟩, _, ⟨?_, rfl⟩, ?_, ?_⟩
    any_goals omega
    apply UInt8.toNat_inj.mp
    simp only [UInt8.toNat_ofNat']
    omega

/-! ## Whole texts -/

theorem encode_cons_three (a b c : UInt8) (rest : Bytes) :
    encode (a :: b :: c :: rest) = encodeFull a b c ++ encode rest := rfl

/-- The character at the end of an unpadded group is never padding. -/
theorem encodeFull_no_pad (a b c : UInt8) : '=' ∉ encodeFull a b c := by
  have ha := a.toNat_lt
  have hb := b.toNat_lt
  have hc := c.toNat_lt
  simp only [encodeFull, List.mem_cons, List.not_mem_nil, or_false, not_or]
  exact ⟨(encodeSextet_ne_pad (by omega)).symm, (encodeSextet_ne_pad (by omega)).symm,
    (encodeSextet_ne_pad (by omega)).symm, (encodeSextet_ne_pad (by omega)).symm⟩

theorem decodeLast_eq_some_iff :
    decodeLast c1 c2 c3 c4 = some bs ↔ [c1, c2, c3, c4] = encode bs := by
  constructor
  · intro h
    unfold decodeLast at h
    split_ifs at h with h4 h3
    · obtain ⟨a, ha, rfl⟩ := Option.map_eq_some_iff.mp h
      subst h4 h3
      exact decodeOne_eq_some_iff.mp ha
    · obtain ⟨⟨a, b⟩, hab, rfl⟩ := Option.map_eq_some_iff.mp h
      subst h4
      exact decodeTwo_eq_some_iff.mp hab
    · obtain ⟨⟨a, b, c⟩, habc, rfl⟩ := Option.map_eq_some_iff.mp h
      exact decodeFull_eq_some_iff.mp habc
  · intro h
    -- only one, two or three bytes encode to four characters
    match bs, h with
    | [a], h =>
      obtain ⟨rfl, rfl, rfl, rfl⟩ : c1 = _ ∧ c2 = _ ∧ c3 = '=' ∧ c4 = '=' := by
        simpa [encode, encodeOne] using h
      simp [decodeLast, decodeOne_eq_some_iff.mpr (show _ = encodeOne a from rfl)]
    | [a, b], h =>
      have hpad := a.toNat_lt
      have hb := b.toNat_lt
      obtain ⟨rfl, rfl, rfl, rfl⟩ : c1 = _ ∧ c2 = _ ∧ c3 = _ ∧ c4 = '=' := by
        simpa [encode, encodeTwo] using h
      rw [decodeLast, if_pos rfl, if_neg (encodeSextet_ne_pad (by omega)),
        decodeTwo_eq_some_iff.mpr (show _ = encodeTwo a b from rfl)]
      rfl
    | [a, b, c], h =>
      have hfull : [c1, c2, c3, c4] = encodeFull a b c := by simpa [encode] using h
      have h4 : c4 ≠ '=' := by
        rintro rfl
        exact encodeFull_no_pad a b c (hfull ▸ by simp)
      rw [decodeLast, if_neg h4, decodeFull_eq_some_iff.mpr hfull]
      rfl
    | a :: b :: c :: d :: rest, h =>
      have hlen := congrArg List.length h
      cases rest with
      | nil => simp [encode, encodeFull, encodeOne] at hlen
      | cons e rest =>
        cases rest with
        | nil => simp [encode, encodeFull, encodeTwo] at hlen
        | cons f rest => simp [encode, encodeFull] at hlen

/-- A text of more than one group is an encoding exactly when its first group and
the rest are. -/
theorem group_eq_encode_iff {rest : Text} (hrest : rest ≠ []) :
    c1 :: c2 :: c3 :: c4 :: rest = encode bs ↔
      ∃ a b c bs', bs = a :: b :: c :: bs' ∧ [c1, c2, c3, c4] = encodeFull a b c ∧
        rest = encode bs' := by
  constructor
  · intro h
    match bs, h with
    | [], h => simp [encode] at h
    | [a], h => simp [encode, encodeOne, hrest] at h
    | [a, b], h => simp [encode, encodeTwo, hrest] at h
    | a :: b :: c :: bs', h =>
      have happ : [c1, c2, c3, c4] ++ rest = encodeFull a b c ++ encode bs' := h
      obtain ⟨hgroup, htail⟩ := List.append_inj happ (by simp [encodeFull])
      exact ⟨a, b, c, bs', rfl, hgroup, htail⟩
  · rintro ⟨a, b, c, bs', rfl, hgroup, rfl⟩
    rw [encode_cons_three, ← hgroup]
    rfl

/-- A text decodes to a byte string exactly when it is that string's encoding. -/
theorem decode_eq_some_iff {s : Text} : decode s = some bs ↔ s = encode bs := by
  fun_induction decode s generalizing bs with
  | case1 =>
    constructor
    · intro h
      cases h
      rfl
    · intro h
      match bs, h with
      | [], _ => rfl
      | a :: b :: c :: rest, h => simp [encode, encodeFull] at h
  | case2 c1 c2 c3 c4 => exact decodeLast_eq_some_iff
  | case3 c1 c2 c3 c4 rest hrest a b c bs' htail hfull ih =>
    rw [group_eq_encode_iff hrest]
    constructor
    · intro h
      cases h
      exact ⟨a, b, c, bs', rfl, decodeFull_eq_some_iff.mp hfull, ih.mp htail⟩
    · rintro ⟨a', b', c', bs'', rfl, hgroup, hrest'⟩
      have hfull' := hfull.symm.trans (decodeFull_eq_some_iff.mpr hgroup)
      have htail' := htail.symm.trans (ih.mpr hrest')
      simp only [Option.some.injEq, Prod.mk.injEq] at hfull' htail'
      rw [hfull'.1, hfull'.2.1, hfull'.2.2, htail']
  | case4 c1 c2 c3 c4 rest hrest hno ih =>
    rw [group_eq_encode_iff hrest]
    constructor
    · intro h
      cases h
    · rintro ⟨a, b, c, bs', rfl, hgroup, hrest'⟩
      exact (hno a b c bs' (decodeFull_eq_some_iff.mpr hgroup) (ih.mpr hrest')).elim
  | case5 s h0 h4 hlong =>
    constructor
    · intro h
      cases h
    · intro h
      match bs, h with
      | [], h => exact (h0 h).elim
      | [a], h => exact (h4 _ _ _ _ h).elim
      | [a, b], h => exact (h4 _ _ _ _ h).elim
      | a :: b :: c :: rest, h => exact (hlong _ _ _ _ _ h).elim

/-- Four characters for every three bytes, begun or complete. -/
theorem length_encode (bs : Bytes) : (encode bs).length = (bs.length + 2) / 3 * 4 := by
  fun_induction encode bs with
  | case1 => rfl
  | case2 a => simp [encodeOne]
  | case3 a b => simp [encodeTwo]
  | case4 a b c rest ih =>
    simp only [List.length_append, ih, encodeFull, List.length_cons, List.length_nil]
    omega

/-- Every character of an encoding is ASCII. -/
theorem utf8Size_of_mem_encode (h : c ∈ encode bs) : c.utf8Size = 1 := by
  have hpad : ('=' : Char).utf8Size = 1 := by decide
  have hsextet : ∀ n, (encodeSextet n).utf8Size = 1 := by
    intro n
    by_cases hn : n < 64
    · rw [encodeSextet, List.getD_eq_getElem _ _ (by rwa [length_alphabet])]
      exact utf8Size_of_mem_alphabet (List.getElem_mem _)
    · rw [encodeSextet, List.getD_eq_default _ _ (by rw [length_alphabet]; omega)]
      decide
  fun_induction encode bs with
  | case1 => simp at h
  | case2 a =>
    simp only [encodeOne, List.mem_cons, List.not_mem_nil, or_false] at h
    rcases h with rfl | rfl | rfl | rfl <;> simp [hsextet, hpad]
  | case3 a b =>
    simp only [encodeTwo, List.mem_cons, List.not_mem_nil, or_false] at h
    rcases h with rfl | rfl | rfl | rfl <;> simp [hsextet, hpad]
  | case4 a b c rest ih =>
    rcases List.mem_append.mp h with h | h
    · simp only [encodeFull, List.mem_cons, List.not_mem_nil, or_false] at h
      rcases h with rfl | rfl | rfl | rfl <;> simp [hsextet]
    · exact ih h

end StandardBase64

/-- An engine for base64. -/
class Base64 where
  encode : Bytes → Text
  decode : Text → Option Bytes
  decode_eq_some_iff {s : Text} {bs : Bytes} : decode s = some bs ↔ s = encode bs
  length_encode (bs : Bytes) : (encode bs).length = (bs.length + 2) / 3 * 4
  utf8Size_of_mem_encode {bs : Bytes} {c : Char} : c ∈ encode bs → c.utf8Size = 1

instance : Base64 where
  encode := StandardBase64.encode
  decode := StandardBase64.decode
  decode_eq_some_iff := StandardBase64.decode_eq_some_iff
  length_encode := StandardBase64.length_encode
  utf8Size_of_mem_encode := StandardBase64.utf8Size_of_mem_encode

theorem Base64.decode_encode [Base64] (bs : Bytes) : decode (encode bs) = some bs :=
  decode_eq_some_iff.mpr rfl
