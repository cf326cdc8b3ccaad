import Mathlib

/-!
# Text: the `str` operations a line-oriented parser uses

A text is a `List Char`, the sequence of its Unicode scalar values.  Where an
operation counts or cuts at *bytes* of the UTF-8 encoding (`utf8Len`,
`byteSlice`), the width of each character is taken into account, and a cut inside
a character is reported as such.

The number parsers follow the documented behaviour of integer `from_str_radix`
for unsigned types: an optional `+`, then at least one digit, with the first
failing position deciding the error.
-/

/-- The scalar values of a UTF-8 string. -/
abbrev Text := List Char

namespace Text

variable {radix d : Nat} {c : Char}

/-! ## Bytes -/

/-- The length of the UTF-8 encoding. -/
def utf8Len (s : Text) : Nat := (s.map Char.utf8Size).sum

@[simp] theorem utf8Len_nil : utf8Len [] = 0 := rfl

@[simp] theorem utf8Len_cons (c : Char) (s : Text) : utf8Len (c :: s) = c.utf8Size + utf8Len s :=
  rfl

/-- Drop `n` bytes, or `none` when byte `n` is inside a character or past the end. -/
def dropBytes : Text → Nat → Option Text
  | s, 0 => some s
  | [], _ + 1 => none
  | c :: s, n + 1 => if c.utf8Size ≤ n + 1 then dropBytes s (n + 1 - c.utf8Size) else none

/-- Take `n` bytes, or `none` when byte `n` is inside a character or past the end. -/
def takeBytes : Text → Nat → Option Text
  | _, 0 => some []
  | [], _ + 1 => none
  | c :: s, n + 1 =>
      if c.utf8Size ≤ n + 1 then (takeBytes s (n + 1 - c.utf8Size)).map (c :: ·) else none

/-- `&s[i..j]`, with `none` where the indexing panics. -/
def byteSlice (s : Text) (i j : Nat) : Option Text :=
  (dropBytes s i).bind fun t => takeBytes t (j - i)

/-- After a cut that succeeds, later cuts are cuts of what is left. -/
theorem dropBytes_add {s rest : Text} {m : Nat} (h : dropBytes s m = some rest) (n : Nat) :
    dropBytes s (m + n) = dropBytes rest n := by
  fun_induction dropBytes s m with
  | case1 =>
    cases h
    rw [Nat.zero_add]
  | case2 => cases h
  | case3 c s m hle ih =>
    rw [← ih h, show m + 1 + n = (m + n) + 1 by omega, dropBytes, if_pos (by omega)]
    congr 1
    omega
  | case4 => cases h

/-! ## White space, splitting and lines -/

/-- `char::is_whitespace`: the Unicode `White_Space` property. -/
def isWhitespace (c : Char) : Bool :=
  let n := c.toNat
  decide (9 ≤ n ∧ n ≤ 13) || n == 0x20 || n == 0x85 || n == 0xA0 || n == 0x1680 ||
    decide (0x2000 ≤ n ∧ n ≤ 0x200A) || n == 0x2028 || n == 0x2029 || n == 0x202F ||
    n == 0x205F || n == 0x3000

/-- `u8::is_ascii_whitespace`. -/
def isAsciiWhitespace (c : Char) : Bool :=
  let n := c.toNat
  n == 0x20 || n == 9 || n == 10 || n == 12 || n == 13

/-- `str::trim`. -/
def trim (s : Text) : Text :=
  ((s.dropWhile isWhitespace).reverse.dropWhile isWhitespace).reverse

/-- `str::split` at a character: always at least one piece. -/
def splitChar (sep : Char) : Text → List Text
  | [] => [[]]
  | c :: s =>
      if c = sep then [] :: splitChar sep s
      else
        match splitChar sep s with
        | [] => [[c]]
        | p :: ps => (c :: p) :: ps

/-- `str::split_once` at a character. -/
def splitOnce (sep : Char) : Text → Option (Text × Text)
  | [] => none
  | c :: s =>
      if c = sep then some ([], s)
      else (splitOnce sep s).map fun p => (c :: p.1, p.2)

theorem splitOnce_length {sep : Char} {s before after : Text}
    (h : splitOnce sep s = some (before, after)) : after.length < s.length := by
  induction s generalizing before with
  | nil => simp [splitOnce] at h
  | cons c s ih =>
    rw [splitOnce] at h
    split_ifs at h with hc
    · cases h
      simp
    · obtain ⟨p, hp, heq⟩ := Option.map_eq_some_iff.mp h
      cases heq
      have hlt := ih hp
      simp only [List.length_cons]
      omega

/-- `str::split_whitespace`: the non-empty pieces between white space. -/
def splitWhitespace (s : Text) : List Text :=
  (s.splitOnP isWhitespace).filter (· ≠ [])

/-- The pieces of `str::split_inclusive('\n')`: each keeps its line feed. -/
def splitInclusive : Text → List Text
  | [] => []
  | c :: s =>
      if c = '\n' then [c] :: splitInclusive s
      else
        match splitInclusive s with
        | [] => [[c]]
        | l :: ls => (c :: l) :: ls

/-- Take one line terminator off: a line feed, and a carriage return before it. -/
def stripTerminator (line : Text) : Text :=
  match line.reverse with
  | '\n' :: '\r' :: rest => rest.reverse
  | '\n' :: rest => rest.reverse
  | _ => line

/-- `str::lines`. -/
def lines (s : Text) : List Text := (splitInclusive s).map stripTerminator

/-- `str::to_ascii_lowercase`. -/
def toAsciiLowercase (s : Text) : Text :=
  s.map fun c => if 'A' ≤ c ∧ c ≤ 'Z' then Char.ofNat (c.toNat + 32) else c

/-- `str::strip_prefix`. -/
def stripStart (p s : Text) : Option Text :=
  if p.isPrefixOf s then some (s.drop p.length) else none

/-! ## Numbers -/

/-- `std::num::IntErrorKind`, as far as unsigned parsing reaches it. -/
inductive IntErrorKind
  | empty
  | invalidDigit
  | posOverflow
  deriving DecidableEq, Repr

/-- `char::to_digit`. -/
def toDigit (radix : Nat) (c : Char) : Option Nat :=
  let d : Option Nat :=
    if '0' ≤ c ∧ c ≤ '9' then some (c.toNat - '0'.toNat)
    else if 'a' ≤ c ∧ c ≤ 'z' then some (c.toNat - 'a'.toNat + 10)
    else if 'A' ≤ c ∧ c ≤ 'Z' then some (c.toNat - 'A'.toNat + 10)
    else none
  d.filter (· < radix)

/-- The checked digit loop of `from_str_radix`, most significant digit first. -/
def digitLoop (radix max : Nat) : Nat → Text → Except IntErrorKind Nat
  | acc, [] => .ok acc
  | acc, c :: s =>
      match toDigit radix c with
      | none => .error .invalidDigit
      | some d =>
          if acc * radix + d ≤ max then digitLoop radix max (acc * radix + d) s
          else .error .posOverflow

/-- `from_str_radix` of an unsigned type whose largest value is `max`. -/
def fromStrRadix (radix max : Nat) (s : Text) : Except IntErrorKind Nat :=
  match s with
  | [] => .error .empty
  | ['+'] => .error .invalidDigit
  | ['-'] => .error .invalidDigit
  | '+' :: rest => digitLoop radix max 0 rest
  | s => digitLoop radix max 0 s

theorem toDigit_lt (h : toDigit radix c = some d) : d < radix := by
  simpa using (Option.filter_eq_some_iff.mp h).2

/-- A digit is an ASCII character. -/
theorem utf8Size_of_toDigit (h : toDigit radix c = some d) :
    c.utf8Size = 1 := by
  obtain ⟨hsome, -⟩ := Option.filter_eq_some_iff.mp h
  have hz : c ≤ 'z' := by
    split_ifs at hsome with hdigit hlower hupper
    · exact hdigit.2.trans (by decide)
    · exact hlower.2
    · exact hupper.2.trans (by decide)
  exact Char.utf8Size_eq_one_iff.mpr (UInt32.le_trans hz (by decide))

/-- Two hexadecimal digits make a byte. -/
theorem digitLoop_pair {a b : Char} {x y : Nat} (ha : toDigit 16 a = some x)
    (hb : toDigit 16 b = some y) : digitLoop 16 255 0 [a, b] = .ok (16 * x + y) := by
  have hx := toDigit_lt ha
  have hy := toDigit_lt hb
  simp only [digitLoop, ha, hb, Nat.zero_mul, Nat.zero_add]
  rw [if_pos (by omega), if_pos (by omega), Nat.mul_comm]

/-- `str::parse::<u8>`. -/
def parseU8 (s : Text) : Except IntErrorKind UInt8 := (fromStrRadix 10 255 s).map UInt8.ofNat

/-- `str::parse::<u16>`. -/
def parseU16 (s : Text) : Except IntErrorKind UInt16 := (fromStrRadix 10 65535 s).map UInt16.ofNat

/-- `str::parse::<u32>`. -/
def parseU32 (s : Text) : Except IntErrorKind UInt32 :=
  (fromStrRadix 10 4294967295 s).map UInt32.ofNat

/-- `str::parse::<usize>` on a 64-bit target. -/
def parseUsize (s : Text) : Except IntErrorKind Nat := fromStrRadix 10 (2 ^ 64 - 1) s

/-- `str::parse::<bool>`. -/
def parseBool (s : Text) : Option Bool :=
  if s = "true".toList then some true
  else if s = "false".toList then some false
  else none

/-- A number in decimal, as `format!` writes it. -/
def decimal (n : Nat) : Text := Nat.toDigits 10 n

/-! ## Hexadecimal -/

/-- An even number of hexadecimal digits, two a byte. -/
def hexDecode : Text → Option (List UInt8)
  | [] => some []
  | [_] => none
  | a :: b :: s =>
      match toDigit 16 a, toDigit 16 b with
      | some x, some y => (hexDecode s).map (UInt8.ofNat (16 * x + y) :: ·)
      | _, _ => none

end Text
