import AwgTun.Lib.Base64
import AwgTun.Amnezia.Config

/-!
# Init-packet chains

The I1-I5 packets are described by chains of tags such as `<b 0xc0ff><t><r 16>`.
This file embeds the parser of that notation and the generator that turns a chain
into the bytes of one datagram.

The parser cuts the argument of `<b>` at byte positions, so a chain with a
multi-byte character in it can stop the program; the generator writes each tag
into a buffer of the announced length.
-/

open Text Control Bytes

/-- One tag of a chain. -/
inductive CpsTag
  | bytes (bs : Bytes)
  | timestamp
  | randomBytes (len : Nat)
  | randomChars (len : Nat)
  | randomDigits (len : Nat)
  | data
  | dataString
  | dataSize (len : Nat)
  deriving DecidableEq, Repr

/-- A parsed chain. -/
structure CpsChain where
  tags : List CpsTag
  deriving DecidableEq, Repr

/-- `AWG2_MAX_CPS_RANDOM_LEN`: the largest possible datagram. -/
def awg2MaxCpsRandomLen : Nat := 65535

/-! ## Parsing -/

/-- `reject_arg`. -/
def rejectArg (tag : String) (arg : Option Text) : Except ConfigError Unit :=
  if arg.isSome then
    .error (.invalidCps ('<' :: (tag.toList ++ "> does not take an argument".toList)))
  else .ok ()

/-- `parse_len_tag`. -/
def parseLenTag (tag : String) (arg : Option Text) : Except ConfigError Nat :=
  match arg with
  | none => .error (.invalidCps ('<' :: (tag.toList ++ "> requires a length argument".toList)))
  | some arg =>
      match parseUsize arg with
      | .error _ =>
          .error (.invalidCps
            ('<' :: (tag.toList ++ "> length must be a non-negative integer".toList)))
      | .ok len =>
          if len > awg2MaxCpsRandomLen then .error (.cpsValueOutOfRange tag len awg2MaxCpsRandomLen)
          else .ok len

/-- One byte of a hexadecimal argument; the cut panics inside a character. -/
def parseHexPair (hex : Text) (idx : Nat) : Fallible ConfigError UInt8 :=
  match byteSlice hex idx (idx + 2) with
  | none => Fallible.ofOutcome (.panic "byte index is not a char boundary")
  | some pair =>
      Fallible.ofExcept <|
        match fromStrRadix 16 255 pair with
        | .error _ => .error (.invalidCps "<b> contains non-hex data".toList)
        | .ok v => .ok (UInt8.ofNat v)

/-- `parse_bytes_tag`. -/
def parseBytesTag (arg : Option Text) : Fallible ConfigError CpsTag :=
  match arg.bind (stripStart "0x".toList) with
  | none => throw (.invalidCps "<b> requires a 0x-prefixed hex argument".toList)
  | some hex => do
      if hex = [] then throw (.invalidCps "<b> hex data is empty".toList)
      if utf8Len hex % 2 ≠ 0 then
        throw (.invalidCps "<b> hex data must contain full bytes".toList)
      let bytes ← (List.range (utf8Len hex / 2)).mapM fun i => parseHexPair hex (2 * i)
      return .bytes bytes

/-- `parse_cps_tag`. -/
def parseCpsTag (tag : Text) : Fallible ConfigError CpsTag :=
  let parts := splitWhitespace tag
  match parts[0]? with
  | none => throw (.invalidCps "empty tag".toList)
  | some name =>
      let arg := parts[1]?
      if parts[2]?.isSome then
        throw (.invalidCps ('<' :: (name ++ "> has too many arguments".toList)))
      else
        match String.ofList name with
        | "b" => parseBytesTag arg
        | "t" => Fallible.ofExcept ((rejectArg "t" arg).map fun _ => .timestamp)
        | "r" => Fallible.ofExcept ((parseLenTag "r" arg).map .randomBytes)
        | "rc" => Fallible.ofExcept ((parseLenTag "rc" arg).map .randomChars)
        | "rd" => Fallible.ofExcept ((parseLenTag "rd" arg).map .randomDigits)
        | "d" => Fallible.ofExcept ((rejectArg "d" arg).map fun _ => .data)
        | "ds" => Fallible.ofExcept ((rejectArg "ds" arg).map fun _ => .dataString)
        | "dz" => Fallible.ofExcept ((parseLenTag "dz" arg).map .dataSize)
        | _ => throw (.unsupportedCpsTag name)

/-- `CpsParser::skip_whitespace`: the rest of the input and its byte offset. -/
def skipWhitespace (input : Text) (offset : Nat) : Text × Nat :=
  let rest := input.dropWhile isAsciiWhitespace
  (rest, offset + (input.length - rest.length))

/-- The loop of `CpsParser::parse`, on the input that is left. -/
def parseCpsLoop (input : Text) (offset : Nat) (tags : List CpsTag) :
    Fallible ConfigError (List CpsTag) :=
  match _hskip : skipWhitespace input offset with
  | ([], _) => return tags
  | (c :: rest, offset) =>
      if c ≠ '<' then
        throw (.invalidCps ("expected `<` at byte ".toList ++ decimal offset))
      else
        match _hsplit : splitOnce '>' rest with
        | none => throw (.invalidCps "missing closing `>`".toList)
        | some (tag, rest') => do
            let parsed ← parseCpsTag (trim tag)
            parseCpsLoop rest' (offset + 1 + utf8Len tag + 1) (tags ++ [parsed])
termination_by input.length
decreasing_by
  have hdrop : (input.dropWhile isAsciiWhitespace).length ≤ input.length :=
    (List.dropWhile_suffix _).length_le
  simp only [skipWhitespace, Prod.mk.injEq] at _hskip
  have hlen := splitOnce_length _hsplit
  rw [_hskip.1, List.length_cons] at hdrop
  omega

/-- `CpsChain::parse`. -/
def CpsChain.parse (input : Text) : Fallible ConfigError CpsChain := do
  let tags ← parseCpsLoop input 0 []
  if tags = [] then throw (.invalidCps "empty chain".toList)
  return ⟨tags⟩

/-! ## Generation -/

/-- `CpsTag::encoded_len`. -/
def CpsTag.encodedLen (dataLen : Nat) : CpsTag → Nat
  | .bytes bs => bs.length
  | .timestamp => 4
  | .randomBytes len => len
  | .randomChars len => len
  | .randomDigits len => len
  | .data => dataLen
  | .dataString => if dataLen = 0 then 0 else (dataLen + 2) / 3 * 4
  | .dataSize len => len

/-- `CpsChain::encoded_len`. -/
def CpsChain.encodedLen (chain : CpsChain) (dataLen : Nat) : Nat :=
  (chain.tags.map (CpsTag.encodedLen dataLen)).sum

/-- The letters `<rc>` draws from. -/
def alpha : Text := "abcdefghijklmnopqrstuvwxyzABCDEFGHIJKLMNOPQRSTUVWXYZ".toList

section Generate

variable {ε : Type} [Env ε]

/-- `n` values, each drawn from `0..=top` and rendered as a byte. -/
def drawBytes (top : UInt32) (render : Nat → UInt8) : Nat → ε → Bytes × ε
  | 0, e => ([], e)
  | n + 1, e =>
      let (v, e) := genRangeU32 e 0 top
      let (bs, e) := drawBytes top render n e
      (render v.toNat :: bs, e)

variable [Base64]

/-- The bytes a tag stands for, before they are written. -/
def CpsTag.encoding (data : Bytes) (tag : CpsTag) (e : ε) : Outcome (Bytes × ε) :=
  match tag with
  | .bytes bs => .ok (bs, e)
  | .timestamp =>
      let (now, e) := Env.systemTimeNow e
      .ok (beBytes 4 (UInt32.ofNat (Duration.asSecs now)).toNat, e)
  | .randomBytes len =>
      let (buf, e) := RandomSource.fillBytes e len
      .ok (buf.toList, e)
  | .randomChars len =>
      .ok (drawBytes 51 (fun v => UInt8.ofNat (alpha.getD v 'a').toNat) len e)
  | .randomDigits len => .ok (drawBytes 9 (fun v => UInt8.ofNat (48 + v)) len e)
  | .data => .ok (data, e)
  | .dataString => .ok ((Base64.encode data).map fun c => UInt8.ofNat c.toNat, e)
  | .dataSize len =>
      -- `8 - len` wraps for a longer tag, and the slice of eight bytes then panics
      if len ≤ 8 then .ok ((beBytes 8 data.length).drop (8 - len), e)
      else .panic "range start index out of range for slice"

/-- `CpsTag::generate`: the number of bytes written, and the buffer. -/
def CpsTag.generate (data out : Bytes) (offset : Nat) (tag : CpsTag) (e : ε) :
    Outcome (Nat × Bytes × ε) := do
  let (bs, e) ← tag.encoding data e
  let out ← copyAt out offset bs
  return (bs.length, out, e)

/-- The loop of `CpsChain::generate`. -/
def generateLoop (data : Bytes) : List CpsTag → Nat → Bytes → ε → Outcome (Bytes × ε)
  | [], _, out, e => .ok (out, e)
  | tag :: tags, offset, out, e => do
      let (written, out, e) ← tag.generate data out offset e
      generateLoop data tags (offset + written) out e

/-- `CpsChain::generate`. -/
def CpsChain.generate (chain : CpsChain) (data : Bytes) (e : ε) : Outcome (Bytes × ε) :=
  generateLoop data chain.tags 0 (List.replicate (chain.encodedLen data.length) 0) e

/-- `CpsChain::generate_for_init`. -/
def CpsChain.generateForInit (chain : CpsChain) (e : ε) : Outcome (Bytes × ε) := chain.generate [] e

end Generate
