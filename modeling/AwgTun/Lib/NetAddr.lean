import AwgTun.Lib.Bytes
import AwgTun.Lib.PrefixTable
import AwgTun.Lib.Text

/-!
# Network addresses

The addresses of `std::net`, the networks they lie in, and their text forms.  The
readers follow the parser of the standard library: each takes a text and gives a value
with the text behind it, or nothing.

* `BitVec.keepHigh` — the first bits of a fixed-width address, which makes `IpAddr` an
  instance of `Prefixed`.
* `IpAddr.parse`, `SocketAddr.parse` — `str::parse` at these types.
-/

open Bytes Text

/-- The first `n` bits, followed by zeros. -/
def BitVec.keepHigh {w : Nat} (a : BitVec w) (n : Nat) : BitVec w := (a >>> (w - n)) <<< (w - n)

theorem BitVec.getLsbD_keepHigh {w : Nat} (a : BitVec w) (n i : Nat) :
    (a.keepHigh n).getLsbD i = (decide (w - n ≤ i) && a.getLsbD i) := by
  rw [keepHigh, getLsbD_shiftLeft, getLsbD_ushiftRight]
  by_cases hi : i < w
  · by_cases hk : w - n ≤ i
    · simp [hi, hk]
    · simp [hk, Nat.lt_of_not_le hk]
  · simp [hi, getLsbD_of_ge a i (by omega)]

theorem BitVec.keepHigh_keepHigh {w : Nat} (a : BitVec w) (m n : Nat) :
    (a.keepHigh m).keepHigh n = a.keepHigh (min m n) := by
  apply eq_of_getLsbD_eq
  intro i _
  rw [getLsbD_keepHigh, getLsbD_keepHigh, getLsbD_keepHigh, ← Bool.and_assoc, ← Bool.decide_and]
  congr 1
  rw [decide_eq_decide]
  omega

theorem BitVec.keepHigh_width {w : Nat} (a : BitVec w) : a.keepHigh w = a := by
  simp [keepHigh]

/-- `std::net::IpAddr`. -/
inductive IpAddr
  | v4 (addr : BitVec 32)
  | v6 (addr : BitVec 128)
  deriving DecidableEq, Repr

namespace IpAddr

/-- `IpAddr::from([u8; 4])`. -/
def ofBytesV4 (bs : Bytes) : BitVec 32 := BitVec.ofNat 32 (beNat bs)

/-- `IpAddr::from([u8; 16])`. -/
def ofBytesV6 (bs : Bytes) : BitVec 128 := BitVec.ofNat 128 (beNat bs)

/-- The number of bits. -/
def bits : IpAddr → Nat
  | v4 _ => 32
  | v6 _ => 128

/-- The first `n` bits, followed by zeros. -/
def keepHigh : IpAddr → Nat → IpAddr
  | v4 addr, n => v4 (addr.keepHigh n)
  | v6 addr, n => v6 (addr.keepHigh n)

instance : Prefixed IpAddr where
  width := bits
  truncate := keepHigh
  width_truncate a n := by cases a <;> rfl
  truncate_truncate a m n := by cases a <;> simp [keepHigh, BitVec.keepHigh_keepHigh]
  truncate_width a := by cases a <;> simp [keepHigh, bits, BitVec.keepHigh_width]

end IpAddr

/-- `std::net::SocketAddr`. -/
inductive SocketAddr
  | v4 (ip : BitVec 32) (port : UInt16)
  | v6 (ip : BitVec 128) (port : UInt16) (flowinfo scopeId : UInt32)
  deriving DecidableEq, Repr

/-! ## Reading -/

namespace NetText

/-- `read_given_char`. -/
def readGivenChar (target : Char) : Text → Option Text
  | [] => none
  | c :: s => if c = target then some s else none

/-- `read_number`: at most `maxDigits` digits of a number of at most `max`. -/
def readNumber (radix : Nat) (maxDigits : Option Nat) (allowZeroPrefix : Bool) (max : Nat)
    (s : Text) : Option (Nat × Text) :=
  let isDigit := fun c => (toDigit radix c).isSome
  let digits := s.takeWhile isDigit
  let hasLeadingZero := s.head? == some '0'
  let result := digits.foldl (fun acc c => acc * radix + (toDigit radix c).getD 0) 0
  if digits = [] then none
  else if maxDigits.any (· < digits.length) then none
  else if !allowZeroPrefix && hasLeadingZero && decide (digits.length > 1) then none
  else if result ≤ max then some (result, s.dropWhile isDigit)
  else none

/-- `read_separator`: the separator stands before every group but the first. -/
def readSeparator {α : Type} (sep : Char) (index : Nat) (inner : Text → Option (α × Text))
    (s : Text) : Option (α × Text) :=
  if index > 0 then (readGivenChar sep s).bind inner else inner s

/-- The octets of an IPv4 address from number `index` on. -/
def readOctets : (left index : Nat) → Text → Option (List Nat × Text)
  | 0, _, s => some ([], s)
  | left + 1, index, s => do
      let (octet, s) ← readSeparator '.' index (readNumber 10 (some 3) false 255) s
      let (octets, s) ← readOctets left (index + 1) s
      return (octet :: octets, s)

/-- `read_ipv4_addr`. -/
def readIpv4Addr (s : Text) : Option (BitVec 32 × Text) := do
  let (octets, s) ← readOctets 4 0 s
  return (BitVec.ofNat 32 (octets.foldl (fun acc octet => acc * 256 + octet) 0), s)

/-- `read_groups`: the groups of an IPv6 address from number `index` on, and whether the
last two are an IPv4 address. -/
def readGroups : (left index : Nat) → Text → List Nat × Bool × Text
  | 0, _, s => ([], false, s)
  | left + 1, index, s =>
      let ipv4 := if left > 0 then readSeparator ':' index readIpv4Addr s else none
      match ipv4 with
      | some (v4, s) => ([v4.toNat / 65536, v4.toNat % 65536], true, s)
      | none =>
          match readSeparator ':' index (readNumber 16 (some 4) true 65535) s with
          | none => ([], false, s)
          | some (group, s) =>
              let (groups, embedded, s) := readGroups left (index + 1) s
              (group :: groups, embedded, s)

/-- The address of eight groups. -/
def ofGroups (groups : List Nat) : BitVec 128 :=
  BitVec.ofNat 128 (groups.foldl (fun acc group => acc * 65536 + group) 0)

/-- `read_ipv6_addr`. -/
def readIpv6Addr (s : Text) : Option (BitVec 128 × Text) :=
  let (head, headIpv4, s) := readGroups 8 0 s
  if head.length = 8 then some (ofGroups head, s)
  -- an IPv4 address may not stand before the double colon
  else if headIpv4 then none
  else do
    let s ← readGivenChar ':' s
    let s ← readGivenChar ':' s
    let (tail, _, s) := readGroups (8 - (head.length + 1)) 0 s
    let zeros := List.replicate (8 - head.length - tail.length) 0
    return (ofGroups (head ++ (zeros ++ tail)), s)

/-- `read_ip_addr`. -/
def readIpAddr (s : Text) : Option (IpAddr × Text) :=
  match readIpv4Addr s with
  | some (ip, s) => some (.v4 ip, s)
  | none => (readIpv6Addr s).map fun (ip, s) => (.v6 ip, s)

/-- `read_port`. -/
def readPort (s : Text) : Option (UInt16 × Text) := do
  let s ← readGivenChar ':' s
  let (port, s) ← readNumber 10 none true 65535 s
  return (UInt16.ofNat port, s)

/-- `read_scope_id`. -/
def readScopeId (s : Text) : Option (UInt32 × Text) := do
  let s ← readGivenChar '%' s
  let (scope, s) ← readNumber 10 none true 4294967295 s
  return (UInt32.ofNat scope, s)

/-- `read_socket_addr_v4`. -/
def readSocketAddrV4 (s : Text) : Option (SocketAddr × Text) := do
  let (ip, s) ← readIpv4Addr s
  let (port, s) ← readPort s
  return (.v4 ip port, s)

/-- `read_socket_addr_v6`. -/
def readSocketAddrV6 (s : Text) : Option (SocketAddr × Text) := do
  let s ← readGivenChar '[' s
  let (ip, s) ← readIpv6Addr s
  let (scopeId, s) := (readScopeId s).getD (0, s)
  let s ← readGivenChar ']' s
  let (port, s) ← readPort s
  return (.v6 ip port 0 scopeId, s)

/-- `parse_with`: nothing may be left. -/
def parseWith {α : Type} (inner : Text → Option (α × Text)) (s : Text) : Option α :=
  match inner s with
  | some (a, []) => some a
  | _ => none

end NetText

/-- `str::parse::<IpAddr>`. -/
def IpAddr.parse (s : Text) : Option IpAddr := NetText.parseWith NetText.readIpAddr s

/-- `str::parse::<SocketAddr>`. -/
def SocketAddr.parse (s : Text) : Option SocketAddr :=
  NetText.parseWith (fun s => (NetText.readSocketAddrV4 s).orElse fun _ =>
    NetText.readSocketAddrV6 s) s

example : IpAddr.parse "192.168.0.1".toList = some (.v4 0xC0A80001) := by decide +kernel

example : IpAddr.parse "192.168.00.1".toList = none := by decide +kernel

example : SocketAddr.parse "[2001:db8::1.2.3.4%7]:51820".toList =
    some (.v6 0x20010db8000000000000000001020304 51820 0 7) := by decide +kernel
