import AwgTun.Lib.Bytes

/-!
# The cryptographic primitives

The tunnel calls X25519, BLAKE2s, HMAC, ChaCha20-Poly1305, XChaCha20-Poly1305 and
raw ChaCha20 through other crates.  `Crypto` is a choice of these functions; the
whole development is over an arbitrary one.  What is fixed by their interface
(the sizes of what they return) is part of the structure.  What they are *for* is
stated by the predicates after it, and a theorem that relies on one of these says
so in a hypothesis.

Raw ChaCha20 is given by its keystream, byte by byte, so that a shorter keystream
under one key and nonce is a prefix of a longer one.
-/

/-- A 32-byte key: X25519 secrets and public values, hash outputs, symmetric keys. -/
abbrev Key := ByteArr 32

/-- The key of thirty-two zero bytes. -/
def zeroKey : Key := ⟨List.replicate 32 0, rfl⟩

/-- A 12-byte ChaCha20 nonce. -/
abbrev Nonce := ByteArr 12

/-- The nonce of a message counter: four zero bytes, then the counter. -/
def counterNonce (counter : UInt64) : Nonce :=
  ⟨List.replicate 4 0 ++ Bytes.u64ToLe counter, by simp⟩

/-- The primitives the code takes from other crates. -/
structure Crypto where
  /-- `x25519::PublicKey::from`. -/
  publicKey : Key → Key
  /-- `diffie_hellman`: our secret, their public value. -/
  diffieHellman : Key → Key → Key
  /-- `b2s_hash`: BLAKE2s of two pieces fed one after the other. -/
  b2sHash : Bytes → Bytes → Key
  /-- `b2s_hmac`. -/
  b2sHmac : Bytes → Bytes → Key
  /-- `b2s_hmac2`: HMAC of two pieces. -/
  b2sHmac2 : Bytes → Bytes → Bytes → Key
  /-- `b2s_keyed_mac_16`. -/
  b2sKeyedMac16 : Bytes → Bytes → ByteArr 16
  /-- `b2s_keyed_mac_16_2`: the keyed MAC of two pieces. -/
  b2sKeyedMac16Pair : Bytes → Bytes → Bytes → ByteArr 16
  /-- `b2s_mac_24`. -/
  b2sMac24 : Bytes → Bytes → ByteArr 24
  /-- ChaCha20-Poly1305: key, nonce, associated data, plaintext; the tag comes last. -/
  aeadSeal : Key → Nonce → Bytes → Bytes → Bytes
  /-- ChaCha20-Poly1305 `open_in_place`: key, nonce, associated data, sealed bytes. -/
  aeadOpen : Key → Nonce → Bytes → Bytes → Option Bytes
  /-- XChaCha20-Poly1305, tag last. -/
  xaeadSeal : Key → ByteArr 24 → Bytes → Bytes → Bytes
  /-- XChaCha20-Poly1305 `decrypt`. -/
  xaeadOpen : Key → ByteArr 24 → Bytes → Bytes → Option Bytes
  /-- Byte `i` of the raw ChaCha20 keystream under a key and a nonce. -/
  chacha20 : Key → Nonce → Nat → UInt8
  /-- Sealing adds the 16-byte tag and nothing else. -/
  length_aeadSeal : ∀ k n a p, (aeadSeal k n a p).length = p.length + 16
  /-- Opening takes the tag off. -/
  length_aeadOpen : ∀ k n a c p, aeadOpen k n a c = some p → p.length + 16 = c.length
  /-- The extended-nonce variant adds the same tag. -/
  length_xaeadSeal : ∀ k n a p, (xaeadSeal k n a p).length = p.length + 16

attribute [simp] Crypto.length_aeadSeal Crypto.length_xaeadSeal

namespace Crypto

variable (C : Crypto)

/-- Diffie-Hellman is commutative: both ends compute one shared secret. -/
def DhCommutes : Prop :=
  ∀ a b, C.diffieHellman a (C.publicKey b) = C.diffieHellman b (C.publicKey a)

/-- Opening undoes sealing under the same key, nonce and associated data. -/
def OpenUndoesSeal : Prop :=
  ∀ k n a p, C.aeadOpen k n a (C.aeadSeal k n a p) = some p

/-- The first `n` bytes of a ChaCha20 keystream. -/
def keystream (key : Key) (nonce : Nonce) (n : Nat) : Bytes :=
  (List.range n).map (C.chacha20 key nonce)

@[simp] theorem length_keystream (key : Key) (nonce : Nonce) (n : Nat) :
    (C.keystream key nonce n).length = n := by
  simp [keystream]

/-- A shorter keystream is a prefix of a longer one. -/
theorem take_keystream (key : Key) (nonce : Nonce) {m n : Nat} (h : m ≤ n) :
    (C.keystream key nonce n).take m = C.keystream key nonce m := by
  rw [keystream, ← List.map_take, List.take_range, Nat.min_eq_left h, keystream]

/-! ## A choice of primitives to compute with -/

/-- Primitives that hide nothing: a key is its own public key, every hash is zero,
sealing appends a zero tag.  The model is run on concrete inputs with these. -/
def transparent : Crypto where
  publicKey := id
  diffieHellman := fun _ _ => zeroKey
  b2sHash := fun _ _ => zeroKey
  b2sHmac := fun _ _ => zeroKey
  b2sHmac2 := fun _ _ _ => zeroKey
  b2sKeyedMac16 := fun _ _ => ⟨List.replicate 16 0, rfl⟩
  b2sKeyedMac16Pair := fun _ _ _ => ⟨List.replicate 16 0, rfl⟩
  b2sMac24 := fun _ _ => ⟨List.replicate 24 0, rfl⟩
  aeadSeal := fun _ _ _ p => p ++ List.replicate 16 0
  aeadOpen := fun _ _ _ c => if 16 ≤ c.length then some (c.take (c.length - 16)) else none
  xaeadSeal := fun _ _ _ p => p ++ List.replicate 16 0
  xaeadOpen := fun _ _ _ c => if 16 ≤ c.length then some (c.take (c.length - 16)) else none
  chacha20 := fun _ _ _ => 0
  length_aeadSeal := by simp
  length_aeadOpen := by
    intro k n a c p h
    obtain ⟨hlen, hp⟩ := Option.ite_none_right_eq_some.mp h
    obtain rfl := Option.some.inj hp
    simp only [List.length_take]
    omega
  length_xaeadSeal := by simp

theorem transparent_dhCommutes : transparent.DhCommutes := fun _ _ => rfl

theorem transparent_openUndoesSeal : transparent.OpenUndoesSeal := by
  intro k n a p
  simp [transparent]

end Crypto
