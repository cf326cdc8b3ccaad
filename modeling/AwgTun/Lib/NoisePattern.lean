import Mathlib

/-!
# The IKpsk2 message pattern over a symmetric state

A key exchange in the Noise style folds every value it sees into a symmetric state,
a chaining key and a running hash, and seals what it sends under keys taken from it.
This file has the symmetric state over arbitrary types of keys and data, the two
messages of the IKpsk2 pattern as written by one side and as read by the other, and
the general agreement result.

* `writeInitiation` / `readStatic` / `readPayload` — the first message.
* `writeResponse` / `readResponse` — the second message.
* `read_writeInitiation` and `readResponse_writeResponse` — if opening undoes
  sealing, a reader that computes the same shared secrets accepts what the writer
  wrote and ends in the writer's state.  The Diffie-Hellman values are arguments:
  where they come from is the business of the caller.
-/

namespace NoisePattern

/-- The primitives the pattern is built from. -/
structure Suite (K D : Type) where
  /-- A key as data. -/
  ofKey : K → D
  hash : D → D → K
  hmac : D → D → K
  hmac2 : D → D → D → K
  /-- Seal under a key with associated data. -/
  sealWith : K → D → D → D
  /-- Open under a key with associated data. -/
  openWith : K → D → D → Option D
  /-- Domain separators of the key derivation. -/
  one : D
  two : D
  three : D
  empty : D

/-- Chaining key and running hash. -/
structure Sym (K : Type) where
  chainingKey : K
  hash : K

variable {K D : Type} (S : Suite K D)

/-- Opening undoes sealing under one key and one associated datum. -/
def Suite.OpenUndoesSeal : Prop := ∀ k aad p, S.openWith k aad (S.sealWith k aad p) = some p

/-! ## The symmetric state -/

/-- Fold public data into the hash. -/
def Sym.mixHash (s : Sym K) (data : D) : Sym K := { s with hash := S.hash (S.ofKey s.hash) data }

/-- Fold a value into the chaining key. -/
def Sym.mixKey (s : Sym K) (input : D) : Sym K :=
  { s with chainingKey := S.hmac (S.ofKey (S.hmac (S.ofKey s.chainingKey) input)) S.one }

/-- Fold a value into the chaining key and take a sealing key. -/
def Sym.mixKeySeal (s : Sym K) (input : D) : Sym K × K :=
  let temp := S.hmac (S.ofKey s.chainingKey) input
  let chainingKey := S.hmac (S.ofKey temp) S.one
  ({ s with chainingKey := chainingKey },
    S.hmac2 (S.ofKey temp) (S.ofKey chainingKey) S.two)

/-- Fold the preshared key into chaining key and hash, and take a sealing key. -/
def Sym.mixPsk (s : Sym K) (psk : D) : Sym K × K :=
  let temp := S.hmac (S.ofKey s.chainingKey) psk
  let chainingKey := S.hmac (S.ofKey temp) S.one
  let temp2 := S.hmac2 (S.ofKey temp) (S.ofKey chainingKey) S.two
  let key := S.hmac2 (S.ofKey temp) (S.ofKey temp2) S.three
  (⟨chainingKey, S.hash (S.ofKey s.hash) (S.ofKey temp2)⟩, key)

/-- The two transport keys. -/
def Sym.split (s : Sym K) : K × K :=
  let temp1 := S.hmac (S.ofKey s.chainingKey) S.empty
  let temp2 := S.hmac (S.ofKey temp1) S.one
  (temp2, S.hmac2 (S.ofKey temp1) (S.ofKey temp2) S.two)

/-! ## The first message -/

/-- What the first message carries. -/
structure Initiation (D : Type) where
  encryptedStatic : D
  encryptedPayload : D

/-- The state and the key under which the static key travels. -/
def initiationKey (start : Sym K) (responder ephemeral es : D) : Sym K × K :=
  (((start.mixHash S responder).mixHash S ephemeral).mixKey S ephemeral).mixKeySeal S es

/-- The initiator's side: `es` and `ss` are the shared secrets. -/
def writeInitiation (start : Sym K) (responder ephemeral es ss static payload : D) :
    Initiation D × Sym K :=
  let opened := initiationKey S start responder ephemeral es
  let encryptedStatic := S.sealWith opened.2 (S.ofKey opened.1.hash) static
  let mixed := (opened.1.mixHash S encryptedStatic).mixKeySeal S ss
  let encryptedPayload := S.sealWith mixed.2 (S.ofKey mixed.1.hash) payload
  (⟨encryptedStatic, encryptedPayload⟩, mixed.1.mixHash S encryptedPayload)

/-- The responder's side, up to the initiator's static key. -/
def readStatic (start : Sym K) (responder ephemeral es encryptedStatic : D) :
    Option (D × Sym K) :=
  let opened := initiationKey S start responder ephemeral es
  (S.openWith opened.2 (S.ofKey opened.1.hash) encryptedStatic).map fun static =>
    (static, opened.1.mixHash S encryptedStatic)

/-- The responder's side, from there on. -/
def readPayload (sym : Sym K) (ss encryptedPayload : D) : Option (D × Sym K) :=
  let mixed := sym.mixKeySeal S ss
  (S.openWith mixed.2 (S.ofKey mixed.1.hash) encryptedPayload).map fun payload =>
    (payload, mixed.1.mixHash S encryptedPayload)

/-! ## The second message -/

/-- The state and the key under which the empty payload travels. -/
def responseKey (sym : Sym K) (ephemeral ee se psk : D) : Sym K × K :=
  ((((sym.mixHash S ephemeral).mixKey S ephemeral).mixKey S ee).mixKey S se).mixPsk S psk

/-- The responder's side. -/
def writeResponse (sym : Sym K) (ephemeral ee se psk : D) : D × Sym K :=
  let mixed := responseKey S sym ephemeral ee se psk
  (S.sealWith mixed.2 (S.ofKey mixed.1.hash) S.empty, mixed.1)

/-- The initiator's side. -/
def readResponse (sym : Sym K) (ephemeral ee se psk encryptedNothing : D) : Option (Sym K) :=
  let mixed := responseKey S sym ephemeral ee se psk
  (S.openWith mixed.2 (S.ofKey mixed.1.hash) encryptedNothing).map fun _ => mixed.1

variable {S}

/-! ## What a successful read says -/

section Read

variable {start sym sym' : Sym K} {responder ephemeral es ss ee se psk sent received : D}

theorem readStatic_eq_some_iff :
    readStatic S start responder ephemeral es sent = some (received, sym) ↔
      S.openWith (initiationKey S start responder ephemeral es).2
        (S.ofKey (initiationKey S start responder ephemeral es).1.hash) sent = some received ∧
      (initiationKey S start responder ephemeral es).1.mixHash S sent = sym := by
  simp only [readStatic, Option.map_eq_some_iff, Prod.mk.injEq]
  constructor
  · rintro ⟨static, hopen, rfl, hsym⟩
    exact ⟨hopen, hsym⟩
  · rintro ⟨hopen, hsym⟩
    exact ⟨received, hopen, rfl, hsym⟩

theorem readPayload_eq_some_iff :
    readPayload S sym ss sent = some (received, sym') ↔
      S.openWith (sym.mixKeySeal S ss).2 (S.ofKey (sym.mixKeySeal S ss).1.hash) sent
        = some received ∧
      (sym.mixKeySeal S ss).1.mixHash S sent = sym' := by
  simp only [readPayload, Option.map_eq_some_iff, Prod.mk.injEq]
  constructor
  · rintro ⟨payload, hopen, rfl, hsym⟩
    exact ⟨hopen, hsym⟩
  · rintro ⟨hopen, hsym⟩
    exact ⟨received, hopen, rfl, hsym⟩

theorem readResponse_eq_some_iff :
    readResponse S sym ephemeral ee se psk sent = some sym' ↔
      (∃ received, S.openWith (responseKey S sym ephemeral ee se psk).2
        (S.ofKey (responseKey S sym ephemeral ee se psk).1.hash) sent = some received) ∧
      (responseKey S sym ephemeral ee se psk).1 = sym' := by
  simp [readResponse, Option.map_eq_some_iff]

end Read

/-! ## Agreement -/

/-- The reader of an initiation recovers the static key, and from there the
payload and the writer's state. -/
theorem read_writeInitiation (h : S.OpenUndoesSeal) (start : Sym K)
    (responder ephemeral es ss static payload : D) :
    ∃ sym, readStatic S start responder ephemeral es
        (writeInitiation S start responder ephemeral es ss static payload).1.encryptedStatic
          = some (static, sym) ∧
      readPayload S sym ss
        (writeInitiation S start responder ephemeral es ss static payload).1.encryptedPayload
          = some (payload, (writeInitiation S start responder ephemeral es ss static payload).2) :=
            by
  refine ⟨(initiationKey S start responder ephemeral es).1.mixHash S
    (writeInitiation S start responder ephemeral es ss static payload).1.encryptedStatic, ?_, ?_⟩
  · simp only [readStatic, writeInitiation, h _ _ _, Option.map_some]
  · simp only [readPayload, writeInitiation, h _ _ _, Option.map_some]

/-- The reader of a response ends in the writer's state. -/
theorem readResponse_writeResponse (h : S.OpenUndoesSeal) (sym : Sym K)
    (ephemeral ee se psk : D) :
    readResponse S sym ephemeral ee se psk (writeResponse S sym ephemeral ee se psk).1
      = some (writeResponse S sym ephemeral ee se psk).2 := by
  simp only [readResponse, writeResponse, h _ _ _, Option.map_some]

end NoisePattern
