import AwgTun.Noise.Packet

/-!
# Sessions

A session is a pair of transport keys with their counters.  Replays are kept out
by `ReceivingKeyCounterValidator`: the next expected counter and a ring of 1024
bits for the counters just below it.  Its three clearing loops are embedded as
loops; `u64` arithmetic wraps, as it does in a release build.
-/

open Control Bytes

/-! ## The replay validator -/

/-- `WORD_SIZE`. -/
def wordSize : UInt64 := 64

/-- `N_BITS`. -/
def nBits : UInt64 := 1024

/-- The counters seen so far, as far as they matter. -/
structure ReceivingKeyCounterValidator where
  /-- One more than the highest counter accepted. -/
  next : UInt64 := 0
  /-- Packets accepted, for the loss estimate. -/
  receiveCnt : UInt64 := 0
  /-- The ring, 64 counters a word. -/
  bitmap : Fin 16 → UInt64 := fun _ => 0

namespace ReceivingKeyCounterValidator

/-- The word of the ring that holds a counter. -/
def wordOf (idx : UInt64) : Fin 16 :=
  ⟨(idx % nBits / wordSize).toNat, by
    have h : (idx % nBits / wordSize).toNat = idx.toNat % 1024 / 64 := by
      rw [UInt64.toNat_div, UInt64.toNat_mod]
      rfl
    omega⟩

/-- The position of a counter in its word. -/
def bitOf (idx : UInt64) : UInt64 := idx % nBits % wordSize

/-- `set_bit`. -/
def setBit (v : ReceivingKeyCounterValidator) (idx : UInt64) : ReceivingKeyCounterValidator :=
  { v with
    bitmap := Function.update v.bitmap (wordOf idx) (v.bitmap (wordOf idx) ||| (1 <<< bitOf idx)) }

/-- `clear_bit`. -/
def clearBit (v : ReceivingKeyCounterValidator) (idx : UInt64) : ReceivingKeyCounterValidator :=
  { v with
    bitmap :=
      Function.update v.bitmap (wordOf idx) (v.bitmap (wordOf idx) &&& ~~~(1 <<< bitOf idx)) }

/-- `clear_word`. -/
def clearWord (v : ReceivingKeyCounterValidator) (idx : UInt64) : ReceivingKeyCounterValidator :=
  { v with bitmap := Function.update v.bitmap (wordOf idx) 0 }

/-- `check_bit`. -/
def checkBit (v : ReceivingKeyCounterValidator) (idx : UInt64) : Bool :=
  ((v.bitmap (wordOf idx) >>> bitOf idx) &&& 1) == 1

/-- `will_accept`. -/
def willAccept (v : ReceivingKeyCounterValidator) (counter : UInt64) : Except WireGuardError Unit :=
  if counter ≥ v.next then .ok ()
  else if counter + nBits < v.next then .error .invalidCounter
  else if !v.checkBit counter then .ok ()
  else .error .duplicateCounter

/-- Rounds a loop over a `u64` can make without repeating itself. -/
def loopBound : Nat := 2 ^ 64

/-- Clear bit by bit until `i` is aligned to a word. -/
def clearHead (counter : UInt64) (s : ReceivingKeyCounterValidator × UInt64) :
    ReceivingKeyCounterValidator × UInt64 :=
  whileLoop (fun s => s.2 % wordSize != 0 && decide (s.2 < counter))
    (fun s => (s.1.clearBit s.2, s.2 + 1)) loopBound s

/-- Clear a whole word at a time. -/
def clearWords (counter : UInt64) (s : ReceivingKeyCounterValidator × UInt64) :
    ReceivingKeyCounterValidator × UInt64 :=
  whileLoop (fun s => decide (s.2 + wordSize < counter))
    (fun s => (s.1.clearWord s.2, (s.2 + wordSize) &&& (0 - wordSize))) loopBound s

/-- Clear the bits that remain. -/
def clearTail (counter : UInt64) (s : ReceivingKeyCounterValidator × UInt64) :
    ReceivingKeyCounterValidator × UInt64 :=
  whileLoop (fun s => decide (s.2 < counter)) (fun s => (s.1.clearBit s.2, s.2 + 1)) loopBound s

/-- Mark the counters from `next` up to `counter` as not received. -/
def skipTo (v : ReceivingKeyCounterValidator) (counter : UInt64) : ReceivingKeyCounterValidator :=
  if counter - v.next ≥ nBits then { v with bitmap := fun _ => 0 }
  else (clearTail counter (clearWords counter (clearHead counter (v, v.next)))).1

/-- `mark_did_receive`. -/
def markDidReceive (v : ReceivingKeyCounterValidator) (counter : UInt64) :
    Except WireGuardError Unit × ReceivingKeyCounterValidator :=
  if counter + nBits < v.next then (.error .invalidCounter, v)
  else if counter = v.next then
    let v := v.setBit counter
    (.ok (), { v with next := v.next + 1 })
  else if counter < v.next then
    if v.checkBit counter then (.error .invalidCounter, v) else (.ok (), v.setBit counter)
  else
    (.ok (), { (v.skipTo counter).setBit counter with next := counter + 1 })

end ReceivingKeyCounterValidator

/-! ## Sessions -/

/-- A pair of transport keys with their counters. -/
structure Session where
  receivingIndex : UInt32
  sendingIndex : UInt32
  receiver : Key
  sender : Key
  sendingKeyCounter : UInt64
  receivingKeyCounter : ReceivingKeyCounterValidator

/-- Two sessions are the two ends of one connection. -/
structure Session.Mirrored (a b : Session) : Prop where
  sender : a.sender = b.receiver
  receiver : a.receiver = b.sender
  receivingIndex : a.receivingIndex = b.sendingIndex
  sendingIndex : a.sendingIndex = b.receivingIndex

namespace Session

/-- `Session::new`. -/
def new (localIndex peerIndex : UInt32) (receivingKey sendingKey : Key) : Session where
  receivingIndex := localIndex
  sendingIndex := peerIndex
  receiver := receivingKey
  sender := sendingKey
  sendingKeyCounter := 0
  receivingKeyCounter := {}

/-- `Session::local_index`. -/
def localIndex (s : Session) : Nat := s.receivingIndex.toNat

/-- `receiving_counter_quick_check`. -/
def receivingCounterQuickCheck (s : Session) (counter : UInt64) : Except WireGuardError Unit :=
  s.receivingKeyCounter.willAccept counter

/-- `receiving_counter_mark`. -/
def receivingCounterMark (s : Session) (counter : UInt64) : Except WireGuardError Unit × Session :=
  match s.receivingKeyCounter.markDidReceive counter with
  | (.ok (), v) =>
    (.ok (), { s with receivingKeyCounter := { v with receiveCnt := v.receiveCnt + 1 } })
  | (.error e, v) => (.error e, { s with receivingKeyCounter := v })

variable (C : Crypto)

/-- `format_packet_data`: the transport message for `src` with `contentPadding`
zero bytes after it, and the session with its counter moved on.  A buffer of
`dstLen` bytes that cannot hold the message panics. -/
def formatPacketData (s : Session) (src : Bytes) (dstLen : Nat) (msgType : UInt32)
    (contentPadding : Nat) : Outcome (Bytes × Session) :=
  let contentLen := src.length + contentPadding
  if dstLen < contentLen + dataOverheadSz then .panic "The destination buffer is too small"
  else
    let counter := s.sendingKeyCounter
    let sealed :=
      C.aeadSeal s.sender (counterNonce counter) [] (src ++ List.replicate contentPadding 0)
    .ok (u32ToLe msgType ++ (u32ToLe s.sendingIndex ++ (u64ToLe counter ++ sealed)),
      { s with sendingKeyCounter := counter + 1 })

/-- `receive_packet_data`: the plaintext of a transport packet.  The counter is
checked before the decryption and marked after it. -/
def receivePacketData (s : Session) (packet : PacketData) (dstLen : Nat) :
    Outcome (Except WireGuardError Bytes × Session) :=
  if dstLen < packet.encryptedEncapsulatedPacket.length then
    .panic "The destination buffer is too small"
  else if packet.receiverIdx ≠ s.receivingIndex then .ok (.error .wrongIndex, s)
  else
    match s.receivingCounterQuickCheck packet.counter with
    | .error e => .ok (.error e, s)
    | .ok () =>
        match C.aeadOpen s.receiver (counterNonce packet.counter) []
            packet.encryptedEncapsulatedPacket with
        | none => .ok (.error .invalidAeadTag, s)
        | some plain =>
            match s.receivingCounterMark packet.counter with
            | (.error e, s) => .ok (.error e, s)
            | (.ok (), s) => .ok (.ok plain, s)

end Session
