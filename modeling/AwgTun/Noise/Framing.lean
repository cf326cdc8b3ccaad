import AwgTun.Noise.Agreement
import AwgTun.Noise.Frame

/-!
# Handshake messages through the framing

An initiation, a response and a cookie reply are put on the wire by `frame`: a random
prefix, the message under header protection, a random trailer.  The receiver's
`decapsulate` takes all of this off again before the rate limiter sees the message.

* `Tunn.unframe` — the part of `receive` that takes the framing off
  (`Tunn.receive_eq_unframe`), and what it makes of a datagram of each class.
* `Tunn.Framed` — what `frame` makes of a message.
* `Tunn.Emits` — the calls that send a framed message (`Tunn.Emits.made`).
* `Tunn.handshake_framing` — a datagram that is taken for its own kind gives the message
  back; without trailers, and with three different sizes, it always is.
-/

open Control Bytes

variable {C : Crypto} {ε : Type} [Env ε]

/-! ## Kinds -/

/-- The kinds of message that have a fixed size. -/
inductive FramedKind
  | init
  | response
  | cookie
  deriving DecidableEq, Repr

namespace FramedKind

variable {kind kind' : FramedKind}

/-- The size of the message. -/
def size : FramedKind → Nat
  | init => handshakeInitSz
  | response => handshakeRespSz
  | cookie => cookieReplySz

/-- The length of the prefix. -/
def padding (p : PaddingConfig) : FramedKind → Nat
  | init => p.s1.toNat
  | response => p.s2.toNat
  | cookie => p.s3.toNat

/-- The types of the kind. -/
def range (h : HeaderConfig) : FramedKind → HeaderRange
  | init => h.init
  | response => h.response
  | cookie => h.cookie

/-- The size of the datagram without a trailer. -/
def datagramSize (p : PaddingConfig) (kind : FramedKind) : Nat := kind.padding p + kind.size

/-- The three datagrams have three sizes. -/
def DistinctSizes (p : PaddingConfig) : Prop :=
  init.datagramSize p ≠ response.datagramSize p ∧ init.datagramSize p ≠ cookie.datagramSize p ∧
    response.datagramSize p ≠ cookie.datagramSize p

instance (p : PaddingConfig) : Decidable (DistinctSizes p) :=
  inferInstanceAs (Decidable (_ ∧ _ ∧ _))

theorem size_bounds (kind : FramedKind) :
    transportHeaderSz < kind.size ∧ kind.size ≤ handshakeInitSz := by
  cases kind <;> decide

theorem size_inj (h : kind.size = kind'.size) : kind = kind' := by
  revert h
  cases kind <;> cases kind' <;> decide

theorem DistinctSizes.eq {p : PaddingConfig} (hsizes : DistinctSizes p)
    (h : kind.datagramSize p = kind'.datagramSize p) : kind = kind' := by
  obtain ⟨hir, hic, hrc⟩ := hsizes
  cases kind <;> cases kind' <;> first | rfl | exact absurd h ‹_› | exact absurd h.symm ‹_›

/-- The row of the classifier's table. -/
def candidate (p : PaddingConfig) (h : HeaderConfig) (kind : FramedKind) : Candidate :=
  ⟨kind.padding p, kind.range h, kind.size, true⟩

/-- What the classifier says of a datagram of the kind. -/
def classified (p : PaddingConfig) (headerMask : Option Bytes) (kind : FramedKind) :
    Classified where
  padding := kind.padding p
  protectedLen := kind.size
  headerMask := headerMask
  msgSize := some kind.size

end FramedKind

/-- The kind of a packet that has a fixed size. -/
def Packet.framedKind : Packet → Option FramedKind
  | .handshakeInit _ => some .init
  | .handshakeResponse _ => some .response
  | .packetCookieReply _ => some .cookie
  | .packetData _ => none

/-- The first four bytes as a message type. -/
def leadingType (message : Bytes) : UInt32 := u32OfLe (slice message 0 4)

/-- A message that has the type and the size of a kind parses as that kind. -/
theorem parse_framedKind {headers : HeaderConfig} {message : Bytes} {kind : FramedKind}
    (hsize : message.length = kind.size)
    (htype : (kind.range headers).contains (leadingType message) = true) :
    ∃ packet, parseIncomingPacketConfig message headers = .ok packet ∧
      packet.framedKind = some kind := by
  unfold leadingType at htype
  cases kind <;>
    simp only [FramedKind.size, FramedKind.range] at hsize htype <;>
    simp [parseIncomingPacketConfig, hsize, htype, Packet.framedKind, handshakeInitSz,
      handshakeRespSz, cookieReplySz]

/-! ## The classifier -/

/-- What a matching row says, and what it has compared. -/
theorem Candidate.classify_eq_some {src : Bytes} {headerMask : Option Bytes} {randomTrailers : Bool}
    {row : Candidate} {c : Classified} (h : row.classify src headerMask randomTrailers = some c) :
    row.padding + row.expectedSize ≤ src.length ∧
      row.headerRange.contains (u32OfLe (xorBytes (slice src row.padding (row.padding + 4))
        (headerMask.getD []))) = true ∧
      c = { padding := row.padding
            protectedLen := if row.exact then row.expectedSize else transportHeaderSz
            headerMask := headerMask
            msgSize := if row.exact then some row.expectedSize else none } := by
  obtain ⟨⟨hsize, -⟩, h⟩ := Option.ite_none_right_eq_some.mp h
  obtain ⟨htype, h⟩ := Option.ite_none_right_eq_some.mp h
  obtain rfl := Option.some.inj h
  refine ⟨?_, htype, rfl⟩
  split_ifs at hsize
  · exact (beq_iff_eq.mp hsize).ge
  · exact of_decide_eq_true hsize

/-- The rows of the table: the three kinds of fixed size, and transport. -/
theorem PacketClassifier.mem_checks {c : PacketClassifier} {row : Candidate} :
    row ∈ c.checks ↔ (∃ kind : FramedKind, row = kind.candidate c.paddings c.headers) ∨
      row = ⟨c.paddings.s4.toNat, c.headers.transport, dataOverheadSz, false⟩ := by
  have hkinds : (∃ kind : FramedKind, row = kind.candidate c.paddings c.headers) ↔
      row = FramedKind.init.candidate c.paddings c.headers ∨
      row = FramedKind.response.candidate c.paddings c.headers ∨
      row = FramedKind.cookie.candidate c.paddings c.headers := by
    constructor
    · rintro ⟨kind, hkind⟩
      cases kind <;> simp [hkind]
    · rintro (h | h | h)
      · exact ⟨.init, h⟩
      · exact ⟨.response, h⟩
      · exact ⟨.cookie, h⟩
  rw [hkinds]
  unfold PacketClassifier.checks
  cases c.randomTrailers <;>
    simp [FramedKind.candidate, FramedKind.padding, FramedKind.range, FramedKind.size] <;> tauto

/-- The outcomes of classification: one of the kinds of fixed size, or transport. -/
theorem PacketClassifier.classify_eq_some {C : Crypto} {c : PacketClassifier} {src : Bytes}
    {classified : Classified} (h : c.classify C src = some classified) :
    (∃ kind : FramedKind, classified = kind.classified c.paddings (c.headerMask C src) ∧
      kind.datagramSize c.paddings ≤ src.length) ∨
    (classified = ⟨c.paddings.s4.toNat, transportHeaderSz, c.headerMask C src, none⟩ ∧
      c.paddings.s4.toNat + dataOverheadSz ≤ src.length ∧
      c.headers.transport.contains (u32OfLe (xorBytes
        (slice src c.paddings.s4.toNat (c.paddings.s4.toNat + 4))
        ((c.headerMask C src).getD []))) = true) := by
  obtain ⟨row, hrow, hclassify⟩ := List.exists_of_findSome?_eq_some h
  obtain ⟨hsize, htype, rfl⟩ := Candidate.classify_eq_some hclassify
  rcases PacketClassifier.mem_checks.mp hrow with ⟨kind, rfl⟩ | rfl
  · exact .inl ⟨kind, rfl, hsize⟩
  · exact .inr ⟨rfl, hsize, htype⟩

/-- Without trailers, a datagram of the size and the type of a kind is classified as that
kind: the rows before it expect other sizes. -/
theorem PacketClassifier.classify_of_kind {C : Crypto} {c : PacketClassifier} {src : Bytes}
    {kind : FramedKind} (htrailers : c.randomTrailers = false)
    (hsizes : FramedKind.DistinctSizes c.paddings)
    (hlen : src.length = kind.datagramSize c.paddings)
    (htype : (kind.range c.headers).contains (u32OfLe (xorBytes
      (slice src (kind.padding c.paddings) (kind.padding c.paddings + 4))
      ((c.headerMask C src).getD []))) = true) :
    c.classify C src = some (kind.classified c.paddings (c.headerMask C src)) := by
  have hother : ∀ kind' : FramedKind, kind' ≠ kind →
      (kind'.candidate c.paddings c.headers).classify src (c.headerMask C src) false = none := by
    intro kind' hne
    refine Candidate.classify_eq_none _ _ ?_
    intro hsize
    exact hne (hsizes.eq (hlen.symm.trans hsize)).symm
  have hown : (kind.candidate c.paddings c.headers).classify src (c.headerMask C src) false =
      some (kind.classified c.paddings (c.headerMask C src)) := by
    have hfour := kind.size_bounds.1
    simp only [FramedKind.datagramSize, transportHeaderSz] at hlen hfour
    simp only [Candidate.classify, FramedKind.candidate, htype, hlen]
    rw [if_pos (by simp; omega)]
    rfl
  have hchecks : c.checks = [FramedKind.init.candidate c.paddings c.headers,
      FramedKind.response.candidate c.paddings c.headers,
      FramedKind.cookie.candidate c.paddings c.headers,
      ⟨c.paddings.s4.toNat, c.headers.transport, dataOverheadSz, false⟩] := by
    rw [PacketClassifier.checks, htrailers]
    rfl
  rw [PacketClassifier.classify, hchecks, htrailers]
  cases kind with
  | init => simp [hown]
  | response => simp [hother .init (by decide), hown]
  | cookie => simp [hother .init (by decide), hother .response (by decide), hown]

/-! ## Taking the framing off -/

/-- What is left of a datagram without its framing: a transport packet whose header was
masked is assembled on the spot, anything else is a message for the rate limiter. -/
inductive Unframed
  | packet (p : Packet)
  | message (bytes : Bytes)
  deriving DecidableEq

namespace Tunn

variable {t : Tunn C} {before message masked : Bytes} {datagram : Bytes} {kind : FramedKind}

/-- The first stage of `decapsulate`, up to the rate limiter. -/
def unframe (t : Tunn C) (datagram : Bytes) : Outcome Unframed := do
  let classified := t.determinePadding datagram
  let padding := (classified.map (·.padding)).getD 0
  let protectedLen := (classified.map (·.protectedLen)).getD 0
  let payload ← sliceFrom datagram padding
  let payload := trimTrailer classified payload
  match transportMask classified with
  | some mask => do
      let packet ← unmaskTransport payload mask
      return .packet packet
  | none => do
      let stripped ← t.unmaskMessage datagram padding protectedLen payload
      return .message stripped

/-- `receive` takes the framing off and hands a message to the rate limiter. -/
theorem receive_eq_unframe (t : Tunn C) (srcAddr : Option IpAddr) (datagram : Bytes) (dstLen : Nat)
    (e : ε) :
    t.receive srcAddr datagram dstLen e = t.unframe datagram >>= fun u =>
      match u with
      | .packet p => .ok (.packet p, t, e)
      | .message bytes => t.verify srcAddr bytes dstLen e := by
  simp only [receive, unframe, bind_assoc]
  congr 1
  funext payload
  cases transportMask (t.determinePadding datagram) with
  | some mask =>
    simp only [bind_assoc]
    rfl
  | none =>
    simp only [bind_assoc]
    rfl

/-- A datagram without a class is a message as it stands. -/
theorem unframe_of_unclassified {datagram : Bytes} (hclass : t.determinePadding datagram = none) :
    t.unframe datagram = .ok (.message datagram) := by
  have hunmask : t.unmaskMessage datagram 0 0 datagram = .ok datagram := by
    unfold unmaskMessage
    split <;> rfl
  simp only [unframe, hclass, trimTrailer, transportMask, Option.map_none, Option.getD_none,
    Option.bind_none, sliceFrom_eq_ok (Nat.zero_le _), List.drop_zero, ok_bind, hunmask]
  rfl

/-- A message as header protection leaves it, and as it was. -/
def Masked (t : Tunn C) (before message masked : Bytes) : Prop :=
  match t.headerProtection with
  | none => masked = message
  | some hp => hp.apply C before message = .ok masked

theorem masked_of_none (hhp : t.headerProtection = none) :
    t.Masked before message masked ↔ masked = message := by
  rw [Masked, hhp]

theorem masked_of_some {hp : HeaderProtection} (hhp : t.headerProtection = some hp) :
    t.Masked before message masked ↔ hp.apply C before message = .ok masked := by
  rw [Masked, hhp]

theorem Masked.symm (h : t.Masked before message masked) :
    t.Masked before masked message := by
  cases hhp : t.headerProtection with
  | none => exact (masked_of_none hhp).mpr ((masked_of_none hhp).mp h).symm
  | some hp => exact (masked_of_some hhp).mpr (hp.apply_apply C ((masked_of_some hhp).mp h))

theorem Masked.length_eq (h : t.Masked before message masked) :
    masked.length = message.length := by
  cases hhp : t.headerProtection with
  | none => rw [(masked_of_none hhp).mp h]
  | some hp =>
    rw [masked_of_some hhp] at h
    cases hn : HeaderProtection.nonceOf before with
    | none => simp [HeaderProtection.apply, hn] at h
    | some nonce =>
      rw [hp.apply_eq_ok C hn] at h
      cases h
      simp

/-- A datagram of a fixed kind is the message behind the prefix, unmasked; what follows it
is dropped. -/
theorem unframe_of_kind {datagram message : Bytes} {headerMask : Option Bytes}
    (hclass : t.determinePadding datagram = some (kind.classified t.paddingConfig headerMask))
    (hlen : kind.datagramSize t.paddingConfig ≤ datagram.length)
    (hmasked : t.Masked (datagram.take (kind.padding t.paddingConfig))
      ((datagram.drop (kind.padding t.paddingConfig)).take kind.size) message) :
    t.unframe datagram = .ok (.message message) := by
  obtain ⟨hmin, hmax⟩ := kind.size_bounds
  simp only [FramedKind.datagramSize] at hlen
  have hpayload : kind.size ≤ (datagram.drop (kind.padding t.paddingConfig)).length := by
    rw [List.length_drop]
    omega
  have hcut : ((datagram.drop (kind.padding t.paddingConfig)).take kind.size).length = kind.size :=
    List.length_take_of_le hpayload
  have hunmask : t.unmaskMessage datagram (kind.padding t.paddingConfig) kind.size
      ((datagram.drop (kind.padding t.paddingConfig)).take kind.size) = .ok message := by
    cases hhp : t.headerProtection with
    | none => rw [unmaskMessage, hhp, (masked_of_none hhp).mp hmasked]
    | some hp =>
      simp only [unmaskMessage, hhp, if_pos (show kind.size > 0 by omega), hcut, Nat.min_self,
        sliceTo_eq_ok hcut.ge, ok_bind, if_neg (show ¬ handshakeInitSz < kind.size by omega),
        sliceTo_eq_ok (show kind.padding t.paddingConfig ≤ datagram.length by omega),
        List.take_take, (masked_of_some hhp).mp hmasked]
  simp only [unframe, hclass, FramedKind.classified, trimTrailer, transportMask, Option.map_some,
    Option.getD_some, Option.bind_some, if_neg hmin.ne', sliceFrom_eq_ok (show
      kind.padding t.paddingConfig ≤ datagram.length by omega), ok_bind, if_pos hpayload, hunmask]
  rfl

/-! ## Putting it on -/

/-- A datagram with a message of a kind in it. -/
def Framed (t : Tunn C) (kind : FramedKind) (message datagram : Bytes) : Prop :=
  ∃ before masked after, before.length = kind.padding t.paddingConfig ∧
    t.Masked before message masked ∧ (t.randomTrailers = false → after = []) ∧
    datagram = before ++ (masked ++ after)

/-- What `frame` returns is such a datagram. -/
theorem framed_of_frame (kind : FramedKind) {dstLen : Nat} {e e' : ε}
    (h : t.frame (kind.padding t.paddingConfig) message dstLen e = .ok (datagram, e')) :
    t.Framed kind message datagram := by
  have htrailer : ∀ n e₁, t.randomTrailers = false →
      (randomBytes (t.trailerFor n dstLen e₁).1 (t.trailerFor n dstLen e₁).2 : Bytes × ε).1 =
        [] := by
    intro n e₁ htrailers
    simp [trailerFor, htrailers, randomBytes]
  cases hhp : t.headerProtection with
  | none =>
    simp only [frame, hhp] at h
    cases h
    exact ⟨_, message, _, length_randomBytes _ e, (masked_of_none hhp).mpr rfl, htrailer _ _, rfl⟩
  | some hp =>
    simp only [frame, hhp] at h
    obtain ⟨masked, hmasked, h⟩ := bind_eq_ok.mp h
    cases h
    exact ⟨_, masked, _, length_randomBytes _ e, (masked_of_some hhp).mpr hmasked,
      htrailer _ _, rfl⟩

/-- A prefix that holds a nonce can be used to frame any message. -/
theorem frame_returns {padding : Nat} (hroom : t.headerProtection.isSome → 12 ≤ padding)
    (message : Bytes) (dstLen : Nat) (e : ε) :
    ∃ datagram e', t.frame padding message dstLen e = .ok (datagram, e') := by
  simp only [frame]
  cases hhp : t.headerProtection with
  | none => exact ⟨_, _, rfl⟩
  | some hp =>
    have hlen : 12 ≤ (randomBytes padding e).1.length := by
      rw [length_randomBytes]
      exact hroom (by simp [hhp])
    obtain ⟨nonce, hnonce⟩ := HeaderProtection.nonceOf_eq_some hlen
    simp only [hp.apply_eq_ok C hnonce, ok_bind]
    exact ⟨_, _, rfl⟩

/-- The datagram depends on the configuration alone. -/
theorem Framed.of_config {t' : Tunn C} {cfg : Amnezia3Config} (h : t.HasConfig cfg)
    (h' : t'.HasConfig cfg) (hframed : t.Framed kind message datagram) :
    t'.Framed kind message datagram := by
  unfold Framed Masked at *
  rwa [h'.paddings, h'.headerProtection, h'.randomTrailers, ← h.paddings, ← h.headerProtection,
    ← h.randomTrailers]

/-- The classifier takes the datagram for a message of the kind. -/
def Recognises (t : Tunn C) (kind : FramedKind) (datagram : Bytes) : Prop :=
  ∃ c, t.determinePadding datagram = some c ∧ c.msgSize = some kind.size

/-- A framed message that is recognised comes out as it went in. -/
theorem Framed.unframe_eq (h : t.Framed kind message datagram) (hsize : message.length = kind.size)
    (hown : t.Recognises kind datagram) : t.unframe datagram = .ok (.message message) := by
  obtain ⟨c, hclass, hmsg⟩ := hown
  rcases PacketClassifier.classify_eq_some hclass with ⟨kind', rfl, hlen⟩ | ⟨rfl, -⟩
  · obtain rfl : kind' = kind := FramedKind.size_inj (Option.some.inj hmsg)
    refine unframe_of_kind hclass hlen ?_
    obtain ⟨before, masked, after, hbefore, hmasked, -, rfl⟩ := h
    rw [List.take_left' hbefore, List.drop_left' hbefore,
      List.take_left' (hmasked.length_eq.trans hsize)]
    exact hmasked.symm
  · cases hmsg

/-- The classifier reads the type of the message through the mask: its 16 bytes of
keystream are the first of those the sender has used. -/
theorem unmask_leadingType (hroom : t.headerProtection.isSome → 12 ≤ before.length)
    (hmasked : t.Masked before message masked) (hmessage : 16 ≤ message.length) (after : Bytes) :
    u32OfLe (xorBytes (slice (before ++ (masked ++ after)) before.length (before.length + 4))
      ((t.classifier.headerMask C (before ++ (masked ++ after))).getD [])) =
        leadingType message := by
  have hslice : slice (before ++ (masked ++ after)) before.length (before.length + 4) =
      masked.take 4 := by
    have hlen := hmasked.length_eq
    rw [slice_skip le_rfl, Nat.sub_self, Nat.add_sub_cancel_left, slice_zero,
      List.take_append_of_le_length (by omega)]
  rw [hslice, leadingType, slice_zero]
  congr 1
  cases hhp : t.headerProtection with
  | none =>
    rw [(masked_of_none hhp).mp hmasked]
    simp [PacketClassifier.headerMask, classifier, hhp]
  | some hp =>
    have h12 := hroom (by simp [hhp])
    obtain ⟨nonce, hnonce⟩ := HeaderProtection.nonceOf_eq_some h12
    have hmask : t.classifier.headerMask C (before ++ (masked ++ after)) =
        some (C.keystream hp.key nonce 16) := by
      have hlong : (before ++ (masked ++ after)).length ≥ headerProtectionNonceSize := by
        simp only [headerProtectionNonceSize, List.length_append]
        omega
      simp only [PacketClassifier.headerMask, classifier, hhp, if_pos hlong]
      rw [hp.keystream_eq_ok C (by rw [HeaderProtection.nonceOf_append h12, hnonce])]
      rfl
    rw [masked_of_some hhp, hp.apply_eq_ok C hnonce] at hmasked
    cases hmasked
    rw [hmask, Option.getD_some, ← C.take_keystream hp.key nonce hmessage]
    calc xorBytes ((xorBytes message (C.keystream hp.key nonce message.length)).take 4)
          ((C.keystream hp.key nonce message.length).take 16)
        = xorBytes ((xorBytes message (C.keystream hp.key nonce message.length)).take 4)
          (C.keystream hp.key nonce message.length) :=
            xorBytes_take_mask (by simp) _
      _ = message.take 4 := xorBytes_take_xorBytes _ _ _

/-- Without trailers, and with three different sizes, a framed message is recognised. -/
theorem Framed.recognises (h : t.Framed kind message datagram)
    (hroom : t.headerProtection.isSome → 12 ≤ kind.padding t.paddingConfig)
    (hsize : message.length = kind.size)
    (htype : (kind.range t.headerConfig).contains (leadingType message) = true)
    (htrailers : t.randomTrailers = false) (hsizes : FramedKind.DistinctSizes t.paddingConfig) :
    t.Recognises kind datagram := by
  obtain ⟨before, masked, after, hbefore, hmasked, hafter, rfl⟩ := h
  obtain rfl := hafter htrailers
  have hmessage : 16 ≤ message.length := hsize ▸ kind.size_bounds.1.le
  have htype' := unmask_leadingType (by rwa [hbefore]) hmasked hmessage []
  refine ⟨_, PacketClassifier.classify_of_kind htrailers hsizes ?_ ?_, rfl⟩
  · simp only [List.length_append, hmasked.length_eq, hsize, hbefore, List.length_nil, Nat.add_zero]
    rfl
  · rw [show kind.padding t.classifier.paddings = before.length from hbefore.symm, htype']
    exact htype

end Tunn

/-! ## The messages themselves -/

theorem leadingType_append (msgType : UInt32) (rest : Bytes) :
    leadingType (u32ToLe msgType ++ rest) = msgType := by
  rw [leadingType, slice_head (length_u32ToLe msgType), u32OfLe_u32ToLe]

namespace Handshake

variable {message : Bytes} {dstLen : Nat} {h h' : Handshake C} {session : Session}
  {msgType : UInt32} {e e' : ε}

/-- An initiation has 148 bytes, MACs included, and opens with its type. -/
theorem formatHandshakeInitiation_message {h : Handshake C} {e : ε}
    (hr : (h.formatHandshakeInitiation dstLen msgType e).1 = .ok message) :
    message.length = handshakeInitSz ∧ leadingType message = msgType := by
  by_cases hdst : handshakeInitSz ≤ dstLen
  · rw [formatHandshakeInitiation_eq h hdst] at hr
    obtain ⟨macs, hbytes, hmacs⟩ := appendMac1AndMac2_eq (h.afterInitiation e)
      (succIndex h.nextIndex) (h.initiationBody msgType e)
    rw [hbytes] at hr
    obtain rfl := Except.ok.inj hr
    constructor
    · simp [initiationBody, length_encryptedStatic, length_encryptedPayload, hmacs]
    · simp only [initiationBody, List.append_assoc, leadingType_append]
  · rw [formatHandshakeInitiation, if_pos (Nat.not_le.mp hdst)] at hr
    cases hr

/-- A response has 92 bytes, MACs included, and opens with its type. -/
theorem formatHandshakeResponse_message
    (hr : h.formatHandshakeResponse dstLen msgType e = .ok (.ok (message, session), h', e')) :
    message.length = handshakeRespSz ∧ leadingType message = msgType := by
  by_cases hdst : handshakeRespSz ≤ dstLen
  · cases hstate : h.state with
    | initReceived hash chainingKey peerEphemeral peerIndex =>
      let sym : NoisePattern.Sym Key := ⟨chainingKey, hash⟩
      obtain ⟨macs, h₁, hmacs, heq⟩ := formatHandshakeResponse_eq h hdst msgType e
        (show h.state = .initReceived sym.hash sym.chainingKey peerEphemeral peerIndex from hstate)
      rw [heq] at hr
      cases hr
      constructor
      · simp [responseBody, length_response, hmacs]
      · simp only [responseBody, List.append_assoc, leadingType_append]
    | none => simp [formatHandshakeResponse, Nat.not_lt.mpr hdst, hstate] at hr
    | initSent s => simp [formatHandshakeResponse, Nat.not_lt.mpr hdst, hstate] at hr
    | expired => simp [formatHandshakeResponse, Nat.not_lt.mpr hdst, hstate] at hr
  · rw [formatHandshakeResponse, if_pos (Nat.not_le.mp hdst)] at hr
    cases hr

theorem receiveHandshakeInitialization_message {packet : HandshakeInit} {respMsgType : UInt32}
    (hr : h.receiveHandshakeInitialization packet dstLen respMsgType e
      = .ok (.ok (message, session), h', e')) :
    message.length = handshakeRespSz ∧ leadingType message = respMsgType := by
  rw [receiveHandshakeInitialization_unfold] at hr
  simp only at hr
  split at hr
  · cases hr
  · split_ifs at hr
    · cases hr
    · split at hr
      · cases hr
      · split_ifs at hr
        · cases hr
        · exact formatHandshakeResponse_message hr

end Handshake

namespace RateLimiter

variable {dstLen : Nat} {headerConfig : HeaderConfig} {srcAddr : Option IpAddr}
  {disableCookies : Bool} {r r' : RateLimiter} {message : Bytes} {src : Bytes} {e e' : ε}

/-- A cookie reply has 64 bytes and opens with its type. -/
theorem formatCookieReply_message {idx : UInt32} {cookie : ByteArr 16} {mac1 : Bytes}
    {msgType : UInt32}
    (h : r.formatCookieReply C idx cookie mac1 dstLen msgType = (.ok message, r')) :
    message.length = cookieReplySz ∧ leadingType message = msgType := by
  unfold formatCookieReply at h
  split_ifs at h
  · cases h
  · cases h
    exact ⟨by simp, leadingType_append msgType _⟩

/-- The only thing the limiter sends is a cookie reply of 64 bytes, with a type drawn from
the range of that kind. -/
theorem verifyPacket_reply (h : r.verifyPacket C srcAddr src dstLen headerConfig disableCookies e =
      (.error (.writeToNetwork message), r', e')) :
    message.length = cookieReplySz ∧
      ∃ e₁ : ε, leadingType message = (headerConfig.cookie.generate e₁).1 := by
  unfold verifyPacket at h
  split at h
  · cases h
  · split at h
    · cases h
    · simp only at h
      split_ifs at h
      · cases h
      · cases h
      · unfold verifyMac2 at h
        split at h
        · cases h
        · simp only at h
          split_ifs at h
          · cases h
          · split at h
            · cases h
            · rename_i hreply
              cases h
              obtain ⟨hlen, htype⟩ := formatCookieReply_message hreply
              exact ⟨hlen, _, htype⟩
      · cases h

/-- What the limiter returns instead of a packet is an error or a cookie reply. -/
theorem verifyPacket_error {l l' : RateLimiter} {answer : TunnResult}
    (h : l.verifyPacket C srcAddr src dstLen headerConfig disableCookies e =
      (.error answer, l', e')) :
    (∃ err, answer = .err err) ∨ ∃ cookie, answer = .writeToNetwork cookie := by
  have hmac2 {l : RateLimiter} {packet : Packet} {senderIdx : UInt32} {msg mac1 mac2 : Bytes}
      (h : l.verifyMac2 C srcAddr packet senderIdx msg mac1 mac2 dstLen headerConfig e =
        (.error answer, l', e')) :
      (∃ err, answer = .err err) ∨ ∃ cookie, answer = .writeToNetwork cookie := by
    unfold verifyMac2 at h
    split at h
    · cases h
      exact .inl ⟨_, rfl⟩
    · dsimp only at h
      split at h
      · cases h
      · split at h
        · cases h
          exact .inl ⟨_, rfl⟩
        · cases h
          exact .inr ⟨_, rfl⟩
  unfold verifyPacket at h
  split at h
  · cases h
    exact .inl ⟨_, rfl⟩
  · split at h
    · cases h
    · dsimp only at h
      split_ifs at h
      · cases h
        exact .inl ⟨_, rfl⟩
      · cases h
      · exact hmac2 h
      · cases h

end RateLimiter

namespace Tunn

variable {t : Tunn C} {kind : FramedKind}

/-- The calls that send a framed message. -/
inductive Emits (ε : Type) [Env ε] (t : Tunn C) : FramedKind → Bytes → Prop
  | initiation {dstLen : Nat} {force : Bool} {e e' : ε} {t' : Tunn C} {datagram : Bytes}
      (h : t.formatHandshakeInitiation dstLen force e = .ok (.writeToNetwork datagram, t', e')) :
      Emits ε t .init datagram
  | response {p : HandshakeInit} {dstLen : Nat} {e e' : ε} {t' : Tunn C} {datagram : Bytes}
      (h : t.handleHandshakeInit p dstLen e = .ok (.ok (.writeToNetwork datagram), t', e')) :
      Emits ε t .response datagram
  | cookieReply {srcAddr : Option IpAddr} {incoming : Bytes} {dstLen : Nat} {e e' : ε} {t' : Tunn C}
      {datagram : Bytes}
      (h : t.receive srcAddr incoming dstLen e = .ok (.reply (.writeToNetwork datagram), t', e')) :
      Emits ε t .cookie datagram

/-- The messages a tunnel can make, with their MACs and before they are framed. -/
inductive Makes (ε : Type) [Env ε] (t : Tunn C) : FramedKind → Bytes → Prop
  | initiation {dstLen : Nat} {e e' : ε} {message : Bytes}
      (h : (t.handshake.formatHandshakeInitiation dstLen (t.headerConfig.init.generate e).1 e').1 =
        .ok message) : Makes ε t .init message
  | response {p : HandshakeInit} {dstLen : Nat} {e e' e'' : ε} {message : Bytes} {session : Session}
      {handshake : Handshake C}
      (h : t.handshake.receiveHandshakeInitialization p dstLen
        (t.headerConfig.response.generate e).1
        e' = .ok (.ok (message, session), handshake, e'')) : Makes ε t .response message
  | cookieReply {srcAddr : Option IpAddr} {bytes message : Bytes} {e e' : ε} {limiter : RateLimiter}
      (h : t.rateLimiter.verifyPacket C srcAddr bytes cookieReplySz t.headerConfig
        t.disableCookies e
        = (.error (.writeToNetwork message), limiter, e')) : Makes ε t .cookie message

/-- A message has the size and the type of its kind. -/
theorem Makes.wellFormed {message : Bytes} (h : Makes ε t kind message)
    (hordered : t.headerConfig.Ordered) :
    message.length = kind.size ∧
      (kind.range t.headerConfig).contains (leadingType message) = true := by
  cases h with
  | initiation h =>
    obtain ⟨hlen, htype⟩ := Handshake.formatHandshakeInitiation_message h
    exact ⟨hlen, htype ▸ HeaderRange.generate_contains hordered.init _⟩
  | response h =>
    obtain ⟨hlen, htype⟩ := Handshake.receiveHandshakeInitialization_message h
    exact ⟨hlen, htype ▸ HeaderRange.generate_contains hordered.response _⟩
  | cookieReply h =>
    obtain ⟨hlen, e₁, htype⟩ := RateLimiter.verifyPacket_reply h
    exact ⟨hlen, htype ▸ HeaderRange.generate_contains hordered.cookie _⟩

/-- What is sent is a message of the tunnel, framed. -/
theorem Emits.made {datagram : Bytes} (h : Emits ε t kind datagram) :
    ∃ message, Makes ε t kind message ∧ t.Framed kind message datagram := by
  cases h with
  | initiation h =>
    rcases formatHandshakeInitiation_ends h with ⟨-, hr | hr⟩ | ⟨made, hr, hsent⟩
    · cases hr
    · cases hr
    · cases hr
      cases hsent with
      | @sent _ _ _ _ message _ _ _ _ hprepare hmade hframe =>
        obtain ⟨timers, queue, rfl⟩ := prepareInitiation_eq hprepare
        exact ⟨message, .initiation (congrArg Prod.fst hmade), framed_of_frame .init hframe⟩
  | response h =>
    simp only [handleHandshakeInit] at h
    split_ifs at h
    · cases h
    · obtain ⟨⟨result, handshake, e₁⟩, hmade, h⟩ := bind_eq_ok.mp h
      simp only at h
      split at h
      · cases h
      · rename_i message session
        obtain ⟨⟨framed, e₂⟩, hframe, h⟩ := bind_eq_ok.mp h
        cases h
        exact ⟨message, .response hmade, framed_of_frame .response hframe⟩
  | cookieReply h =>
    rw [receive_eq_unframe] at h
    obtain ⟨u, -, h⟩ := bind_eq_ok.mp h
    cases u with
    | packet p => cases h
    | message bytes =>
      obtain ⟨_, _, _, hmade, rfl, ⟨_, -, h⟩ | ⟨_, -, h⟩ | ⟨message, rfl, h | ⟨_, hframe, h⟩⟩⟩ :=
        verify_cases h
      · cases h
      · cases h
      · cases h
      · cases h
        exact ⟨message, .cookieReply hmade, framed_of_frame .cookie hframe⟩

/-- The prefix of every kind holds a nonce. -/
theorem HasConfig.prefixRoom {cfg : Amnezia3Config} (h : t.HasConfig cfg) (hcfg : cfg.WellFormed)
    (kind : FramedKind) : t.headerProtection.isSome → 12 ≤ kind.padding t.paddingConfig := by
  intro hsome
  rw [h.headerProtection, Amnezia3Config.headerProtection, Option.isSome_map] at hsome
  have hfits := hcfg.nonceFits hsome
  rw [h.paddings]
  cases kind with
  | init => exact hfits.s1
  | response => exact hfits.s2
  | cookie => exact hfits.s3

/-- **Handshake framing round trip.**  Sender and receiver share a parsed configuration.
A datagram that the receiver takes for its own kind reaches the rate limiter as the
message the sender has made and framed in it, MACs and all, whatever the prefix, the mask
and the trailer.
Without trailers, and with datagrams of three different sizes, every datagram is taken for
its own kind, and the message parses as that kind. -/
theorem handshake_framing [Text.Hex] {input : Text} {cfg : Amnezia3Config}
    (hparse : (Amnezia3Config.parse input).run = .ok (.ok cfg)) {S R : Tunn C}
    (hS : S.HasConfig cfg) (hR : R.HasConfig cfg) {kind : FramedKind} {datagram : Bytes}
    (hsend : Emits ε S kind datagram) :
    ∃ message, Makes ε S kind message ∧ S.Framed kind message datagram ∧
      message.length = kind.size ∧
      (R.Recognises kind datagram → R.unframe datagram = .ok (.message message) ∧
        ∀ srcAddr dstLen (e : ε),
          R.receive srcAddr datagram dstLen e = R.verify srcAddr message dstLen e) ∧
      (cfg.randomTrailers = false → FramedKind.DistinctSizes cfg.paddings →
        R.Recognises kind datagram ∧ ∃ packet,
          parseIncomingPacketConfig message R.headerConfig = .ok packet ∧
          packet.framedKind = some kind) := by
  have hcfg := Amnezia3Config.parse_wellFormed hparse
  obtain ⟨message, hmakes, hsent⟩ := hsend.made
  obtain ⟨hsize, htype⟩ := hmakes.wellFormed (hS.headers ▸ hcfg.ordered)
  rw [hS.headers, ← hR.headers] at htype
  have hframed := hsent.of_config hS hR
  refine ⟨message, hmakes, hsent, hsize, ?_, ?_⟩
  · intro hown
    have hunframe := hframed.unframe_eq hsize hown
    refine ⟨hunframe, ?_⟩
    intro srcAddr dstLen e
    rw [receive_eq_unframe, hunframe, ok_bind]
  · intro htrailers hsizes
    refine ⟨hframed.recognises (hR.prefixRoom hcfg kind) hsize htype ?_ ?_,
      parse_framedKind hsize htype⟩
    · rw [hR.randomTrailers, htrailers]
    · rwa [hR.paddings]

/-- Header protection and a prefix of twelve bytes on every message. -/
def guardedText : Text :=
  ("s1=12\ns2=12\ns3=12\ns4=12\nheader_protection_key=" ++
    "0101010101010101010101010101010101010101010101010101010101010101").toList

/-- What `guardedText` says. -/
def guardedConfig : Amnezia3Config where
  paddings := ⟨12, 12, 12, 12⟩
  headerProtectionKey := some ⟨List.replicate 32 1, rfl⟩

/-- A tunnel with that configuration, as it is made. -/
def guardedTunn : Tunn Crypto.transparent :=
  (ofConfig zeroKey zeroKey none none 1 none guardedConfig ({} : StillMachine)).1

/-- A guarded initiation comes out of its framing. -/
theorem handshake_framing_guarded :
    ∃ datagram message, Emits StillMachine guardedTunn .init datagram ∧
      guardedTunn.Framed .init message datagram ∧ datagram.length = 160 ∧ message.length = 148 ∧
      guardedTunn.unframe datagram = .ok (.message message) := by
  have hrun : Outcome.test (guardedTunn.formatHandshakeInitiation 160 false ({} : StillMachine))
      (fun x => x.1.toNetwork.map List.length == some 160) = true := by decide +kernel
  obtain ⟨⟨r, t', e'⟩, hinitiate, hrun⟩ := Outcome.test_eq_true_iff.mp hrun
  obtain ⟨datagram, hdatagram, hlen⟩ := Option.map_eq_some_iff.mp (beq_iff_eq.mp hrun)
  obtain rfl := TunnResult.toNetwork_eq_some.mp hdatagram
  have hparse : (Amnezia3Config.parse guardedText).run = .ok (.ok guardedConfig) := by
    decide +kernel
  have hconfig : guardedTunn.HasConfig guardedConfig := ⟨rfl, rfl, rfl, rfl, rfl, rfl⟩
  obtain ⟨message, -, hframed, hsize, hunframe, hown⟩ := handshake_framing hparse hconfig hconfig
    (.initiation hinitiate)
  have hrecognised := (hown rfl (by decide)).1
  exact ⟨datagram, message, .initiation hinitiate, hframed, hlen, hsize, (hunframe hrecognised).1⟩

end Tunn
