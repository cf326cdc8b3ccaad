import AwgTun.Phobos.Datagram

/-!
# Phobos datagrams from anyone

What arrives at a Phobos socket was chosen by whoever sent it: the length of a STUN message and of
its attribute, and, behind the mask, the length of a tail.  Every one of them cuts the buffer.

* `Unwrapped.Safe` — what a datagram may be taken for.
* `handleStun_meets`, `decode_meets`, `PhobosCodec.locate_meets` — each reader keeps to the
  datagram, and says where what it found is.
* `PhobosCodec.unwrap_safe` — so no datagram makes `unwrap` panic or return anything else.

A reader that comes back for every input meets a postcondition with no panic allowed
(`Outcome.Meets`); the sequence rule puts them together.
-/

open Control Bytes

namespace Phobos

variable {datagram : Bytes} {request : Bytes}

/-- No panic is allowed. -/
abbrev Never (_ : String) : Prop := False

/-! ## Replies -/

/-- The reply to a Binding Request: 40 bytes that begin with the header of a Binding Success and
the transaction of the request. -/
structure Answers (reply request : Bytes) : Prop where
  length : reply.length = 40
  kind : slice reply 0 2 = beBytes 2 stunBindingSuccess
  cookie : slice reply 4 8 = stunCookie
  transaction : slice reply 8 20 = slice request 8 20

/-- A piece of a reply that is not its header, or its length, is written. -/
theorem copyAt_answers {out request bs : Bytes} {start : Nat} (h : Answers out request)
    (hplace : start = 2 ∧ bs.length = 2 ∨ 20 ≤ start) (hroom : start + bs.length ≤ 40) :
    (copyAt out start bs).Meets Never fun out => Answers out request := by
  have hfit : start + bs.length ≤ out.length := by rw [h.length]; exact hroom
  rw [copyAt, if_pos hfit]
  have hkept {i j : Nat} (hj : j ≤ 2 ∨ 4 ≤ i ∧ j ≤ 20) :
      slice (overwrite out start bs) i j = slice out i j := by
    rcases hplace with ⟨rfl, hlen⟩ | hstart
    · rcases hj with hj | hj
      · exact slice_overwrite_before hj hfit
      · exact slice_overwrite_after (by omega) hfit
    · exact slice_overwrite_before (by omega) hfit
  exact ⟨(length_overwrite hfit).trans h.length, (hkept (by omega)).trans h.kind,
    (hkept (by omega)).trans h.cookie, (hkept (by omega)).trans h.transaction⟩

theorem finishWithFingerprint_answers {out request : Bytes} (h : Answers out request) :
    (finishWithFingerprint out 32).Meets Never fun out => Answers out request := by
  refine (copyAt_answers h (.inl ⟨rfl, rfl⟩) (by decide)).bind fun out₁ _ h₁ => ?_
  rw [sliceTo_eq_ok (by rw [h₁.length]; decide), ok_bind]
  refine (copyAt_answers h₁ (.inr (by decide)) (by simp)).bind fun out₂ _ h₂ => ?_
  refine (copyAt_answers h₂ (.inr (by decide)) (by simp)).bind fun out₃ _ h₃ => ?_
  refine (copyAt_answers h₃ (.inr (by decide)) (by simp)).bind fun out₄ _ h₄ => ?_
  exact copyAt_answers h₄ (.inl ⟨rfl, by simp⟩) (by simp)

/-- The header of a reply. -/
theorem writeStunHeader_answers (hlen : 20 ≤ request.length) :
    (writeStunHeader (List.replicate 40 0) stunBindingSuccess 0
      (toArr 12 (slice request 8 20))).Meets Never fun out => Answers out request := by
  have hid : (toArr 12 (slice request 8 20)).toList = slice request 8 20 :=
    toList_toArr (by rw [length_slice]; omega)
  have hidLen : (slice request 8 20).length = 12 := by rw [length_slice]; omega
  rw [writeStunHeader, copyAt, if_pos (by simp)]
  simp only [overwrite, List.take_zero, List.nil_append, stunHeader, hid, List.append_assoc]
  refine ⟨?_, slice_head (by simp), ?_, ?_⟩
  · simp [hidLen, stunCookie]
  · rw [← List.append_assoc]
    exact slice_append (by simp) rfl
  · rw [← List.append_assoc, ← List.append_assoc]
    exact slice_append (by simp [stunCookie]) (by rw [hidLen])

theorem buildBindingSuccess_meets (hlen : 20 ≤ request.length) (source : SocketAddr) :
    (buildBindingSuccess (toArr 12 (slice request 8 20)) source).Meets Never
      fun reply => ∀ packet, reply = some packet → Answers packet request := by
  unfold buildBindingSuccess
  split
  · intro packet h
    cases h
  · refine (writeStunHeader_answers hlen).bind fun out₁ _ h₁ => ?_
    refine (copyAt_answers h₁ (.inr (by decide)) (by simp)).bind fun out₂ _ h₂ => ?_
    refine (copyAt_answers h₂ (.inr (by decide)) (by simp)).bind fun out₃ _ h₃ => ?_
    refine (copyAt_answers h₃ (.inr (by decide)) (by simp)).bind fun out₄ _ h₄ => ?_
    refine (copyAt_answers h₄ (.inr (by decide)) (by simp)).bind fun out₅ _ h₅ => ?_
    refine (copyAt_answers h₅ (.inr (by decide)) (by simp)).bind fun out₆ _ h₆ => ?_
    refine (finishWithFingerprint_answers h₆).bind fun out₇ _ h₇ => ?_
    intro packet h
    cases h
    exact h₇

/-! ## STUN messages -/

/-- What a STUN message is taken for: the payload of a Data Indication lies inside the datagram,
and a reply is one to this request. -/
def StunOutcome.Within (datagram : Bytes) : StunOutcome → Prop
  | .data len => stunDataHeaderLen + len ≤ datagram.length
  | .reply packet => Answers packet datagram
  | .drop => True

theorem readU16_meets {i : Nat} (h : i + 2 ≤ datagram.length) :
    (readU16 datagram i).Meets Never fun _ => True := by
  rw [readU16, sliceRange_eq_ok (by omega) h, ok_bind]
  trivial

theorem handleStun_meets (hlen : 2 ≤ datagram.length) (source : SocketAddr) :
    (handleStun datagram source).Meets Never fun outcome => outcome.Within datagram := by
  refine (readU16_meets (by omega)).bind fun kind _ _ => ?_
  split
  · split
    · trivial
    · rename_i hshort
      have hheader : 20 ≤ datagram.length := Nat.not_lt.mp hshort
      rw [sliceRange_eq_ok (by decide) hheader, ok_bind]
      refine (buildBindingSuccess_meets hheader source).bind fun reply _ hreply => ?_
      cases reply with
      | none => trivial
      | some packet => exact hreply packet rfl
  · split
    · split
      · trivial
      · rename_i hshort
        have hheader : 24 ≤ datagram.length := Nat.not_lt.mp hshort
        refine (readU16_meets (by omega)).bind fun msgLen _ _ => ?_
        refine (readU16_meets (by omega)).bind fun attr _ _ => ?_
        refine (readU16_meets (by omega)).bind fun dataLen _ _ => ?_
        split
        · trivial
        · rename_i hcut
          push Not at hcut
          have hdata := hcut.2.2
          show stunDataHeaderLen + dataLen ≤ datagram.length
          omega
    · trivial

/-! ## Payloads -/

/-- What `decode` made of a payload: the buffer keeps its length, and a message in it has a type
field. -/
def Decoded (payload : Bytes) (r : Option Nat × Bytes) : Prop :=
  r.2.length = payload.length ∧
    ∀ m, r.1 = some m → 4 ≤ m ∧ m ≤ payload.length ∧ slice r.2 1 4 = [0, 0, 0]

theorem decode_meets {key : Bytes} (hkey : KeyFits key) (payload : Bytes)
    (obfuscateBytes : UInt32) :
    (decode payload key obfuscateBytes).Meets Never (Decoded payload) := by
  unfold decode
  dsimp only
  split
  · exact ⟨rfl, by simp⟩
  · rename_i hshort
    rw [maskFront_eq hkey (maskedLen_le _ _), ok_bind]
    generalize hmasked : xorBytes payload _ = masked
    have hlen : masked.length = payload.length := by
      rw [← hmasked, length_xorBytes]
    split
    · rename_i hplain
      refine ⟨hlen, ?_⟩
      intro m hm
      cases hm
      exact ⟨by omega, le_rfl, (looksPlain_shape hplain).2⟩
    · split
      · rename_i b₀ b₁ b₂ b₃ rest
        refine ⟨hlen, ?_⟩
        intro m hm
        simp only at hm
        split_ifs at hm with hdummy
        cases hm
        exact ⟨hdummy.2, Nat.sub_le _ _, rfl⟩
      · -- four bytes are there
        rename_i hno
        match masked, hlen with
        | b₀ :: b₁ :: b₂ :: b₃ :: rest, _ => exact hno _ _ _ _ _ rfl
        | [_, _, _], hlen | [_, _], hlen | [_], hlen | [], hlen =>
          simp at hlen
          omega

/-! ## Datagrams -/

/-- What `unwrap` may make of a datagram, and of the buffer it lies in. -/
def Unwrapped.Safe (datagram buffer : Bytes) : Unwrapped → Prop
  | .drop => True
  | .reply packet => Answers packet datagram
  | .wireGuard offset message => offset + message.length ≤ datagram.length ∧
      message = slice buffer offset (offset + message.length) ∧ 4 ≤ message.length ∧
      slice message 1 4 = [0, 0, 0]

namespace PhobosCodec

variable {ρ : Type} {cfg : PhobosConfig} {c : PhobosCodec ρ}

/-- A payload that is found lies inside the datagram. -/
def Located (datagram : Bytes) : Unwrapped ⊕ (Nat × Nat) → Prop
  | .inl result => result = .drop ∨ ∃ packet, result = .reply packet ∧ Answers packet datagram
  | .inr (offset, len) => offset + len ≤ datagram.length

theorem locate_meets (c : PhobosCodec ρ) {datagram : Bytes} (hlen : 4 ≤ datagram.length)
    (source : SocketAddr) : (c.locate datagram source).Meets Never (Located datagram) := by
  -- a message with the STUN cookie, whichever masking is on
  have hstun : (handleStun datagram source >>= fun outcome => match outcome with
      | .data len => .ok (.inr (stunDataHeaderLen, len))
      | .reply packet => .ok (.inl (.reply packet))
      | .drop => .ok (.inl .drop)).Meets Never (Located datagram) := by
    refine (handleStun_meets (by omega) source).bind fun outcome _ h => ?_
    cases outcome with
    | data len => exact h
    | reply packet => exact .inr ⟨packet, rfl, h⟩
    | drop => exact .inl rfl
  unfold locate
  cases c.config.masking with
  | none => exact (Nat.zero_add _).le
  | stun =>
    dsimp only
    split
    · exact hstun
    · exact .inl rfl
  | media =>
    dsimp only
    split
    · exact hstun
    · split
      · exact .inl rfl
      · rename_i hshort
        have hheader : 16 ≤ datagram.length := Nat.not_lt.mp hshort
        refine (byteAt_meets (by omega)).bind fun first _ _ => ?_
        refine (byteAt_meets (by omega)).bind fun second _ _ => ?_
        rw [sliceRange_eq_ok (by decide) (by omega), ok_bind]
        split
        · exact .inl rfl
        · show rtpHeaderLen + (datagram.length - rtpHeaderLen) ≤ datagram.length
          have hrtp : rtpHeaderLen = 12 := rfl
          omega

theorem unwrap_meets (hc : c.Serves cfg) (datagram : Bytes) (source : SocketAddr) :
    (c.unwrap datagram source).Meets Never
      fun r => r.2.length = datagram.length ∧ r.1.Safe datagram r.2 := by
  unfold unwrap
  split
  · exact ⟨rfl, trivial⟩
  · rename_i hlong
    push Not at hlong
    refine (c.locate_meets hlong.1 source).bind fun located _ hlocated => ?_
    rcases located with result | ⟨offset, len⟩
    · rcases hlocated with rfl | ⟨packet, rfl, hanswers⟩
      · exact ⟨rfl, trivial⟩
      · exact ⟨rfl, hanswers⟩
    · have hend : offset + len ≤ datagram.length := hlocated
      dsimp only
      split
      · exact ⟨rfl, trivial⟩
      · have hpayload : (slice datagram offset (offset + len)).length = len := by
          rw [length_slice]
          omega
        rw [sliceRange_eq_ok (Nat.le_add_right _ _) hend, ok_bind]
        refine (decode_meets hc.keyFits _ _).bind ?_
        rintro ⟨decoded, payload⟩ - ⟨hkept, hdecoded⟩
        rw [hpayload] at hkept hdecoded
        simp only at hkept
        have hroom : offset + payload.length ≤ datagram.length := by omega
        cases decoded with
        | none => exact ⟨length_overwrite hroom, trivial⟩
        | some m =>
          obtain ⟨hfour, hm, hzero⟩ := hdecoded m rfl
          have htake : (payload.take m).length = m := by
            rw [List.length_take]
            omega
          simp only [sliceTo_eq_ok (show m ≤ payload.length by omega), ok_bind]
          refine ⟨length_overwrite hroom, by rw [htake]; omega, ?_, by rw [htake]; exact hfour, ?_⟩
          · -- the message is the front of what was written back
            have hsplit : overwrite datagram offset payload = datagram.take offset ++
                (payload.take m ++ (payload.drop m ++ datagram.drop (offset + payload.length))) :=
                  by
              rw [overwrite, ← List.append_assoc (payload.take m), List.take_append_drop]
            rw [htake, hsplit, slice_append (by rw [List.length_take]; omega) (by rw [htake])]
          · rw [slice_take hfour]
            exact hzero

/-- **No datagram does any harm.**  For every codec of a valid configuration, every datagram of any
length and every source, `unwrap` comes back, and with nothing but a drop, a Binding Success with
the transaction of the request, or a message that lies in the buffer, at least four bytes long and
with zeros behind its type.  A datagram that begins with the type field of a plain message is
dropped. -/
theorem unwrap_safe (hc : c.Serves cfg) (datagram : Bytes) (source : SocketAddr) :
    (∃ result buffer, c.unwrap datagram source = .ok (result, buffer) ∧
      buffer.length = datagram.length ∧ result.Safe datagram buffer) ∧
    ∀ (b : UInt8) (rest : Bytes), 1 ≤ b → b ≤ 4 → datagram = b :: 0 :: 0 :: 0 :: rest →
      c.unwrap datagram source = .ok (.drop, datagram) := by
  constructor
  · have hmeets := unwrap_meets hc datagram source
    obtain ⟨⟨result, buffer⟩, hunwrap⟩ := hmeets.returns
    rw [hunwrap] at hmeets
    exact ⟨result, buffer, hunwrap, hmeets⟩
  · rintro b rest hone hfour rfl
    exact unwrap_plain (by simp [looksPlain, hone, hfour])

/-- A Data Indication that claims more than it holds. -/
def overlong : Bytes :=
  stunHeader stunDataIndication 0 (toArr 12 []) ++ (beBytes 2 stunAttrData ++ beBytes 2 9) ++
    [1, 2, 3]

/-- It is not taken for a message that reaches past its end. -/
theorem unwrap_safe_overlong :
    withRng indicating.config ({} : StillMachine) = .ok indicating ∧
    ∃ result buffer, indicating.unwrap overlong (.v4 0 0) = .ok (result, buffer) ∧
      buffer.length = overlong.length ∧ result.Safe overlong buffer := by
  have hbuilt : withRng indicating.config ({} : StillMachine) = .ok indicating := rfl
  exact ⟨hbuilt, (unwrap_safe (withRng_serves hbuilt) overlong (.v4 0 0)).1⟩

end PhobosCodec

end Phobos
