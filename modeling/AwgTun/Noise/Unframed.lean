import AwgTun.Noise.Framing
import AwgTun.Noise.Unauthenticated

/-!
# Datagrams outside the framing

A datagram that the classifier does not recognise has no prefix to strip and no mask to
remove.  `decapsulate` does not drop it: it takes the length of the prefix and of the
masked span to be zero and parses the datagram as it stands.

* `parse_eq_invalidPacket_iff` — when the parser refuses a datagram.
* `Tunn.receive_of_unclassified` — what the first stage does with one that has no class.
* `Tunn.unclassified_refused_iff` — such a datagram is refused exactly if it does not have
  the shape of a message without prefix and mask.
* `Tunn.plain_initiation_answered` — one that has, answered by a tunnel that demands both.
-/

open Control Bytes

variable {C : Crypto} {ε : Type} [Env ε]

/-! ## Shapes -/

/-- The datagram has the shape of a message without prefix and mask: it opens with a type
of one of the four kinds and has a length of that kind. -/
def LooksPlain (headers : HeaderConfig) (datagram : Bytes) : Prop :=
  (headers.init.contains (leadingType datagram) ∧ datagram.length = handshakeInitSz) ∨
  (headers.response.contains (leadingType datagram) ∧ datagram.length = handshakeRespSz) ∨
  (headers.cookie.contains (leadingType datagram) ∧ datagram.length = cookieReplySz) ∨
  (headers.transport.contains (leadingType datagram) ∧ datagram.length ≥ dataOverheadSz)

instance (headers : HeaderConfig) (datagram : Bytes) : Decidable (LooksPlain headers datagram) := by
  unfold LooksPlain
  infer_instance

section Parse

variable {headers : HeaderConfig} {datagram : Bytes}

/-- The parser has one error. -/
theorem parse_error {err : WireGuardError}
    (h : parseIncomingPacketConfig datagram headers = .error err) : err = .invalidPacket := by
  simp only [parseIncomingPacketConfig] at h
  split_ifs at h <;> cases h <;> rfl

/-- The parser refuses what does not have the shape of a message. -/
theorem parse_eq_invalidPacket_iff :
    parseIncomingPacketConfig datagram headers = .error .invalidPacket ↔
      ¬ LooksPlain headers datagram := by
  by_cases hshort : datagram.length < 4
  · have hno : ¬ LooksPlain headers datagram := by
      rintro (h | h | h | h) <;>
        simp only [handshakeInitSz, handshakeRespSz, cookieReplySz, dataOverheadSz] at h <;> omega
    simp [parseIncomingPacketConfig, hshort, hno]
  · simp only [parseIncomingPacketConfig, if_neg hshort, LooksPlain, leadingType, not_or]
    split_ifs with hinit hresponse hcookie htransport <;> simp_all

/-- What has the shape of a message parses. -/
theorem parse_isOk_of_looksPlain (h : LooksPlain headers datagram) :
    ∃ packet, parseIncomingPacketConfig datagram headers = .ok packet := by
  cases hparse : parseIncomingPacketConfig datagram headers with
  | error err =>
    rw [parse_error hparse, parse_eq_invalidPacket_iff] at hparse
    exact absurd h hparse
  | ok packet => exact ⟨packet, rfl⟩

end Parse

/-! ## The first stage -/

namespace RateLimiter

/-- The limiter has its own errors for a message that parses. -/
theorem verifyPacket_err {r r' : RateLimiter} {srcAddr : Option IpAddr} {src : Bytes} {dstLen : Nat}
    {headerConfig : HeaderConfig} {disableCookies : Bool} {e e' : ε} {packet : Packet}
    {err : WireGuardError} (hparse : parseIncomingPacketConfig src headerConfig = .ok packet)
    (h : r.verifyPacket C srcAddr src dstLen headerConfig disableCookies e =
      (.error (.err err), r', e')) : err ≠ .invalidPacket := by
  simp only [verifyPacket, hparse, verifyMac2, formatCookieReply] at h
  grind

end RateLimiter

namespace Tunn

variable {t : Tunn C} {stripped : Bytes}

/-- Without a class, the datagram itself goes to the rate limiter. -/
theorem receive_of_unclassified {datagram : Bytes} (hclass : t.determinePadding datagram = none)
    (srcAddr : Option IpAddr) (dstLen : Nat) (e : ε) :
    t.receive srcAddr datagram dstLen e = t.verify srcAddr datagram dstLen e := by
  rw [receive_eq_unframe, unframe_of_unclassified hclass, ok_bind]

/-- A message that does not parse is refused without a trace. -/
theorem verify_of_not_looksPlain (h : ¬ LooksPlain t.headerConfig stripped)
    (srcAddr : Option IpAddr) (dstLen : Nat) (e : ε) :
    t.verify srcAddr stripped dstLen e = .ok (.reply (.err .invalidPacket), t, e) := by
  simp [verify, RateLimiter.verifyPacket, parse_eq_invalidPacket_iff.mpr h]

/-- A message that parses is not refused as one that does not. -/
theorem verify_of_looksPlain (h : LooksPlain t.headerConfig stripped) {srcAddr : Option IpAddr}
    {dstLen : Nat} {e e' : ε} {t' : Tunn C} :
    t.verify srcAddr stripped dstLen e ≠ .ok (.reply (.err .invalidPacket), t', e') := by
  obtain ⟨packet, hparse⟩ := parse_isOk_of_looksPlain h
  intro hverify
  obtain ⟨_, _, _, herr, -, ⟨_, -, h⟩ | ⟨_, rfl, h⟩ | ⟨_, -, h | ⟨_, -, h⟩⟩⟩ :=
    verify_cases hverify
  · cases h
  · cases h
    exact RateLimiter.verifyPacket_err hparse herr rfl
  · cases h
  · cases h

/-- The datagram is refused: no packet comes out of the first stage, the result is
`InvalidPacket`, and the tunnel is the same as before. -/
structure Refuses (t : Tunn C) (srcAddr : Option IpAddr) (datagram : Bytes) (dstLen : Nat) (e : ε) :
    Prop where
  unprocessed : ∀ p t' e', t.receive srcAddr datagram dstLen e ≠ .ok (.packet p, t', e')
  result : ∃ e', t.decapsulate srcAddr datagram dstLen e = .ok (.err .invalidPacket, t, e')

/-- **When an unrecognised datagram is refused.**  In any state and under any
configuration, a datagram that the classifier does not recognise is refused exactly if it
does not have the shape of a message without prefix and mask. -/
theorem unclassified_refused_iff {datagram : Bytes} (hdatagram : datagram ≠ [])
    (hclass : t.determinePadding datagram = none) (srcAddr : Option IpAddr) (dstLen : Nat) (e : ε) :
    t.Refuses srcAddr datagram dstLen e ↔ ¬ LooksPlain t.headerConfig datagram := by
  have hsome : ¬ datagram.isEmpty = true := by simpa using hdatagram
  constructor
  · intro hrefused hplain
    obtain ⟨e', hresult⟩ := hrefused.result
    rw [decapsulate, if_neg hsome, receive_of_unclassified hclass] at hresult
    obtain ⟨⟨received, t₁, e₁⟩, hverify, hresult⟩ := bind_eq_ok.mp hresult
    cases received with
    | packet p =>
      exact hrefused.unprocessed p t₁ e₁ (by rw [receive_of_unclassified hclass, hverify])
    | reply r =>
      cases hresult
      exact verify_of_looksPlain hplain hverify
  · intro hplain
    have hverify := verify_of_not_looksPlain hplain srcAddr dstLen e
    refine ⟨?_, e, ?_⟩
    · intro p t' e' hreceive
      rw [receive_of_unclassified hclass, hverify] at hreceive
      cases hreceive
    · rw [decapsulate, if_neg hsome, receive_of_unclassified hclass, hverify]
      rfl

/-- Three bytes from nowhere are refused. -/
theorem unclassified_refused_iff_short :
    guardedTunn.Refuses none [1, 2, 3] 1500 ({} : StillMachine) := by
  have hclass : guardedTunn.determinePadding [1, 2, 3] = none := by decide +kernel
  refine (unclassified_refused_iff (by simp) hclass none 1500 ({} : StillMachine)).mpr ?_
  decide

/-! ## A plain initiation -/

/-- The initiation of a peer that uses neither. -/
def plainInitiation : Bytes :=
  match freshTunn.formatHandshakeInitiation handshakeInitSz false ({} : StillMachine) with
  | .ok (.writeToNetwork datagram, _, _) => datagram
  | _ => []

/-- **A plain initiation is answered.**  The initiation of a peer that uses neither prefix
nor mask has no class for a tunnel that demands both; the tunnel accepts it, stores a
session and sends a response. -/
theorem plain_initiation_answered :
    newWithAmnezia3 zeroKey zeroKey none none 1 none guardedConfig ({} : StillMachine) =
      (.ok guardedTunn, {}) ∧
    (∃ t₀ e₀, freshTunn.formatHandshakeInitiation handshakeInitSz false ({} : StillMachine) =
      .ok (.writeToNetwork plainInitiation, t₀, e₀)) ∧
    guardedTunn.determinePadding plainInitiation = none ∧
    ∃ response t' e', guardedTunn.decapsulate none plainInitiation 1500 ({} : StillMachine) =
      .ok (.writeToNetwork response, t', e') ∧ (t'.sessions (slotOf 257)).isSome := by
  refine ⟨rfl, ⟨_, _, rfl⟩, by decide +kernel, ?_⟩
  have hrun : Outcome.test (guardedTunn.decapsulate none plainInitiation 1500 ({} : StillMachine))
      (fun x => x.1.toNetwork.isSome && (x.2.1.sessions (slotOf 257)).isSome) = true := by
    decide +kernel
  obtain ⟨⟨r, t', e'⟩, h, hrun⟩ := Outcome.test_eq_true_iff.mp hrun
  simp only [Bool.and_eq_true] at hrun
  obtain ⟨response, hresponse⟩ := Option.isSome_iff_exists.mp hrun.1
  obtain rfl := TunnResult.toNetwork_eq_some.mp hresponse
  exact ⟨response, t', e', h, hrun.2⟩

end Tunn
