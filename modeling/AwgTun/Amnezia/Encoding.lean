import AwgTun.Amnezia.Chains

/-!
# What a chain generates

`CpsChain::generate` adds up the announced lengths, allocates that many bytes and lets each tag
write into the buffer at the offset its predecessors have left.  The result is the encodings of the
tags one after another, except that the writer of `<dz N>` takes the last `N` bytes of eight: the
parser accepts `N` up to 65535, and any `N` above 8 panics.

* `CpsTag.Encodes` — what a tag stands for.
* `generateLoop_eq` — the loop fills the buffer with encodings, from the offset on.
* `CpsChain.generates_iff` — a chain is generated as it should be exactly if it has no `<dz N>`
  with `N` above 8.
* `CpsChain.long_size_panics` — a chain that the parser accepts and the generator does not survive.
-/

open Text Control Bytes

/-- The byte is an ASCII letter. -/
def IsLetter (b : UInt8) : Prop := (97 ≤ b ∧ b ≤ 122) ∨ (65 ≤ b ∧ b ≤ 90)

/-- The byte is an ASCII digit. -/
def IsDigit (b : UInt8) : Prop := 48 ≤ b ∧ b ≤ 57

/-- What a tag stands for, with source data `data` and at the time `now`. -/
inductive CpsTag.Encodes [Base64] (data : Bytes) (now : Duration) : CpsTag → Bytes → Prop
  | bytes (bs : Bytes) : Encodes data now (.bytes bs) bs
  /-- The seconds since the epoch, in four bytes. -/
  | timestamp : Encodes data now .timestamp (beBytes 4 (Duration.asSecs now))
  | randomBytes {len : Nat} {bs : Bytes} (hlen : bs.length = len) :
      Encodes data now (.randomBytes len) bs
  | randomChars {len : Nat} {bs : Bytes} (hlen : bs.length = len) (h : ∀ b ∈ bs, IsLetter b) :
      Encodes data now (.randomChars len) bs
  | randomDigits {len : Nat} {bs : Bytes} (hlen : bs.length = len) (h : ∀ b ∈ bs, IsDigit b) :
      Encodes data now (.randomDigits len) bs
  | data : Encodes data now .data data
  | dataString :
      Encodes data now .dataString ((Base64.encode data).map fun c => UInt8.ofNat c.toNat)
  | dataSize (len : Nat) : Encodes data now (.dataSize len) (beBytes len data.length)

/-! ## Tags -/

section Generate

variable {ε : Type} [Env ε]

/-- Every byte that is drawn is the rendering of a number in the range. -/
theorem drawBytes_forall {P : UInt8 → Prop} {top : UInt32} {render : Nat → UInt8}
    (h : ∀ v ≤ top.toNat, P (render v)) (n : Nat) (e : ε) :
    ∀ b ∈ (drawBytes top render n e).1, P b := by
  induction n generalizing e with
  | zero => simp [drawBytes]
  | succ n ih =>
    rw [drawBytes, List.forall_mem_cons]
    have hdraw := (genRangeU32_mem e (show (0 : UInt32) ≤ top from UInt32.zero_le)).2
    rw [UInt32.le_iff_toNat_le] at hdraw
    exact ⟨h _ hdraw, ih _⟩

theorem isLetter_alpha :
    ∀ v ≤ (51 : UInt32).toNat, IsLetter (UInt8.ofNat (alpha.getD v 'a').toNat) := by
  unfold IsLetter
  decide

theorem isDigit_render : ∀ v ≤ (9 : UInt32).toNat, IsDigit (UInt8.ofNat (48 + v)) := by
  unfold IsDigit
  decide

variable [Base64]

/-- **Tags.**  A tag that can be generated is encoded as it should be, in as many bytes as it
announces. -/
theorem CpsTag.encoding_encodes {tag : CpsTag} (htag : tag.Generable) (data : Bytes) (e : ε) :
    ∃ bs e', tag.encoding data e = .ok (bs, e') ∧ bs.length = tag.encodedLen data.length ∧
      tag.Encodes data (Env.systemTimeNow e).1 bs := by
  obtain ⟨bs, e', hencoding, hlen⟩ := tag.encoding_spec htag data e
  refine ⟨bs, e', hencoding, hlen, ?_⟩
  cases tag with
  | bytes literal =>
    cases hencoding
    exact .bytes bs
  | timestamp =>
    cases hencoding
    have hsecs (n : Nat) : beBytes 4 (UInt32.ofNat n).toNat = beBytes 4 n := by
      rw [UInt32.toNat_ofNat', beBytes, beBytes]
      exact congrArg List.reverse (leBytes_mod 4 n)
    rw [hsecs]
    exact .timestamp
  | randomBytes len => exact .randomBytes hlen
  | randomChars len =>
    have hbs := congrArg Prod.fst (Except.ok.inj hencoding)
    refine .randomChars hlen ?_
    rw [← show (drawBytes 51 _ len e).1 = bs from hbs]
    exact drawBytes_forall isLetter_alpha len e
  | randomDigits len =>
    have hbs := congrArg Prod.fst (Except.ok.inj hencoding)
    refine .randomDigits hlen ?_
    rw [← show (drawBytes 9 _ len e).1 = bs from hbs]
    exact drawBytes_forall isDigit_render len e
  | data =>
    cases hencoding
    exact .data
  | dataString =>
    cases hencoding
    exact .dataString
  | dataSize len =>
    have hsmall : len ≤ 8 := htag
    simp only [encoding, if_pos hsmall] at hencoding
    cases hencoding
    rw [drop_beBytes hsmall]
    exact .dataSize len

/-! ## Chains -/

/-- The encodings of some tags, one after the other: each at the time that the clock shows when the
tags before it are done. -/
inductive CpsTag.EncodeInTurn (data : Bytes) : List CpsTag → ε → List Bytes → ε → Prop
  | nil (e : ε) : EncodeInTurn data [] e [] e
  | cons {tag : CpsTag} {tags : List CpsTag} {bs : Bytes} {parts : List Bytes} {e e₁ e' : ε}
      (hrun : tag.encoding data e = .ok (bs, e₁))
      (htag : tag.Encodes data (Env.systemTimeNow e).1 bs)
      (htags : EncodeInTurn data tags e₁ parts e') :
      EncodeInTurn data (tag :: tags) e (bs :: parts) e'

/-- **The loop** writes the encodings of its tags one after another, from the offset on, and leaves
what is before and behind them. -/
theorem generateLoop_eq (data : Bytes) (tags : List CpsTag) (htags : ∀ tag ∈ tags, tag.Generable) :
    ∀ (offset : Nat) (out : Bytes) (e : ε),
      offset + (tags.map (CpsTag.encodedLen data.length)).sum ≤ out.length →
      ∃ parts e', CpsTag.EncodeInTurn data tags e parts e' ∧
        parts.flatten.length = (tags.map (CpsTag.encodedLen data.length)).sum ∧
        generateLoop data tags offset out e = .ok (overwrite out offset parts.flatten, e') := by
  induction tags with
  | nil =>
    intro offset out e _
    refine ⟨[], e, .nil e, rfl, ?_⟩
    simp [generateLoop, overwrite]
  | cons tag tags ih =>
    intro offset out e hroom
    rw [List.forall_mem_cons] at htags
    simp only [List.map_cons, List.sum_cons] at hroom ⊢
    obtain ⟨bs, e₁, hencoding, hlen, hencodes⟩ := CpsTag.encoding_encodes htags.1 data e
    have hfits : offset + bs.length ≤ out.length := by omega
    have hout := length_overwrite hfits
    obtain ⟨parts, e', hparts, hflat, hrest⟩ := ih htags.2 (offset + bs.length)
      (overwrite out offset bs) e₁ (by omega)
    refine ⟨bs :: parts, e', .cons hencoding hencodes hparts, ?_, ?_⟩
    · rw [List.flatten_cons, List.length_append, hflat, hlen]
    · rw [generateLoop_cons hencoding hfits, hrest, List.flatten_cons]
      -- what the tag has written is before what the others write
      have htake : (overwrite out offset bs).take (offset + bs.length) = out.take offset ++ bs := by
        rw [overwrite, ← List.append_assoc]
        exact List.take_left' (by simp; omega)
      have hdrop : (overwrite out offset bs).drop (offset + bs.length + parts.flatten.length) =
          out.drop (offset + (bs ++ parts.flatten).length) := by
        rw [overwrite, ← List.append_assoc, List.drop_append, List.drop_eq_nil_of_le
          (by simp; omega), List.nil_append, List.drop_drop]
        congr 1
        simp only [List.length_append, List.length_take]
        omega
      congr 2
      rw [overwrite, htake, hdrop, overwrite, List.append_assoc, List.append_assoc]

namespace CpsChain

/-- A chain is generated as it should be: as many bytes as announced, and they are the encodings of
its tags in order. -/
def Generates (chain : CpsChain) (data : Bytes) (e : ε) : Prop :=
  ∃ out parts e', chain.generate data e = .ok (out, e') ∧
    out.length = chain.encodedLen data.length ∧ out = parts.flatten ∧
    CpsTag.EncodeInTurn data chain.tags e parts e'

/-- **Chains.**  With any data and any draws, a chain is generated as it should be exactly if no tag
asks for a length of more than eight bytes. -/
theorem generates_iff (chain : CpsChain) (data : Bytes) (e : ε) :
    chain.Generates data e ↔ ∀ len, .dataSize len ∈ chain.tags → len ≤ 8 := by
  have hcondition : (∀ len, .dataSize len ∈ chain.tags → len ≤ 8) ↔ chain.Generable := by
    constructor
    · intro h tag htag
      cases tag with
      | dataSize len => exact h len htag
      | _ => trivial
    · intro h len hlen
      exact h _ hlen
  rw [hcondition]
  constructor
  · rintro ⟨out, parts, e', hrun, -⟩
    exact (chain.generate_returns_iff data e).mp ⟨_, hrun⟩
  · intro hgenerable
    obtain ⟨parts, e', hparts, hlen, hrun⟩ := generateLoop_eq data chain.tags hgenerable 0
      (List.replicate (chain.encodedLen data.length) 0) e (by simp [encodedLen])
    have hwhole : overwrite (List.replicate (chain.encodedLen data.length) 0) 0 parts.flatten =
        parts.flatten := by
      have hnil : (List.replicate (chain.encodedLen data.length) (0 : UInt8)).drop
          (0 + parts.flatten.length) = [] := by
        rw [List.drop_eq_nil_iff, List.length_replicate, hlen, Nat.zero_add]
        exact le_rfl
      rw [overwrite, hnil, List.append_nil, List.take_zero, List.nil_append]
    rw [hwhole] at hrun
    exact ⟨parts.flatten, parts, e', hrun, hlen, rfl, hparts⟩

end CpsChain

end Generate

namespace CpsChain

/-- `<dz 9>` is accepted, and panics whatever the data are. -/
theorem long_size_panics :
    (CpsChain.parse "<dz 9>".toList).run = .ok (.ok ⟨[.dataSize 9]⟩) ∧
      ∀ data : Bytes, (⟨[.dataSize 9]⟩ : CpsChain).generate data ({} : StillMachine) =
        .panic "range start index out of range for slice" :=
  ⟨by decide +kernel, fun _ => rfl⟩

end CpsChain
