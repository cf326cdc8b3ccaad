import AwgTun.Amnezia.Cps

/-!
# Chains that can be generated

`CpsChain::generate` allocates the announced length and lets every tag write its part.
All tags write as much as they announce, except that `<dz N>` writes the last `N` bytes of
an eight-byte number: a longer one panics.

* `CpsTag.encoding_spec` — a tag's bytes are as many as it announces.
* `generateLoop_returns_iff`, `CpsChain.generate_returns_iff` — a chain is generated
  exactly if none of its tags asks for more than eight bytes of a length.
-/

open Control Bytes

/-- Of the tags, only a length of more than eight bytes cannot be generated. -/
def CpsTag.Generable : CpsTag → Prop
  | .dataSize len => len ≤ 8
  | _ => True

instance : DecidablePred CpsTag.Generable := by
  intro tag
  cases tag <;> unfold CpsTag.Generable <;> infer_instance

/-- Every tag of a chain can be generated. -/
def CpsChain.Generable (chain : CpsChain) : Prop := ∀ tag ∈ chain.tags, tag.Generable

instance : DecidablePred CpsChain.Generable := fun chain =>
  inferInstanceAs (Decidable (∀ tag ∈ chain.tags, tag.Generable))

section Generate

variable {ε : Type} [Env ε] {tag : CpsTag}

theorem length_drawBytes (top : UInt32) (render : Nat → UInt8) (n : Nat) (e : ε) :
    (drawBytes top render n e).1.length = n := by
  induction n generalizing e with
  | zero => rfl
  | succ n ih => simp [drawBytes, ih]

variable [Base64]

/-- A tag that can be generated stands for as many bytes as it announces. -/
theorem CpsTag.encoding_spec (htag : tag.Generable) (data : Bytes) (e : ε) :
    ∃ bs e', tag.encoding data e = .ok (bs, e') ∧ bs.length = tag.encodedLen data.length := by
  cases tag with
  | bytes bs => exact ⟨bs, e, rfl, rfl⟩
  | timestamp => exact ⟨_, _, rfl, by simp [encodedLen]⟩
  | randomBytes len => exact ⟨_, _, rfl, (RandomSource.fillBytes e len).1.toList_length⟩
  | randomChars len => exact ⟨_, _, rfl, length_drawBytes _ _ len e⟩
  | randomDigits len => exact ⟨_, _, rfl, length_drawBytes _ _ len e⟩
  | data => exact ⟨data, e, rfl, rfl⟩
  | dataString =>
    refine ⟨_, e, rfl, ?_⟩
    rw [List.length_map, Base64.length_encode, encodedLen]
    split_ifs with hdata
    · omega
    · rfl
  | dataSize len =>
    have hlen : len ≤ 8 := htag
    refine ⟨(beBytes 8 data.length).drop (8 - len), e, by simp [encoding, hlen], ?_⟩
    simp only [List.length_drop, length_beBytes, encodedLen]
    omega

/-- One that cannot stops the program. -/
theorem CpsTag.encoding_panics (htag : ¬ tag.Generable) (data : Bytes) (e : ε) :
    ¬ (tag.encoding data e).Returns := by
  cases tag with
  | dataSize len => simp [encoding, show ¬ len ≤ 8 from htag]
  | _ => exact absurd trivial htag

/-- One turn of the loop. -/
theorem generateLoop_cons {data bs out : Bytes} {offset : Nat} {e e' : ε}
    (hencoding : tag.encoding data e = .ok (bs, e')) (hroom : offset + bs.length ≤ out.length)
    (tags : List CpsTag) :
    generateLoop data (tag :: tags) offset out e =
      generateLoop data tags (offset + bs.length) (overwrite out offset bs) e' := by
  simp [generateLoop, CpsTag.generate, hencoding, copyAt, hroom]

/-- The loop returns exactly if every tag can be generated: each tag then fills the part
of the buffer that was set aside for it. -/
theorem generateLoop_returns_iff (data : Bytes) (tags : List CpsTag) :
    ∀ (offset : Nat) (out : Bytes) (e : ε),
      offset + (tags.map (CpsTag.encodedLen data.length)).sum ≤ out.length →
      ((generateLoop data tags offset out e).Returns ↔ ∀ tag ∈ tags, tag.Generable) := by
  induction tags with
  | nil =>
    intro offset out e hroom
    simp [generateLoop]
  | cons tag tags ih =>
    intro offset out e hroom
    simp only [List.map_cons, List.sum_cons] at hroom
    rw [List.forall_mem_cons]
    by_cases htag : tag.Generable
    · obtain ⟨bs, e', hencoding, hlen⟩ := tag.encoding_spec htag data e
      have hfits : offset + bs.length ≤ out.length := by omega
      have hout := length_overwrite hfits
      rw [generateLoop_cons hencoding hfits, ih _ _ e' (by omega)]
      exact ⟨fun htags => ⟨htag, htags⟩, fun h => h.2⟩
    · refine iff_of_false ?_ fun h => htag h.1
      rintro ⟨x, hx⟩
      rw [generateLoop] at hx
      obtain ⟨⟨written, out', e₁⟩, hgenerate, -⟩ := bind_eq_ok.mp hx
      obtain ⟨⟨bs, e₂⟩, hencoding, -⟩ := bind_eq_ok.mp hgenerate
      exact CpsTag.encoding_panics htag data e ⟨_, hencoding⟩

/-- `CpsChain::generate` returns exactly if no tag asks for a length of more than eight
bytes. -/
theorem CpsChain.generate_returns_iff (chain : CpsChain) (data : Bytes) (e : ε) :
    (chain.generate data e).Returns ↔ chain.Generable :=
  generateLoop_returns_iff data chain.tags 0 _ e (by simp [encodedLen])

end Generate
