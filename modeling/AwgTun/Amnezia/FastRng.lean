import AwgTun.Lib.Control
import AwgTun.Lib.Pads
import AwgTun.Lib.Trace

/-!
# The generator of padding

`FastRngState` of `amnezia.rs`: a buffer of ChaCha20 keystream for each thread, which is filled
again when it is used up, seeded again after a megabyte, and thrown away in a process that was
forked off.

The generator is given over a `KeySource`, which says what `getrandom` answers and what the bytes
of a keystream are.  `KeySource.named` names the bytes by where they come from.

* `FastRngState.fill_eq` — `fill` writes one byte after the other.
* `FastRngState.fill_fill` — two requests get what one request for both would.
* `ProcessTree.named_bytes_once` — no byte of a keystream is used twice in a tree of processes.
-/

open Control

/-- `FAST_RNG_BUFFER_SIZE`. -/
def fastRngBufferSize : Nat := 256

/-- `FAST_RNG_RESEED_INTERVAL`. -/
def fastRngReseedInterval : Nat := 1048576

/-- Where keys and keystreams come from. -/
structure KeySource (K β : Type) where
  /-- What `getrandom` answers to a call, by the number of the call. -/
  getrandom : Nat → K
  /-- A byte of the ChaCha20 keystream of a key and a nonce counter. -/
  keystream : K → UInt64 → Nat → β

/-- `FastRngState`. -/
structure FastRngState (K β : Type) where
  key : K
  block : UInt64
  buffer : List.Vector β fastRngBufferSize
  used : Nat
  sinceReseed : Nat
  generation : UInt64
  used_le : used ≤ fastRngBufferSize

/-- The loop of `fill`: what is written, the generator, and how often `getrandom` was called. -/
structure Filling (K β : Type) where
  out : List β
  state : FastRngState K β
  calls : Nat

namespace FastRngState

variable {K β : Type} (src : KeySource K β) {f : Filling K β}

/-- `FastRngState::reseed`, in a process of this `FORK_GENERATION`. -/
def reseed (s : FastRngState K β) (forkGeneration : UInt64) (calls : Nat) :
    FastRngState K β × Nat :=
  ({ s with
      key := src.getrandom calls
      block := 0
      sinceReseed := 0
      generation := forkGeneration
      used := fastRngBufferSize
      used_le := le_rfl }, calls + 1)

/-- `FastRngState::new`, without the handler it registers. -/
def new [Inhabited K] [Inhabited β] (forkGeneration : UInt64) (calls : Nat) :
    FastRngState K β × Nat :=
  reseed src
    { key := default
      block := 0
      buffer := List.Vector.replicate _ default
      used := fastRngBufferSize
      sinceReseed := fastRngReseedInterval
      generation := 0
      used_le := le_rfl } forkGeneration calls

/-- `FastRngState::refill`. -/
def refill (s : FastRngState K β) (forkGeneration : UInt64) (calls : Nat) :
    FastRngState K β × Nat :=
  let (s, calls) :=
    if fastRngReseedInterval ≤ s.sinceReseed then reseed src s forkGeneration calls else (s, calls)
  ({ s with
      block := s.block + 1
      buffer := ⟨(List.range fastRngBufferSize).map (src.keystream s.key s.block), by simp⟩
      used := 0
      sinceReseed := s.sinceReseed + fastRngBufferSize
      used_le := Nat.zero_le _ }, calls)

/-- The generator with something in its buffer. -/
def ready (s : FastRngState K β) (forkGeneration : UInt64) (calls : Nat) : FastRngState K β × Nat :=
  if s.used = fastRngBufferSize then refill src s forkGeneration calls else (s, calls)

/-- The generator that has handed out up to `n` more bytes of its buffer. -/
def advance (s : FastRngState K β) (n : Nat) : FastRngState K β :=
  { s with
    used := s.used + min n (fastRngBufferSize - s.used)
    used_le := by
      have := s.used_le
      omega }

/-- One round of the loop of `fill`, for a request of `len` bytes. -/
def fillRound (forkGeneration : UInt64) (len : Nat) (f : Filling K β) : Filling K β :=
  let (s, calls) := ready src f.state forkGeneration f.calls
  let take := min (len - f.out.length) (fastRngBufferSize - s.used)
  { out := f.out ++ (s.buffer.toList.drop s.used).take take
    state := s.advance take
    calls }

/-- The generator once it has seen whether the process was forked. -/
def checked (s : FastRngState K β) (forkGeneration : UInt64) (calls : Nat) :
    FastRngState K β × Nat :=
  if s.generation ≠ forkGeneration then reseed src s forkGeneration calls else (s, calls)

/-- `FastRngState::fill`, for a buffer of `len` bytes. -/
def fill (s : FastRngState K β) (forkGeneration : UInt64) (len calls : Nat) : Filling K β :=
  let (s, calls) := checked src s forkGeneration calls
  whileLoop (fun f => decide (f.out.length < len)) (fillRound src forkGeneration len) len
    ⟨[], s, calls⟩

/-! ## Byte by byte -/

/-- The next byte. -/
def next (forkGeneration : UInt64) (f : Filling K β) : Filling K β :=
  let (s, calls) := ready src f.state forkGeneration f.calls
  { out := f.out ++ (s.buffer.toList.drop s.used).take 1
    state := s.advance 1
    calls }

theorem ready_used_lt (s : FastRngState K β) (forkGeneration : UInt64) (calls : Nat) :
    (ready src s forkGeneration calls).1.used < fastRngBufferSize := by
  unfold ready
  split_ifs with hfull
  · exact Nat.zero_lt_succ _
  · exact lt_of_le_of_ne s.used_le hfull

variable {src} {forkGeneration : UInt64}

theorem ready_of_lt {s : FastRngState K β} (h : s.used < fastRngBufferSize) (calls : Nat) :
    ready src s forkGeneration calls = (s, calls) :=
  if_neg h.ne

theorem advance_used (s : FastRngState K β) {n : Nat} (h : s.used + n ≤ fastRngBufferSize) :
    (s.advance n).used = s.used + n := by
  change s.used + min n (fastRngBufferSize - s.used) = s.used + n
  omega

theorem advance_advance (s : FastRngState K β) (n m : Nat) :
    (s.advance n).advance m = s.advance (n + m) := by
  simp only [advance, FastRngState.mk.injEq, true_and, and_true]
  omega

theorem advance_zero (s : FastRngState K β) : s.advance 0 = s := by
  simp [advance]

/-- Bytes that are in the buffer are handed out one by one. -/
theorem next_iterate_of_le {n : Nat} (hn : f.state.used + n ≤ fastRngBufferSize) :
    (next src forkGeneration)^[n] f =
      { out := f.out ++ (f.state.buffer.toList.drop f.state.used).take n
        state := f.state.advance n
        calls := f.calls } := by
  induction n with
  | zero => simp [advance_zero]
  | succ n ih =>
    have hused := advance_used f.state (show f.state.used + n ≤ fastRngBufferSize by omega)
    rw [Function.iterate_succ_apply', ih (by omega)]
    simp only [next]
    rw [ready_of_lt (by omega), hused, advance_advance, List.take_add]
    simp only [advance, List.append_assoc, List.drop_drop]

/-- What is handed out does not depend on whether the buffer was filled before. -/
theorem next_iterate_ready (f : Filling K β) (n : Nat) :
    (next src forkGeneration)^[n + 1] { f with
      state := (ready src f.state forkGeneration f.calls).1
      calls := (ready src f.state forkGeneration f.calls).2 } =
        (next src forkGeneration)^[n + 1] f := by
  rw [Function.iterate_succ_apply, Function.iterate_succ_apply]
  congr 1
  simp only [next, ready_of_lt (ready_used_lt src f.state forkGeneration f.calls)]

/-- A round of the loop hands out one byte after the other. -/
theorem fillRound_eq {len : Nat} (h : f.out.length < len) :
    ∃ n, fillRound src forkGeneration len f = (next src forkGeneration)^[n + 1] f ∧
      f.out.length + (n + 1) ≤ len := by
  have hlt := ready_used_lt src f.state forkGeneration f.calls
  obtain ⟨n, hn⟩ : ∃ n, min (len - f.out.length) (fastRngBufferSize -
      (ready src f.state forkGeneration f.calls).1.used) = n + 1 :=
    ⟨_, (Nat.succ_pred_eq_of_pos (by omega)).symm⟩
  refine ⟨n, ?_, by omega⟩
  rw [← next_iterate_ready, next_iterate_of_le (by simp only; omega)]
  simp only [fillRound, hn]

theorem length_next (f : Filling K β) :
    (next src forkGeneration f).out.length = f.out.length + 1 := by
  have hlt := ready_used_lt src f.state forkGeneration f.calls
  simp only [next, List.length_append, List.length_take, List.length_drop,
    List.Vector.toList_length]
  omega

theorem length_next_iterate (f : Filling K β) (n : Nat) :
    ((next src forkGeneration)^[n] f).out.length = f.out.length + n := by
  induction n with
  | zero => rfl
  | succ n ih => rw [Function.iterate_succ_apply', length_next, ih, Nat.add_assoc]

/-- **`fill` writes one byte after the other.** -/
theorem fill_eq (s : FastRngState K β) (len calls : Nat) :
    fill src s forkGeneration len calls = (next src forkGeneration)^[len]
      ⟨[], (checked src s forkGeneration calls).1, (checked src s forkGeneration calls).2⟩ := by
  simp only [fill]
  generalize hstart : (⟨[], (checked src s forkGeneration calls).1,
    (checked src s forkGeneration calls).2⟩ : Filling K β) = start
  have hempty : start.out.length = 0 := by simp [← hstart]
  -- the loop has done as many single steps as there are bytes
  obtain ⟨⟨hsteps, hle⟩, hdone⟩ := whileLoop_spec (fun f => decide (f.out.length < len))
    (fillRound src forkGeneration len)
    (fun f => f = (next src forkGeneration)^[f.out.length] start ∧ f.out.length ≤ len)
    (fun f => len - f.out.length) (by
      rintro f ⟨hf, hle⟩ hguard
      rw [decide_eq_true_eq] at hguard
      obtain ⟨n, hround, hroom⟩ : ∃ n, fillRound src forkGeneration len f = _ ∧ _ :=
        fillRound_eq hguard
      have hlen : (fillRound src forkGeneration len f).out.length = f.out.length + (n + 1) := by
        rw [hround, length_next_iterate]
      refine ⟨⟨?_, by omega⟩, by omega⟩
      rw [hlen, Nat.add_comm, Function.iterate_add_apply, ← hf, hround]) len start
    ⟨by rw [hempty]; rfl, by omega⟩ (by omega)
  rw [decide_eq_false_iff_not] at hdone
  rw [hsteps]
  congr 1
  omega

/-! ## Two requests -/

/-- What was written before does not matter. -/
theorem next_prepend (before : List β) (f : Filling K β) :
    next src forkGeneration { f with out := before ++ f.out } =
      { next src forkGeneration f with out := before ++ (next src forkGeneration f).out } := by
  simp only [next, List.append_assoc]

theorem next_iterate_prepend (before : List β) (f : Filling K β) (n : Nat) :
    (next src forkGeneration)^[n] { f with out := before ++ f.out } =
      { (next src forkGeneration)^[n] f with
        out := before ++ ((next src forkGeneration)^[n] f).out } := by
  induction n with
  | zero => rfl
  | succ n ih => rw [Function.iterate_succ_apply', ih, next_prepend, Function.iterate_succ_apply']

theorem refill_generation {s : FastRngState K β} (h : s.generation = forkGeneration) (calls : Nat) :
    (refill src s forkGeneration calls).1.generation = forkGeneration := by
  simp only [refill]
  split_ifs
  · rfl
  · exact h

theorem next_generation (h : f.state.generation = forkGeneration) :
    (next src forkGeneration f).state.generation = forkGeneration := by
  simp only [next, ready, advance]
  split_ifs
  · exact refill_generation h f.calls
  · exact h

theorem checked_generation (s : FastRngState K β) (calls : Nat) :
    (checked src s forkGeneration calls).1.generation = forkGeneration := by
  unfold checked
  split_ifs with hsame
  · rfl
  · exact not_not.mp hsame

/-- A request leaves a generator of this process. -/
theorem fill_generation (s : FastRngState K β) (len calls : Nat) :
    (fill src s forkGeneration len calls).state.generation = forkGeneration := by
  rw [fill_eq]
  induction len with
  | zero => exact checked_generation s calls
  | succ len ih =>
    rw [Function.iterate_succ_apply']
    exact next_generation ih

/-- **Two requests get what one would.**  In a process that is not forked in between, `n` bytes and
then `m` bytes are the `n + m` bytes of a single request, and leave the same generator. -/
theorem fill_fill (s : FastRngState K β) (n m calls : Nat) :
    fill src s forkGeneration (n + m) calls =
      { fill src (fill src s forkGeneration n calls).state forkGeneration m
          (fill src s forkGeneration n calls).calls with
        out := (fill src s forkGeneration n calls).out ++
          (fill src (fill src s forkGeneration n calls).state forkGeneration m
            (fill src s forkGeneration n calls).calls).out } := by
  generalize hfirst : fill src s forkGeneration n calls = first
  have hsame : checked src first.state forkGeneration first.calls = (first.state, first.calls) := by
    rw [← hfirst, checked, if_neg (not_not.mpr (fill_generation s n calls))]
  rw [fill_eq first.state, hsame, ← next_iterate_prepend, List.append_nil, fill_eq, Nat.add_comm,
    Function.iterate_add_apply, ← fill_eq, hfirst]

end FastRngState

/-! ## Named bytes -/

/-- A source whose bytes are named by where they come from. -/
def KeySource.named {K : Type} (getrandom : Nat → K) : KeySource K (K × UInt64 × Nat) where
  getrandom := getrandom
  keystream key block i := (key, block, i)

namespace FastRngState

open Pads

variable {K : Type} {getrandom : Nat → K} {forkGeneration : UInt64}

/-- How far a generator is in the keystream of its key. -/
def position {β : Type} (s : FastRngState K β) : Nat :=
  s.block.toNat * fastRngBufferSize + s.used - fastRngBufferSize

/-- The place of a byte in the keystream of its key. -/
def code (byte : K × UInt64 × Nat) : K × Nat :=
  (byte.1, byte.2.1.toNat * fastRngBufferSize + byte.2.2)

/-- The buffer holds the block that was generated last, and blocks are counted as bytes are. -/
structure Tidy (s : FastRngState K (K × UInt64 × Nat)) : Prop where
  counted : s.block.toNat * fastRngBufferSize = s.sinceReseed
  bounded : s.sinceReseed ≤ fastRngReseedInterval
  filled : s.used < fastRngBufferSize → 0 < s.block.toNat ∧
    s.buffer.toList = (List.range fastRngBufferSize).map fun i => (s.key, s.block - 1, i)

theorem reseed_tidy (getrandom : Nat → K) (s : FastRngState K (K × UInt64 × Nat))
    (forkGeneration : UInt64) (calls : Nat) :
    (reseed (.named getrandom) s forkGeneration calls).1.Tidy := by
  refine ⟨?_, Nat.zero_le _, fun h => absurd h (lt_irrefl _)⟩
  simp [reseed]

theorem reseed_position (s : FastRngState K (K × UInt64 × Nat)) (calls : Nat) :
    (reseed (.named getrandom) s forkGeneration calls).1.position = 0 := by
  simp [reseed, position]

/-- A generator with room for another block of its key, once it has generated it. -/
theorem Tidy.refill {s s' : FastRngState K (K × UInt64 × Nat)} (h : s.Tidy)
    (hused : s.used = fastRngBufferSize) (hroom : s.sinceReseed < fastRngReseedInterval)
    {calls calls' : Nat} (hrefill : refill (.named getrandom) s forkGeneration calls =
      (s', calls')) :
    s'.Tidy ∧ s'.key = s.key ∧ s'.position = s.position ∧ calls' = calls := by
  have hcounted := h.counted
  have hblock : (s.block + 1).toNat = s.block.toNat + 1 := by
    rw [UInt64.toNat_add]
    simp only [fastRngBufferSize, fastRngReseedInterval] at hcounted hroom
    exact Nat.mod_eq_of_lt (by change s.block.toNat + 1 < 2 ^ 64; omega)
  have hback : s.block + 1 - 1 = s.block := by simp
  simp only [FastRngState.refill, if_neg (Nat.not_le.mpr hroom)] at hrefill
  cases hrefill
  refine ⟨⟨?_, ?_, fun _ => ⟨?_, ?_⟩⟩, rfl, ?_, rfl⟩
  · rw [hblock, Nat.add_mul, hcounted, Nat.one_mul]
  · simp only [fastRngBufferSize, fastRngReseedInterval] at hcounted hroom ⊢
    omega
  · rw [hblock]
    exact Nat.succ_pos _
  · rw [hback]
    rfl
  · simp only [position, hblock, hused, Nat.add_mul, Nat.one_mul, Nat.add_zero]

/-- The byte at the position of a generator, and the generator behind it. -/
theorem Tidy.take_one {s : FastRngState K (K × UInt64 × Nat)} (h : s.Tidy)
    (hused : s.used < fastRngBufferSize) :
    ((s.buffer.toList.drop s.used).take 1).map code = [(s.key, s.position)] ∧
      (s.advance 1).position = s.position + 1 ∧ (s.advance 1).Tidy := by
  obtain ⟨hpos, hbuffer⟩ := h.filled hused
  have hmin : min 1 (fastRngBufferSize - s.used) = 1 := by omega
  have hblock : (s.block - 1).toNat = s.block.toNat - 1 :=
    UInt64.toNat_sub_of_le _ _ (by rw [UInt64.le_iff_toNat_le]; exact hpos)
  refine ⟨?_, ?_, h.counted, h.bounded, fun _ => h.filled hused⟩
  · have hbyte : (s.buffer.toList.drop s.used).take 1 = [(s.key, s.block - 1, s.used)] := by
      rw [hbuffer, List.take_one_drop_eq_of_lt_length (by simpa using hused), List.get_eq_getElem,
        List.getElem_map, List.getElem_range]
    obtain ⟨b, hb⟩ := Nat.exists_eq_succ_of_ne_zero hpos.ne'
    rw [hbyte]
    simp only [List.map_cons, List.map_nil, code, position, hblock, hb, Nat.succ_mul,
      Nat.succ_sub_one, List.cons.injEq, Prod.mk.injEq, true_and, and_true]
    omega
  · simp only [position, advance, hmin]
    obtain ⟨b, hb⟩ := Nat.exists_eq_succ_of_ne_zero hpos.ne'
    rw [hb, Nat.succ_mul]
    omega

/-- The keys that `getrandom` has given out. -/
def knownKeys (getrandom : Nat → K) (calls : Nat) : Set K := {k | ∃ n < calls, getrandom n = k}

theorem knownKeys_succ (calls : Nat) :
    knownKeys getrandom (calls + 1) = insert (getrandom calls) (knownKeys getrandom calls) := by
  ext k
  constructor
  · rintro ⟨n, hn, rfl⟩
    rcases Nat.lt_succ_iff_lt_or_eq.mp hn with hlt | rfl
    · exact .inr ⟨n, hlt, rfl⟩
    · exact .inl rfl
  · rintro (rfl | ⟨n, hn, rfl⟩)
    · exact ⟨calls, Nat.lt_succ_self _, rfl⟩
    · exact ⟨n, Nat.lt_succ_of_lt hn, rfl⟩

theorem getrandom_fresh (hkeys : Function.Injective getrandom) (calls : Nat) :
    getrandom calls ∉ knownKeys getrandom calls := by
  rintro ⟨n, hn, hsame⟩
  exact hn.ne (hkeys hsame)

section Ledger

variable {ι : Type} [DecidableEq ι] {f : Filling K (K × UInt64 × Nat)}

/-- The ledger while the generator of holder `i` is at work. -/
def working (getrandom : Nat → K) (l : Ledger ι K) (i : ι) (f : Filling K (K × UInt64 × Nat)) :
    Ledger ι K where
  holds := Function.update l.holds i (some (f.state.key, f.state.position))
  taken := l.taken ++ f.out.map code
  known := knownKeys getrandom f.calls

/-- A holder gets a new key. -/
theorem reseed_steps (hkeys : Function.Injective getrandom) (forkGeneration : UInt64)
    (l : Ledger ι K) (i : ι) (f : Filling K (K × UInt64 × Nat)) :
    Ledger.Steps (working getrandom l i f) (working getrandom l i
      ⟨f.out, (reseed (.named getrandom) f.state forkGeneration f.calls).1, f.calls + 1⟩) := by
  have hstep := Ledger.Step.opens (l := working getrandom l i f) i (getrandom_fresh hkeys f.calls)
  simp only [working, Function.update_idem, ← knownKeys_succ] at hstep
  refine .single ?_
  simp only [working, reseed_position]
  exact hstep

theorem ready_steps (hkeys : Function.Injective getrandom) (l : Ledger ι K) (i : ι)
    (htidy : f.state.Tidy) {s' : FastRngState K (K × UInt64 × Nat)} {calls' : Nat}
    (hready : ready (.named getrandom) f.state forkGeneration f.calls = (s', calls')) :
    Ledger.Steps (working getrandom l i f) (working getrandom l i ⟨f.out, s', calls'⟩) ∧
      s'.Tidy := by
  unfold ready at hready
  split_ifs at hready with hused
  · by_cases hroom : f.state.sinceReseed < fastRngReseedInterval
    · obtain ⟨htidy', hkey, hposition, rfl⟩ := htidy.refill hused hroom hready
      refine ⟨?_, htidy'⟩
      simp only [working, hkey, hposition]
      exact .refl
    · -- the key is used up: the block is the first one of a new key
      have hseeded := reseed_steps hkeys forkGeneration l i f
      have hempty : (reseed (.named getrandom) f.state forkGeneration f.calls).1.sinceReseed <
          fastRngReseedInterval := Nat.succ_pos _
      have hsame : refill (.named getrandom)
          (reseed (.named getrandom) f.state forkGeneration f.calls).1 forkGeneration
            (f.calls + 1) = (s', calls') := by
        rw [← hready]
        simp only [FastRngState.refill, if_pos (Nat.not_lt.mp hroom),
          if_neg (Nat.not_le.mpr hempty)]
        rfl
      obtain ⟨htidy', hkey, hposition, rfl⟩ :=
        (reseed_tidy getrandom f.state forkGeneration f.calls).refill rfl hempty hsame
      refine ⟨?_, htidy'⟩
      simp only [working, ← hkey, ← hposition] at hseeded ⊢
      exact hseeded
  · cases hready
    exact ⟨.refl, htidy⟩

/-- **A byte is handed out.** -/
theorem next_steps (hkeys : Function.Injective getrandom) (forkGeneration : UInt64) (l : Ledger ι K)
    (i : ι) (htidy : f.state.Tidy) :
    Ledger.Steps (working getrandom l i f)
        (working getrandom l i (next (.named getrandom) forkGeneration f)) ∧
      (next (.named getrandom) forkGeneration f).state.Tidy := by
  obtain ⟨s', calls', hready⟩ :
    ∃ s' calls', ready (.named getrandom) f.state forkGeneration f.calls =
      (s', calls') := ⟨_, _, rfl⟩
  have hused := ready_used_lt (.named getrandom) f.state forkGeneration f.calls
  obtain ⟨hsteps, htidy'⟩ := ready_steps hkeys l i htidy hready
  rw [hready] at hused
  obtain ⟨hbyte, hposition, htidy''⟩ := htidy'.take_one hused
  have hstep := Ledger.Step.takes (l := working getrandom l i ⟨f.out, s', calls'⟩) (i := i)
    (Function.update_self _ _ _)
  simp only [next, hready]
  refine ⟨hsteps.tail ?_, htidy''⟩
  simp only [working, List.map_append, hbyte, hposition, Function.update_idem] at hstep ⊢
  rw [← List.append_assoc]
  exact hstep

theorem next_iterate_steps (hkeys : Function.Injective getrandom) (forkGeneration : UInt64)
    (l : Ledger ι K) (i : ι) (htidy : f.state.Tidy) (n : Nat) :
    Ledger.Steps (working getrandom l i f)
        (working getrandom l i ((next (.named getrandom) forkGeneration)^[n] f)) ∧
      ((next (.named getrandom) forkGeneration)^[n] f).state.Tidy := by
  induction n with
  | zero => exact ⟨.refl, htidy⟩
  | succ n ih =>
    rw [Function.iterate_succ_apply']
    obtain ⟨hstep, htidy'⟩ := next_steps hkeys forkGeneration l i ih.2
    exact ⟨ih.1.trans hstep, htidy'⟩

theorem checked_steps (hkeys : Function.Injective getrandom) {l : Ledger ι K} {i : ι}
    {s : FastRngState K (K × UInt64 × Nat)} {calls : Nat}
    (hknown : l.known = knownKeys getrandom calls)
    (hlive : s.generation = forkGeneration → l.holds i = some (s.key, s.position)) (htidy : s.Tidy)
    {s' : FastRngState K (K × UInt64 × Nat)} {calls' : Nat}
    (hchecked : checked (.named getrandom) s forkGeneration calls = (s', calls')) :
    Ledger.Steps l (working getrandom l i ⟨[], s', calls'⟩) ∧ s'.Tidy := by
  unfold checked at hchecked
  split_ifs at hchecked with hstale
  · obtain rfl : (reseed (.named getrandom) s forkGeneration calls).1 = s' :=
      congrArg Prod.fst hchecked
    obtain rfl : calls + 1 = calls' := congrArg Prod.snd hchecked
    refine ⟨.single ?_, reseed_tidy getrandom s forkGeneration calls⟩
    have hstep := Ledger.Step.opens (l := l) i (hknown ▸ getrandom_fresh hkeys calls)
    rw [hknown, ← knownKeys_succ] at hstep
    simp only [working, reseed_position, List.map_nil, List.append_nil]
    exact hstep
  · cases hchecked
    have hsame : working getrandom l i ⟨[], s, calls⟩ = l := by
      simp only [working, ← hlive (not_not.mp hstale), Function.update_eq_self, List.map_nil,
        List.append_nil, ← hknown]
    exact ⟨by rw [hsame], htidy⟩

/-- **A request is served.** -/
theorem fill_steps (hkeys : Function.Injective getrandom) {l : Ledger ι K} {i : ι}
    {s : FastRngState K (K × UInt64 × Nat)} {calls : Nat}
    (hknown : l.known = knownKeys getrandom calls)
    (hlive : s.generation = forkGeneration → l.holds i = some (s.key, s.position)) (htidy : s.Tidy)
    (len : Nat) :
    Ledger.Steps l (working getrandom l i (fill (.named getrandom) s forkGeneration len calls)) ∧
      (fill (.named getrandom) s forkGeneration len calls).state.Tidy := by
  obtain ⟨hchecked, htidy'⟩ := checked_steps hkeys hknown hlive htidy (Prod.mk.eta.symm)
  obtain ⟨hsteps, htidy''⟩ := next_iterate_steps hkeys forkGeneration l i
    (f := ⟨[], _, _⟩) htidy' len
  rw [fill_eq]
  exact ⟨hchecked.trans hsteps, htidy''⟩

end Ledger

end FastRngState

/-! ## A tree of processes -/

/-- What a process has of the generator. -/
structure RngProcess (K β : Type) where
  /-- `FORK_GENERATION`. -/
  forkGeneration : UInt64
  /-- `note_fork` is registered with `pthread_atfork`. -/
  registered : Bool
  /-- The states of its threads. -/
  threads : List (FastRngState K β)

/-- The process that a fork leaves beside the first one: it has a copy of everything, and the
handler has run in it. -/
def RngProcess.child {K β : Type} (p : RngProcess K β) : RngProcess K β :=
  { p with forkGeneration := if p.registered then p.forkGeneration + 1 else p.forkGeneration }

/-- All processes, what `getrandom` was asked, and what was written. -/
structure ProcessTree (K β : Type) where
  processes : List (RngProcess K β)
  calls : Nat
  emitted : List β

namespace ProcessTree

/-- What happens, in process `i`. -/
inductive Event
  /-- A thread uses the generator for the first time. -/
  | spawn (i : Nat)
  /-- Thread `j` asks for `len` bytes. -/
  | fill (i j len : Nat)
  | fork (i : Nat)

section Model

variable {K β : Type}

/-- One process, which has not used the generator. -/
def start : ProcessTree K β := ⟨[⟨0, false, []⟩], 0, []⟩

/-- One event; where there is no such process or thread, nothing happens. -/
def step [Inhabited K] [Inhabited β] (src : KeySource K β) (t : ProcessTree K β) :
    Event → ProcessTree K β
  | .spawn i =>
    match t.processes[i]? with
    | none => t
    | some p =>
      let (s, calls) := FastRngState.new src p.forkGeneration t.calls
      { t with
        processes := t.processes.set i { p with registered := true, threads := p.threads ++ [s] }
        calls }
  | .fill i j len =>
    match t.processes[i]? with
    | none => t
    | some p =>
      match p.threads[j]? with
      | none => t
      | some s =>
        let f := s.fill src p.forkGeneration len t.calls
        { processes := t.processes.set i { p with threads := p.threads.set j f.state }
          calls := f.calls
          emitted := t.emitted ++ f.out }
  | .fork i =>
    match t.processes[i]? with
    | none => t
    | some p => { t with processes := t.processes ++ [p.child] }

theorem step_fill [Inhabited K] [Inhabited β] {src : KeySource K β} {t : ProcessTree K β}
    {i j : Nat} {p : RngProcess K β} {s : FastRngState K β} (hp : t.processes[i]? = some p)
    (hs : p.threads[j]? = some s) (len : Nat) :
    step src t (.fill i j len) =
      { processes := t.processes.set i
          { p with threads := p.threads.set j (s.fill src p.forkGeneration len t.calls).state }
        calls := (s.fill src p.forkGeneration len t.calls).calls
        emitted := t.emitted ++ (s.fill src p.forkGeneration len t.calls).out } := by
  simp only [step, hp, hs]

/-- An event that does not make `FORK_GENERATION` wrap around. -/
def Shallow (t : ProcessTree K β) : Event → Prop
  | .fork i => ∀ p, t.processes[i]? = some p → p.forkGeneration.toNat + 1 < 2 ^ 64
  | _ => True

end Model

open Pads FastRngState

variable {K : Type} {getrandom : Nat → K} {t : ProcessTree K (K × UInt64 × Nat)}

/-- What thread `j` of a process can go on with, unless the process was forked since. -/
def holding (p : RngProcess K (K × UInt64 × Nat)) (j : Nat) : Option (K × Nat) :=
  p.threads[j]?.bind fun s =>
    if s.generation = p.forkGeneration then some (s.key, s.position) else none

/-- The ledger of a tree. -/
def view (getrandom : Nat → K) (t : ProcessTree K (K × UInt64 × Nat)) : Ledger (Nat × Nat) K where
  holds ij := t.processes[ij.1]?.bind fun p => holding p ij.2
  taken := t.emitted.map code
  known := knownKeys getrandom t.calls

/-- What every tree keeps. -/
structure Inv (getrandom : Nat → K) (t : ProcessTree K (K × UInt64 × Nat)) : Prop where
  sound : (view getrandom t).Sound
  tidy : ∀ p ∈ t.processes, ∀ s ∈ p.threads, s.Tidy
  dated : ∀ p ∈ t.processes, ∀ s ∈ p.threads, s.generation.toNat ≤ p.forkGeneration.toNat
  registered : ∀ p ∈ t.processes, p.threads ≠ [] → p.registered = true

/-- The ledger once a thread was given a state of its process. -/
theorem holds_set {i j : Nat} {p p' : RngProcess K (K × UInt64 × Nat)}
    {s : FastRngState K (K × UInt64 × Nat)} (hp : t.processes[i]? = some p)
    (hgeneration : p'.forkGeneration = p.forkGeneration)
    (hother : ∀ j' ≠ j, p'.threads[j']? = p.threads[j']?) (hs : p'.threads[j]? = some s)
    (hlive : s.generation = p.forkGeneration) :
    (fun ij : Nat × Nat => (t.processes.set i p')[ij.1]?.bind fun q => holding q ij.2) =
      Function.update (view getrandom t).holds (i, j) (some (s.key, s.position)) := by
  have hlt := (List.getElem?_eq_some_iff.mp hp).1
  funext ⟨i', j'⟩
  by_cases hi : i' = i
  · subst hi
    simp only [List.getElem?_set_self hlt, Option.bind_some]
    by_cases hj : j' = j
    · subst hj
      rw [Function.update_self, holding, hs, Option.bind_some,
        if_pos (hlive.trans hgeneration.symm)]
    · rw [Function.update_of_ne (by simpa using hj)]
      simp only [view, hp, Option.bind_some, holding, hother j' hj, hgeneration]
  · rw [Function.update_of_ne (by simp [hi])]
    simp only [view, List.getElem?_set_ne (Ne.symm hi)]

/-- A thread that goes on with a state of its process, as the ledger allows. -/
theorem Inv.write {t' : ProcessTree K (K × UInt64 × Nat)} (h : t.Inv getrandom) {i j : Nat}
    {p p' : RngProcess K (K × UInt64 × Nat)} {s' : FastRngState K (K × UInt64 × Nat)}
    (hp : t.processes[i]? = some p) (hprocesses : t'.processes = t.processes.set i p')
    (hgeneration : p'.forkGeneration = p.forkGeneration) (hregistered : p'.registered = true)
    (hother : ∀ j' ≠ j, p'.threads[j']? = p.threads[j']?) (hs : p'.threads[j]? = some s')
    (hthreads : ∀ s ∈ p'.threads, s = s' ∨ s ∈ p.threads) (htidy : s'.Tidy)
    (hlive : s'.generation = p.forkGeneration)
    (hsteps : Ledger.Steps (view getrandom t)
      { holds := Function.update (view getrandom t).holds (i, j) (some (s'.key, s'.position))
        taken := t'.emitted.map code
        known := knownKeys getrandom t'.calls }) : t'.Inv getrandom := by
  have hview : view getrandom t' =
      { holds := Function.update (view getrandom t).holds (i, j) (some (s'.key, s'.position))
        taken := t'.emitted.map code
        known := knownKeys getrandom t'.calls } := by
    rw [← holds_set hp hgeneration hother hs hlive, ← hprocesses]
    rfl
  have hmem := List.mem_of_getElem? hp
  refine ⟨hview ▸ hsteps.sound h.sound, ?_, ?_, ?_⟩
  all_goals
    intro q hq
    rw [hprocesses] at hq
    rcases List.mem_or_eq_of_mem_set hq with hold | rfl
  · exact h.tidy q hold
  · intro s hmem'
    rcases hthreads s hmem' with rfl | hold
    · exact htidy
    · exact h.tidy p hmem s hold
  · exact h.dated q hold
  · intro s hmem'
    rw [hgeneration]
    rcases hthreads s hmem' with rfl | hold
    · rw [hlive]
    · exact h.dated p hmem s hold
  · exact h.registered q hold
  · exact fun _ => hregistered

theorem new_tidy [Inhabited K] (getrandom : Nat → K) (forkGeneration : UInt64) (calls : Nat) :
    (FastRngState.new (.named getrandom) forkGeneration calls).1.Tidy :=
  reseed_tidy _ _ _ _

theorem new_position [Inhabited K] (getrandom : Nat → K) (forkGeneration : UInt64) (calls : Nat) :
    (FastRngState.new (.named getrandom) forkGeneration calls).1.position = 0 :=
  reseed_position _ _

/-- **A thread uses the generator for the first time.** -/
theorem Inv.spawn [Inhabited K] (hkeys : Function.Injective getrandom) (h : t.Inv getrandom)
    (i : Nat) : (step (.named getrandom) t (.spawn i)).Inv getrandom := by
  simp only [step]
  split
  · exact h
  · rename_i p hp
    refine h.write (j := p.threads.length) hp rfl rfl rfl ?_ List.getElem?_concat_length ?_
      (new_tidy getrandom p.forkGeneration t.calls) rfl ?_
    · intro j' hj'
      rcases Nat.lt_or_gt_of_ne hj' with hlt | hgt
      · exact List.getElem?_append_left hlt
      · rw [List.getElem?_eq_none (by simp; omega), List.getElem?_eq_none (by omega)]
    · intro s hs
      rcases List.mem_append.mp hs with hold | hnew
      · exact .inr hold
      · exact .inl (List.mem_singleton.mp hnew)
    · have hstep := Ledger.Step.opens (l := view getrandom t) (i, p.threads.length)
        (getrandom_fresh hkeys t.calls)
      rw [new_position]
      refine .single ?_
      rw [view, ← knownKeys_succ] at hstep
      exact hstep

/-- **A thread asks for bytes.** -/
theorem Inv.fill [Inhabited K] (hkeys : Function.Injective getrandom) (h : t.Inv getrandom)
    (i j len : Nat) : (step (.named getrandom) t (.fill i j len)).Inv getrandom := by
  simp only [step]
  split
  · exact h
  · rename_i p hp
    split
    · exact h
    · rename_i s hs
      have hmem := List.mem_of_getElem? hp
      have hmem' := List.mem_of_getElem? hs
      have hlt := (List.getElem?_eq_some_iff.mp hs).1
      have hholds : s.generation = p.forkGeneration →
          (view getrandom t).holds (i, j) = some (s.key, s.position) := by
        intro hlive
        simp only [view, hp, Option.bind_some, holding, hs, if_pos hlive]
      obtain ⟨hsteps, htidy⟩ := fill_steps hkeys (l := view getrandom t) rfl hholds
        (h.tidy p hmem s hmem') len
      refine h.write (j := j) hp rfl rfl ?_ ?_ (List.getElem?_set_self hlt) ?_ htidy
        (fill_generation s len t.calls) ?_
      · exact h.registered p hmem (List.ne_nil_of_mem hmem')
      · intro j' hj'
        exact List.getElem?_set_ne (Ne.symm hj')
      · intro s' hs'
        exact (List.mem_or_eq_of_mem_set hs').symm
      · rw [List.map_append]
        exact hsteps

/-- A child holds nothing: its generation is later than that of everything it has a copy of. -/
theorem Inv.holding_child (h : t.Inv getrandom) {i : Nat} {p : RngProcess K (K × UInt64 × Nat)}
    (hp : t.processes[i]? = some p) (hroom : p.forkGeneration.toNat + 1 < 2 ^ 64) (j : Nat) :
    holding p.child j = none := by
  have hmem := List.mem_of_getElem? hp
  cases hs : p.threads[j]? with
  | none => simp only [holding, RngProcess.child, hs, Option.bind_none]
  | some s =>
    have hmem' := List.mem_of_getElem? hs
    have hdated := h.dated p hmem s hmem'
    have hnext : (p.forkGeneration + 1).toNat = p.forkGeneration.toNat + 1 := by
      rw [UInt64.toNat_add]
      exact Nat.mod_eq_of_lt hroom
    have hlater : s.generation ≠ p.forkGeneration + 1 := by
      intro hsame
      rw [hsame, hnext] at hdated
      omega
    simp only [holding, RngProcess.child, hs, Option.bind_some,
      h.registered p hmem (List.ne_nil_of_mem hmem'), if_true, if_neg hlater]

theorem child_generation_le {p : RngProcess K (K × UInt64 × Nat)}
    (hroom : p.forkGeneration.toNat + 1 < 2 ^ 64) :
    p.forkGeneration.toNat ≤ p.child.forkGeneration.toNat := by
  simp only [RngProcess.child]
  split_ifs
  · rw [UInt64.toNat_add]
    change _ ≤ (p.forkGeneration.toNat + 1) % 2 ^ 64
    rw [Nat.mod_eq_of_lt hroom]
    exact Nat.le_succ _
  · exact le_rfl

/-- **A process forks.** -/
theorem Inv.fork [Inhabited K] (h : t.Inv getrandom) {i : Nat} (hshallow : t.Shallow (.fork i)) :
    (step (.named getrandom) t (.fork i)).Inv getrandom := by
  simp only [step]
  split
  · exact h
  · rename_i p hp
    have hmem := List.mem_of_getElem? hp
    have hroom := hshallow p hp
    have hview : view getrandom { t with processes := t.processes ++ [p.child] } =
        view getrandom t := by
      simp only [view, Ledger.mk.injEq, and_true]
      funext ⟨i', j'⟩
      rcases Nat.lt_trichotomy i' t.processes.length with hlt | rfl | hgt
      · simp only [List.getElem?_append_left hlt]
      · simp only [List.getElem?_concat_length, Option.bind_some, h.holding_child hp hroom,
          List.getElem?_eq_none le_rfl, Option.bind_none]
      · rw [List.getElem?_eq_none (by simp; omega), List.getElem?_eq_none (by omega)]
    refine ⟨hview ▸ h.sound, ?_, ?_, ?_⟩
    all_goals
      intro q hq
      rcases List.mem_append.mp hq with hold | hnew
    · exact h.tidy q hold
    · rw [List.mem_singleton.mp hnew]
      exact h.tidy p hmem
    · exact h.dated q hold
    · rw [List.mem_singleton.mp hnew]
      exact fun s hs => (h.dated p hmem s hs).trans (child_generation_le hroom)
    · exact h.registered q hold
    · rw [List.mem_singleton.mp hnew]
      exact h.registered p hmem

theorem inv_start (getrandom : Nat → K) :
    (start : ProcessTree K (K × UInt64 × Nat)).Inv getrandom := by
  have hnone : ∀ ij :
    Nat × Nat, (view getrandom (start : ProcessTree K (K × UInt64 × Nat))).holds ij =
      none := by
    rintro ⟨i, j⟩
    cases i <;> rfl
  refine ⟨⟨List.nodup_nil, ?_, ?_, ?_, ?_⟩, by simp [start], by simp [start], by simp [start]⟩
  · intro ij k n m hholds
    rw [hnone] at hholds
    cases hholds
  · intro ij ij' k n m hholds
    rw [hnone] at hholds
    cases hholds
  · intro ij k n hholds
    rw [hnone] at hholds
    cases hholds
  · intro k n htaken
    cases htaken

theorem Inv.step [Inhabited K] (hkeys : Function.Injective getrandom) (h : t.Inv getrandom)
    {event : Event} (hshallow : t.Shallow event) :
    (step (.named getrandom) t event).Inv getrandom := by
  cases event with
  | spawn i => exact h.spawn hkeys i
  | fill i j len => exact h.fill hkeys i j len
  | fork i => exact h.fork hshallow

theorem Inv.run [Inhabited K] (hkeys : Function.Injective getrandom) (events : List Event) :
    ∀ {t : ProcessTree K (K × UInt64 × Nat)}, t.Inv getrandom →
      Trace.AllSteps (ProcessTree.step (.named getrandom)) Shallow t events →
      (events.foldl (ProcessTree.step (.named getrandom)) t).Inv getrandom := by
  induction events with
  | nil => exact fun h _ => h
  | cons event events ih => exact fun h hsteps => ih (h.step hkeys hsteps.1) hsteps.2

/-- **No byte of a keystream is used twice.**  Every key of `getrandom` is a new one.  Threads ask
for any number of bytes, and processes fork, in any order; as long as `FORK_GENERATION` does not
wrap around, no byte is written twice in the whole tree.  And without a fork in between, two
requests get the bytes of one. -/
theorem named_bytes_once [Inhabited K] (hkeys : Function.Injective getrandom) {events : List Event}
    (hshallow : Trace.AllSteps (ProcessTree.step (.named getrandom)) Shallow start events) :
    (events.foldl (ProcessTree.step (.named getrandom)) start).emitted.Nodup ∧
      ∀ (s : FastRngState K (K × UInt64 × Nat)) (forkGeneration : UInt64) (n m calls : Nat),
        s.fill (.named getrandom) forkGeneration (n + m) calls =
          { (s.fill (.named getrandom) forkGeneration n calls).state.fill (.named getrandom)
              forkGeneration m (s.fill (.named getrandom) forkGeneration n calls).calls with
            out := (s.fill (.named getrandom) forkGeneration n calls).out ++
              ((s.fill (.named getrandom) forkGeneration n calls).state.fill (.named getrandom)
                forkGeneration m (s.fill (.named getrandom) forkGeneration n calls).calls).out } :=
  ⟨List.Nodup.of_map _ (Inv.run hkeys events (inv_start getrandom) hshallow).sound.nodup,
    fun s _ n m calls => fill_fill s n m calls⟩

/-- A child that asks for bytes after its parent has. -/
theorem named_bytes_once_forked :
    ([.spawn 0, .fill 0 0 3, .fork 0, .fill 1 0 300, .fill 0 0 3].foldl
      (ProcessTree.step (.named (id : Nat → Nat))) start).emitted.Nodup :=
  have hshallow : Trace.AllSteps (ProcessTree.step (.named (id : Nat → Nat))) Shallow start
      [.spawn 0, .fill 0 0 3, .fork 0, .fill 1 0 300, .fill 0 0 3] :=
    ⟨trivial, trivial, fun p hp => by cases hp; decide, trivial, trivial, trivial⟩
  (named_bytes_once Function.injective_id hshallow).1

/-- A process whose generator was seeded before `n` forks, each in the child of the last one; then
the first process and the last one ask for a byte each. -/
def nestedForks (n : Nat) : List Event :=
  .spawn 0 :: ((List.range n).map .fork ++ [.fill 0 0 1, .fill n 0 1])

/-- The generator they all have a copy of. -/
def seeded : FastRngState Nat (Nat × UInt64 × Nat) := (FastRngState.new (.named id) 0 0).1

/-- The processes of a chain of forks. -/
def chain (n : Nat) : List (RngProcess Nat (Nat × UInt64 × Nat)) :=
  (List.range (n + 1)).map fun k => ⟨UInt64.ofNat k, true, [seeded]⟩

theorem getElem?_chain {n k : Nat} (h : k ≤ n) :
    (chain n)[k]? = some ⟨UInt64.ofNat k, true, [seeded]⟩ := by
  simp [chain, Nat.lt_succ_of_le h]

theorem foldl_forks (n : Nat) :
    ((List.range n).map Event.fork).foldl (ProcessTree.step (.named id)) ⟨chain 0, 1, []⟩ =
      ⟨chain n, 1, []⟩ := by
  induction n with
  | zero => rfl
  | succ n ih =>
    have hlast : chain (n + 1) = chain n ++ [⟨UInt64.ofNat n + 1, true, [seeded]⟩] := by
      rw [chain, List.range_succ, List.map_append, ← chain, List.map_singleton, UInt64.ofNat_add]
      rfl
    rw [List.range_succ, List.map_append, List.foldl_append, ih, hlast]
    simp only [List.map_cons, List.map_nil, List.foldl_cons, List.foldl_nil, ProcessTree.step,
      getElem?_chain le_rfl, RngProcess.child, if_true]

theorem seeded_fill : (seeded.fill (.named id) 0 1 1).out = [(0, 0, 0)] ∧
    (seeded.fill (.named id) 0 1 1).calls = 1 := by
  decide +kernel

theorem nestedForks_emitted {n : Nat} (hn : n ≠ 0) (hwrap : UInt64.ofNat n = 0) :
    ((nestedForks n).foldl (ProcessTree.step (.named (id : Nat → Nat))) start).emitted =
      [(0, 0, 0), (0, 0, 0)] := by
  have hspawn : ProcessTree.step (.named id) start (.spawn 0) = ⟨chain 0, 1, []⟩ := rfl
  obtain ⟨hout, hcalls⟩ := seeded_fill
  rw [nestedForks, List.foldl_cons, hspawn, List.foldl_append, foldl_forks, List.foldl_cons,
    step_fill (getElem?_chain (Nat.zero_le n)) rfl, List.foldl_cons,
    step_fill ((List.getElem?_set_ne hn.symm).trans (getElem?_chain le_rfl)) rfl, List.foldl_nil]
  simp only [hwrap, List.nil_append]
  change (seeded.fill (.named id) 0 1 1).out ++ (seeded.fill (.named id) 0 1
    (seeded.fill (.named id) 0 1 1).calls).out = _
  rw [hcalls, hout]
  rfl

/-- **After 2⁶⁴ nested forks bytes are used twice**: the last process has the generation of the
first one. -/
theorem wrapped_generation_repeats :
    ¬ ((nestedForks (2 ^ 64)).foldl (ProcessTree.step (.named (id : Nat → Nat)))
      start).emitted.Nodup := by
  have hwrap : UInt64.ofNat (2 ^ 64) = 0 := by decide
  rw [nestedForks_emitted (by decide) hwrap]
  decide

end ProcessTree
