import AwgTun.Lib.Fair
import AwgTun.Device.DevLock

/-!
# Upgrades of the device lock come to an end

In a fair run every thread that can go on again and again goes on; a thread with a guard can always
drop it.  While no upgrade finishes, the threads in `try_writeable` raise the flag, the readers
without a mark leave and do not come back, and so the thread with the mark gets to its end.  Each
step on the way lowers `Pc.rank`.

* `LockState.upgrade_finishes` — while there is an upgrade, one of them finishes.
* `LockState.upgrade_returns`, `LockState.read_returns` — if upgrades are not begun forever, each
  of them finishes and each reader gets its guard.
* `LockState.lock_exclusive_live` — the lock is exclusive, and live in this sense.
* `LockState.upgrade_starves` — where upgrades are begun forever, one may wait forever.
-/

open Filter Actors

namespace Pc

variable {pc : Pc}

/-- Nobody keeps a thread here. -/
def prompt : Pc → Bool
  | readCheck | readInner | reading | markUnlock | markCheck | markReread | prep | writing
  | reread | done => true
  | _ => false

/-- A thread takes the mutex. -/
def takesMutex : Pc → Bool
  | readEnter | markEnter | markAgain | doneEnter => true
  | _ => false

/-- The read lock is held without a mark. -/
def plain : Pc → Bool
  | reading | markEnter | markUnlock => true
  | _ => false

/-- For how many steps of its own a thread still holds the mutex. -/
def holdsFor : Pc → ℕ
  | readCheck | markUnlock => 2
  | readInner | markCheck | done => 1
  | _ => 0

/-- How far a thread is from the end of an upgrade, or from where it waits. -/
def rank : Pc → ℕ
  | readEnter => 13
  | readCheck => 12
  | readInner => 11
  | reading => 10
  | markEnter => 9
  | markUnlock | markAgain => 8
  | markCheck => 7
  | markReread => 6
  | prep => 5
  | enterWrite => 4
  | writing => 3
  | reread => 2
  | doneEnter => 1
  | _ => 0

theorem upgrading_of_marked (h : pc.marked = true) : pc.upgrading = true := by
  cases pc <;> first | rfl | cases h

/-- Who is in `cvar.wait` has neither the mark nor a guard. -/
theorem not_waiting (h : pc.plain = true ∨ pc.marked = true) : ¬ pc.waiting = true := by
  intro hwaits
  cases pc with
  | readWait | markWait => rcases h with h | h <;> cases h
  | _ => cases hwaits

/-- A thread that has begun, and waits neither for the flag nor for the write lock, goes on. -/
theorem prompt_or_takesMutex (hidle : pc ≠ .idle) (hwaits : ¬ pc.waiting = true)
    (hwrite : pc ≠ .enterWrite) : pc.prompt = true ∨ pc.takesMutex = true := by
  cases pc with
  | idle => exact absurd rfl hidle
  | readWait | markWait => exact absurd rfl hwaits
  | enterWrite => exact absurd rfl hwrite
  | readEnter | markEnter | markAgain | doneEnter => exact .inr rfl
  | _ => exact .inl rfl

end Pc

namespace LockState

variable {ι : Type} [DecidableEq ι] [Fintype ι] {s s' : LockState ι} {i j : ι} {n : ℕ}

/-! ## Who can go on -/

omit [DecidableEq ι] [Fintype ι] in
/-- While a thread takes the read lock, nobody writes or waits to write. -/
theorem Sound.calm (hs : s.Sound)
    (h : s.pc i = .readInner ∨ s.pc i = .markReread ∨ s.pc i = .reread) (j : ι) :
    s.pc j ≠ .writing ∧ s.pc j ≠ .enterWrite := by
  by_cases hj : j = i
  · subst hj
    rcases h with h | h | h <;> simp [h]
  · have hunmarked : (s.pc j).marked = false := by
      rcases h with h | h | h
      · exact hs.unmarked (hs.inner i h) j
      · exact hs.eq_of_marked (by rw [h]; rfl) hj
      · exact hs.eq_of_marked (by rw [h]; rfl) hj
    constructor <;> intro hpc <;> rw [hpc] at hunmarked <;> cases hunmarked

theorem Sound.ready_of_prompt (hs : s.Sound) (h : (s.pc i).prompt = true) : s.Ready i := by
  refine ⟨?_, fun htakes j => (hs.calm htakes j).2⟩
  have hfree (htakes : s.pc i = .readInner ∨ s.pc i = .markReread ∨ s.pc i = .reread) :
      s.NoWriter := fun j => (hs.calm htakes j).1
  cases hpc : s.pc i with
  | readInner => simp [advance, hpc, hfree (.inl hpc)]
  | markReread => simp [advance, hpc, hfree (.inr (.inl hpc))]
  | reread => simp [advance, hpc, hfree (.inr (.inr hpc))]
  | readCheck | reading | markUnlock | markCheck | prep | writing | done => simp [advance, hpc]
  | idle | readEnter | readWait | markEnter | markWait | markAgain | enterWrite | doneEnter =>
    rw [hpc] at h
    cases h

theorem ready_of_mutexFree (hfree : s.MutexFree) (h : (s.pc i).takesMutex = true) : s.Ready i := by
  cases hpc : s.pc i with
  | readEnter | markEnter | markAgain | doneEnter => simp [Ready, advance, hpc, hfree]
  | idle | readCheck | readWait | readInner | reading | markUnlock | markCheck | markWait
  | markReread | prep | enterWrite | writing | reread | done =>
    rw [hpc] at h
    cases h

/-! ## What a step does to the thread that takes it, and to the others -/

theorem Step.self (h : s.Step i s') :
    s.Moves (s.pc i) (s'.pc i) ∨ (s.pc i = .markCheck ∧ s'.pc i = .markReread) ∨
      (s.pc i = .done ∧ s'.pc i = .reading) := by
  rcases step_cases h with ⟨pc, hmoves, rfl⟩ | ⟨hpc, -, rfl⟩ | ⟨hpc, rfl⟩
  · rw [goto_self]
    exact .inl hmoves
  · exact .inr (.inl ⟨hpc, mark_self s i⟩)
  · exact .inr (.inr ⟨hpc, finish_self s i⟩)

/-- Where the flag is not lowered, the others stay where they are, -/
theorem Step.unfinished (h : s.Step i s') (hpc : s.pc i ≠ .done) (hj : j ≠ i) :
    s'.pc j = s.pc j := by
  rcases step_cases h with ⟨pc, -, rfl⟩ | ⟨-, -, rfl⟩ | ⟨hdone, -⟩
  · exact goto_other s pc hj
  · exact mark_other s hj
  · exact absurd hdone hpc

/-- and the flag stays up. -/
theorem Step.flag (h : s.Step i s') (hpc : s.pc i ≠ .done) (hflag : s.wantsWrite = true) :
    s'.wantsWrite = true := by
  rcases step_cases h with ⟨pc, -, rfl⟩ | ⟨-, -, rfl⟩ | ⟨hdone, -⟩
  · exact hflag
  · rfl
  · exact absurd hdone hpc

/-- What waking up does not change of a thread is changed by no other. -/
theorem Step.same_other {f : Pc → Bool} (hwake : ∀ pc, f pc.wake = f pc) (h : s.Step i s')
    (hj : j ≠ i) : f (s'.pc j) = f (s.pc j) := by
  rcases step_cases h with ⟨pc, -, rfl⟩ | ⟨-, -, rfl⟩ | ⟨-, rfl⟩
  · rw [goto_other s pc hj]
  · rw [mark_other s hj]
  · rw [finish_other s hj, hwake]

theorem Step.mutex_other (h : s.Step i s') (hj : j ≠ i) :
    (s'.pc j).holdsMutex = (s.pc j).holdsMutex :=
  h.same_other (f := Pc.holdsMutex) (fun pc => by cases pc <;> rfl) hj

/-- Who holds the mutex comes nearer to giving it up. -/
theorem Step.mutex_self (h : s.Step i s') (hholds : (s.pc i).holdsMutex = true) :
    (s'.pc i).holdsFor < (s.pc i).holdsFor := by
  rcases h.self with hmoves | ⟨hold, hnew⟩ | ⟨hold, hnew⟩
  · generalize s.pc i = old at hholds hmoves ⊢
    generalize s'.pc i = new at hmoves ⊢
    cases hmoves <;> first | decide | cases hholds
  · rw [hold, hnew]
    decide
  · rw [hold, hnew]
    decide

/-- An upgrade goes on until it is done, -/
theorem Step.upgrading_self (h : s.Step i s') (hpc : s.pc i ≠ .done)
    (hup : (s.pc i).upgrading = true) : (s'.pc i).upgrading = true := by
  rcases h.self with hmoves | ⟨-, hnew⟩ | ⟨hdone, -⟩
  · generalize s.pc i = old at hup hmoves
    generalize s'.pc i = new at hmoves ⊢
    cases hmoves <;> first | rfl | cases hup
  · rw [hnew]
    rfl
  · exact absurd hdone hpc

/-- and so does one that has its mark. -/
theorem Step.marked_self (h : s.Step i s') (hpc : s.pc i ≠ .done)
    (hmarked : (s.pc i).marked = true) : (s'.pc i).marked = true := by
  rcases h.self with hmoves | ⟨-, hnew⟩ | ⟨hdone, -⟩
  · exact hmoves.marked.trans hmarked
  · rw [hnew]
    rfl
  · exact absurd hdone hpc

/-- Each step brings a thread nearer to the end of an upgrade. -/
theorem Step.rank_self (h : s.Step i s') (hidle : s.pc i ≠ .idle) (hpc : s.pc i ≠ .done) :
    (s'.pc i).rank < (s.pc i).rank := by
  rcases h.self with hmoves | ⟨hold, hnew⟩ | ⟨hdone, -⟩
  · generalize s.pc i = old at hidle hmoves ⊢
    generalize s'.pc i = new at hmoves ⊢
    cases hmoves <;> first | decide | exact absurd rfl hidle
  · rw [hold, hnew]
    decide
  · exact absurd hdone hpc

/-- While the flag is up, nobody gets the read lock that has no mark. -/
theorem Step.plain_self (hs : s.Sound) (h : s.Step i s') (hpc : s.pc i ≠ .done)
    (hflag : s.wantsWrite = true) (hplain : (s.pc i).plain = false) : (s'.pc i).plain = false := by
  rcases h.self with hmoves | ⟨-, hnew⟩ | ⟨hdone, -⟩
  · by_cases hinner : s.pc i = .readInner
    · rw [hs.inner i hinner] at hflag
      cases hflag
    · generalize s.pc i = old at hplain hinner hmoves
      generalize s'.pc i = new at hmoves ⊢
      cases hmoves with
      | read => exact absurd rfl hinner
      | upgrade | markLock => cases hplain
      | start | readLock | readWait | readGo | drop | unlock | markWait | relock | reread | prep
      | write | written | rereadDone | doneLock => rfl
  · rw [hnew]
    rfl
  · exact absurd hdone hpc

/-- The threads with an upgrade. -/
def upgrades (s : LockState ι) : Finset ι := Finset.univ.filter fun i => (s.pc i).upgrading = true

omit [DecidableEq ι] in
theorem mem_upgrades : i ∈ upgrades s ↔ (s.pc i).upgrading = true := by
  simp [upgrades]

theorem Step.upgrading_other (h : s.Step i s') (hj : j ≠ i) :
    (s'.pc j).upgrading = (s.pc j).upgrading :=
  h.same_other (f := Pc.upgrading) (fun pc => by cases pc <;> rfl) hj

theorem Step.entering_other (h : s.Step i s') (hj : j ≠ i) :
    (s'.pc j).entering = (s.pc j).entering :=
  h.same_other (f := Pc.entering) (fun pc => by cases pc <;> rfl) hj

/-- `read` ends with a guard. -/
theorem Step.entered (h : s.Step i s') (henter : (s.pc i).entering = true)
    (hend : (s'.pc i).entering = false) : s'.pc i = .reading := by
  rcases h.self with hmoves | ⟨hold, -⟩ | ⟨-, hnew⟩
  · generalize s.pc i = old at henter hmoves
    generalize s'.pc i = new at hmoves hend ⊢
    cases hmoves with
    | read => rfl
    | readLock | readWait | readGo => cases hend
    | start | drop | upgrade | markLock | unlock | markWait | relock | reread | prep | write
    | written | rereadDone | doneLock => cases henter
  · rw [hold] at henter
    cases henter
  · exact hnew

theorem Step.finished (h : s.Step i s') (hpc : s.pc i = .done) : s'.pc i = .reading := by
  rcases h.self with hmoves | ⟨hcheck, -⟩ | ⟨-, hnew⟩
  · rw [hpc] at hmoves
    cases hmoves
  · rw [hpc] at hcheck
    cases hcheck
  · exact hnew

/-- A step that begins no upgrade leaves no more of them. -/
theorem Step.upgrades_subset (h : s.Step i s')
    (hbegin : ¬(s.pc i = .reading ∧ s'.pc i = .markEnter)) : upgrades s' ⊆ upgrades s := by
  intro j hj
  rw [mem_upgrades] at hj ⊢
  by_cases hji : j = i
  · subst hji
    rcases h.self with hmoves | ⟨hold, -⟩ | ⟨-, hnew⟩
    · generalize s.pc j = old at hbegin hmoves ⊢
      generalize s'.pc j = new at hbegin hmoves hj
      cases hmoves with
      | upgrade => exact absurd ⟨rfl, rfl⟩ hbegin
      | markLock | unlock | markWait | relock | reread | prep | write | written | rereadDone
      | doneLock => rfl
      | start | readLock | readWait | readGo | read | drop => cases hj
    · rw [hold]
      rfl
    · rw [hnew] at hj
      cases hj
  · rw [← h.upgrading_other hji]
    exact hj

/-! ## Runs -/

/-- A thread calls `try_writeable`. -/
def Begins (r : Run (Step (ι := ι))) (n : ℕ) (i : ι) : Prop :=
  r.actor n = some i ∧ (r.state n).pc i = .reading ∧ (r.state (n + 1)).pc i = .markEnter

variable {r : Run (Step (ι := ι))}

/-- **The invariant along a run.** -/
theorem sound_run (hstart : (r.state 0).Sound) (n : ℕ) : (r.state n).Sound :=
  Run.keeps hstart (fun _ _ _ hs h => hs.step h) n

/-- A thread that goes on comes nearer to the end of an upgrade. -/
theorem rank_falls (hidle : (r.state n).pc i ≠ .idle)
    (hacts : ∃ m, n ≤ m ∧ r.actor m = some i ∧ (r.state m).pc i = (r.state n).pc i)
    (hdone : ∀ m, n ≤ m → r.actor m = some i → (r.state m).pc i ≠ .done) :
    ∃ m, n ≤ m ∧ ((r.state m).pc i).rank < ((r.state n).pc i).rank := by
  obtain ⟨m, hm, hact, hpc⟩ := hacts
  refine ⟨m + 1, by omega, ?_⟩
  rw [← hpc] at hidle ⊢
  exact (Run.step_of_actor hact).rank_self hidle (hdone m hm hact)

section Fair

variable (hstart : (r.state 0).Sound) (hfair : r.Fair Ready) {n : ℕ}

include hfair in
/-- A thread that can go on again and again, as long as it stays where it is, goes on. -/
theorem acts_of_ready (hwait : ((r.state n).pc i).waiting = false)
    (hready : (∀ m, n ≤ m → (r.state m).pc i = (r.state n).pc i) →
      ∀ m, n ≤ m → ∃ k, m ≤ k ∧ (r.state k).Ready i) :
    ∃ m, n ≤ m ∧ r.actor m = some i ∧ (r.state m).pc i = (r.state n).pc i := by
  refine hfair.acts (Q := fun s => s.pc i = (r.state n).pc i) ?_ hready rfl
  intro m _ hpc hact
  rcases r.next m with ⟨j, hj, hstep⟩ | ⟨-, hsame⟩
  · have hne : i ≠ j := by
      rintro rfl
      exact hact hj
    exact (hstep.other hne (by rw [hpc]; exact hwait)).trans hpc
  · rw [hsame]
    exact hpc

include hstart hfair

theorem acts_of_prompt (h : ((r.state n).pc i).prompt = true) :
    ∃ m, n ≤ m ∧ r.actor m = some i ∧ (r.state m).pc i = (r.state n).pc i := by
  refine acts_of_ready hfair ?_ fun hstays m hm => ⟨m, le_rfl, ?_⟩
  · generalize (r.state n).pc i = pc at h
    cases pc <;> first | rfl | cases h
  · refine (sound_run hstart m).ready_of_prompt ?_
    rw [hstays m hm]
    exact h

/-- The mutex is free again and again. -/
theorem mutex_freed (n : ℕ) : ∃ m, n ≤ m ∧ (r.state m).MutexFree := by
  by_cases hfree : (r.state n).MutexFree
  · exact ⟨n, le_rfl, hfree⟩
  obtain ⟨i, hi⟩ : ∃ i, ((r.state n).pc i).holdsMutex = true := by
    simpa [MutexFree] using hfree
  have hfall (m : ℕ) (_ : n ≤ m) (hholds : ((r.state m).pc i).holdsMutex = true) :
      ∃ k, m ≤ k ∧ ((r.state k).pc i).holdsFor < ((r.state m).pc i).holdsFor := by
    have hprompt : ((r.state m).pc i).prompt = true := by
      generalize (r.state m).pc i = pc at hholds
      cases pc <;> first | rfl | cases hholds
    obtain ⟨k, hk, hact, hpc⟩ := acts_of_prompt hstart hfair hprompt
    refine ⟨k + 1, by omega, ?_⟩
    rw [← hpc] at hholds ⊢
    exact (Run.step_of_actor hact).mutex_self hholds
  obtain ⟨m, hm, hgiven⟩ := Run.ends hfall
  -- the step with which the thread gives up the mutex
  obtain ⟨k, j, hk, hact, hholds, hgiven⟩ :=
    Run.ended (P := fun s : LockState ι => (s.pc i).holdsMutex = true) hm hi hgiven
  have hstep := Run.step_of_actor hact
  have hj : i = j := by
    by_contra hj
    exact hgiven ((hstep.mutex_other hj).trans hholds)
  subst hj
  refine ⟨k + 1, by omega, fun j => ?_⟩
  by_cases hj : j = i
  · rw [hj]
    simpa using hgiven
  · rw [hstep.mutex_other hj]
    exact (sound_run hstart k).eq_of_mutex hholds hj

/-- Only who waits for the flag or for the write lock is kept where it is. -/
theorem acts (h : ((r.state n).pc i).prompt = true ∨ ((r.state n).pc i).takesMutex = true) :
    ∃ m, n ≤ m ∧ r.actor m = some i ∧ (r.state m).pc i = (r.state n).pc i := by
  rcases h with hprompt | htakes
  · exact acts_of_prompt hstart hfair hprompt
  · refine acts_of_ready hfair ?_ fun hstays m hm => ?_
    · generalize (r.state n).pc i = pc at htakes
      cases pc <;> first | rfl | cases htakes
    · obtain ⟨k, hk, hfree⟩ := mutex_freed hstart hfair m
      refine ⟨k, hk, ready_of_mutexFree hfree ?_⟩
      rw [hstays k (hm.trans hk)]
      exact htakes

/-! ## An upgrade finishes -/

section Unfinished

variable (hnone : ∀ m i, n ≤ m → r.actor m = some i → (r.state m).pc i ≠ .done) {m : ℕ}

include hnone in
omit hstart hfair in
/-- What a thread keeps of itself until an upgrade is done. -/
theorem keeps_unfinished {P : Pc → Prop} (hm : n ≤ m)
    (hself : ∀ k, m ≤ k → r.actor k = some i → P ((r.state k).pc i) →
      P ((r.state (k + 1)).pc i)) (hP : P ((r.state m).pc i)) {k : ℕ} (hk : m ≤ k) :
    P ((r.state k).pc i) := by
  refine Run.keeps_from (P := fun s : LockState ι => P (s.pc i)) hP ?_ hk
  intro k j hk hact hP
  by_cases hj : i = j
  · subst hj
    exact hself k hk hact hP
  · rw [(Run.step_of_actor hact).unfinished (hnone k j (hm.trans hk) hact) hj]
    exact hP

include hnone

omit hstart hfair in
theorem flag_stays {m k : ℕ} (hm : n ≤ m) (hflag : (r.state m).wantsWrite = true) (hk : m ≤ k) :
    (r.state k).wantsWrite = true :=
  Run.keeps_from (P := fun s : LockState ι => s.wantsWrite = true) hflag
    (fun k j hk hact => Step.flag (Run.step_of_actor hact) (hnone k j (hm.trans hk) hact)) hk

/-- The flag is raised, -/
theorem flag_raised (hup : ((r.state n).pc i).upgrading = true) :
    ∃ m, n ≤ m ∧ (r.state m).wantsWrite = true := by
  have hups {m : ℕ} (hm : n ≤ m) : ((r.state m).pc i).upgrading = true :=
    keeps_unfinished (P := fun pc => pc.upgrading = true) hnone le_rfl (fun k hk hact hup =>
      (Run.step_of_actor hact).upgrading_self (hnone k i hk hact) hup) hup hm
  have hfall (m : ℕ) (hm : n ≤ m) (hflag : (r.state m).wantsWrite = false) :
      ∃ k, m ≤ k ∧ ((r.state k).pc i).rank < ((r.state m).pc i).rank := by
    -- the thread has no mark and does not wait for the flag, so it goes on
    have hs := sound_run hstart m
    have hup := hups hm
    have hunmarked := hs.unmarked hflag i
    have hidle : (r.state m).pc i ≠ .idle := ne_of_apply_ne Pc.upgrading (by rw [hup]; decide)
    have hwaits := mt (hs.waits i) (by rw [hflag]; exact Bool.false_ne_true)
    have hwrite : (r.state m).pc i ≠ .enterWrite :=
      ne_of_apply_ne Pc.marked (by rw [hunmarked]; decide)
    exact rank_falls hidle (acts hstart hfair (Pc.prompt_or_takesMutex hidle hwaits hwrite))
      fun k hk => hnone k i (hm.trans hk)
  obtain ⟨m, hm, hflag⟩ := Run.ends hfall
  exact ⟨m, hm, by simpa using hflag⟩

/-- and then the readers without a mark give up their guards. -/
theorem readers_leave (hm : n ≤ m) (hflag : (r.state m).wantsWrite = true) :
    ∃ k, m ≤ k ∧ ∀ k', k ≤ k' → ∀ j, ((r.state k').pc j).plain = false := by
  have hfall (j : ι) (k : ℕ) (hk : m ≤ k) (hplain : ((r.state k).pc j).plain = true) :
      ∃ l, k ≤ l ∧ ((r.state l).pc j).rank < ((r.state k).pc j).rank := by
    have hidle : (r.state k).pc j ≠ .idle := ne_of_apply_ne Pc.plain (by rw [hplain]; decide)
    have hwrite : (r.state k).pc j ≠ .enterWrite := ne_of_apply_ne Pc.plain (by rw [hplain]; decide)
    have hsteady := Pc.prompt_or_takesMutex hidle (Pc.not_waiting (.inl hplain)) hwrite
    exact rank_falls hidle (acts hstart hfair hsteady) fun l hl => hnone l j (by omega)
  have heach (j : ι) : ∀ᶠ k in atTop, ((r.state k).pc j).plain = false := by
    obtain ⟨k, hk, hleft⟩ := Run.ends (hfall j)
    refine eventually_atTop.mpr ⟨k, fun k' hk' => ?_⟩
    refine keeps_unfinished (P := fun pc => pc.plain = false) hnone (hm.trans hk) ?_
      (by simpa using hleft) hk'
    intro l hl hact hplain
    exact (Run.step_of_actor hact).plain_self (sound_run hstart l)
      (hnone l j (by omega) hact) (flag_stays hnone hm hflag (by omega)) hplain
  obtain ⟨k, hk⟩ := eventually_atTop.mp (eventually_all.mpr heach)
  exact ⟨max k m, le_max_right k m, fun k' hk' => hk k' ((le_max_left k m).trans hk')⟩

/-- So the marked thread gets the write lock, as it gets all it takes. -/
theorem marked_acts (hm : n ≤ m) (hmarked : ((r.state m).pc i).marked = true) :
    ∃ k, m ≤ k ∧ r.actor k = some i ∧ (r.state k).pc i = (r.state m).pc i := by
  have hs := sound_run hstart m
  by_cases hwrite : (r.state m).pc i = .enterWrite
  · refine acts_of_ready hfair (by rw [hwrite]; rfl) fun hstays k hk => ?_
    obtain ⟨l, hl, hleft⟩ := readers_leave hstart hfair hnone hm (hs.flag.mpr ⟨i, hmarked⟩)
    have hpc := (hstays (max k l) (by omega)).trans hwrite
    have hfree : (r.state (max k l)).Unlocked := by
      intro j
      by_cases hj : j = i
      · rw [hj, hpc]
        exact ⟨rfl, nofun⟩
      · have hunmarked := (sound_run hstart (max k l)).eq_of_marked (by rw [hpc]; rfl) hj
        have hplain := hleft (max k l) (le_max_right k l) j
        generalize (r.state (max k l)).pc j = pc at hunmarked hplain
        cases pc <;> simp_all [Pc.plain, Pc.marked, Pc.holdsRead]
    refine ⟨max k l, le_max_left k l, ?_⟩
    simp [Ready, advance, hpc, hfree]
  · have hidle : (r.state m).pc i ≠ .idle := ne_of_apply_ne Pc.marked (by rw [hmarked]; decide)
    exact acts hstart hfair (Pc.prompt_or_takesMutex hidle (Pc.not_waiting (.inr hmarked)) hwrite)

end Unfinished

/-- **While there is an upgrade, one of them finishes.** -/
theorem upgrade_finishes (hup : ((r.state n).pc i).upgrading = true) :
    ∃ m j, n ≤ m ∧ r.actor m = some j ∧ (r.state m).pc j = .done := by
  by_contra hnever
  have hnone (m : ℕ) (j : ι) (hm : n ≤ m) (hact : r.actor m = some j) :
      (r.state m).pc j ≠ .done := fun hdone => hnever ⟨m, j, hm, hact, hdone⟩
  obtain ⟨m, hm, hflag⟩ := flag_raised hstart hfair hnone hup
  obtain ⟨w, hw⟩ := (sound_run hstart m).flag.mp hflag
  have hmarked {k : ℕ} (hk : m ≤ k) : ((r.state k).pc w).marked = true :=
    keeps_unfinished (P := fun pc => pc.marked = true) hnone hm (fun l hl hact hmarked =>
      (Run.step_of_actor hact).marked_self (hnone l w (hm.trans hl) hact) hmarked) hw hk
  -- the thread with the mark comes nearer to its end forever
  have hfall (k : ℕ) (hk : m ≤ k) (_ : True) :
      ∃ l, k ≤ l ∧ ((r.state l).pc w).rank < ((r.state k).pc w).rank := by
    exact rank_falls (by intro hidle; simpa [hidle, Pc.marked] using hmarked hk)
      (marked_acts hstart hfair hnone (hm.trans hk) (hmarked hk)) fun l hl =>
        hnone l w (by omega)
  obtain ⟨-, -, hend⟩ := Run.ends hfall
  exact hend trivial

/-! ## Where upgrades are not begun forever -/

section Settled

variable {n₀ : ℕ} (hbegun : ∀ m i, n₀ ≤ m → ¬Begins r m i)

include hbegun

/-- Then there are none after some time, -/
theorem upgrades_settle : ∃ m, n₀ ≤ m ∧ ∀ k, m ≤ k → ∀ i, ((r.state k).pc i).upgrading = false := by
  have hfewer {m k : ℕ} (hm : n₀ ≤ m) (hk : m ≤ k) : upgrades (r.state k) ⊆ upgrades (r.state m) :=
    Run.keeps_from (P := fun s => upgrades s ⊆ upgrades (r.state m)) subset_rfl
      (fun l j hl hact hsub => ((Run.step_of_actor hact).upgrades_subset
        (hbegun l j (hm.trans hl) <| ⟨hact, ·⟩)).trans hsub) hk
  have hfall (m : ℕ) (hm : n₀ ≤ m) (hsome : (upgrades (r.state m)).Nonempty) :
      ∃ k, m ≤ k ∧ (upgrades (r.state k)).card < (upgrades (r.state m)).card := by
    obtain ⟨i, hi⟩ := hsome
    obtain ⟨k, j, hk, hact, hdone⟩ := upgrade_finishes hstart hfair (mem_upgrades.mp hi)
    have hstep := Run.step_of_actor hact
    refine ⟨k + 1, by omega, ?_⟩
    refine lt_of_lt_of_le (Finset.card_lt_card ?_) (Finset.card_le_card (hfewer hm hk))
    refine (Finset.ssubset_iff_of_subset (hfewer (hm.trans hk) (Nat.le_succ k))).mpr ⟨j, ?_, ?_⟩
    · rw [mem_upgrades, hdone]
      rfl
    · rw [mem_upgrades, hstep.finished hdone]
      exact Bool.false_ne_true
  obtain ⟨m, hm, hend⟩ := Run.ends hfall
  rw [Finset.not_nonempty_iff_eq_empty] at hend
  refine ⟨m, hm, fun k hk i => ?_⟩
  by_contra hup
  have hmem := hfewer hm hk (mem_upgrades.mpr (by simpa using hup))
  rw [hend] at hmem
  exact absurd hmem (Finset.notMem_empty i)

/-- so each of them has finished. -/
theorem upgrade_returns (hup : ((r.state n).pc i).upgrading = true) :
    ∃ m, n ≤ m ∧ r.actor m = some i ∧ (r.state m).pc i = .done := by
  obtain ⟨m, -, hsettled⟩ := upgrades_settle hstart hfair hbegun
  obtain ⟨k, j, hk, hact, hup, hend⟩ :=
    Run.ended (P := fun s : LockState ι => (s.pc i).upgrading = true) (le_max_left n m) hup
      (by rw [hsettled _ (le_max_right n m)]; exact Bool.false_ne_true)
  have hstep := Run.step_of_actor hact
  have hj : i = j := by
    by_contra hj
    exact hend ((hstep.upgrading_other hj).trans hup)
  subst hj
  refine ⟨k, hk, hact, ?_⟩
  by_contra hdone
  exact hend (hstep.upgrading_self hdone hup)

/-- Then every reader gets its guard as well. -/
theorem read_returns (henter : ((r.state n).pc i).entering = true) :
    ∃ m, n ≤ m ∧ (r.state m).pc i = .reading := by
  obtain ⟨m, -, hsettled⟩ := upgrades_settle hstart hfair hbegun
  have hdown {k : ℕ} (hk : m ≤ k) : (r.state k).wantsWrite = false := by
    by_contra hflag
    obtain ⟨j, hj⟩ := (sound_run hstart k).flag.mp (by simpa using hflag)
    have hnone := hsettled k hk j
    rw [Pc.upgrading_of_marked hj] at hnone
    cases hnone
  have hfall (k : ℕ) (hk : max n m ≤ k) (henter : ((r.state k).pc i).entering = true) :
      ∃ l, k ≤ l ∧ ((r.state l).pc i).rank < ((r.state k).pc i).rank := by
    -- with the flag down a reader does not wait for it
    have hidle : (r.state k).pc i ≠ .idle := ne_of_apply_ne Pc.entering (by rw [henter]; decide)
    have hwaits := mt ((sound_run hstart k).waits i) (by
      rw [hdown ((le_max_right n m).trans hk)]
      exact Bool.false_ne_true)
    have hwrite : (r.state k).pc i ≠ .enterWrite :=
      ne_of_apply_ne Pc.entering (by rw [henter]; decide)
    refine rank_falls hidle (acts hstart hfair (Pc.prompt_or_takesMutex hidle hwaits hwrite)) ?_
    intro l hl _ hdone
    have hnone := hsettled l (by omega) i
    rw [hdone] at hnone
    cases hnone
  obtain ⟨k, hk, hend⟩ := Run.ends hfall
  obtain ⟨l, j, hl, hact, henter, hend⟩ :=
    Run.ended (P := fun s : LockState ι => (s.pc i).entering = true) (by omega) henter hend
  have hstep := Run.step_of_actor hact
  have hj : i = j := by
    by_contra hj
    exact hend ((hstep.entering_other hj).trans henter)
  subst hj
  exact ⟨l + 1, by omega, hstep.entered henter (by simpa using hend)⟩

end Settled

end Fair

/-! ## The device lock -/

omit [DecidableEq ι] [Fintype ι] in
theorem Sound.exclusive (hs : s.Sound) (hwrite : s.pc i = .writing) (hj : j ≠ i) :
    (s.pc j).holdsRead = false ∧ s.pc j ≠ .writing := by
  refine ⟨hs.alone i j hwrite, fun hpc => hj (hs.marked j i ?_ ?_)⟩
  · rw [hpc]
    rfl
  · rw [hwrite]
    rfl

/-- **The device lock is exclusive, and live unless upgrades are begun forever.**  In every run,
`mut_func` runs while no other thread has a read guard or runs its own; one thread at most is
between its mark and the end of its upgrade, `read` hands out no guard meanwhile, and the flag is up
exactly then.  If the run is fair, an upgrade finishes while there is one; and if upgrades are not
begun forever, each of them finishes and each `read` returns. -/
theorem lock_exclusive_live (r : Run (Step (ι := ι))) (hstart : r.state 0 = new) :
    (∀ n i j, (r.state n).pc i = .writing → j ≠ i →
      ((r.state n).pc j).holdsRead = false ∧ (r.state n).pc j ≠ .writing) ∧
    (∀ n i j, ((r.state n).pc i).marked = true → ((r.state n).pc j).marked = true → i = j) ∧
    (∀ n i, r.actor n = some i → (r.state n).pc i = .readInner →
      ∀ j, ((r.state n).pc j).marked = false) ∧
    (∀ n, (r.state n).wantsWrite = true ↔ ∃ i, ((r.state n).pc i).marked = true) ∧
    (r.Fair Ready →
      (∀ n i, ((r.state n).pc i).upgrading = true →
        ∃ m j, n ≤ m ∧ r.actor m = some j ∧ (r.state m).pc j = .done) ∧
      ((∀ᶠ n in atTop, ∀ i, ¬Begins r n i) →
        (∀ n i, ((r.state n).pc i).upgrading = true →
          ∃ m, n ≤ m ∧ r.actor m = some i ∧ (r.state m).pc i = .done) ∧
        (∀ n i, ((r.state n).pc i).entering = true →
          ∃ m, n ≤ m ∧ (r.state m).pc i = .reading))) := by
  have hsound : (r.state 0).Sound := hstart ▸ sound_new
  refine ⟨?_, ?_, ?_, ?_, fun hfair => ⟨?_, fun hbegun => ?_⟩⟩
  · intro n i j hwrite hj
    exact (sound_run hsound n).exclusive hwrite hj
  · intro n
    exact (sound_run hsound n).marked
  · intro n i _ hinner
    exact (sound_run hsound n).unmarked ((sound_run hsound n).inner i hinner)
  · intro n
    exact (sound_run hsound n).flag
  · intro n i hup
    exact upgrade_finishes hsound hfair hup
  · obtain ⟨n₀, hn₀⟩ := eventually_atTop.mp hbegun
    have hnone (m : ℕ) (i : ι) (hm : n₀ ≤ m) : ¬Begins r m i := hn₀ m hm i
    constructor
    · intro n i hup
      exact upgrade_returns hsound hfair hnone hup
    · intro n i henter
      exact read_returns hsound hfair hnone henter

/-! ## Runs that come back -/

/-- What a thread is told to do: to go on, or to call `read` or `try_writeable`. -/
def act (s : LockState ι) : Option (ι × Bool) → LockState ι
  | none => s
  | some (i, false) => (s.advance i).getD s
  | some (i, true) => s.goto i (if s.pc i = .idle then .readEnter else .markEnter)

/-- The states of a schedule, -/
def after (schedule : List (Option (ι × Bool))) (n : ℕ) : LockState ι :=
  (schedule.take n).foldl act new

/-- and who takes its steps. -/
def acting (schedule : List (Option (ι × Bool))) (n : ℕ) : Option ι :=
  (schedule.getD n none).map Prod.fst

/-- Two threads read, and the first upgrades.  The second drops its guard and reads again, which it
can when the upgrade is done; then both rest. -/
def oneUpgrade : List (Option (Fin 2 × Bool)) :=
  some (0, true) :: List.replicate 3 (some (0, false)) ++
    some (1, true) :: List.replicate 3 (some (1, false)) ++
    some (0, true) :: List.replicate 5 (some (0, false)) ++
    some (1, false) :: some (1, true) :: List.replicate 2 (some (1, false)) ++
    List.replicate 5 (some (0, false)) ++ List.replicate 4 (some (1, false)) ++
    [some (0, false), none]

def oneUpgradeRun : Run (Step (ι := Fin 2)) :=
  Run.lasso (after oneUpgrade) (acting oneUpgrade) 28 29 (by decide) (by decide +kernel)
    (by decide +kernel)

theorem oneUpgradeRun_rests (hn : 28 ≤ n) : Run.turn 28 29 n = 28 := by
  have hle : 28 ≤ Run.turn 28 29 n := Run.back_le_turn (n := 28) (by decide) hn
  have hlt : Run.turn 28 29 n < 29 := Run.turn_lt (by decide) n
  omega

theorem oneUpgradeRun_fair : oneUpgradeRun.Fair Ready := by
  refine Run.lasso_fair fun i => .inr fun k hk hlt => ?_
  obtain rfl : k = 28 := by omega
  have hnew : after oneUpgrade 28 = new := by decide +kernel
  rw [hnew]
  simp [Ready, advance, new]

theorem oneUpgradeRun_settled : ∀ᶠ n in atTop, ∀ i, ¬Begins oneUpgradeRun n i := by
  refine eventually_atTop.mpr ⟨28, fun n hn i hbegins => ?_⟩
  have hact : acting oneUpgrade (Run.turn 28 29 n) = some i := hbegins.1
  have hnone : acting oneUpgrade 28 = none := rfl
  rw [oneUpgradeRun_rests hn, hnone] at hact
  cases hact

/-- The first thread waits for the second to drop its guard, the second for the first to finish. -/
theorem lock_exclusive_live_once :
    oneUpgradeRun.state 0 = new ∧ (oneUpgradeRun.state 14).pc 0 = .enterWrite ∧
      (∃ m, 14 ≤ m ∧ oneUpgradeRun.actor m = some 0 ∧ (oneUpgradeRun.state m).pc 0 = .done) ∧
      (oneUpgradeRun.state 18).pc 1 = .readWait ∧
      ∃ m, 18 ≤ m ∧ (oneUpgradeRun.state m).pc 1 = .reading := by
  obtain ⟨-, -, -, -, hlive⟩ := lock_exclusive_live oneUpgradeRun rfl
  obtain ⟨hupgrades, hreads⟩ := (hlive oneUpgradeRun_fair).2 oneUpgradeRun_settled
  exact ⟨rfl, by decide +kernel, hupgrades 14 0 (by decide +kernel), by decide +kernel,
    hreads 18 1 (by decide +kernel)⟩

/-- Two threads have read, the first raises the flag and writes while the second waits.  From its
end on, the first upgrades again and gets the mutex before the second, which finds the flag up
whenever it has it. -/
def twoUpgrades : List (Option (Fin 2 × Bool)) :=
  some (0, true) :: List.replicate 3 (some (0, false)) ++
    some (1, true) :: List.replicate 3 (some (1, false)) ++
    some (0, true) :: List.replicate 3 (some (0, false)) ++
    some (1, true) :: List.replicate 3 (some (1, false)) ++
    List.replicate 6 (some (0, false)) ++
    some (0, false) :: some (0, true) :: List.replicate 3 (some (0, false)) ++
    List.replicate 2 (some (1, false)) ++ List.replicate 6 (some (0, false))

def twoUpgradesRun : Run (Step (ι := Fin 2)) :=
  Run.lasso (after twoUpgrades) (acting twoUpgrades) 22 35 (by decide) (by decide +kernel)
    (by decide +kernel)

/-- **An upgrade can wait forever**, in a fair run, while another thread upgrades again and
again. -/
theorem upgrade_starves :
    twoUpgradesRun.state 0 = new ∧ twoUpgradesRun.Fair Ready ∧
      ((twoUpgradesRun.state 13).pc 1).upgrading = true ∧
      ∀ m, (twoUpgradesRun.state m).pc 1 ≠ .done := by
  refine ⟨rfl, Run.lasso_fair fun i => .inl ?_, by decide +kernel, fun m => ?_⟩
  · have hacts : ∀ i : Fin 2, ∃ k < 35, 22 ≤ k ∧ acting twoUpgrades k = some i := by decide +kernel
    obtain ⟨k, hlt, hk, hact⟩ := hacts i
    exact ⟨k, hk, hlt, hact⟩
  · have hnever : ∀ k < 35, (after twoUpgrades k).pc 1 ≠ .done := by decide +kernel
    exact hnever _ (Run.turn_lt (by decide) m)

end LockState
