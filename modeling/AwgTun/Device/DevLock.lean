import Mathlib

/-!
# The device lock

`dev_lock.rs`: a read/write lock whose readers hold it for long, and can ask for it to be
upgraded.  `try_writeable` marks that it wants to write, so that no reader starts from then on, has
the others told to give up their locks, and writes when they have.  The mark is a flag under a
mutex with a condition variable, the lock behind it an `RwLock`.

A thread is at one of the program points `Pc`; who holds the mutex, the read lock and the write lock
can be read off the program points.  A step of a thread takes or gives up one of these, or waits.
A waiting writer may or may not keep readers out: a thread may take the read lock while it waits,
but need not be able to (`LockState.Ready`).

* `LockState.Sound` — the invariant: one thread holds the mutex, the flag is up exactly while one
  thread is between its mark and its end, who waits waits for the flag, and who writes is alone.
* `LockState.step_cases` — what a step does.
* `LockState.Sound.step` — each step keeps the invariant.
-/

/-- Where a thread is. -/
inductive Pc
  /-- Without a guard. -/
  | idle
  /-- `read`: `lock.lock()`, -/
  | readEnter
  /-- `while *wants_write`, -/
  | readCheck
  /-- `cvar.wait(&mut wants_write)`, -/
  | readWait
  /-- and `self.inner.read()`. -/
  | readInner
  /-- With a guard. -/
  | reading
  /-- `try_writeable`: `lock.lock()`, -/
  | markEnter
  /-- the read lock is given up, -/
  | markUnlock
  /-- `while *wants_write`, -/
  | markCheck
  /-- `cvar.wait(&mut wants_write)`, -/
  | markWait
  /-- which takes the mutex again; -/
  | markAgain
  /-- `*wants_write = true` is done and the read lock is taken again, -/
  | markReread
  /-- `prep_func`, and the read lock is given up, -/
  | prep
  /-- `lock.write()`, -/
  | enterWrite
  /-- `mut_func`, and the write lock is given up, -/
  | writing
  /-- the read lock is taken again, -/
  | reread
  /-- `lock.lock()`, -/
  | doneEnter
  /-- and `*wants_write = false; cvar.notify_all()`. -/
  | done
  deriving DecidableEq, Repr

namespace Pc

/-- The mutex is held. -/
def holdsMutex : Pc → Bool
  | readCheck | readInner | markUnlock | markCheck | done => true
  | _ => false

/-- The read lock is held. -/
def holdsRead : Pc → Bool
  | reading | markEnter | markUnlock | prep | doneEnter | done => true
  | _ => false

/-- Between the mark and the end of `try_writeable`. -/
def marked : Pc → Bool
  | markReread | prep | enterWrite | writing | reread | doneEnter | done => true
  | _ => false

/-- In `try_writeable`. -/
def upgrading : Pc → Bool
  | markEnter | markUnlock | markCheck | markWait | markAgain => true
  | pc => pc.marked

/-- In `read`. -/
def entering : Pc → Bool
  | readEnter | readCheck | readWait | readInner => true
  | _ => false

/-- In `cvar.wait`. -/
def waiting : Pc → Bool
  | readWait | markWait => true
  | _ => false

/-- `notify_all`: who waits goes on to take the mutex again. -/
def wake : Pc → Pc
  | readWait => readEnter
  | markWait => markAgain
  | pc => pc

end Pc

/-- The flag, and where the threads are. -/
structure LockState (ι : Type) where
  wantsWrite : Bool
  pc : ι → Pc

namespace LockState

section Points

variable {ι : Type} {i j : ι}

/-- `Lock::new`. -/
def new : LockState ι := ⟨false, fun _ => .idle⟩

/-- The mutex can be taken. -/
def MutexFree (s : LockState ι) : Prop := ∀ j, (s.pc j).holdsMutex = false

/-- The read lock can be taken. -/
def NoWriter (s : LockState ι) : Prop := ∀ j, s.pc j ≠ .writing

/-- The write lock can be taken. -/
def Unlocked (s : LockState ι) : Prop := ∀ j, (s.pc j).holdsRead = false ∧ s.pc j ≠ .writing

/-- How a thread goes on that leaves the flag alone. -/
inductive Moves (s : LockState ι) : Pc → Pc → Prop
  | start : Moves s .idle .readEnter
  | readLock (h : s.MutexFree) : Moves s .readEnter .readCheck
  | readWait (h : s.wantsWrite = true) : Moves s .readCheck .readWait
  | readGo (h : s.wantsWrite = false) : Moves s .readCheck .readInner
  | read (h : s.NoWriter) : Moves s .readInner .reading
  | drop : Moves s .reading .idle
  | upgrade : Moves s .reading .markEnter
  | markLock (h : s.MutexFree) : Moves s .markEnter .markUnlock
  | unlock : Moves s .markUnlock .markCheck
  | markWait (h : s.wantsWrite = true) : Moves s .markCheck .markWait
  | relock (h : s.MutexFree) : Moves s .markAgain .markCheck
  | reread (h : s.NoWriter) : Moves s .markReread .prep
  | prep : Moves s .prep .enterWrite
  | write (h : s.Unlocked) : Moves s .enterWrite .writing
  | written : Moves s .writing .reread
  | rereadDone (h : s.NoWriter) : Moves s .reread .doneEnter
  | doneLock (h : s.MutexFree) : Moves s .doneEnter .done

variable {s : LockState ι} {old pc : Pc}

theorem Moves.mutex (h : s.Moves old pc) (hpc : pc.holdsMutex = true) :
    old.holdsMutex = true ∨ s.MutexFree := by
  cases h with
  | readLock h | markLock h | relock h | doneLock h => exact .inr h
  | readGo | unlock => exact .inl rfl
  | start | readWait | read | drop | upgrade | markWait | reread | prep | write | written
  | rereadDone => cases hpc

theorem Moves.marked (h : s.Moves old pc) : pc.marked = old.marked := by
  cases h <;> rfl

theorem Moves.reads (h : s.Moves old pc) (hpc : pc.holdsRead = true) :
    old.holdsRead = true ∨ s.NoWriter := by
  cases h with
  | read h | reread h | rereadDone h => exact .inr h
  | upgrade | markLock | doneLock => exact .inl rfl
  | start | readLock | readWait | readGo | drop | unlock | markWait | relock | prep | write
  | written => cases hpc

/-- What holds in every state of a run. -/
structure Sound (s : LockState ι) : Prop where
  mutex : ∀ i j, (s.pc i).holdsMutex = true → (s.pc j).holdsMutex = true → i = j
  marked : ∀ i j, (s.pc i).marked = true → (s.pc j).marked = true → i = j
  flag : s.wantsWrite = true ↔ ∃ i, (s.pc i).marked = true
  /-- The flag was down when it was looked at, and the mutex is still held. -/
  inner : ∀ i, s.pc i = .readInner → s.wantsWrite = false
  waits : ∀ i, (s.pc i).waiting = true → s.wantsWrite = true
  alone : ∀ i j, s.pc i = .writing → (s.pc j).holdsRead = false

theorem sound_new : (new : LockState ι).Sound where
  mutex := by simp [new, Pc.holdsMutex]
  marked := by simp [new, Pc.marked]
  flag := by simp [new, Pc.marked]
  inner := by simp [new]
  waits := by simp [new, Pc.waiting]
  alone := by simp [new]

theorem Sound.unmarked (h : s.Sound) (hflag : s.wantsWrite = false) (j : ι) :
    (s.pc j).marked = false := by
  by_contra hmarked
  rw [h.flag.mpr ⟨j, by simpa using hmarked⟩] at hflag
  cases hflag

theorem Sound.eq_of_marked (h : s.Sound) (hi : (s.pc i).marked = true) (hj : j ≠ i) :
    (s.pc j).marked = false := by
  by_contra hmarked
  exact hj (h.marked j i (by simpa using hmarked) hi)

theorem Sound.eq_of_mutex (h : s.Sound) (hi : (s.pc i).holdsMutex = true) (hj : j ≠ i) :
    (s.pc j).holdsMutex = false := by
  by_contra hholds
  exact hj (h.mutex j i (by simpa using hholds) hi)

end Points

/-! ## Steps -/

variable {ι : Type} [DecidableEq ι] {pc : Pc}

/-- A thread goes on. -/
def goto (s : LockState ι) (i : ι) (pc : Pc) : LockState ι :=
  { s with pc := Function.update s.pc i pc }

/-- A thread raises the flag. -/
def mark (s : LockState ι) (i : ι) : LockState ι :=
  { s.goto i .markReread with wantsWrite := true }

/-- A thread lowers the flag and wakes who waits for it. -/
def finish (s : LockState ι) (i : ι) : LockState ι where
  wantsWrite := false
  pc := Function.update (fun j => (s.pc j).wake) i .reading

section Fields

variable (s : LockState ι) (i : ι) {j : ι} (pc : Pc)

@[simp] theorem goto_self : (s.goto i pc).pc i = pc := by
  simp [goto]

@[simp] theorem mark_self : (s.mark i).pc i = .markReread := by
  simp [mark]

@[simp] theorem finish_self : (s.finish i).pc i = .reading := by
  simp [finish]

variable {i}

theorem goto_other (hj : j ≠ i) : (s.goto i pc).pc j = s.pc j := by
  simp [goto, hj]

theorem mark_other (hj : j ≠ i) : (s.mark i).pc j = s.pc j := by
  simp [mark, goto, hj]

theorem finish_other (hj : j ≠ i) : (s.finish i).pc j = (s.pc j).wake := by
  simp [finish, hj]

end Fields

section Decidable

variable [Fintype ι] (s : LockState ι)

instance : Decidable s.MutexFree := inferInstanceAs (Decidable (∀ _, _))

instance : Decidable s.NoWriter := inferInstanceAs (Decidable (∀ _, _))

instance : Decidable s.Unlocked := inferInstanceAs (Decidable (∀ _, _))

instance : DecidableEq (LockState ι) := fun a b =>
  decidable_of_iff (a.wantsWrite = b.wantsWrite ∧ a.pc = b.pc) (by cases a; cases b; simp)

/-- What a thread does next, if it can.  A thread with a guard drops it. -/
def advance (i : ι) : Option (LockState ι) :=
  match s.pc i with
  | .idle => none
  | .readEnter => if s.MutexFree then some (s.goto i .readCheck) else none
  | .readCheck => some (s.goto i (if s.wantsWrite then .readWait else .readInner))
  | .readWait => none
  | .readInner => if s.NoWriter then some (s.goto i .reading) else none
  | .reading => some (s.goto i .idle)
  | .markEnter => if s.MutexFree then some (s.goto i .markUnlock) else none
  | .markUnlock => some (s.goto i .markCheck)
  | .markCheck => some (if s.wantsWrite then s.goto i .markWait else s.mark i)
  | .markWait => none
  | .markAgain => if s.MutexFree then some (s.goto i .markCheck) else none
  | .markReread => if s.NoWriter then some (s.goto i .prep) else none
  | .prep => some (s.goto i .enterWrite)
  | .enterWrite => if s.Unlocked then some (s.goto i .writing) else none
  | .writing => some (s.goto i .reread)
  | .reread => if s.NoWriter then some (s.goto i .doneEnter) else none
  | .doneEnter => if s.MutexFree then some (s.goto i .done) else none
  | .done => some (s.finish i)

/-- A step of a thread: it goes on, calls `read`, or calls `try_writeable` on its guard. -/
def Step (i : ι) (s' : LockState ι) : Prop :=
  s.advance i = some s' ∨ (s.pc i = .idle ∧ s' = s.goto i .readEnter) ∨
    (s.pc i = .reading ∧ s' = s.goto i .markEnter)

instance (i : ι) (s' : LockState ι) : Decidable (s.Step i s') :=
  inferInstanceAs (Decidable (_ ∨ _ ∨ _))

/-- A thread is to go on: it can, also with a lock that lets a waiting writer keep readers out. -/
def Ready (i : ι) : Prop :=
  (s.advance i).isSome ∧
    (s.pc i = .readInner ∨ s.pc i = .markReread ∨ s.pc i = .reread → ∀ j, s.pc j ≠ .enterWrite)

end Decidable

variable {s s' : LockState ι} {i : ι}

/-- **What a step does.**  It moves one thread, raises the flag, or lowers it. -/
theorem step_cases [Fintype ι] (h : s.Step i s') :
    (∃ pc, s.Moves (s.pc i) pc ∧ s' = s.goto i pc) ∨
      (s.pc i = .markCheck ∧ s.wantsWrite = false ∧ s' = s.mark i) ∨
      (s.pc i = .done ∧ s' = s.finish i) := by
  -- a move that takes something which has to be free
  have hguard {P : Prop} [Decidable P] {pc pc' : Pc} (hmoves : P → s.Moves pc pc')
      (h : (if P then some (s.goto i pc') else none) = some s') :
      ∃ pc', s.Moves pc pc' ∧ s' = s.goto i pc' := by
    obtain ⟨hfree, heq⟩ := Option.ite_none_right_eq_some.mp h
    cases heq
    exact ⟨pc', hmoves hfree, rfl⟩
  rcases h with h | ⟨hpc, rfl⟩ | ⟨hpc, rfl⟩
  · unfold advance at h
    cases hpc : s.pc i <;> simp only [hpc] at h
    case idle | readWait | markWait => cases h
    case readCheck =>
      cases h
      cases hflag : s.wantsWrite with
      | false => exact .inl ⟨.readInner, .readGo hflag, rfl⟩
      | true => exact .inl ⟨.readWait, .readWait hflag, rfl⟩
    case markCheck =>
      cases h
      cases hflag : s.wantsWrite with
      | false => exact .inr (.inl ⟨rfl, rfl, rfl⟩)
      | true => exact .inl ⟨.markWait, .markWait hflag, rfl⟩
    case done =>
      cases h
      exact .inr (.inr ⟨rfl, rfl⟩)
    case reading =>
      cases h
      exact .inl ⟨_, .drop, rfl⟩
    case markUnlock =>
      cases h
      exact .inl ⟨_, .unlock, rfl⟩
    case prep =>
      cases h
      exact .inl ⟨_, .prep, rfl⟩
    case writing =>
      cases h
      exact .inl ⟨_, .written, rfl⟩
    case readEnter => exact .inl (hguard .readLock h)
    case readInner => exact .inl (hguard .read h)
    case markEnter => exact .inl (hguard .markLock h)
    case markAgain => exact .inl (hguard .relock h)
    case markReread => exact .inl (hguard .reread h)
    case enterWrite => exact .inl (hguard .write h)
    case reread => exact .inl (hguard .rereadDone h)
    case doneEnter => exact .inl (hguard .doneLock h)
  · rw [hpc]
    exact .inl ⟨_, .start, rfl⟩
  · rw [hpc]
    exact .inl ⟨_, .upgrade, rfl⟩

/-- Who does not wait is moved by nobody else. -/
theorem Step.other [Fintype ι] {j : ι} (h : s.Step i s') (hj : j ≠ i)
    (hwait : (s.pc j).waiting = false) : s'.pc j = s.pc j := by
  have hwake : (s.pc j).wake = s.pc j := by
    generalize s.pc j = pc at hwait ⊢
    cases pc <;> first | rfl | cases hwait
  rcases step_cases h with ⟨pc, -, rfl⟩ | ⟨-, -, rfl⟩ | ⟨-, rfl⟩
  · exact goto_other s pc hj
  · exact mark_other s hj
  · exact (finish_other s hj).trans hwake

/-! ## The invariant -/

/-- At most one thread is in a set of program points, if it is only entered while it is empty. -/
theorem unique_goto {f : Pc → Bool} (h : ∀ i j, f (s.pc i) = true → f (s.pc j) = true → i = j)
    (hnew : f pc = true → f (s.pc i) = true ∨ ∀ j, f (s.pc j) = false) (j k : ι)
    (hj : f ((s.goto i pc).pc j) = true) (hk : f ((s.goto i pc).pc k) = true) : j = k := by
  -- the thread that has moved is the only one
  have hone (k : ι) (hk : f (s.pc k) = true) (hpc : f pc = true) : k = i := by
    rcases hnew hpc with hold | hnone
    · exact h k i hk hold
    · rw [hnone k] at hk
      cases hk
  by_cases hji : j = i
  · subst hji
    by_cases hkj : k = j
    · exact hkj.symm
    · rw [goto_self] at hj
      rw [goto_other s pc hkj] at hk
      exact absurd (hone k hk hj) hkj
  · rw [goto_other s pc hji] at hj
    by_cases hki : k = i
    · subst hki
      rw [goto_self] at hk
      exact absurd (hone j hj hk) hji
    · rw [goto_other s pc hki] at hk
      exact h j k hj hk

theorem Sound.moves (hs : s.Sound) (h : s.Moves (s.pc i) pc) : (s.goto i pc).Sound where
  mutex := unique_goto hs.mutex h.mutex
  marked := by
    refine unique_goto hs.marked fun hpc => .inl ?_
    rw [← h.marked]
    exact hpc
  flag := by
    have hsame (j : ι) : ((s.goto i pc).pc j).marked = (s.pc j).marked := by
      by_cases hj : j = i
      · subst hj
        rw [goto_self, h.marked]
      · rw [goto_other s pc hj]
    simp only [hsame]
    exact hs.flag
  inner := by
    intro j hj
    by_cases hji : j = i
    · subst hji
      rw [goto_self] at hj
      subst hj
      generalize s.pc j = old at h
      cases h with
      | readGo hflag => exact hflag
    · rw [goto_other s pc hji] at hj
      exact hs.inner j hj
  waits := by
    intro j hj
    by_cases hji : j = i
    · subst hji
      rw [goto_self] at hj
      generalize s.pc j = old at h
      cases h with
      | readWait hflag | markWait hflag => exact hflag
      | start | readLock | readGo | read | drop | upgrade | markLock | unlock | relock | reread
      | prep | write | written | rereadDone | doneLock => cases hj
    · rw [goto_other s pc hji] at hj
      exact hs.waits j hj
  alone := by
    intro j k hj
    by_contra hk
    rw [Bool.not_eq_false] at hk
    by_cases hji : j = i
    · -- the write lock has just been taken
      subst hji
      rw [goto_self] at hj
      subst hj
      have hfree : s.Unlocked := by
        generalize s.pc j = old at h
        cases h with
        | write hfree => exact hfree
      by_cases hkj : k = j
      · subst hkj
        rw [goto_self] at hk
        cases hk
      · rw [goto_other s _ hkj, (hfree k).1] at hk
        cases hk
    · rw [goto_other s pc hji] at hj
      by_cases hki : k = i
      · subst hki
        rw [goto_self] at hk
        rcases h.reads hk with hold | hfree
        · rw [hs.alone j k hj] at hold
          cases hold
        · exact hfree j hj
      · rw [goto_other s pc hki, hs.alone j k hj] at hk
        cases hk

theorem Sound.mark (hs : s.Sound) (hpc : s.pc i = .markCheck) (hflag : s.wantsWrite = false) :
    (s.mark i).Sound where
  mutex := unique_goto (f := Pc.holdsMutex) hs.mutex (by simp [Pc.holdsMutex])
  marked := unique_goto (f := Pc.marked) hs.marked fun _ => .inr (hs.unmarked hflag)
  flag := iff_of_true rfl ⟨i, by simp [Pc.marked]⟩
  inner := by
    intro j hj
    by_cases hji : j = i
    · subst hji
      rw [mark_self] at hj
      cases hj
    · -- the mutex is not held by two
      rw [mark_other s hji] at hj
      have hmutex := hs.eq_of_mutex (i := i) (by rw [hpc]; rfl) hji
      rw [hj] at hmutex
      cases hmutex
  waits := fun _ _ => rfl
  alone := by
    intro j k hj
    by_cases hji : j = i
    · subst hji
      rw [mark_self] at hj
      cases hj
    · rw [mark_other s hji] at hj
      have hmarked := hs.unmarked hflag j
      rw [hj] at hmarked
      cases hmarked

/-- Whoever was between mark and end was the thread that has ended. -/
theorem Sound.finish_unmarked (hs : s.Sound) (hpc : s.pc i = .done) (j : ι) :
    ((s.finish i).pc j).marked = false := by
  by_cases hj : j = i
  · subst hj
    rw [finish_self]
    rfl
  · have hwake (pc : Pc) : pc.wake.marked = pc.marked := by cases pc <;> rfl
    rw [finish_other s hj, hwake]
    exact hs.eq_of_marked (by rw [hpc]; rfl) hj

theorem Sound.finish_mutexFree (hs : s.Sound) (hpc : s.pc i = .done) : (s.finish i).MutexFree := by
  intro j
  by_cases hj : j = i
  · subst hj
    rw [finish_self]
    rfl
  · have hwake (pc : Pc) : pc.wake.holdsMutex = pc.holdsMutex := by cases pc <;> rfl
    rw [finish_other s hj, hwake]
    exact hs.eq_of_mutex (by rw [hpc]; rfl) hj

theorem Sound.finish (hs : s.Sound) (hpc : s.pc i = .done) : (s.finish i).Sound where
  mutex := by
    intro j k hj
    rw [hs.finish_mutexFree hpc j] at hj
    cases hj
  marked := by
    intro j k hj
    rw [hs.finish_unmarked hpc j] at hj
    cases hj
  flag := by
    refine iff_of_false Bool.false_ne_true ?_
    rintro ⟨j, hj⟩
    rw [hs.finish_unmarked hpc j] at hj
    cases hj
  inner := fun _ _ => rfl
  waits := by
    intro j hj
    have hwake (pc : Pc) : pc.wake.waiting = false := by cases pc <;> rfl
    by_cases hji : j = i
    · subst hji
      rw [finish_self] at hj
      cases hj
    · rw [finish_other s hji, hwake] at hj
      cases hj
  alone := by
    intro j k hj
    have hmarked := hs.finish_unmarked hpc j
    rw [hj] at hmarked
    cases hmarked

/-- **One step** keeps the invariant. -/
theorem Sound.step [Fintype ι] (hs : s.Sound) (h : s.Step i s') : s'.Sound := by
  rcases step_cases h with ⟨pc, hmoves, rfl⟩ | ⟨hpc, hflag, rfl⟩ | ⟨hpc, rfl⟩
  · exact hs.moves hmoves
  · exact hs.mark hpc hflag
  · exact hs.finish hpc

end LockState
