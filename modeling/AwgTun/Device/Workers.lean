import AwgTun.Device.Device
import AwgTun.Device.Upgrade

/-!
# The worker threads

`DeviceHandle::event_loop`: each thread takes the read lock of the device and waits on the event
queue with it.  A handler runs under the lock and the guard of its event, and says whether the
thread goes on, gives up the lock and takes it again, or returns.  The handler of the control socket
upgrades the lock to apply a request: it raises the yield notice, which every other thread gets, and
lowers it when it has the device to itself.

The lock is that of `LockState`.  Of the queue we model which events are armed: all but the two
notices are registered with `EPOLLONESHOT`, so that `wait` disarms them, and the guard that it
returns arms them again when it is dropped.  What there is to read is left to the operating system,
as are the events that handlers register and remove.

* `Events.Turn` — what `event_loop` does next in a thread.
* `Workers.Step` — a step of the system.
* `Workers.Sound` — the invariant.
* `Workers.writer_is_alone` — no event is handled twice at once; at most one thread is in
  `try_writeable`, and while it writes no other thread runs a handler, holds an event or waits for
  one.
-/

/-- Two places that differ in something differ. -/
theorem Pc.ne_of (f : Pc → Bool) {pc pc' : Pc} (h : f pc = true) (h' : f pc' = false) :
    pc ≠ pc' := by
  rintro rfl
  cases h.symm.trans h'

theorem Pc.upgrading_of_entering {pc : Pc} (h : pc.entering = true) : pc.upgrading = false := by
  revert h
  cases pc <;> decide

namespace LockState

variable {ι : Type} [DecidableEq ι] [Fintype ι] {s s' : LockState ι} {i j : ι}

/-- Who does not take a step stays where it is, or is woken up. -/
theorem Step.others (h : s.Step i s') (hj : j ≠ i) :
    s'.pc j = s.pc j ∨ s'.pc j = (s.pc j).wake := by
  rcases step_cases h with ⟨pc, -, rfl⟩ | ⟨-, -, rfl⟩ | ⟨-, rfl⟩
  · exact .inl (goto_other s pc hj)
  · exact .inl (mark_other s hj)
  · exact .inr (finish_other s hj)

/-- `read` goes on, or returns a guard, -/
theorem Step.reads (h : s.Step i s') (henter : (s.pc i).entering = true) :
    (s'.pc i).upgrading = false := by
  by_cases hend : (s'.pc i).entering = true
  · exact Pc.upgrading_of_entering hend
  · rw [h.entered henter (by simpa using hend)]
    rfl

/-- and so does `try_writeable`. -/
theorem Step.upgrades (h : s.Step i s') (hup : (s.pc i).upgrading = true) :
    (s'.pc i).upgrading = true ∨ s'.pc i = .reading := by
  by_cases hdone : s.pc i = .done
  · exact .inr (h.finished hdone)
  · exact .inl (h.upgrading_self hdone hup)

/-- The write lock is waited for after `prep_func`. -/
theorem Step.prep_of_enterWrite (h : s.Step i s') (hpc : s'.pc i = .enterWrite) :
    s.pc i = .prep := by
  rcases h.self with hmoves | ⟨-, hnew⟩ | ⟨-, hnew⟩
  · generalize s.pc i = old at hmoves
    rw [hpc] at hmoves
    cases hmoves
    rfl
  · rw [hpc] at hnew
    cases hnew
  · rw [hpc] at hnew
    cases hnew

end LockState

/-! ## Events -/

/-- The handlers of a device, as far as they differ in what they return. -/
inductive Handler
  /-- Of `register_api_handler` and `register_api_fd`. -/
  | api
  | yieldNotice
  | exitNotice
  /-- Of `register_api_signal_handlers`. -/
  | signal
  | monitor
  | iface
  /-- Timers and sockets. -/
  | other
  deriving DecidableEq, Repr

/-- What a handler may return. -/
def Handler.Returns : Handler → Device.Action → Prop
  | .yieldNotice, action => action = .yield
  | .exitNotice, action | .signal, action => action = .exit
  | .api, action | .monitor, action | .iface, action => action ≠ .yield
  | .other, action => action = .continue

/-- The events of a device: `yield_notice`, `exit_notice`, one for control, and others. -/
structure Events (E : Type) where
  handler : E → Handler
  yield : E
  exit : E
  handler_yield : handler yield = .yieldNotice
  handler_exit : handler exit = .exitNotice
  one_api : ∀ e e', handler e = .api → handler e' = .api → e = e'
  /-- The event of `uapi_fd`. -/
  uapi : E → Bool

/-- Which events are armed, and which have something to read. -/
structure Queue (E : Type) where
  armed : E → Bool
  up : E → Bool

/-- What a thread does to the queue. -/
inductive Queue.Op (E : Type)
  | none
  /-- The guard of an event is dropped. -/
  | arm (e : E)
  /-- `trigger_notification`. -/
  | raise (e : E)
  /-- `stop_notification`. -/
  | lower (e : E)

namespace Queue.Op

variable {E : Type} [DecidableEq E] (q : Queue E)

def apply : Queue.Op E → Queue E
  | none => q
  | arm e => { q with armed := Function.update q.armed e true }
  | raise e => { q with up := Function.update q.up e true }
  | lower e => { q with up := Function.update q.up e false }

variable {q}

theorem armed_apply {op : Queue.Op E} {e : E} (h : q.armed e = true) :
    (op.apply q).armed e = true := by
  cases op with
  | arm e' =>
    show Function.update q.armed e' true e = true
    rw [Function.update_apply, h, ite_self]
  | none | raise | lower => exact h

end Queue.Op

/-! ## A thread -/

/-- Where a thread is in the event loop, apart from the lock and the event that it has. -/
inductive Phase
  /-- In the inner loop, or on the way into it. -/
  | looping
  /-- The handler of the control socket has upgraded the lock, which it does once. -/
  | upgraded
  /-- `break`, out of the inner loop. -/
  | yielding
  /-- `return`. -/
  | exiting
  | returned
  deriving DecidableEq, Repr

/-- The event that a thread has, with the end-of-file flag, and what it does. -/
abbrev Job (E : Type) := Option (E × Bool) × Phase

/-- Where a thread is in the lock, and in the event loop. -/
abbrev Place (E : Type) := Pc × Job E

namespace Events

variable {E : Type} (n : Events E) {e : E}

/-- The events of `new_notifier`, which every thread gets. -/
def Notice (e : E) : Prop := e = n.yield ∨ e = n.exit

instance [DecidableEq E] (e : E) : Decidable (n.Notice e) := inferInstanceAs (Decidable (_ ∨ _))

/-- What `event_loop` does next in a thread. -/
inductive Turn : Place E → Place E → Queue.Op E → Prop
  /-- `device.read()`. -/
  | read : Turn (.idle, none, .looping) (.readEnter, none, .looping) .none
  | entering {pc pc' : Pc} (h : pc.entering = true) :
      Turn (pc, none, .looping) (pc', none, .looping) .none
  /-- `Action::Continue`. -/
  | continue {e : E} {phase : Phase} (hphase : phase = .looping ∨ phase = .upgraded)
      (h : (n.handler e).Returns .continue) :
      Turn (.reading, some (e, false), phase) (.reading, none, .looping) (.arm e)
  /-- `Action::Yield`. -/
  | yield {e : E} (h : (n.handler e).Returns .yield) :
      Turn (.reading, some (e, false), .looping) (.reading, some (e, false), .yielding) .none
  /-- `Action::Exit`. -/
  | exit {e : E} {phase : Phase} (hphase : phase = .looping ∨ phase = .upgraded)
      (h : (n.handler e).Returns .exit) :
      Turn (.reading, some (e, false), phase) (.reading, some (e, false), .exiting) (.raise n.exit)
  /-- The end of the control connection. -/
  | hangup {e : E} (h : n.uapi e = true) :
      Turn (.reading, some (e, true), .looping) (.reading, some (e, true), .exiting) (.raise n.exit)
  /-- `handler.cancel()`, which does not arm the event again. -/
  | cancel {e : E} (h : n.uapi e = false) :
      Turn (.reading, some (e, true), .looping) (.reading, none, .looping) .none
  /-- The guard is dropped before the lock, -/
  | leave {e : E} {eof : Bool} {phase : Phase} (hphase : phase = .yielding ∨ phase = .exiting) :
      Turn (.reading, some (e, eof), phase) (.reading, none, phase) (.arm e)
  /-- which ends a round of the outer loop, -/
  | unlock : Turn (.reading, none, .yielding) (.idle, none, .looping) .none
  /-- or the thread. -/
  | finish : Turn (.reading, none, .exiting) (.idle, none, .returned) .none
  /-- `api_set`: `d.try_writeable(…)`. -/
  | upgrade {e : E} (h : n.handler e = .api) :
      Turn (.reading, some (e, false), .looping) (.markEnter, some (e, false), .upgraded) .none
  | upgrading {pc pc' : Pc} {held : Option (E × Bool)} (h : pc.upgrading = true)
      (hprep : pc ≠ .prep)
      (hwrite : pc ≠ .enterWrite) : Turn (pc, held, .upgraded) (pc', held, .upgraded) .none
  /-- `trigger_yield`, -/
  | prep {held : Option (E × Bool)} :
      Turn (.prep, held, .upgraded) (.enterWrite, held, .upgraded) (.raise n.yield)
  /-- and `cancel_yield`, the first thing that is done with the write lock. -/
  | write {held : Option (E × Bool)} :
      Turn (.enterWrite, held, .upgraded) (.writing, held, .upgraded) (.lower n.yield)

/-- Where a thread can be. -/
inductive Ok : Place E → Prop
  /-- Outside the lock, in `read`, or about to wait. -/
  | loops {pc : Pc} (h : pc.upgrading = false) : Ok (pc, none, .looping)
  | handles {g : E × Bool} : Ok (.reading, some g, .looping)
  /-- Who upgrades, or has, runs the handler of the control socket. -/
  | upgrades {pc : Pc} {e : E} (h : pc.upgrading = true ∨ pc = .reading)
      (hapi : n.handler e = .api) :
      Ok (pc, some (e, false), .upgraded)
  | leaves {held : Option (E × Bool)} {phase : Phase} (h : phase = .yielding ∨ phase = .exiting) :
      Ok (.reading, held, phase)
  | returned : Ok (.idle, none, .returned)

variable {n} {p p' : Place E} {op : Queue.Op E}

theorem notice_ne_api (h : n.Notice e) : n.handler e ≠ .api := by
  rcases h with rfl | rfl
  · rw [n.handler_yield]
    decide
  · rw [n.handler_exit]
    decide

theorem yield_ne_exit : n.yield ≠ n.exit := by
  intro heq
  have h := n.handler_yield
  rw [heq, n.handler_exit] at h
  cases h

/-- A thread takes no event by itself, -/
theorem Turn.held (h : n.Turn p p' op) : p'.2.1 = p.2.1 ∨ p'.2.1 = none := by
  cases h <;> simp

/-- and arms only the one that it gives up. -/
theorem Turn.arm (h : n.Turn p p' (.arm e)) :
    (∃ eof, p.2.1 = some (e, eof)) ∧ p'.2.1 = none := by
  cases h <;> simp

/-- On its way out it has told the others. -/
theorem Turn.exits (h : n.Turn p p' op) (hphase : p'.2.2 = .exiting ∨ p'.2.2 = .returned) :
    op = .raise n.exit ∨ p.2.2 = .exiting := by
  cases h with
  | leave h => rcases h with rfl | rfl <;> simp_all
  | _ => simp_all

/-- Being woken up changes nothing else. -/
theorem Ok.wake {pc : Pc} {held : Option (E × Bool)} {phase : Phase} (h : n.Ok (pc, held, phase)) :
    n.Ok (pc.wake, held, phase) := by
  cases h with
  | loops h =>
    refine .loops ?_
    revert h
    cases pc <;> decide
  | handles => exact .handles
  | upgrades h hapi =>
    refine .upgrades ?_ hapi
    revert h
    cases pc <;> decide
  | leaves h => exact .leaves h
  | returned => exact .returned

/-- A thread goes on to where it can be. -/
theorem Ok.turn (hok : n.Ok p) (h : n.Turn p p' op)
    (hreads : p.1.entering = true → p'.1.upgrading = false)
    (hupgrades : p.1.upgrading = true → p'.1.upgrading = true ∨ p'.1 = .reading) : n.Ok p' := by
  cases h with
  | entering henter => exact .loops (hreads henter)
  | read | «continue» | cancel | unlock => exact .loops rfl
  | yield => exact .leaves (.inl rfl)
  | exit | hangup => exact .leaves (.inr rfl)
  | leave hphase => exact .leaves hphase
  | finish => exact .returned
  | upgrade hapi => exact .upgrades (.inl rfl) hapi
  | upgrading hup =>
    cases hok with
    | upgrades _ hapi => exact .upgrades (hupgrades hup) hapi
    | leaves h => rcases h with h | h <;> cases h
  | prep | write =>
    cases hok with
    | upgrades _ hapi => exact .upgrades (.inl rfl) hapi

/-- The yield notice is raised on the way to the write lock and lowered with it, -/
theorem Turn.steady (h : n.Turn p p' op) (hsteady : op = .none ∨ ∃ e, op = .arm e) :
    p.1 ≠ .prep ∧ p.1 ≠ .enterWrite := by
  cases h with
  | entering henter => exact ⟨Pc.ne_of Pc.entering henter rfl, Pc.ne_of Pc.entering henter rfl⟩
  | upgrading _ hprep hwrite => exact ⟨hprep, hwrite⟩
  | _ => simp_all

theorem Turn.lower (h : n.Turn p p' (.lower e)) :
    e = n.yield ∧ p.1 = .enterWrite ∧ p'.1 = .writing := by
  cases h
  exact ⟨rfl, rfl, rfl⟩

theorem Turn.raise (h : n.Turn p p' (.raise e)) :
    e = n.exit ∧ p.1 = .reading ∧ p'.1 = .reading ∨ e = n.yield ∧ p'.1 = .enterWrite := by
  cases h <;> simp

end Events

/-! ## The system -/

/-- The threads of a device. -/
structure Workers (ι E : Type) where
  lock : LockState ι
  queue : Queue E
  job : ι → Job E

/-- Who takes a step: a thread goes on, or is handed an event, or it is none of them. -/
inductive Label (ι E : Type)
  | go (i : ι)
  | take (i : ι) (e : E)
  | os

namespace Workers

variable {ι E : Type}

def place (w : Workers ι E) (i : ι) : Place E := (w.lock.pc i, w.job i)

/-- A thread waits for an event. -/
def Waits (w : Workers ι E) (i : ι) : Prop := w.place i = (.reading, none, .looping)

/-- A thread has the guard of an event. -/
def Holds (w : Workers ι E) (i : ι) (e : E) (eof : Bool) : Prop := (w.job i).1 = some (e, eof)

/-- The queue changes on its own: sockets and timers become readable, handlers register and remove
events.  The notices are left alone, and so are the events that are being handled. -/
structure Os (n : Events E) (w : Workers ι E) (queue : Queue E) : Prop where
  notices : ∀ e, n.Notice e → queue.armed e = w.queue.armed e ∧ queue.up e = w.queue.up e
  held : ∀ i e eof, w.Holds i e eof → queue.armed e = w.queue.armed e

variable [DecidableEq ι] [Fintype ι] [DecidableEq E]

/-- A step of `event_loop` in one thread, or of the operating system. -/
inductive Step (n : Events E) (w : Workers ι E) : Label ι E → Workers ι E → Prop
  /-- A thread goes on in the lock, or with its lock. -/
  | go {i : ι} {lock : LockState ι} {job : Job E} {op : Queue.Op E}
      (hlock : w.lock.Step i lock ∨ lock = w.lock ∧ w.lock.pc i = .reading)
      (h : n.Turn (w.place i) (lock.pc i, job) op) :
      Step n w (.go i) ⟨lock, op.apply w.queue, Function.update w.job i job⟩
  /-- `queue.wait()`. -/
  | wait {i : ι} {e : E} {eof : Bool} (hwaits : w.Waits i) (harmed : w.queue.armed e = true)
      (hup : w.queue.up e = true ∨ eof = true) (hquiet : n.Notice e → eof = false) :
      Step n w (.take i e)
        ⟨w.lock, { w.queue with armed := Function.update w.queue.armed e (decide (n.Notice e)) },
          Function.update w.job i (some (e, eof), .looping)⟩
  | os {queue : Queue E} (h : w.Os n queue) : Step n w .os { w with queue }

/-! ## The invariant -/

omit [DecidableEq ι] [Fintype ι] [DecidableEq E] in
/-- What holds in every state of a run. -/
structure Sound (n : Events E) (w : Workers ι E) : Prop where
  lock : w.lock.Sound
  place : ∀ i, n.Ok (w.place i)
  notices : ∀ e, n.Notice e → w.queue.armed e = true
  /-- An event that is being handled is handled once, and disarmed. -/
  alone : ∀ i e eof, w.Holds i e eof → ¬ n.Notice e →
    w.queue.armed e = false ∧ ∀ j eof', w.Holds j e eof' → j = i
  raised : w.queue.up n.yield = true ↔ ∃ i, w.lock.pc i = .enterWrite
  exits : ∀ i, (w.job i).2 = .exiting ∨ (w.job i).2 = .returned → w.queue.up n.exit = true

variable {n : Events E} {w w' : Workers ι E} {label : Label ι E} {i j : ι}

section Go

variable {lock : LockState ι} {job : Job E} {op : Queue.Op E}
  (hlock : w.lock.Step i lock ∨ lock = w.lock ∧ w.lock.pc i = .reading)
  (hturn : n.Turn (w.place i) (lock.pc i, job) op)

include hlock in
omit [DecidableEq E] in
/-- In the lock a thread takes the steps of the lock, -/
theorem lockStep (hpc : w.lock.pc i ≠ .reading) : w.lock.Step i lock :=
  hlock.resolve_right fun hsame => hpc hsame.2

include hlock in
omit [DecidableEq E] in
/-- which may wake others. -/
theorem lock_other (hj : j ≠ i) : lock.pc j = w.lock.pc j ∨ lock.pc j = (w.lock.pc j).wake := by
  rcases hlock with hstep | ⟨rfl, -⟩
  · exact hstep.others hj
  · exact .inl rfl

include hlock hturn in
omit [DecidableEq E] in
theorem Sound.ok_go (h : w.Sound n) : n.Ok (lock.pc i, job) := by
  refine (h.place i).turn hturn (fun henter => ?_) fun hup => ?_
  · exact (lockStep hlock (Pc.ne_of Pc.entering henter rfl)).reads henter
  · exact (lockStep hlock (Pc.ne_of Pc.upgrading hup rfl)).upgrades hup

include hturn in
omit [DecidableEq E] [Fintype ι] in
/-- It takes no event by itself. -/
theorem holds_of_go {g : E × Bool} (h : (Function.update w.job i job j).1 = some g) :
    (w.job j).1 = some g ∧ (j = i → job.1 = some g) := by
  rw [Function.update_apply] at h
  split_ifs at h with hj
  · subst hj
    refine ⟨?_, fun _ => h⟩
    rcases hturn.held with hsame | hnone
    · exact hsame.symm.trans h
    · cases h.symm.trans hnone
  · exact ⟨h, fun hji => absurd hji hj⟩

include hturn in
omit [Fintype ι] in
theorem Sound.alone_go (h : w.Sound n) {e : E} {eof : Bool}
    (hheld : (Function.update w.job i job j).1 = some (e, eof)) (he : ¬ n.Notice e) :
    (op.apply w.queue).armed e = false := by
  obtain ⟨hold, hself⟩ := holds_of_go hturn hheld
  obtain ⟨harmed, hunique⟩ := h.alone j e eof hold he
  cases op with
  | none | raise | lower => exact harmed
  | arm e' =>
    -- whoever arms an event was the one that had it
    obtain ⟨⟨eof', hgiven⟩, hnone⟩ := hturn.arm
    refine (Function.update_of_ne ?_ _ _).trans harmed
    rintro rfl
    cases (hself (hunique i eof' hgiven).symm).symm.trans hnone

include hturn in
omit [DecidableEq ι] [Fintype ι] in
theorem up_exit_go (h : w.queue.up n.exit = true) : (op.apply w.queue).up n.exit = true := by
  cases op with
  | none | arm => exact h
  | raise e =>
    show Function.update w.queue.up e true n.exit = true
    rw [Function.update_apply, h, ite_self]
  | lower e =>
    obtain ⟨rfl, -⟩ := hturn.lower
    exact (Function.update_of_ne Events.yield_ne_exit.symm _ _).trans h

include hlock hturn in
/-- The yield notice is up while the write lock is waited for. -/
theorem Sound.raised_go (h : w.Sound n) :
    (op.apply w.queue).up n.yield = true ↔ ∃ j, lock.pc j = .enterWrite := by
  have hothers {j : ι} (hj : j ≠ i) : lock.pc j = .enterWrite ↔ w.lock.pc j = .enterWrite := by
    rcases lock_other hlock hj with hpc | hpc <;> rw [hpc]
    cases w.lock.pc j <;> decide
  have hsame (hup : (op.apply w.queue).up n.yield = w.queue.up n.yield)
      (hpc : (w.place i).1 ≠ .prep ∧ (w.place i).1 ≠ .enterWrite) :
      (op.apply w.queue).up n.yield = true ↔ ∃ j, lock.pc j = .enterWrite := by
    rw [hup, h.raised]
    refine exists_congr fun j => ?_
    by_cases hj : j = i
    · subst hj
      refine iff_of_false hpc.2 fun hnew => ?_
      rcases hlock with hstep | ⟨rfl, -⟩
      · exact hpc.1 (hstep.prep_of_enterWrite hnew)
      · exact hpc.2 hnew
    · exact (hothers hj).symm
  cases op with
  | none => exact hsame rfl (hturn.steady (.inl rfl))
  | arm e => exact hsame rfl (hturn.steady (.inr ⟨e, rfl⟩))
  | raise e =>
    rcases hturn.raise with ⟨rfl, hpc, -⟩ | ⟨rfl, hpc⟩
    · exact hsame (Function.update_of_ne Events.yield_ne_exit _ _) (by rw [hpc]; decide)
    · exact iff_of_true (Function.update_self _ _ _) ⟨i, hpc⟩
  | lower e =>
    obtain ⟨rfl, hpc, hnew⟩ := hturn.lower
    refine iff_of_false (by simp [Queue.Op.apply]) ?_
    rintro ⟨j, hj⟩
    by_cases hji : j = i
    · rw [hji] at hj
      cases hj.symm.trans hnew
    · exact hji (h.lock.marked j i (congrArg Pc.marked ((hothers hji).mp hj))
        (congrArg Pc.marked hpc))

include hlock hturn in
/-- **A thread goes on.** -/
theorem Sound.go (h : w.Sound n) :
    Sound n ⟨lock, op.apply w.queue, Function.update w.job i job⟩ where
  lock := by
    rcases hlock with hstep | ⟨rfl, -⟩
    · exact h.lock.step hstep
    · exact h.lock
  place j := by
    show n.Ok (lock.pc j, Function.update w.job i job j)
    by_cases hj : j = i
    · rw [hj, Function.update_self]
      exact h.ok_go hlock hturn
    · rw [Function.update_of_ne hj]
      rcases lock_other hlock hj with hpc | hpc <;> rw [hpc]
      · exact h.place j
      · exact (h.place j).wake
  notices e he := Queue.Op.armed_apply (h.notices e he)
  alone j e eof hheld he := by
    refine ⟨h.alone_go hturn hheld he, fun k eof' hk => ?_⟩
    exact (h.alone j e eof (holds_of_go hturn hheld).1 he).2 k eof' (holds_of_go hturn hk).1
  raised := h.raised_go hlock hturn
  exits j := by
    show (Function.update w.job i job j).2 = _ ∨ (Function.update w.job i job j).2 = _ → _
    rw [Function.update_apply]
    split_ifs with hj <;> intro hphase
    · rcases hturn.exits hphase with rfl | hexiting
      · exact Function.update_self _ _ _
      · exact up_exit_go hturn (h.exits i (.inl hexiting))
    · exact up_exit_go hturn (h.exits j hphase)

end Go

omit [Fintype ι] in
/-- **A thread is handed an event**, which nobody else has. -/
theorem Sound.wait (h : w.Sound n) {e : E} {eof : Bool} (hwaits : w.Waits i)
    (harmed : w.queue.armed e = true) :
    Sound n ⟨w.lock,
      { w.queue with armed := Function.update w.queue.armed e (decide (n.Notice e)) },
      Function.update w.job i (some (e, eof), .looping)⟩ := by
  obtain ⟨hpc, hjob⟩ : w.lock.pc i = .reading ∧ w.job i = (none, .looping) := Prod.ext_iff.mp hwaits
  have hold {j : ι} {e' : E} {eof' : Bool}
      (hheld : (Function.update w.job i (some (e, eof), .looping) j).1 = some (e', eof')) :
      j = i ∧ e' = e ∨ j ≠ i ∧ w.Holds j e' eof' := by
    rw [Function.update_apply] at hheld
    split_ifs at hheld with hj
    · cases hheld
      exact .inl ⟨hj, rfl⟩
    · exact .inr ⟨hj, hheld⟩
  -- an armed event is a notice, or nobody has it
  have hfree {j : ι} {eof' : Bool} (hheld : w.Holds j e eof') (he : ¬ n.Notice e) : False := by
    have hdisarmed := (h.alone j e eof' hheld he).1
    cases harmed.symm.trans hdisarmed
  refine ⟨h.lock, fun j => ?_, fun e' he' => ?_, fun j e' eof' hheld he' => ?_, h.raised,
    fun j => ?_⟩
  · show n.Ok (w.lock.pc j, Function.update w.job i (some (e, eof), .looping) j)
    by_cases hj : j = i
    · rw [hj, Function.update_self, hpc]
      exact .handles
    · rw [Function.update_of_ne hj]
      exact h.place j
  · show Function.update w.queue.armed e (decide (n.Notice e)) e' = true
    rw [Function.update_apply]
    split_ifs with heq
    · exact decide_eq_true (heq ▸ he')
    · exact h.notices e' he'
  · show Function.update w.queue.armed e (decide (n.Notice e)) e' = false ∧ _
    rcases hold hheld with ⟨rfl, rfl⟩ | ⟨-, hbefore⟩
    · refine ⟨by rw [Function.update_self]; exact decide_eq_false he', fun k eof'' hk => ?_⟩
      rcases hold hk with ⟨rfl, -⟩ | ⟨-, hk⟩
      · rfl
      · exact (hfree hk he').elim
    · have hne : e' ≠ e := by
        rintro rfl
        exact hfree hbefore he'
      obtain ⟨hdisarmed, hunique⟩ := h.alone j e' eof' hbefore he'
      refine ⟨(Function.update_of_ne hne _ _).trans hdisarmed, fun k eof'' hk => ?_⟩
      rcases hold hk with ⟨-, heq⟩ | ⟨-, hk⟩
      · exact absurd heq hne
      · exact hunique k eof'' hk
  · show (Function.update w.job i (some (e, eof), .looping) j).2 = _ ∨
      (Function.update w.job i (some (e, eof), .looping) j).2 = _ → _
    rw [Function.update_apply]
    split_ifs with hj
    · rintro (h | h) <;> cases h
    · exact h.exits j

/-- **The invariant holds along a run.** -/
theorem Sound.step (h : w.Sound n) (hstep : Step n w label w') : w'.Sound n := by
  cases hstep with
  | go hlock hturn => exact h.go hlock hturn
  | wait hwaits harmed => exact h.wait hwaits harmed
  | os hos =>
    refine ⟨h.lock, h.place, fun e he => (hos.notices e he).1.trans (h.notices e he),
      fun i e eof hheld he => ?_, ?_, fun i hphase => ?_⟩
    · obtain ⟨harmed, hunique⟩ := h.alone i e eof hheld he
      exact ⟨(hos.held i e eof hheld).trans harmed, hunique⟩
    · show _ = true ↔ _
      rw [(hos.notices n.yield (.inl rfl)).2]
      exact h.raised
    · exact (hos.notices n.exit (.inr rfl)).2.trans (h.exits i hphase)

/-- The states that a device reaches from the one in which its threads are started. -/
inductive Reached (n : Events E) : Workers ι E → Prop
  | start {queue : Queue E} (harmed : ∀ e, n.Notice e → queue.armed e = true)
      (hquiet : queue.up n.yield = false) : Reached n ⟨.new, queue, fun _ => (none, .looping)⟩
  | step {w w' : Workers ι E} {label : Label ι E} (h : Reached n w) (hstep : Step n w label w') :
      Reached n w'

theorem Reached.sound (h : Reached n w) : w.Sound n := by
  induction h with
  | start harmed hquiet =>
    refine ⟨LockState.sound_new, fun i => .loops rfl, harmed, ?_, ?_, ?_⟩
    · rintro i e eof hheld
      cases hheld
    · refine iff_of_false (by rw [hquiet]; decide) ?_
      rintro ⟨i, hpc⟩
      cases hpc
    · rintro i (hphase | hphase) <;> cases hphase
  | step _ hstep ih => exact ih.step hstep

/-! ## Who writes is alone -/

section Alone

omit [DecidableEq ι] [Fintype ι] [DecidableEq E]

/-- Who upgrades has the event of the control socket, -/
theorem Sound.api_of_upgrading (h : w.Sound n) (hup : (w.lock.pc i).upgrading = true) :
    ∃ e, w.job i = (some (e, false), .upgraded) ∧ n.handler e = .api := by
  have hok := h.place i
  unfold Workers.place at hok
  generalize w.lock.pc i = pc at hup hok
  generalize w.job i = job at hok
  cases hok with
  | upgrades _ hapi => exact ⟨_, rfl, hapi⟩
  | loops hpc => cases hup.symm.trans hpc
  | handles | leaves | returned => cases hup

/-- which one thread has. -/
theorem Sound.one_upgrade (h : w.Sound n) (hi : (w.lock.pc i).upgrading = true)
    (hj : (w.lock.pc j).upgrading = true) : i = j := by
  obtain ⟨e, hjob, hapi⟩ := h.api_of_upgrading hi
  obtain ⟨e', hjob', hapi'⟩ := h.api_of_upgrading hj
  obtain rfl := n.one_api e e' hapi hapi'
  exact (h.alone j e false (congrArg Prod.fst hjob') fun he => Events.notice_ne_api he hapi).2 i
    false (congrArg Prod.fst hjob)

/-- So it does not wait for another one. -/
theorem Sound.not_markWait (h : w.Sound n) (i : ι) : w.lock.pc i ≠ .markWait := by
  intro hpc
  obtain ⟨j, hmarked⟩ := h.lock.flag.mp (h.lock.waits i (by rw [hpc]; rfl))
  have hij := h.one_upgrade (i := i) (j := j) (by rw [hpc]; rfl) (Pc.upgrading_of_marked hmarked)
  rw [← hij, hpc] at hmarked
  cases hmarked

/-- An event is held with the lock. -/
theorem Sound.reading_of_holds (h : w.Sound n) {e : E} {eof : Bool} (hheld : w.Holds i e eof)
    (hup : (w.lock.pc i).upgrading = false) : w.lock.pc i = .reading := by
  have hok := h.place i
  unfold Workers.place at hok
  unfold Holds at hheld
  generalize w.lock.pc i = pc at hup hok
  generalize w.job i = job at hheld hok
  cases hok with
  | loops | returned => cases hheld
  | handles | leaves => rfl
  | upgrades hpc => exact hpc.resolve_left (by rw [hup]; decide)

/-- Who writes is alone with the device. -/
theorem Sound.writes_alone (h : w.Sound n) (hwrite : w.lock.pc i = .writing) (hj : j ≠ i) :
    (w.lock.pc j).holdsRead = false ∧ (w.job j).1 = none := by
  have hread := h.lock.alone i j hwrite
  refine ⟨hread, Option.eq_none_iff_forall_ne_some.mpr ?_⟩
  rintro ⟨e, eof⟩ hheld
  have hup : (w.lock.pc j).upgrading = false := by
    by_contra hup
    exact hj (h.one_upgrade (by simpa using hup) (by rw [hwrite]; rfl))
  rw [h.reading_of_holds hheld hup] at hread
  cases hread

end Alone

/-- **The writer is alone.**  In every run of the worker threads of a device: no event but a notice
is handled by two threads at once; at most one thread is in `try_writeable`, so it never waits there
for another one to finish; while it changes the device no other thread has the read lock or an
event, so no handler runs; the yield notice is up exactly while it waits for the write lock; and a
thread returns only after it has raised the exit notice, which stays up. -/
theorem writer_is_alone (h : Reached n w) :
    (∀ i j e eof eof', w.Holds i e eof → w.Holds j e eof' → ¬ n.Notice e → i = j) ∧
    (∀ i j, (w.lock.pc i).upgrading = true → (w.lock.pc j).upgrading = true → i = j) ∧
    (∀ i, w.lock.pc i ≠ .markWait) ∧
    (∀ i j, w.lock.pc i = .writing → j ≠ i →
      (w.lock.pc j).holdsRead = false ∧ (w.job j).1 = none) ∧
    (w.queue.up n.yield = true ↔ ∃ i, w.lock.pc i = .enterWrite) ∧
    (∀ i, (w.job i).2 = .exiting ∨ (w.job i).2 = .returned → w.queue.up n.exit = true) := by
  have hs := h.sound
  refine ⟨fun i j e eof eof' hi hj he => ?_, fun i j => hs.one_upgrade, hs.not_markWait,
    fun i j => hs.writes_alone, hs.raised, hs.exits⟩
  exact (hs.alone j e eof' hj he).2 i eof hi

/-- One of two threads applies a request, while the other has not started. -/
theorem writer_is_alone_applying :
    ∃ (n : Events Handler) (w : Workers (Fin 2) Handler), Reached n w ∧ w.lock.pc 0 = .writing ∧
      (w.job 1).1 = none ∧ ¬ w.queue.up n.yield = true := by
  let n : Events Handler :=
    ⟨id, .yieldNotice, .exitNotice, rfl, rfl, fun _ _ h h' => h.trans h'.symm, (· == .api)⟩
  have start : Reached n ⟨.new, ⟨fun _ => true, (· == .api)⟩, fun _ : Fin 2 => (none, .looping)⟩ :=
    .start (fun _ _ => rfl) rfl
  have go {w : Workers (Fin 2) Handler} {lock : LockState (Fin 2)} {job : Job Handler}
      {op : Queue.Op Handler} (h : Reached n w) (hlock : w.lock.Step 0 lock)
      (hturn : n.Turn (w.place 0) (lock.pc 0, job) op) :
      Reached n ⟨lock, op.apply w.queue, Function.update w.job 0 job⟩ :=
    h.step (.go (.inl hlock) hturn)
  have reads := go (go (go (go start (.inr (.inl ⟨rfl, rfl⟩)) .read) (.inl rfl) (.entering rfl))
    (.inl rfl) (.entering rfl)) (.inl rfl) (.entering rfl)
  have takes := reads.step (.wait (i := 0) (e := .api) rfl rfl (.inl rfl) fun _ => rfl)
  have marks := go (go (go (go takes (.inr (.inr ⟨rfl, rfl⟩)) (.upgrade rfl))
    (.inl rfl) (.upgrading rfl (by decide) (by decide)))
    (.inl rfl) (.upgrading rfl (by decide) (by decide)))
    (.inl rfl) (.upgrading rfl (by decide) (by decide))
  have writes := go (go (go marks (.inl rfl) (.upgrading rfl (by decide) (by decide)))
    (.inl rfl) .prep) (.inl rfl) .write
  obtain ⟨-, -, -, halone, hraised, -⟩ := writer_is_alone writes
  refine ⟨n, _, writes, rfl, (halone 0 1 rfl (by decide)).2, fun hup => ?_⟩
  obtain ⟨i, hpc⟩ := hraised.mp hup
  fin_cases i <;> cases hpc

end Workers
