import AwgTun.Device.Upgrade
import AwgTun.Device.Request

/-!
# A request that freezes the device

`api_set` runs under the write lock, inside `try_writeable`.  A panic there unwinds past the lines
that lower the flag: the write lock is given up and the guard dropped, but `wants_write` stays
true, and nobody is left to lower it.

* `LockState.Ends` — how an upgrade ends, by what becomes of `mut_func`.
* `LockState.ends_usable_iff` — the lock can be used afterwards exactly if `mut_func` came back.
* `LockState.Frozen` — otherwise nobody gets a guard again.
* `Api.request_keeps_lock_iff` — which requests leave the lock usable.
* `Api.request_freezes_lock` — a request that does not.
-/

open Control Filter Actors

namespace LockState

variable {ι : Type} [DecidableEq ι] [Fintype ι] {s s' : LockState ι} {i : ι} {α : Type}

/-- Some steps of the threads. -/
def Reaches : LockState ι → LockState ι → Prop := Relation.ReflTransGen fun s s' => ∃ i, s.Step i s'

theorem Reaches.sound (h : Reaches s s') (hs : s.Sound) : s'.Sound := by
  induction h with
  | refl => exact hs
  | tail _ hstep ih =>
    obtain ⟨i, hstep⟩ := hstep
    exact ih.step hstep

/-- How `try_writeable` ends for a thread that is in `mut_func`.  A panic gives up the write lock,
takes the read lock again and drops it with the guard. -/
inductive Ends (s : LockState ι) (i : ι) : Outcome α → LockState ι → Prop
  | returned {a : α} {s' : LockState ι} (hreach : Reaches s s') (hdone : s'.pc i = .done) :
      Ends s i (.ok a) (s'.finish i)
  | unwound {p : Panic} : Ends s i (.error p) (s.goto i .idle)

/-- The flag is down, and in every fair run from here `read` and `try_writeable` return, unless
upgrades are begun forever. -/
def Usable (s : LockState ι) : Prop :=
  s.wantsWrite = false ∧
    ∀ r : Run (Step (ι := ι)), r.state 0 = s → r.Fair Ready →
      (∀ᶠ n in atTop, ∀ i, ¬Begins r n i) →
        (∀ n i, ((r.state n).pc i).upgrading = true →
          ∃ m, n ≤ m ∧ r.actor m = some i ∧ (r.state m).pc i = .done) ∧
        (∀ n i, ((r.state n).pc i).entering = true → ∃ m, n ≤ m ∧ (r.state m).pc i = .reading)

theorem Sound.usable (hs : s.Sound) (hflag : s.wantsWrite = false) : s.Usable := by
  refine ⟨hflag, fun r hstart hfair hbegun => ?_⟩
  have hsound : (r.state 0).Sound := hstart ▸ hs
  obtain ⟨n₀, hn₀⟩ := eventually_atTop.mp hbegun
  have hnone (m : ℕ) (i : ι) (hm : n₀ ≤ m) : ¬Begins r m i := hn₀ m hm i
  exact ⟨fun n i hup => upgrade_returns hsound hfair hnone hup,
    fun n i henter => read_returns hsound hfair hnone henter⟩

omit [DecidableEq ι] [Fintype ι] in
/-- The flag is up while a thread writes. -/
theorem Sound.flag_of_writing (hs : s.Sound) (hi : s.pc i = .writing) : s.wantsWrite = true :=
  hs.flag.mpr ⟨i, by rw [hi]; rfl⟩

/-- **The lock can be used afterwards exactly if `mut_func` came back.** -/
theorem ends_usable_iff (hs : s.Sound) (hi : s.pc i = .writing) (result : Outcome α) :
    (∀ s', s.Ends i result s' → s'.Usable) ↔ result.Returns := by
  cases result with
  | error p =>
    refine iff_of_false (fun h => ?_) (Outcome.not_returns_error p)
    have hdown := (h _ .unwound).1
    have hup : (s.goto i .idle).wantsWrite = true := hs.flag_of_writing hi
    rw [hup] at hdown
    cases hdown
  | ok a =>
    refine iff_of_true ?_ ⟨a, rfl⟩
    rintro _ ⟨hreach, hdone⟩
    exact ((hreach.sound hs).finish hdone).usable rfl

/-! ## A flag that nobody lowers -/

/-- The flag is up, no thread is there to lower it, and none has looked at it before. -/
structure Frozen (s : LockState ι) : Prop where
  flag : s.wantsWrite = true
  marked : ∀ i, (s.pc i).marked = false
  inner : ∀ i, s.pc i ≠ .readInner

omit [Fintype ι] in
theorem Sound.frozen (hs : s.Sound) (hi : s.pc i = .writing) : (s.goto i .idle).Frozen where
  flag := hs.flag_of_writing hi
  marked := by
    intro j
    by_cases hj : j = i
    · rw [hj, goto_self]
      rfl
    · rw [goto_other s _ hj]
      exact hs.eq_of_marked (by rw [hi]; rfl) hj
  inner := by
    intro j hinner
    by_cases hj : j = i
    · rw [hj, goto_self] at hinner
      cases hinner
    · rw [goto_other s _ hj] at hinner
      have hdown := hs.inner j hinner
      rw [hs.flag_of_writing hi] at hdown
      cases hdown

/-- A step moves a thread, and not to a guard. -/
theorem Frozen.step (h : s.Frozen) (hstep : s.Step i s') :
    s'.Frozen ∧ ∀ j, s'.pc j = .reading → s.pc j = .reading := by
  rcases step_cases hstep with ⟨pc, hmoves, rfl⟩ | ⟨-, hdown, -⟩ | ⟨hdone, -⟩
  · have hpc : pc.marked = false ∧ pc ≠ .readInner ∧ pc ≠ .reading := by
      have hmarked := hmoves.marked.trans (h.marked i)
      have hinner := h.inner i
      generalize s.pc i = old at hmoves hinner
      cases hmoves with
      | readGo hdown =>
        rw [h.flag] at hdown
        cases hdown
      | read => exact absurd rfl hinner
      | _ => exact ⟨hmarked, nofun, nofun⟩
    have hother (P : Pc → Prop) (hP : P pc) (hold : ∀ j, P (s.pc j)) (j : ι) :
        P ((s.goto i pc).pc j) := by
      by_cases hj : j = i
      · rw [hj, goto_self]
        exact hP
      · rw [goto_other s pc hj]
        exact hold j
    refine ⟨⟨h.flag, hother (fun pc => pc.marked = false) hpc.1 h.marked,
      hother (· ≠ .readInner) hpc.2.1 h.inner⟩, fun j hreading => ?_⟩
    by_cases hj : j = i
    · rw [hj, goto_self] at hreading
      exact absurd hreading hpc.2.2
    · rwa [goto_other s pc hj] at hreading
  · rw [h.flag] at hdown
    cases hdown
  · have hmarked := h.marked i
    rw [hdone] at hmarked
    cases hmarked

/-- **No guard is handed out again.** -/
theorem Frozen.run (h : s.Frozen) (hguard : ∀ j, s.pc j ≠ .reading) (r : Run (Step (ι := ι)))
    (hstart : r.state 0 = s) (n : ℕ) :
    (r.state n).wantsWrite = true ∧ ∀ j, (r.state n).pc j ≠ .reading := by
  have hkept := Run.keeps (r := r) (P := fun s => s.Frozen ∧ ∀ j, s.pc j ≠ .reading)
    (hstart ▸ ⟨h, hguard⟩) (fun s i s' hs hstep => by
      obtain ⟨hfrozen, hreading⟩ := hs.1.step hstep
      exact ⟨hfrozen, fun j hj => hs.2 j (hreading j hj)⟩) n
  exact ⟨hkept.1.flag, hkept.2⟩

end LockState

namespace Api

open Text LockState

variable [IpTable] {C : Crypto} {ε : Type} [Env ε] {ι : Type} [DecidableEq ι] [Fintype ι]

/-- **Which requests leave the device usable.**  In every reachable state of the device and of its
lock, the lock can be used after `api_set` exactly if the request is harmless. -/
theorem request_keeps_lock_iff {mtu : Nat} {nextIndex : IndexLfsr} {useConnectedSocket : Bool}
    {loop : EventLoop C} (hrun : EventLoop.ParsedRun ε (.new mtu nextIndex useConnectedSocket) loop)
    {s : LockState ι} (hlock : Reaches new s) {i : ι} (hi : s.pc i = .writing) (os : SysCalls)
    (text : Text) (broken : Bool) (e : ε) :
    (∀ s', s.Ends i (apiSet os ⟨splitInclusive text, broken⟩ loop.device e).1 s' → s'.Usable) ↔
      Harmless os broken loop.device.amnezia (splitInclusive text) 0 []
        (Ledger.of loop.device) := by
  have hregular : loop.device.Regular := hrun.regular (Device.regular_new mtu nextIndex)
  rw [ends_usable_iff (hlock.sound sound_new) hi, apiSet_returns_iff hregular]

/-- A request that is refused at its second line. -/
def refusedRequest : Text := "replace_peers=true\nbad\n".toList

end Api

namespace Api

open Text LockState

theorem request_keeps_lock_iff_refused :
    Harmless quietSystem false .default (splitInclusive refusedRequest) 0 []
      (Ledger.of Device.bareDevice) := by
  have hlock : Reaches new (oneUpgradeRun.state 19) := oneUpgradeRun.reaches 19
  have hi : (oneUpgradeRun.state 19).pc 0 = .writing := by decide +kernel
  have hrun : EventLoop.ParsedRun StillMachine
      (.new 1420 ⟨1, 1, 1⟩ true : EventLoop Crypto.transparent) (.new 1420 ⟨1, 1, 1⟩ true) := .refl
  have hreturns : (apiSet quietSystem ⟨splitInclusive refusedRequest, false⟩ Device.bareDevice
      ({} : StillMachine)).1 = .ok eproto := by decide +kernel
  refine (request_keeps_lock_iff hrun hlock hi quietSystem refusedRequest false
    ({} : StillMachine)).mp ?_
  exact (ends_usable_iff (hlock.sound sound_new) hi _).mpr ⟨eproto, hreturns⟩

/-- A request for a peer, to a device that has no private key yet. -/
def keylessRequest : Text := "public_key=".toList ++ List.replicate 64 '0' ++ "\n\n".toList

/-- **A request that freezes the device.**  The peer is refused by a panic.  One thread was in
`api_set`, the other waits for its own upgrade: the flag stays up, and neither gets a guard
again. -/
theorem request_freezes_lock :
    (apiSet quietSystem (.ofText keylessRequest) Device.bareDevice ({} : StillMachine)).1 =
        .panic "Private key must be set first" ∧
      Reaches new (twoUpgradesRun.state 19) ∧ (twoUpgradesRun.state 19).pc 0 = .writing ∧
      (twoUpgradesRun.state 19).Ends 0
        (apiSet quietSystem (.ofText keylessRequest) Device.bareDevice ({} : StillMachine)).1
        ((twoUpgradesRun.state 19).goto 0 .idle) ∧
      ∀ r : Run (Step (ι := Fin 2)), r.state 0 = (twoUpgradesRun.state 19).goto 0 .idle →
        ∀ n, (r.state n).wantsWrite = true ∧ ∀ j, (r.state n).pc j ≠ .reading := by
  have hlock : Reaches new (twoUpgradesRun.state 19) := twoUpgradesRun.reaches 19
  have hi : (twoUpgradesRun.state 19).pc 0 = .writing := by decide +kernel
  have hpanics : (apiSet quietSystem (.ofText keylessRequest) Device.bareDevice
      ({} : StillMachine)).1 = .panic "Private key must be set first" := by decide +kernel
  have hguard : ∀ j, ((twoUpgradesRun.state 19).goto 0 .idle).pc j ≠ .reading := by decide +kernel
  refine ⟨hpanics, hlock, hi, ?_, ((hlock.sound sound_new).frozen hi).run hguard⟩
  rw [hpanics]
  exact .unwound

end Api
