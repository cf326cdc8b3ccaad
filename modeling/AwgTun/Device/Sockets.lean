import AwgTun.Device.Startup

/-!
# Changing the port

`open_listen_socket` in the calls it makes to the operating system: each of them may fail, and the
first one that does ends it.  The sockets of the device are closed before the first call, and
nothing puts them back.

* `SocketOs` — what the operating system answers.
* `Listener.openListenSocket` — the whole function; `Listener.openListenSocket_handle` says that
  what it does to the sockets and the queue is what `DeviceHandle.openListenSocket` does.
* `Listener.listen_port_all_or_nothing_iff` — when a refused port leaves the device as it was.
-/

open Control

/-- The families of the two sockets. -/
inductive Family
  | v4
  | v6
  deriving DecidableEq, Repr

/-- An error of the operating system. -/
abbrev OsError := Int

/-- The answers to the calls of `open_listen_socket`. -/
structure SocketOs where
  socket : Family → Except OsError Fd
  setReuseAddress : Family → Except OsError Unit
  bind : Family → UInt16 → Except OsError Unit
  setNonblocking : Family → Except OsError Unit
  /-- The port of `local_addr`, which is asked for only where the port was left open. -/
  localPort : Except OsError UInt16
  tryClone : Family → Except OsError Fd
  newEvent : Family → Except OsError Unit

namespace SocketOs

variable {os : SocketOs} {port : UInt16}

/-- A socket of one family, bound to a port. -/
def makeSocket (os : SocketOs) (family : Family) (port : UInt16) : Except OsError Fd := do
  let sock ← os.socket family
  os.setReuseAddress family
  os.bind family port
  os.setNonblocking family
  return sock

/-- The port that the first socket is bound to, which is a random one for port 0. -/
def boundPort (os : SocketOs) (port : UInt16) : Except OsError UInt16 :=
  if port = 0 then os.localPort else .ok port

/-- Both sockets, and the port that they are bound to. -/
def makeSockets (os : SocketOs) (port : UInt16) : Except OsError (Fd × Fd × UInt16) := do
  let sock4 ← os.makeSocket .v4 port
  let port ← os.boundPort port
  let sock6 ← os.makeSocket .v6 port
  return (sock4, sock6, port)

/-- How far the operating system lets `open_listen_socket` go. -/
def opening (os : SocketOs) (port : UInt16) : Opening :=
  match os.makeSockets port, os.tryClone .v4, os.newEvent .v4 with
  | .ok (sock4, sock6, _), .ok clone4, .ok () =>
    match os.tryClone .v6, os.newEvent .v6 with
    | .ok clone6, .ok () => .opened sock4 sock6 clone4 clone6
    | _, _ => .half clone4
  | _, _, _ => .refused

/-- The calls for a socket succeed. -/
structure Makes (os : SocketOs) (family : Family) (port : UInt16) : Prop where
  socket : ∃ fd, os.socket family = .ok fd
  reuse : os.setReuseAddress family = .ok ()
  bound : os.bind family port = .ok ()
  nonblocking : os.setNonblocking family = .ok ()

/-- The calls for both sockets succeed, and the second is bound to the port of the first. -/
structure MakesBoth (os : SocketOs) (port used : UInt16) : Prop where
  v4 : os.Makes .v4 port
  port : os.boundPort port = .ok used
  v6 : os.Makes .v6 used

/-- The socket is cloned, and the handler registered. -/
def Registers (os : SocketOs) (family : Family) : Prop :=
  (∃ fd, os.tryClone family = .ok fd) ∧ os.newEvent family = .ok ()

/-- The socket is cloned, and the handler not registered. -/
def Rejects (os : SocketOs) (family : Family) : Prop :=
  (∃ fd, os.tryClone family = .ok fd) ∧ ∃ err, os.newEvent family = .error err

/-- A call fails, and `open_listen_socket` returns its error.  It does not do so for a socket that
cannot be cloned: there it panics. -/
def Refuses (os : SocketOs) (port : UInt16) : Prop :=
  (¬ ∃ used, os.MakesBoth port used) ∨ os.Rejects .v4 ∨ (os.Registers .v4 ∧ os.Rejects .v6)

theorem makeSocket_eq_ok_iff {family : Family} :
    (∃ fd, os.makeSocket family port = .ok fd) ↔ os.Makes family port := by
  constructor
  · rintro ⟨fd, h⟩
    obtain ⟨sock, hsock, h⟩ := bind_eq_ok.mp h
    obtain ⟨hreuse, h⟩ := check_bind_eq_ok.mp h
    obtain ⟨hbound, h⟩ := check_bind_eq_ok.mp h
    obtain ⟨hnonblocking, h⟩ := check_bind_eq_ok.mp h
    exact ⟨⟨sock, hsock⟩, hreuse, hbound, hnonblocking⟩
  · rintro ⟨⟨fd, hsock⟩, hreuse, hbound, hnonblocking⟩
    refine ⟨fd, ?_⟩
    rw [makeSocket, hsock, hreuse, hbound, hnonblocking]
    rfl

theorem makeSockets_eq_ok_iff :
    (∃ made, os.makeSockets port = .ok made) ↔ ∃ used, os.MakesBoth port used := by
  constructor
  · rintro ⟨made, h⟩
    obtain ⟨sock4, h4, h⟩ := bind_eq_ok.mp h
    obtain ⟨used, hused, h⟩ := bind_eq_ok.mp h
    obtain ⟨sock6, h6, h⟩ := bind_eq_ok.mp h
    exact ⟨used, makeSocket_eq_ok_iff.mp ⟨sock4, h4⟩, hused, makeSocket_eq_ok_iff.mp ⟨sock6, h6⟩⟩
  · rintro ⟨used, h4, hused, h6⟩
    obtain ⟨sock4, h4⟩ := makeSocket_eq_ok_iff.mpr h4
    obtain ⟨sock6, h6⟩ := makeSocket_eq_ok_iff.mpr h6
    refine ⟨(sock4, sock6, used), ?_⟩
    rw [makeSockets, h4, ok_bind, hused, ok_bind, h6]
    rfl

end SocketOs

/-- A device with its sockets, and the port they are bound to. -/
structure Listener [IpTable] (C : Crypto) where
  handle : DeviceHandle C
  listenPort : UInt16

namespace Listener

variable [IpTable] {C : Crypto} {l l' : Listener C}

/-- The front of `open_listen_socket`: the sockets are taken out of the device and dropped. -/
def closeSockets (l : Listener C) : Listener C :=
  { l with handle :=
    { device := l.handle.device.openListenSocket
      udp4 := none
      udp6 := none
      udpHandlers :=
        DeviceHandle.clearEvent l.handle.udp6
          (DeviceHandle.clearEvent l.handle.udp4 l.handle.udpHandlers) } }

/-- A handler is in the queue, under the descriptor of its socket. -/
def withHandler (l : Listener C) (fd : Fd) : Listener C :=
  { l with handle := { l.handle with udpHandlers := fd :: l.handle.udpHandlers } }

/-- `register_udp_handler(sock.try_clone().unwrap())`. -/
def registerUdpHandler (l : Listener C) (os : SocketOs) (family : Family) :
    Outcome (Except OsError Unit) × Listener C :=
  match os.tryClone family with
  | .error _ => (.panic "called Result::unwrap() on an Err value", l)
  | .ok clone =>
    match os.newEvent family with
    | .error err => (.ok (.error err), l)
    | .ok () => (.ok (.ok ()), l.withHandler clone)

/-- The `?` behind a call. -/
def andThen (x : Outcome (Except OsError Unit) × Listener C)
    (next : Listener C → Outcome (Except OsError Unit) × Listener C) :
    Outcome (Except OsError Unit) × Listener C :=
  match x with
  | (.ok (.ok ()), l) => next l
  | stopped => stopped

section AndThen

variable (next : Listener C → Outcome (Except OsError Unit) × Listener C)

@[simp] theorem andThen_ok (l : Listener C) : andThen (.ok (.ok ()), l) next = next l := rfl

@[simp] theorem andThen_error (err : OsError) (l : Listener C) :
    andThen (.ok (.error err), l) next = (.ok (.error err), l) := rfl

@[simp] theorem andThen_panic (message : String) (l : Listener C) :
    andThen (.panic message, l) next = (.panic message, l) := rfl

end AndThen

/-- `Device::open_listen_socket`. -/
def openListenSocket (l : Listener C) (os : SocketOs) (port : UInt16) :
    Outcome (Except OsError Unit) × Listener C :=
  let l := l.closeSockets
  match os.makeSockets port with
  | .error err => (.ok (.error err), l)
  | .ok (sock4, sock6, port) =>
    andThen (l.registerUdpHandler os .v4) fun l =>
      andThen (l.registerUdpHandler os .v6) fun l =>
        (.ok (.ok ()), { l with
          handle := { l.handle with udp4 := some sock4, udp6 := some sock6 }, listenPort := port })

/-- The front of the handler of `register_iface_handler`: the sockets it sends on. -/
def ifaceSockets (l : Listener C) : Outcome (Fd × Fd) :=
  match l.handle.udp4 with
  | none => .panic "Not connected"
  | some udp4 =>
    match l.handle.udp6 with
    | none => .panic "Not connected"
    | some udp6 => .ok (udp4, udp6)

/-! ## How it ends -/

theorem registerUdpHandler_cases (l : Listener C) (os : SocketOs) (family : Family) :
    (∃ clone, os.tryClone family = .ok clone ∧ os.newEvent family = .ok () ∧
        l.registerUdpHandler os family = (.ok (.ok ()), l.withHandler clone)) ∨
      (os.Rejects family ∧ ∃ err, l.registerUdpHandler os family = (.ok (.error err), l)) ∨
      (¬ (∃ fd, os.tryClone family = .ok fd) ∧
        ∃ message, l.registerUdpHandler os family = (.panic message, l)) := by
  unfold registerUdpHandler
  cases hclone : os.tryClone family with
  | error err => exact .inr (.inr ⟨nofun, _, rfl⟩)
  | ok clone =>
    cases hevent : os.newEvent family with
    | error err => exact .inr (.inl ⟨⟨⟨clone, hclone⟩, err, hevent⟩, err, rfl⟩)
    | ok _ => exact .inl ⟨clone, rfl, rfl, rfl⟩

/-- What is left of a device whose port was refused. -/
structure Closed (l l' : Listener C) : Prop where
  udp4 : l'.handle.udp4 = none
  udp6 : l'.handle.udp6 = none
  listenPort : l'.listenPort = l.listenPort
  handlers : l.closeSockets.handle.udpHandlers ⊆ l'.handle.udpHandlers

/-- **How `open_listen_socket` ends**: refused, with the sockets closed; in a panic; or with both
sockets open. -/
theorem openListenSocket_cases (l : Listener C) (os : SocketOs) (port : UInt16) :
    (os.Refuses port ∧ ∃ err l', l.openListenSocket os port =
      (.ok (.error err), l') ∧ l.Closed l') ∨
      (¬ os.Refuses port ∧ ∃ message l', l.openListenSocket os port = (.panic message, l')) ∨
      (¬ os.Refuses port ∧ ∃ l', l.openListenSocket os port = (.ok (.ok ()), l') ∧
        l'.handle.udp4.isSome ∧ l'.handle.udp6.isSome) := by
  have hclosed : l.Closed l.closeSockets := ⟨rfl, rfl, rfl, fun _ => id⟩
  cases hmade : os.makeSockets port with
  | error err =>
    refine .inl ⟨.inl ?_, err, l.closeSockets, ?_, hclosed⟩
    · rw [← SocketOs.makeSockets_eq_ok_iff, hmade]
      rintro ⟨made, ⟨⟩⟩
    · rw [openListenSocket, hmade]
  | ok made =>
    obtain ⟨sock4, sock6, used⟩ := made
    have hboth : ∃ used, os.MakesBoth port used := SocketOs.makeSockets_eq_ok_iff.mp ⟨_, hmade⟩
    have hrefuses : os.Refuses port ↔ os.Rejects .v4 ∨ (os.Registers .v4 ∧ os.Rejects .v6) :=
      or_iff_right (not_not.mpr hboth)
    simp only [openListenSocket, hmade, hrefuses]
    rcases l.closeSockets.registerUdpHandler_cases os .v4 with
      ⟨clone4, hclone4, hevent4, h4⟩ | ⟨hrejects, err, h4⟩ | ⟨hclone4, message, h4⟩
    · have hregisters : os.Registers .v4 := ⟨⟨clone4, hclone4⟩, hevent4⟩
      have hnot4 : ¬ os.Rejects .v4 := by
        rintro ⟨-, err, herr⟩
        rw [hevent4] at herr
        cases herr
      rw [h4]
      rcases (l.closeSockets.withHandler clone4).registerUdpHandler_cases os .v6 with
        ⟨clone6, hclone6, hevent6, h6⟩ | ⟨hrejects, err, h6⟩ | ⟨hclone6, message, h6⟩
      · refine .inr (.inr ⟨?_, _, by rw [andThen_ok, h6, andThen_ok], rfl, rfl⟩)
        rintro (h | ⟨-, -, err, herr⟩)
        · exact hnot4 h
        · rw [hevent6] at herr
          cases herr
      · -- the first handler stays in the queue
        have hclosed4 : l.Closed (l.closeSockets.withHandler clone4) :=
          ⟨rfl, rfl, rfl, fun fd hfd => List.mem_cons_of_mem _ hfd⟩
        exact .inl ⟨.inr ⟨hregisters, hrejects⟩, err, _, by rw [andThen_ok, h6, andThen_error],
          hclosed4⟩
      · refine .inr (.inl ⟨?_, message, _, by rw [andThen_ok, h6, andThen_panic]⟩)
        rintro (h | ⟨-, hclones, -⟩)
        · exact hnot4 h
        · exact hclone6 hclones
    · exact .inl ⟨.inl hrejects, err, l.closeSockets, by rw [h4, andThen_error], hclosed⟩
    · refine .inr (.inl ⟨?_, message, l.closeSockets, by rw [h4, andThen_panic]⟩)
      rintro (⟨hclones, -⟩ | ⟨⟨hclones, -⟩, -⟩)
      · exact hclone4 hclones
      · exact hclone4 hclones

/-- What it does to the sockets and the queue. -/
theorem openListenSocket_handle (l : Listener C) (os : SocketOs) (port : UInt16) :
    (l.openListenSocket os port).2.handle = (l.handle.openListenSocket (os.opening port)).2 := by
  simp only [openListenSocket, SocketOs.opening, registerUdpHandler]
  cases os.makeSockets port with
  | error err => rfl
  | ok made =>
    cases os.tryClone .v4 with
    | error err => rfl
    | ok clone4 =>
      cases os.newEvent .v4 with
      | error err => rfl
      | ok _ =>
        cases os.tryClone .v6 with
        | error err => rfl
        | ok clone6 => cases os.newEvent .v6 <;> rfl

/-! ## All or nothing -/

/-- The device has the sockets and the port that it had, and what was registered still is. -/
structure Keeps (l l' : Listener C) : Prop where
  udp4 : l'.handle.udp4 = l.handle.udp4
  udp6 : l'.handle.udp6 = l.handle.udp6
  listenPort : l'.listenPort = l.listenPort
  handlers : l.handle.udpHandlers ⊆ l'.handle.udpHandlers

/-- A port that is refused changes nothing. -/
def AllOrNothing (l : Listener C) (os : SocketOs) (port : UInt16) : Prop :=
  ∀ err l', l.openListenSocket os port = (.ok (.error err), l') → l.Keeps l'

/-- The operating system does not refuse the port, or there is no socket to lose. -/
def Safe (l : Listener C) (os : SocketOs) (port : UInt16) : Prop :=
  ¬ os.Refuses port ∨ (l.handle.udp4 = none ∧ l.handle.udp6 = none)

/-- Both sockets are open. -/
def HasBoth (l : Listener C) : Prop := l.handle.udp4.isSome ∧ l.handle.udp6.isSome

theorem allOrNothing_iff (l : Listener C) (os : SocketOs) (port : UInt16) :
    l.AllOrNothing os port ↔ l.Safe os port := by
  rcases l.openListenSocket_cases os port with
    ⟨hrefuses, err, l', hopen, hclosed⟩ | ⟨hrefuses, message, l', hopen⟩ | ⟨hrefuses, l', hopen, -⟩
  · constructor
    · intro h
      have hkeeps := h err l' hopen
      exact .inr ⟨hkeeps.udp4.symm.trans hclosed.udp4, hkeeps.udp6.symm.trans hclosed.udp6⟩
    · rintro (hsafe | ⟨h4, h6⟩) err' l'' hopen'
      · exact absurd hrefuses hsafe
      · rw [hopen] at hopen'
        cases hopen'
        refine ⟨hclosed.udp4.trans h4.symm, hclosed.udp6.trans h6.symm, hclosed.listenPort, ?_⟩
        -- with no socket there is no event to clear
        have hsame : l.closeSockets.handle.udpHandlers = l.handle.udpHandlers := by
          simp only [closeSockets, h4, h6]
          rfl
        exact hsame ▸ hclosed.handlers
  · refine iff_of_true ?_ (.inl hrefuses)
    intro err l'' hopen'
    rw [hopen] at hopen'
    cases hopen'
  · refine iff_of_true ?_ (.inl hrefuses)
    intro err l'' hopen'
    rw [hopen] at hopen'
    cases hopen'

/-! ## Runs -/

/-- A command that comes back; those that set a port meet a condition. -/
inductive Step (ε : Type) [Env ε] (meets : Listener C → SocketOs → UInt16 → Prop) :
    Listener C → Listener C → Prop
  | listenPort {l l' : Listener C} {os : SocketOs} {port : UInt16} {result : Except OsError Unit}
      (hmeets : meets l os port) (h : l.openListenSocket os port = (.ok result, l')) :
        Step ε meets l l'
  | command {l : Listener C} (command : Command) (hcommand : ∀ o, command ≠ .listenPort o) (e : ε) :
      Step ε meets l { l with handle := l.handle.execute command e }

variable {ε : Type} [Env ε]

/-- **One command** leaves both sockets open. -/
theorem HasBoth.step (h : l.HasBoth) (hstep : Step ε Safe l l') : l'.HasBoth := by
  cases hstep with
  | @listenPort _ os port result hmeets hopen =>
    have hrefuses : ¬ os.Refuses port := by
      refine hmeets.resolve_right ?_
      rintro ⟨hnone, -⟩
      have hsome := h.1
      rw [hnone] at hsome
      cases hsome
    rcases l.openListenSocket_cases os port with
      ⟨hno, -⟩ | ⟨-, message, l'', hopen'⟩ | ⟨-, l'', hopen', hboth⟩
    · exact absurd hno hrefuses
    · rw [hopen] at hopen'
      cases hopen'
    · rw [hopen] at hopen'
      cases hopen'
      exact hboth
  | command command hcommand e =>
    cases command with
    | listenPort o => exact absurd rfl (hcommand o)
    | _ => exact h

theorem HasBoth.ifaceSockets (h : l.HasBoth) : l.ifaceSockets.Returns := by
  obtain ⟨udp4, h4⟩ := Option.isSome_iff_exists.mp h.1
  obtain ⟨udp6, h6⟩ := Option.isSome_iff_exists.mp h.2
  exact ⟨(udp4, udp6), by rw [Listener.ifaceSockets, h4, h6]⟩

/-- **When a refused port leaves a device as it was**: for every device, port and answers of the
operating system, exactly if no call is refused or there is no socket open.  In every run whose
ports are like this, a device whose sockets were open has both, and the handler of the interface
finds them. -/
theorem listen_port_all_or_nothing_iff :
    (∀ (l : Listener C) (os : SocketOs) (port : UInt16),
        l.AllOrNothing os port ↔ l.Safe os port) ∧
      ∀ l l' : Listener C, l.HasBoth → Relation.ReflTransGen (Step ε Safe) l l' →
        l'.HasBoth ∧ l'.ifaceSockets.Returns := by
  refine ⟨allOrNothing_iff, ?_⟩
  intro l l' hboth hrun
  have hend : l'.HasBoth := by
    induction hrun with
    | refl => exact hboth
    | tail _ hstep ih => exact ih.step hstep
  exact ⟨hend, hend.ifaceSockets⟩

/-- An operating system that opens every port. -/
def openOs : SocketOs where
  socket family := .ok (if family = .v4 then 11 else 12)
  setReuseAddress _ := .ok ()
  bind _ _ := .ok ()
  setNonblocking _ := .ok ()
  localPort := .ok 40000
  tryClone family := .ok (if family = .v4 then 13 else 14)
  newEvent _ := .ok ()

/-- One on which a port is taken. -/
def takenOs : SocketOs := { openOs with bind := fun _ _ => .error 98 }

end Listener

namespace Listener

/-- A new device, with its sockets. -/
def freshListener : Listener Crypto.transparent := ⟨DeviceHandle.freshHandle, 51820⟩

/-- A new port is opened, and the handler of the interface has its sockets. -/
theorem listen_port_all_or_nothing_iff_opened :
    ∃ l' : Listener Crypto.transparent, freshListener.openListenSocket openOs 53 =
      (.ok (.ok ()), l') ∧
      l'.ifaceSockets.Returns := by
  have hsafe : freshListener.Safe openOs 53 := by
    refine .inl ?_
    rintro (h | ⟨-, err, ⟨⟩⟩ | ⟨-, -, err, ⟨⟩⟩)
    exact h ⟨53, ⟨⟨_, rfl⟩, rfl, rfl, rfl⟩, rfl, ⟨⟨_, rfl⟩, rfl, rfl, rfl⟩⟩
  refine ⟨_, rfl, ?_⟩
  exact ((listen_port_all_or_nothing_iff (ε := StillMachine)).2 freshListener _ ⟨rfl, rfl⟩
    (.single (.listenPort hsafe rfl))).2

/-- **A port that is taken closes the sockets.**  The command is refused, and the next packet from
the interface finds no socket to send on. -/
theorem refused_port_closes_sockets :
    freshListener.ifaceSockets = .ok (7, 8) ∧
      ∃ l' : Listener Crypto.transparent,
        freshListener.openListenSocket takenOs 53 = (.ok (.error 98), l') ∧
        ¬ freshListener.Keeps l' ∧ l'.handle.udp4 = none ∧ l'.handle.udp6 = none ∧
        l'.ifaceSockets = .panic "Not connected" := by
  refine ⟨rfl, _, rfl, ?_, rfl, rfl, rfl⟩
  intro hkeeps
  cases hkeeps.udp4

end Listener
