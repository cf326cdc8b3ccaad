import AwgTun.Device.Changes

/-!
# The sockets of a device

`DeviceHandle::new` opens the two anonymous sockets of a device before any key is configured, and
the handler that is registered for them expects one.

The event queue finds a handler by the descriptor of its socket.  A handler owns a clone of the
socket, with a descriptor of its own, while `open_listen_socket` removes handlers by the
descriptors of the originals: the handlers it has registered stay.

* `DeviceHandle.openListenSocket` — the sockets and the queue, as far as the operating system lets
  it go.
* `DeviceHandle.Configured` — the devices that sequences of configuration commands lead to.
* `DeviceHandle.handlers_have_key_iff` — in these, a registered handler finds its key exactly if a
  private key was among the commands.
-/

open Control

/-- A file descriptor. -/
abbrev Fd := Nat

/-- How far the operating system lets `open_listen_socket` go. -/
inductive Opening
  /-- A socket cannot be made or bound, or the first handler is not registered. -/
  | refused
  /-- The first handler is registered, under this descriptor, and the second is not. -/
  | half (clone4 : Fd)
  /-- Both sockets are open, and the handlers registered under the descriptors of their clones. -/
  | opened (sock4 sock6 clone4 clone6 : Fd)
  deriving DecidableEq, Repr

/-- A descriptor that the operating system hands out is not one that is open. -/
def Opening.Fresh (taken : List Fd) : Opening → Prop
  | refused => True
  | half clone4 => clone4 ∉ taken
  | opened sock4 sock6 clone4 clone6 => (sock4 :: sock6 :: clone4 :: clone6 :: taken).Nodup

instance (taken : List Fd) : (opening : Opening) → Decidable (opening.Fresh taken)
  | .refused => inferInstanceAs (Decidable True)
  | .half clone4 => inferInstanceAs (Decidable (clone4 ∉ taken))
  | .opened sock4 sock6 clone4 clone6 =>
      inferInstanceAs (Decidable (sock4 :: sock6 :: clone4 :: clone6 :: taken).Nodup)

/-- A device with its anonymous sockets. -/
structure DeviceHandle [IpTable] (C : Crypto) where
  device : Device C
  udp4 : Option Fd
  udp6 : Option Fd
  /-- The descriptors under which a handler of `register_udp_handler` is in the event queue.  Each
  is open, since the handler owns it. -/
  udpHandlers : List Fd

/-- The commands of the configuration protocol, as `api_set` executes them. -/
inductive Command
  | privateKey (key : Key)
  | listenPort (opening : Opening)
  | fwmark (mark : UInt32)
  | replacePeers
  /-- `apply_amnezia_block`, with the configuration it has read. -/
  | amnezia (config : Amnezia3Config)
  /-- `api_set_peer`, where a section ends. -/
  | peer (update : PeerUpdate)

namespace DeviceHandle

variable [IpTable] {C : Crypto} {ε : Type} [Env ε] {s s' : DeviceHandle C}
  {commands : List Command} {command : Command} {opening : Opening}

/-- `clear_event_by_fd`, for a socket that is closed. -/
def clearEvent (sock : Option Fd) (handlers : List Fd) : List Fd :=
  match sock with
  | some fd => handlers.erase fd
  | none => handlers

/-- `open_listen_socket`: whether it succeeds, and what it leaves. -/
def openListenSocket (s : DeviceHandle C) (opening : Opening) : Bool × DeviceHandle C :=
  let udpHandlers := clearEvent s.udp6 (clearEvent s.udp4 s.udpHandlers)
  let s : DeviceHandle C := ⟨s.device.openListenSocket, none, none, udpHandlers⟩
  match opening with
  | .refused => (false, s)
  | .half clone4 => (false, { s with udpHandlers := clone4 :: udpHandlers })
  | .opened sock4 sock6 clone4 clone6 =>
      (true, { s with
        udp4 := some sock4, udp6 := some sock6, udpHandlers := clone6 :: clone4 :: udpHandlers })

/-- `Device::new`. -/
def bare (mtu : Nat) (nextIndex : IndexLfsr) : DeviceHandle C :=
    ⟨.new mtu nextIndex, none, none, []⟩

/-- `DeviceHandle::new`: it fails where the sockets cannot be opened. -/
def new (mtu : Nat) (nextIndex : IndexLfsr) (opening : Opening) : Option (DeviceHandle C) :=
  let (opened, s) := (bare mtu nextIndex).openListenSocket opening
  if opened then some s else none

/-- What a command does.  A mark is set on sockets only. -/
def execute (s : DeviceHandle C) (command : Command) (e : ε) : DeviceHandle C :=
  match command with
  | .privateKey key => { s with device := (s.device.setKey key e).1 }
  | .listenPort opening => (s.openListenSocket opening).2
  | .fwmark _ => s
  | .replacePeers => { s with device := s.device.clearPeers }
  | .amnezia config => { s with device := (s.device.setAmneziaConfig config e).2.1 }
  | .peer update => { s with device := (s.device.updatePeer update e).2.1 }

/-- The devices that commands lead to from `DeviceHandle::new`, with the commands. -/
inductive Configured (ε : Type) [Env ε] : List Command → DeviceHandle C → Prop
  | start {mtu : Nat} {nextIndex : IndexLfsr} {opening : Opening} {s : DeviceHandle C}
      (hfresh : opening.Fresh []) (h : new mtu nextIndex opening = some s) : Configured ε [] s
  | command {commands : List Command} {s : DeviceHandle C} (h : Configured ε commands s)
      (command : Command) (hfresh : ∀ o, command = .listenPort o → o.Fresh s.udpHandlers) (e : ε) :
      Configured ε (commands ++ [command]) (s.execute command e)

/-! ## Keys -/

/-- The device has the key and the limiter that the handler of a datagram asks for. -/
def HasKey (d : Device C) : Prop := d.keyPair.isSome ∧ d.rateLimiter.isSome

/-- A device has both or none, and a change is nothing to them. -/
structure SameKey (d d' : Device C) : Prop where
  keyPair : d'.keyPair = d.keyPair
  rateLimiter : d'.rateLimiter = d.rateLimiter

theorem SameKey.refl (d : Device C) : SameKey d d := ⟨rfl, rfl⟩

theorem SameKey.trans {d d' d'' : Device C} (h : SameKey d d') (h' : SameKey d' d'') :
    SameKey d d'' :=
  ⟨h'.keyPair.trans h.keyPair, h'.rateLimiter.trans h.rateLimiter⟩

theorem sameKey_updatePeer (d : Device C) (u : PeerUpdate) (e : ε) :
    SameKey d (d.updatePeer u e).2.1 := by
  have hupdates := d.updatePeer_updatesTo u e
  generalize (d.updatePeer u e).2.1 = d' at hupdates ⊢
  cases hupdates with
  | removed _ =>
    unfold Device.removePeer
    split
    · exact .refl d
    · exact ⟨rfl, rfl⟩
  | present => exact .refl d
  | refused => exact ⟨rfl, rfl⟩
  | added => exact ⟨rfl, rfl⟩

theorem sameKey_rebuildPeer (d : Device C) (privateKey pubKey : Key) (ref : PeerRef) (e : ε) :
    SameKey d (d.rebuildPeer privateKey pubKey ref e).2.1 := by
  rcases d.rebuildPeer_cases privateKey pubKey ref e with ⟨nextIndex, h⟩ | ⟨_, _, _, _, _, h⟩
  · rw [h]
    exact ⟨rfl, rfl⟩
  · rw [h]
    exact ⟨rfl, rfl⟩

theorem sameKey_rebuildPeers (privateKey : Key) (entries : List (Sigma fun _ : Key => PeerRef))
    (d : Device C) (e : ε) : SameKey d (Device.rebuildPeers privateKey entries d e).2.1 := by
  induction entries generalizing d e with
  | nil => exact .refl d
  | cons entry entries ih =>
    have hone := sameKey_rebuildPeer d privateKey entry.1 entry.2 e
    rw [Device.rebuildPeers]
    split
    · rename_i d₁ e₁ hstep
      rw [hstep] at hone
      exact hone.trans (ih d₁ e₁)
    · rename_i err d₁ e₁ hstep
      rw [hstep] at hone
      exact hone

theorem sameKey_setAmneziaConfig (d : Device C) (config : Amnezia3Config) (e : ε) :
    SameKey d (d.setAmneziaConfig config e).2.1 := by
  unfold Device.setAmneziaConfig
  split_ifs
  · exact .refl d
  · dsimp only
    split
    · exact ⟨rfl, rfl⟩
    · rename_i privateKey publicKey _
      have hloop := sameKey_rebuildPeers privateKey (Env.walk e d.peers.entries)
        { d with amnezia := config } e
      exact ⟨hloop.keyPair, hloop.rateLimiter⟩

/-- Nothing but a private key sets them. -/
theorem sameKey_execute (s : DeviceHandle C) (hcommand : ∀ key, command ≠ .privateKey key) (e : ε) :
    SameKey s.device (s.execute command e).device := by
  cases command with
  | privateKey key => exact absurd rfl (hcommand key)
  | listenPort opening => cases opening <;> exact ⟨rfl, rfl⟩
  | fwmark mark => exact .refl _
  | replacePeers => exact ⟨rfl, rfl⟩
  | amnezia config => exact sameKey_setAmneziaConfig s.device config e
  | peer update => exact sameKey_updatePeer s.device update e

/-- A private key sets them, or they are set. -/
theorem hasKey_setKey (d : Device C) (hboth : d.keyPair.isSome → d.rateLimiter.isSome) (key : Key)
    (e : ε) : HasKey (d.setKey key e).1 := by
  unfold Device.setKey
  dsimp only
  split_ifs with hsame
  · have hpair : d.keyPair.isSome := by
      cases hnone : d.keyPair with
      | none => rw [hnone] at hsame; cases hsame
      | some pair => rfl
    exact ⟨hpair, hboth hpair⟩
  · exact ⟨rfl, rfl⟩

/-! ## Handlers -/

/-- A handler is registered, and the descriptors of the originals are none of a handler. -/
structure Listening (s : DeviceHandle C) : Prop where
  registered : s.udpHandlers ≠ []
  udp4 : ∀ fd, s.udp4 = some fd → fd ∉ s.udpHandlers
  udp6 : ∀ fd, s.udp6 = some fd → fd ∉ s.udpHandlers

/-- So removing by those descriptors removes nothing. -/
theorem Listening.clearEvent (h : s.Listening) :
    clearEvent s.udp6 (clearEvent s.udp4 s.udpHandlers) = s.udpHandlers := by
  have hfour : DeviceHandle.clearEvent s.udp4 s.udpHandlers = s.udpHandlers := by
    cases hsock : s.udp4 with
    | none => rfl
    | some fd => exact List.erase_of_not_mem (h.udp4 fd hsock)
  rw [hfour]
  cases hsock : s.udp6 with
  | none => rfl
  | some fd => exact List.erase_of_not_mem (h.udp6 fd hsock)

theorem listening_opened {sock4 sock6 clone4 clone6 : Fd} {handlers : List Fd} {d : Device C}
    (hfresh : (sock4 :: sock6 :: clone4 :: clone6 :: handlers).Nodup) :
    Listening (⟨d, some sock4, some sock6, clone6 :: clone4 :: handlers⟩ : DeviceHandle C) := by
  simp only [List.nodup_cons, List.mem_cons, not_or] at hfresh
  obtain ⟨⟨-, h4c4, h4c6, h4⟩, ⟨h6c4, h6c6, h6⟩, -⟩ := hfresh
  refine ⟨by simp, ?_, ?_⟩
  · rintro fd ⟨⟩
    simp [h4c4, h4c6, h4]
  · rintro fd ⟨⟩
    simp [h6c4, h6c6, h6]

theorem Listening.openListenSocket (h : s.Listening) (hfresh : opening.Fresh s.udpHandlers) :
    (s.openListenSocket opening).2.Listening := by
  unfold DeviceHandle.openListenSocket
  dsimp only
  rw [h.clearEvent]
  cases opening with
  | refused => exact ⟨h.registered, by simp, by simp⟩
  | half clone4 => exact ⟨by simp, by simp, by simp⟩
  | opened sock4 sock6 clone4 clone6 => exact listening_opened hfresh

/-- **One command** leaves the handlers where they are. -/
theorem Listening.execute (h : s.Listening)
    (hfresh : ∀ o, command = .listenPort o → o.Fresh s.udpHandlers) (e : ε) :
    (s.execute command e).Listening := by
  cases command with
  | listenPort opening => exact h.openListenSocket (hfresh opening rfl)
  | _ => exact ⟨h.registered, h.udp4, h.udp6⟩

/-! ## Runs -/

theorem listening_new {mtu : Nat} {nextIndex : IndexLfsr} (hfresh : opening.Fresh [])
    (h : new mtu nextIndex opening = some s) : s.Listening := by
  cases opening with
  | refused => cases h
  | half clone4 => cases h
  | opened sock4 sock6 clone4 clone6 =>
    cases h
    exact listening_opened hfresh

theorem Configured.listening (h : Configured ε commands s) :
    s.Listening := by
  induction h with
  | start hfresh hnew => exact listening_new hfresh hnew
  | command _ command hfresh e ih => exact ih.execute hfresh e

/-- The key and the limiter are there exactly if a private key was. -/
theorem Configured.keys (h : Configured ε commands s) :
    (s.device.keyPair.isSome ↔ ∃ key, .privateKey key ∈ commands) ∧
      (s.device.rateLimiter.isSome ↔ ∃ key, .privateKey key ∈ commands) := by
  induction h with
  | @start mtu nextIndex opening s hfresh hnew =>
    cases opening with
    | refused => cases hnew
    | half clone4 => cases hnew
    | opened sock4 sock6 clone4 clone6 =>
      cases hnew
      exact ⟨by simp [Device.openListenSocket, Device.forPeers, bare, Device.new],
        by simp [Device.openListenSocket, Device.forPeers, bare, Device.new]⟩
  | @command commands s _ command hfresh e ih =>
    by_cases hkey : ∃ key, command = .privateKey key
    · obtain ⟨key, rfl⟩ := hkey
      have hset := hasKey_setKey s.device (fun hpair => ih.2.mpr (ih.1.mp hpair)) key e
      have hmem : ∃ k, Command.privateKey k ∈ commands ++ [.privateKey key] := ⟨key, by simp⟩
      exact ⟨iff_of_true hset.1 hmem, iff_of_true hset.2 hmem⟩
    · have hsame := sameKey_execute s (fun key heq => hkey ⟨key, heq⟩) e
      have hmem : (∃ k, Command.privateKey k ∈ commands ++ [command]) ↔
          ∃ k, Command.privateKey k ∈ commands := by
        refine exists_congr fun k => ?_
        rw [List.mem_append, List.mem_singleton, or_iff_left]
        rintro rfl
        exact hkey ⟨k, rfl⟩
      rw [hsame.keyPair, hsame.rateLimiter, hmem]
      exact ih

/-- The handler of an anonymous socket, run for a datagram. -/
def udpHandler (s : DeviceHandle C) (datagram : Bytes) (addr : SocketAddr) (connects : Bool)
    (e : ε) : Outcome (List Effect × EventLoop C × ε) :=
  EventLoop.udpHandler ⟨s.device, false, []⟩ datagram addr connects e

/-- **A handler finds its key exactly if one has been configured.**  In every device that commands
lead to from `DeviceHandle::new`, in any order: if a handler of an anonymous socket is registered
then the key pair and the limiter are set, if and only if a private key is among the commands.  A
handler always is registered. -/
theorem handlers_have_key_iff {commands : List Command} (h : Configured ε commands s) :
    s.udpHandlers ≠ [] ∧
    ((s.udpHandlers ≠ [] → s.device.keyPair.isSome ∧ s.device.rateLimiter.isSome) ↔
      ∃ key, Command.privateKey key ∈ commands) := by
  have hregistered := h.listening.registered
  obtain ⟨hpair, hlimiter⟩ := h.keys
  refine ⟨hregistered, ?_⟩
  constructor
  · intro hset
    exact hpair.mp (hset hregistered).1
  · intro hkey _
    exact ⟨hpair.mpr hkey, hlimiter.mpr hkey⟩

end DeviceHandle

namespace DeviceHandle

/-- A new device, with its sockets. -/
def freshHandle : DeviceHandle Crypto.transparent :=
  ((bare 1420 ⟨1, 1, 1⟩).openListenSocket (.opened 7 8 9 10)).2

theorem freshHandle_configured : Configured StillMachine [] freshHandle :=
  .start (show Opening.Fresh [] (.opened 7 8 9 10) by decide)
    (show new 1420 ⟨1, 1, 1⟩ (.opened 7 8 9 10) = some freshHandle from rfl)

/-- With a key, and after the port was changed, the handlers find it. -/
theorem handlers_have_key_iff_keyed :
    ∃ s : DeviceHandle Crypto.transparent,
      Configured StillMachine [.listenPort (.opened 7 8 11 12), .privateKey zeroKey] s ∧
      s.udpHandlers = [12, 11, 10, 9] ∧
      s.device.keyPair.isSome ∧ s.device.rateLimiter.isSome := by
  have hport : Configured StillMachine [.listenPort (.opened 7 8 11 12)]
      (freshHandle.openListenSocket (.opened 7 8 11 12)).2 := by
    refine freshHandle_configured.command (.listenPort (.opened 7 8 11 12)) ?_ {}
    rintro o ⟨⟩
    decide
  have hkey := hport.command (.privateKey zeroKey) (by simp) {}
  obtain ⟨hregistered, hiff⟩ := handlers_have_key_iff hkey
  exact ⟨_, hkey, rfl, hiff.mpr ⟨zeroKey, by simp⟩ hregistered⟩

/-- **A datagram that arrives before the key kills its worker.**  The handlers of a new device are
registered, and whatever arrives, from anyone, they panic. -/
theorem keyless_handler_panics :
    Configured StillMachine [] freshHandle ∧ freshHandle.udpHandlers = [10, 9] ∧
      freshHandle.device.keyPair = none ∧
      ∀ (datagram : Bytes) (addr : SocketAddr) (connects : Bool) (e : StillMachine),
        freshHandle.udpHandler datagram addr connects e = .panic "Key not set" :=
  ⟨freshHandle_configured, rfl, rfl, fun _ _ _ _ => rfl⟩

end DeviceHandle
