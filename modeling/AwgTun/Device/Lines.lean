import AwgTun.Device.Request
import AwgTun.Lib.LineLoop

/-!
# The lines of a request

`api_set` and `api_set_peer` read one stream, and each takes the line feed off a line with `pop`,
which takes off whatever is there.  Only the last line of a stream can be without a line feed, and
it loses its last character.

* `Api.turn` — the two loops as one machine, line by line; `Api.apiSet_eq_run` says that it is what
  `api_set` does.
* `Api.processed` — the pairs of keys and values that the loops come across.
* `Api.processed_eq_lines_iff` — when these are the key=value lines of the text.
-/

open Text Control LineLoop

namespace Api

variable [IpTable] {C : Crypto} {ε : Type} [Env ε]

/-- Where the loops are. -/
inductive Reading (C : Crypto) (ε : Type)
  /-- In the loop of `api_set`, at line `n`, with the block so far. -/
  | interface (n : ℕ) (block : Text) (d : Device C) (e : ε)
  /-- In the loop of `api_set_peer`, with the values so far. -/
  | peers (u : PeerUpdate) (d : Device C) (e : ε)

/-- One turn of the loop that is running: it ends the request, or goes on. -/
def turn (os : SysCalls) : Reading C ε → Text → (Outcome Int × Device C × ε) ⊕ Reading C ε
  | .interface n block d e, cmd =>
      match InterfaceLine.read cmd with
      | .finish => .inl (applyAmneziaBlock d block e)
      | .stop result => .inl (result, d, e)
      | .amnezia key val => .inr (.interface (n + 1) (block ++ writeln key val) d e)
      | .privateKey key =>
          let (d, e) := d.setKey key e
          .inr (.interface (n + 1) block d e)
      | .listenPort _ =>
          let d := d.openListenSocket
          match os.listen n with
          | .error p => .inl (.error p, d, e)
          | .ok false => .inl (.ok eaddrinuse, d, e)
          | .ok true => .inr (.interface (n + 1) block d e)
      | .fwmark _ =>
          if os.mark n then .inr (.interface (n + 1) block d e) else .inl (.ok eaddrinuse, d, e)
      | .replacePeers value =>
          .inr (.interface (n + 1) block (if value then d.clearPeers else d) e)
      | .publicKey key =>
          match applyAmneziaBlock d block e with
          | (.ok 0, d, e) => .inr (.peers { publicKey := key } d e)
          | failed => .inl failed
  | .peers u d e, cmd =>
      match PeerLine.read cmd with
      | .finish => .inl (finish (fun (s : Device C × ε) u => s.1.updatePeer u s.2) u (d, e))
      | .stop result => .inl (result, d, e)
      | .set setting => .inr (.peers (setting.apply u) d e)
      | .nextSection publicKey =>
          match d.updatePeer u e with
          | (.error p, d, e) => .inl (.error p, d, e)
          | (.ok (), d, e) =>
              match publicKey with
              | .error p => .inl (.error p, d, e)
              | .ok (.error _) => .inl (.ok einval, d, e)
              | .ok (.ok publicKey) => .inr (.peers (u.openSection publicKey) d e)

/-- What is returned where the stream ends: its end reads as an empty line. -/
def atEnd (broken : Bool) : Reading C ε → Outcome Int × Device C × ε
  | .interface _ block d e => if broken then (.ok 0, d, e) else applyAmneziaBlock d block e
  | .peers u d e =>
      if broken then (.ok 0, d, e)
      else finish (fun (s : Device C × ε) u => s.1.updatePeer u s.2) u (d, e)

theorem peerLoop_eq_run (os : SysCalls) (broken : Bool) (lines : List Text) (u : PeerUpdate)
    (d : Device C) (e : ε) :
    peerLoop (fun (s : Device C × ε) u => s.1.updatePeer u s.2) broken lines u (d, e) =
      run (turn os) List.dropLast (atEnd broken) lines (.peers u d e) := by
  induction lines generalizing u d e with
  | nil => rfl
  | cons line rest ih =>
    rw [peerLoop, run, turn]
    cases PeerLine.read line.dropLast with
    | finish => rfl
    | stop result => rfl
    | set setting => exact ih _ d e
    | nextSection publicKey =>
      rcases d.updatePeer u e with ⟨p | _, d', e'⟩
      · rfl
      · rcases publicKey with p | (_ | publicKey)
        · rfl
        · rfl
        · exact ih _ d' e'

theorem setLoop_eq_run (os : SysCalls) (broken : Bool) (lines : List Text) (n : ℕ) (block : Text)
    (d : Device C) (e : ε) :
    setLoop os broken lines n block d e =
      run (turn os) List.dropLast (atEnd broken) lines (.interface n block d e) := by
  induction lines generalizing n block d e with
  | nil => rfl
  | cons line rest ih =>
    rw [setLoop, run, turn]
    cases InterfaceLine.read line.dropLast with
    | finish => rfl
    | stop result => rfl
    | amnezia key val => exact ih _ _ d e
    | privateKey key => exact ih _ block _ _
    | listenPort port =>
      rcases os.listen n with p | (_ | _)
      · rfl
      · rfl
      · exact ih _ block _ e
    | fwmark mark =>
      simp only
      split_ifs
      · exact ih _ block d e
      · rfl
    | replacePeers value => exact ih _ block _ e
    | publicKey key =>
      rcases applyAmneziaBlock d block e with ⟨p | status, d', e'⟩
      · rfl
      · rcases status with (_ | _) | _
        · exact peerLoop_eq_run os broken rest _ d' e'
        · rfl
        · rfl

/-- **The machine is `api_set`.** -/
theorem apiSet_eq_run (os : SysCalls) (reader : LineReader) (d : Device C) (e : ε) :
    apiSet os reader d e =
      run (turn os) List.dropLast (atEnd reader.broken) reader.lines (.interface 0 [] d e) :=
  setLoop_eq_run os reader.broken reader.lines 0 [] d e

/-- The pairs that `api_set` and `api_set_peer` process. -/
def processed (os : SysCalls) (text : Text) (d : Device C) (e : ε) : List (Text × Text) :=
  log (turn os) List.dropLast (splitInclusive text) (.interface 0 [] d e)

/-- An empty line ends a request. -/
theorem turn_blank (os : SysCalls) (s : Reading C ε) : ∃ result, turn os s [] = .inl result := by
  cases s with
  | interface n block d e => exact ⟨_, rfl⟩
  | peers u d e => exact ⟨_, rfl⟩

/-- **When whole lines are processed**: for every text, device, and answers of the operating system.
The loops process just the key=value lines up to the first blank line, in their order and with their
values, exactly if the last line, where they reach it, has its line feed or is no key=value line,
and no line is refused that has a key=value line behind it. -/
theorem processed_eq_lines_iff (os : SysCalls) (text : Text) (d : Device C) (e : ε) :
    processed os text d e = keyValueLines text ↔
      ¬ Cut (turn os) text (.interface 0 [] d e) ∧
        ¬ StopsEarly (turn os) (commands text) (.interface 0 [] d e) :=
  log_dropLast_eq_iff (turn_blank os) text _

end Api

namespace Api

/-- **The last line of a stream loses a character**: here the port of an interface, and the port of
the endpoint in a peer section. -/
theorem last_line_cut :
    keyValueLines "listen_port=51820".toList = [("listen_port".toList, "51820".toList)] ∧
      processed quietSystem "listen_port=51820".toList Device.bareDevice ({} : StillMachine) =
        [("listen_port".toList, "5182".toList)] ∧
      InterfaceLine.read "listen_port=51820".toList.dropLast = .listenPort 5182 ∧
      calls (.ofText "endpoint=10.0.0.1:51820".toList) zeroKey =
        [{ publicKey := zeroKey, endpoint := some (.v4 0x0A000001 5182) }] := by
  refine ⟨by decide +kernel, by decide +kernel, by rfl, by decide +kernel⟩

end Api
