import AwgTun.Device.Ledger

/-!
# Requests

`api_set`: the lines of a `set=1` request up to the first `public_key` are for the interface, the
AmneziaWG lines among them are collected and applied as one block where the section ends, and the
rest are peer sections.

* `Api.apiSet` — the loop.
* `Api.Harmless` — what a request must not do on a device, line by line: cut a character in a key,
  apply a block that cuts one in a chain, add a peer that is there, or without a private key, or
  use up the indices.
* `Api.apiSet_returns_iff` — a request comes back exactly if it is harmless.
-/

open Text Control

variable {C : Crypto} {ε : Type} [Env ε]

/-! ## Keys that cut a character -/

namespace KeyBytes

/-- A key of 64 bytes that is cut inside a character. -/
def Cuts (s : Text) : Prop := utf8Len s = 64 ∧ CutsCharacter s

/-- Only such a key does not come back. -/
theorem fromStr_returns_iff (s : Text) : (fromStr s).run.Returns ↔ ¬ Cuts s := by
  by_cases h64 : utf8Len s = 64
  · have hstart : dropBytes s (0 * 2) = some s := by rw [Nat.zero_mul, dropBytes]
    have hpairs : utf8Len s = 2 * 32 := h64
    rw [fromStr_hex h64]
    rcases pairs_cases hpairs with hread | hrefused | hcuts
    · obtain ⟨bs, hbs⟩ := hexLoop_of_pairsRead hstart hread hpairs
      rw [hbs]
      refine iff_of_true ⟨_, rfl⟩ fun hcuts => ?_
      refine hexLoop_of_cuts hstart hcuts.2 hpairs ⟨_, hbs⟩
    · have hrun := hexLoop_of_refused hstart hrefused hpairs
      rw [hrun]
      refine iff_of_true ⟨_, rfl⟩ fun hcuts => ?_
      refine hexLoop_of_cuts hstart hcuts.2 hpairs ⟨_, hrun⟩
    · refine iff_of_false ?_ fun hno => hno ⟨h64, hcuts⟩
      rintro ⟨r, hr⟩
      obtain ⟨r', hr', -⟩ := map_eq_ok.mp hr
      exact hexLoop_of_cuts hstart hcuts hpairs ⟨r', hr'⟩
  · refine iff_of_true ?_ fun hcuts => h64 hcuts.1
    by_cases hlen : utf8Len s = 43 ∨ utf8Len s = 44
    · cases hdec : Base64.decode s with
      | some bs => exact ⟨_, fromStr_decoded hlen hdec⟩
      | none => exact ⟨_, fromStr_undecoded hlen hdec⟩
    · rw [fromStr, if_neg h64, if_neg (by omega)]
      exact ⟨_, rfl⟩

end KeyBytes

/-! ## The lines of the peer sections -/

namespace PeerLine

/-- The loop goes on after the line. -/
def GoesOn : PeerLine → Prop
  | .set _ => True
  | .nextSection publicKey => ∃ key, publicKey = .ok (.ok key)
  | _ => False

/-- The line has a key that cuts a character. -/
def Cuts (cmd : Text) : Prop :=
  ∃ key val, splitOnce '=' cmd = some (key, val) ∧
    (key = "public_key".toList ∨ key = "preshared_key".toList) ∧ KeyBytes.Cuts val

end PeerLine

namespace Api

/-- No line that is read has a key that cuts a character. -/
def PeersRead : List Text → Prop
  | [] => True
  | line :: rest =>
      ¬ PeerLine.Cuts line.dropLast ∧ ((PeerLine.read line.dropLast).GoesOn → PeersRead rest)

theorem orEinval_returns {α : Type} (value : Option α) (setting : α → PeerSetting) :
    (PeerSetting.orEinval value setting).run.Returns := by
  cases value <;> exact ⟨_, rfl⟩

/-- A key that is read where another error is reported. -/
theorem keySetting_returns_iff (val : Text) :
    (ExceptT.adapt (fun _ => einval) (do
      let keyBytes ← KeyBytes.fromStr val
      return PeerSetting.presharedKey keyBytes) : Fallible Int PeerSetting).run.Returns ↔
      ¬ KeyBytes.Cuts val := by
  rw [← KeyBytes.fromStr_returns_iff, ExceptT.run_adapt, ExceptT.run_bind]
  rcases (KeyBytes.fromStr val).run with p | (err | key)
  · exact iff_of_false (Outcome.not_returns_error p) (Outcome.not_returns_error p)
  · exact iff_of_true ⟨_, rfl⟩ ⟨_, rfl⟩
  · exact iff_of_true ⟨_, rfl⟩ ⟨_, rfl⟩

/-- What becomes of a line: only a cut key panics. -/
theorem peerSetting_returns_iff (key val : Text) :
    (PeerSetting.parse key val).run.Returns ↔
      ¬ (key = "preshared_key".toList ∧ KeyBytes.Cuts val) := by
  have hother {x : Fallible Int PeerSetting} (hname : String.ofList key ≠ "preshared_key")
      (hx : x.run.Returns) :
      x.run.Returns ↔ ¬ (key = "preshared_key".toList ∧ KeyBytes.Cuts val) := by
    refine iff_of_true hx ?_
    rintro ⟨rfl, -⟩
    exact hname (String.ofList_toList)
  unfold PeerSetting.parse
  split
  case h_2 heq =>
    have hkey : key = "preshared_key".toList := by rw [← heq, String.toList_ofList]
    rw [keySetting_returns_iff]
    simp [hkey]
  case h_4 heq =>
    refine hother (by rw [heq]; decide) ?_
    split
    · exact ⟨_, rfl⟩
    · exact orEinval_returns _ _
  case h_7 heq =>
    refine hother (by rw [heq]; decide) ?_
    split <;> exact ⟨_, rfl⟩
  case h_8 hname _ _ _ _ _ => exact hother (by assumption) ⟨_, rfl⟩
  all_goals
    rename_i heq
    exact hother (by rw [heq]; decide) (orEinval_returns _ _)

/-- An address that is read has no more bits than it may. -/
theorem network_isSome_of_parse [IpTable] {key val : Text} {ip : AllowedIP}
    (h : (PeerSetting.parse key val).run = .ok (.ok (.allowedIp ip))) : ip.network.isSome := by
  have hvalue {α : Type} {value : Option α} {setting : α → PeerSetting} {x : PeerSetting}
      (h : (PeerSetting.orEinval value setting).run = .ok (.ok x)) :
      ∃ a, value = some a ∧ setting a = x := by
    cases value with
    | none => cases h
    | some a =>
      cases h
      exact ⟨a, rfl, rfl⟩
  unfold PeerSetting.parse at h
  split at h
  case h_2 =>
    rw [ExceptT.run_adapt, ExceptT.run_bind] at h
    generalize (KeyBytes.fromStr val).run = r at h
    rcases r with p | (err | key) <;> cases h
  case h_4 =>
    split at h
    · cases h
    · obtain ⟨a, -, ha⟩ := hvalue h
      cases ha
  case h_6 =>
    obtain ⟨a, hvalue, ha⟩ := hvalue h
    cases ha
    cases hparse : AllowedIP.fromStr val with
    | error err =>
      rw [hparse] at hvalue
      cases hvalue
    | ok ip' =>
      rw [hparse] at hvalue
      cases hvalue
      exact AllowedIP.network_isSome_of_fromStr hparse
  case h_7 => split at h <;> cases h
  case h_8 => cases h
  all_goals
    obtain ⟨a, -, ha⟩ := hvalue h
    cases ha

end Api

namespace PeerLine

/-- The line panics. -/
def Panics : PeerLine → Prop
  | .stop result => ¬ result.Returns
  | .nextSection publicKey => ¬ publicKey.Returns
  | _ => False

theorem read_panics_iff (cmd : Text) : (read cmd).Panics ↔ Cuts cmd := by
  unfold read
  split_ifs with hnil
  · refine iff_of_false id ?_
    rintro ⟨key, val, hsplit, -⟩
    rw [hnil] at hsplit
    cases hsplit
  · cases hsplit : splitOnce '=' cmd with
    | none =>
      exact iff_of_false (fun h => h ⟨_, rfl⟩) (by simp [Cuts, hsplit])
    | some kv =>
      obtain ⟨key, val⟩ := kv
      have hcuts : Cuts cmd ↔
          (key = "public_key".toList ∨ key = "preshared_key".toList) ∧ KeyBytes.Cuts val := by
        simp [Cuts, hsplit]
      rw [hcuts]
      simp only
      split_ifs with hkey
      · simp only [Panics, KeyBytes.fromStr_returns_iff, not_not, hkey, true_or, true_and]
      · have hreturns := Api.peerSetting_returns_iff key val
        rcases hrun : (PeerSetting.parse key val).run with p | (status | setting)
        · rw [hrun] at hreturns
          have hnot := mt hreturns.mpr (Outcome.not_returns_error p)
          refine iff_of_true (Outcome.not_returns_error p) ?_
          rw [not_not] at hnot
          exact ⟨.inr hnot.1, hnot.2⟩
        · rw [hrun] at hreturns
          refine iff_of_false (fun h => h ⟨_, rfl⟩) ?_
          rintro ⟨hname, h⟩
          exact hreturns.mp ⟨_, rfl⟩ ⟨hname.resolve_left hkey, h⟩
        · rw [hrun] at hreturns
          refine iff_of_false id ?_
          rintro ⟨hname, h⟩
          exact hreturns.mp ⟨_, rfl⟩ ⟨hname.resolve_left hkey, h⟩

theorem network_isSome_of_read [IpTable] {cmd : Text} {ip : AllowedIP}
    (h : read cmd = .set (.allowedIp ip)) : ip.network.isSome := by
  unfold read at h
  split_ifs at h
  split at h
  · cases h
  · split_ifs at h
    split at h
    · cases h
    · cases h
    · rename_i setting hrun
      cases h
      exact Api.network_isSome_of_parse hrun

end PeerLine

namespace Api

/-- The networks of the collected addresses are there. -/
def HasNetworks [IpTable] (u : PeerUpdate) : Prop :=
  ∀ ip ∈ u.allowedIps, ip.network.isSome

theorem hasNetworks_apply [IpTable] {u : PeerUpdate} (h : HasNetworks u) {cmd : Text}
    {setting : PeerSetting} (hread : PeerLine.read cmd = .set setting) :
    HasNetworks (setting.apply u) := by
  cases setting with
  | allowedIp ip =>
    intro x hx
    rcases List.mem_append.mp hx with hx | hx
    · exact h x hx
    · cases List.mem_singleton.mp hx
      exact PeerLine.network_isSome_of_read hread
  | _ => exact h

/-- So they are in every call. -/
theorem hasNetworks_calls [IpTable] (broken : Bool) (lines : List Text) :
    ∀ {u : PeerUpdate}, HasNetworks u →
      ∀ v ∈ (peerLoop record broken lines u []).2, HasNetworks v := by
  induction lines with
  | nil =>
    intro u hu v hv
    cases broken with
    | true => cases hv
    | false =>
      cases List.mem_singleton.mp hv
      exact hu
  | cons line rest ih =>
    intro u hu v hv
    rw [peerLoop] at hv
    cases hread : PeerLine.read line.dropLast with
    | finish =>
      simp only [hread] at hv
      cases List.mem_singleton.mp hv
      exact hu
    | stop result =>
      simp only [hread] at hv
      cases hv
    | set setting =>
      simp only [hread] at hv
      exact ih (hasNetworks_apply hu hread) v hv
    | nextSection publicKey =>
      simp only [hread, record, List.nil_append] at hv
      rcases publicKey with p | (_ | publicKey)
      · cases List.mem_singleton.mp hv
        exact hu
      · cases List.mem_singleton.mp hv
        exact hu
      · simp only at hv
        rw [peerLoop_record, List.singleton_append, List.mem_cons] at hv
        rcases hv with rfl | hv
        · exact hu
        · exact ih (fun ip hip => by cases hip) v hv

/-- Reading the lines comes back exactly if none has a key that cuts a character. -/
theorem peerLoop_record_returns_iff (broken : Bool) (lines : List Text) :
    ∀ (u : PeerUpdate), (peerLoop record broken lines u []).1.Returns ↔ PeersRead lines := by
  induction lines with
  | nil =>
    intro u
    cases broken <;> exact iff_of_true ⟨_, rfl⟩ trivial
  | cons line rest ih =>
    intro u
    have hpanics := PeerLine.read_panics_iff line.dropLast
    rw [peerLoop, PeersRead, ← hpanics]
    cases PeerLine.read line.dropLast with
    | finish => exact iff_of_true ⟨_, rfl⟩ ⟨id, False.elim⟩
    | stop result =>
      exact ⟨fun h => ⟨fun hnot => hnot h, False.elim⟩, fun h => not_not.mp h.1⟩
    | set setting => exact (ih _).trans ⟨fun h => ⟨id, fun _ => h⟩, fun h => h.2 trivial⟩
    | nextSection publicKey =>
      rcases publicKey with p | (err | publicKey)
      · exact iff_of_false (Outcome.not_returns_error p) fun h => h.1 (Outcome.not_returns_error p)
      · refine iff_of_true ⟨_, rfl⟩ ⟨fun h => h ⟨_, rfl⟩, ?_⟩
        rintro ⟨_, h⟩
        cases h
      · simp only [record, List.nil_append]
        rw [peerLoop_record, ih]
        exact ⟨fun h => ⟨fun hnot => hnot ⟨_, rfl⟩, fun _ => h⟩, fun h => h.2 ⟨_, rfl⟩⟩

variable [IpTable] {d : Device C}

/-- **The peer sections** come back exactly if no key cuts a character and the ledger allows
every update. -/
theorem apiSetPeer_returns_iff (hd : d.Regular) (reader : LineReader) (pubKey : Key) (e : ε) :
    (apiSetPeer reader d pubKey e).1.Returns ↔
      (Ledger.of d).Takes (calls reader pubKey) ∧ PeersRead reader.lines := by
  have hips := hasNetworks_calls reader.broken reader.lines (u := { publicKey := pubKey })
    fun ip hip => by cases hip
  rw [apiSetPeer, peerLoop_eq_replay, calls, ← Ledger.replay_spec hips hd e,
    ← peerLoop_record_returns_iff reader.broken reader.lines { publicKey := pubKey }]
  simp only
  rcases (replay _ _ _).1 with p | _
  · exact iff_of_false (Outcome.not_returns_error p) fun h => Outcome.not_returns_error p h.1
  · exact ⟨fun h => ⟨⟨_, rfl⟩, h⟩, fun h => h.2⟩

end Api

/-! ## The interface section -/

/-- `EADDRINUSE`. -/
def eaddrinuse : Int := 98

/-- What the loop of `api_set` makes of a line. -/
inductive InterfaceLine
  /-- An empty line ends the request. -/
  | finish
  /-- A line that cannot be read ends it with a status, or panics. -/
  | stop (result : Outcome Int)
  /-- A line for the block. -/
  | amnezia (key val : Text)
  | privateKey (key : Key)
  | listenPort (port : UInt16)
  | fwmark (mark : UInt32)
  | replacePeers (value : Bool)
  /-- The peer sections begin. -/
  | publicKey (key : Key)

namespace InterfaceLine

variable {result : Outcome Int}

/-- A line with a key as its value. -/
def ofKey (val : Text) (line : Key → InterfaceLine) : InterfaceLine :=
  match (KeyBytes.fromStr val).run with
  | .error p => .stop (.error p)
  | .ok (.error _) => .stop (.ok einval)
  | .ok (.ok key) => line key

/-- Read one line, without its line feed. -/
def read (cmd : Text) : InterfaceLine :=
  if cmd = [] then .finish
  else
    match splitOnce '=' cmd with
    | none => .stop (.ok eproto)
    | some (key, val) =>
        if Api.isAmneziaInterfaceKey key then .amnezia key val
        else
          match String.ofList key with
          | "private_key" => ofKey val .privateKey
          | "listen_port" =>
              match parseU16 val with
              | .ok port => .listenPort port
              | .error _ => .stop (.ok einval)
          | "fwmark" =>
              match parseU32 val with
              | .ok mark => .fwmark mark
              | .error _ => .stop (.ok einval)
          | "replace_peers" =>
              match parseBool val with
              | some value => .replacePeers value
              | none => .stop (.ok einval)
          | "public_key" => ofKey val .publicKey
          | _ => .stop (.ok einval)

/-- The line has a key that cuts a character. -/
def Cuts (cmd : Text) : Prop :=
  ∃ key val, splitOnce '=' cmd = some (key, val) ∧
    (key = "private_key".toList ∨ key = "public_key".toList) ∧ KeyBytes.Cuts val

theorem ofKey_stop {val : Text} {line : Key → InterfaceLine} (h : ofKey val line = .stop result)
    (hline : ∀ key, line key ≠ .stop result) :
    result.Returns ↔ ¬ KeyBytes.Cuts val := by
  rw [← KeyBytes.fromStr_returns_iff]
  unfold ofKey at h
  split at h
  · rename_i p hrun
    cases h
    rw [hrun]
    exact iff_of_false (Outcome.not_returns_error p) (Outcome.not_returns_error p)
  · rename_i err hrun
    cases h
    rw [hrun]
    exact iff_of_true ⟨_, rfl⟩ ⟨_, rfl⟩
  · exact absurd h (hline _)

/-- A line that ends the request panics exactly if it has such a key. -/
theorem returns_iff_of_stop {cmd : Text} (h : read cmd = .stop result) :
    result.Returns ↔ ¬ Cuts cmd := by
  unfold read at h
  split_ifs at h
  cases hsplit : splitOnce '=' cmd with
  | none =>
    simp only [hsplit] at h
    cases h
    exact iff_of_true ⟨_, rfl⟩ (by simp [Cuts, hsplit])
  | some kv =>
    obtain ⟨key, val⟩ := kv
    have hcuts : Cuts cmd ↔
        (key = "private_key".toList ∨ key = "public_key".toList) ∧ KeyBytes.Cuts val := by
      simp [Cuts, hsplit]
    have hother {name : String} (hname : String.ofList key = name) (hprivate : name ≠ "private_key")
        (hpublic : name ≠ "public_key") : ¬ Cuts cmd := by
      rw [hcuts]
      rintro ⟨rfl | rfl, -⟩
      · exact hprivate (hname.symm.trans String.ofList_toList)
      · exact hpublic (hname.symm.trans String.ofList_toList)
    have hnamed {name : String} (hname : String.ofList key = name) : key = name.toList := by
      rw [← hname, String.toList_ofList]
    simp only [hsplit] at h
    split_ifs at h
    split at h
    · rename_i hname
      rw [ofKey_stop h (fun _ => nofun), hcuts, hnamed hname]
      simp
    · rename_i hname
      split at h <;> cases h
      exact iff_of_true ⟨_, rfl⟩ (hother hname (by decide) (by decide))
    · rename_i hname
      split at h <;> cases h
      exact iff_of_true ⟨_, rfl⟩ (hother hname (by decide) (by decide))
    · rename_i hname
      split at h <;> cases h
      exact iff_of_true ⟨_, rfl⟩ (hother hname (by decide) (by decide))
    · rename_i hname
      rw [ofKey_stop h (fun _ => nofun), hcuts, hnamed hname]
      simp
    · cases h
      exact iff_of_true ⟨_, rfl⟩ (hother rfl (by assumption) (by assumption))

/-- What a line for the block says. -/
theorem setting_of_amnezia {cmd key val : Text} (h : read cmd = .amnezia key val)
    (hline : '\n' ∉ cmd) : ∃ s : Amnezia3Config.Setting, s.text = writeln key val := by
  unfold read at h
  split_ifs at h
  cases hsplit : splitOnce '=' cmd with
  | none =>
    simp only [hsplit] at h
    cases h
  | some kv =>
    obtain ⟨key', val'⟩ := kv
    simp only [hsplit] at h
    split_ifs at h with hkey
    · cases h
      obtain ⟨f, rfl, -⟩ := (Api.isAmneziaInterfaceKey_iff _).mp hkey
      obtain ⟨rfl, -⟩ := splitOnce_eq_some_iff.mp hsplit
      refine ⟨⟨f, val, fun hmem => hline ?_⟩, rfl⟩
      simp [hmem]
    · split at h
      · unfold ofKey at h
        split at h <;> cases h
      · split at h <;> cases h
      · split at h <;> cases h
      · split at h <;> cases h
      · unfold ofKey at h
        split at h <;> cases h
      · cases h

end InterfaceLine

/-! ## Applying the block -/

namespace Amnezia3Config

/-- A line cuts a character, and no line before it is malformed. -/
def Stops (b : List Setting) : Prop :=
  ∃ before s after, b = before ++ s :: after ∧ s.Cuts ∧ ∀ m ∈ before, ¬ m.Malformed

/-- The block makes one configuration of another: every line is read, and the whole passes. -/
structure Accepted (c : Amnezia3Config) (b : List Setting) (c' : Amnezia3Config) : Prop where
  read : ∀ s ∈ b, ¬ s.Malformed
  overlaid : Overlaid c b c'
  passes : c'.validate = .ok ()

end Amnezia3Config

namespace Device

open Amnezia3Config (Setting Stops Accepted block)

variable [IpTable] {d : Device C}

/-- **The three ends of `apply_amnezia_block`.** -/
theorem applyAmneziaBlock_cases (hd : d.Regular) (b : List Setting) (e : ε) :
    (Stops b ∧ ¬ (Api.applyAmneziaBlock d (block b) e).1.Returns) ∨
      (¬ Stops b ∧ (∀ c, ¬ Accepted d.amnezia b c) ∧
        Api.applyAmneziaBlock d (block b) e = (.ok einval, d, e)) ∨
      (¬ Stops b ∧ ∃ c, Accepted d.amnezia b c ∧ c.Valid ∧
        Api.applyAmneziaBlock d (block b) e =
          ((d.setAmneziaConfig c e).1.map fun _ => 0, (d.setAmneziaConfig c e).2)) := by
  have hcall := applyAmneziaBlock_eq (b := b) (e := e) hd.valid hd.passes
  have hvalid := Amnezia3Config.parse_toUapiBlock_append hd.valid b
  rw [ExceptT.run_bind] at hcall
  rcases Fallible.mapM_cases Setting.read b with ⟨as, hread, hall⟩ |
      ⟨before, s, after, hb, hbefore, ⟨err, hs, hread⟩ | ⟨p, hs, hread⟩⟩
  · have hstops : ¬ Stops b := by
      rintro ⟨before, s, after, rfl, hcuts, -⟩
      obtain ⟨-, a, -, -, ha, -⟩ := forall₂_at hall
      exact (not_malformed_of_read ha).2 hcuts
    have hclean : ∀ s ∈ b, ¬ s.Malformed := by
      intro s hs
      obtain ⟨before, after, rfl⟩ := List.append_of_mem hs
      obtain ⟨-, a, -, -, ha, -⟩ := forall₂_at hall
      exact (not_malformed_of_read ha).1
    have hoverlaid := Amnezia3Config.overlaid_overlay (c := d.amnezia) hall
    have hcollecting := d.amnezia.collecting_overlay as
    rw [hread] at hcall
    replace hcall : Api.applyAmneziaBlock d (block b) e =
        d.installParsed (Amnezia3Config.finish (d.amnezia.overlay as)).run e := hcall
    by_cases hpass : (d.amnezia.overlay as).toConfig.validate = .ok ()
    · have hparsed : (Amnezia3Config.parse (d.amnezia.toUapiBlock ++ block b)).run =
          .ok (.ok (d.amnezia.overlay as).toConfig) := by
        rw [hvalid, ExceptT.run_bind, hread]
        exact congrArg ExceptT.run (Amnezia3Config.finish_of_valid hcollecting hpass)
      refine .inr (.inr ⟨hstops, _, ⟨hclean, hoverlaid, hpass⟩,
        (Amnezia3Config.parse_valid hparsed).2, ?_⟩)
      rw [hcall, Amnezia3Config.finish_of_valid hcollecting hpass]
      rfl
    · obtain ⟨err, hfinish⟩ := Amnezia3Config.finish_of_invalid hcollecting hpass
      refine .inr (.inl ⟨hstops, fun c hc => hpass ?_, ?_⟩)
      · rw [← hc.overlaid.unique hoverlaid]
        exact hc.passes
      · rw [hcall, hfinish]
        rfl
  · have hmalformed : s.Malformed := malformed_of_not_read fun a ha => by
      rw [hs] at ha
      cases ha
    refine .inr (.inl ⟨?_, fun c hc => hc.read s (by simp [hb]) hmalformed, ?_⟩)
    · rintro ⟨before', s', after', hb', hcuts, hnone⟩
      obtain ⟨m, hm, hbad⟩ := cuts_after_malformed hb hbefore hmalformed
        (s.read_returns_iff.mp ⟨_, hs⟩) before' s' after' hb' hcuts
      exact hnone m hm hbad
    · rw [hcall, hread]
      rfl
  · refine .inl ⟨⟨before, s, after, hb, ?_, ?_⟩, ?_⟩
    · by_contra hno
      obtain ⟨r, hr⟩ := s.read_returns_iff.mpr hno
      rw [hs] at hr
      cases hr
    · intro m hm
      obtain ⟨a, ha⟩ := hbefore m hm
      exact (not_malformed_of_read ha).1
    · rw [hcall, hread]
      exact Outcome.not_returns_error _

end Device

/-! ## Requests -/

namespace Api

open Amnezia3Config (Setting Stops Accepted)

variable [IpTable] {d : Device C}

/-- What the operating system answers to the calls for a line of the request. -/
structure SysCalls where
  /-- `open_listen_socket` succeeds, fails, or cannot clone its sockets. -/
  listen : ℕ → Outcome Bool
  /-- `set_fwmark` succeeds or fails. -/
  mark : ℕ → Bool

/-- System calls that all succeed. -/
def quietSystem : SysCalls := ⟨fun _ => .ok true, fun _ => true⟩

/-- Go on after a status of zero. -/
def onSuccess (x : Outcome Int × Device C × ε) (next : Device C → ε → Outcome Int × Device C × ε) :
    Outcome Int × Device C × ε :=
  match x with
  | (.ok 0, d, e) => next d e
  | failed => failed

/-- The loop of `api_set`, which is at line `n`. -/
def setLoop (os : SysCalls) (broken : Bool) :
    List Text → ℕ → Text → Device C → ε → Outcome Int × Device C × ε
  -- the end of the stream reads as an empty line
  | [], _, block, d, e => if broken then (.ok 0, d, e) else applyAmneziaBlock d block e
  | line :: rest, n, block, d, e =>
      match InterfaceLine.read line.dropLast with
      | .finish => applyAmneziaBlock d block e
      | .stop result => (result, d, e)
      | .amnezia key val => setLoop os broken rest (n + 1) (block ++ writeln key val) d e
      | .privateKey key =>
          let (d, e) := d.setKey key e
          setLoop os broken rest (n + 1) block d e
      | .listenPort _ =>
          let d := d.openListenSocket
          match os.listen n with
          | .error p => (.error p, d, e)
          | .ok false => (.ok eaddrinuse, d, e)
          | .ok true => setLoop os broken rest (n + 1) block d e
      | .fwmark _ =>
          if os.mark n then setLoop os broken rest (n + 1) block d e else (.ok eaddrinuse, d, e)
      | .replacePeers value =>
          setLoop os broken rest (n + 1) block (if value then d.clearPeers else d) e
      | .publicKey key =>
          onSuccess (applyAmneziaBlock d block e) fun d e => apiSetPeer ⟨rest, broken⟩ d key e

/-- What `api_set` does under the write lock. -/
def apiSet (os : SysCalls) (reader : LineReader) (d : Device C) (e : ε) :
    Outcome Int × Device C × ε :=
  setLoop os reader.broken reader.lines 0 [] d e

/-- The block can be applied to a configuration, and what follows may rely on the ledger
afterwards. -/
def TakesBlock (l : Ledger) (c : Amnezia3Config) (block : Text) (rest : Ledger → Prop) : Prop :=
  ∀ b, block = Amnezia3Config.block b →
    ¬ Stops b ∧ ∀ c', Accepted c b c' → l.Installs c c' ∧ rest (l.install c c')

/-- **What a request must not do**, line by line, on a device with this ledger and
configuration. -/
def Harmless (os : SysCalls) (broken : Bool) (c : Amnezia3Config) :
    List Text → ℕ → Text → Ledger → Prop
  | [], _, block, l => broken = true ∨ TakesBlock l c block fun _ => True
  | line :: rest, n, block, l =>
      match InterfaceLine.read line.dropLast with
      | .finish => TakesBlock l c block fun _ => True
      | .stop _ => ¬ InterfaceLine.Cuts line.dropLast
      | .amnezia key val => Harmless os broken c rest (n + 1) (block ++ writeln key val) l
      | .privateKey _ => Harmless os broken c rest (n + 1) block { l with keyed := True }
      | .listenPort _ =>
          (os.listen n).Returns ∧
            (os.listen n = .ok true → Harmless os broken c rest (n + 1) block l)
      | .fwmark _ => os.mark n = true → Harmless os broken c rest (n + 1) block l
      | .replacePeers value =>
          Harmless os broken c rest (n + 1) block (if value then { l with peers := ∅ } else l)
      | .publicKey key =>
          TakesBlock l c block fun l => l.Takes (calls ⟨rest, broken⟩ key) ∧ PeersRead rest

end Api

namespace Api

open Amnezia3Config (Setting Stops Accepted)

variable [IpTable] {d : Device C} {next : Device C → ε → Outcome Int × Device C × ε}
  {rest : Ledger → Prop}

omit [Env ε] in
theorem onSuccess_self (x : Outcome Int × Device C × ε) :
    onSuccess x (fun d e => (.ok 0, d, e)) = x := by
  unfold onSuccess
  split <;> rfl

/-- **The block**, and what comes after it. -/
theorem onSuccess_returns_iff (hd : d.Regular) (b : List Setting) (e : ε)
    (hnext : ∀ d' e', d'.Regular → ((next d' e').1.Returns ↔ rest (Ledger.of d'))) :
    (onSuccess (applyAmneziaBlock d (Amnezia3Config.block b) e) next).1.Returns ↔
      ¬ Stops b ∧ ∀ c', Accepted d.amnezia b c' →
        (Ledger.of d).Installs d.amnezia c' ∧ rest ((Ledger.of d).install d.amnezia c') := by
  have hpanics {x : Outcome Int × Device C × ε} (hx : ¬ x.1.Returns) :
      ¬ (onSuccess x next).1.Returns := by
    obtain ⟨p | status, d', e'⟩ := x
    · exact hx
    · exact absurd ⟨status, rfl⟩ hx
  rcases Device.applyAmneziaBlock_cases hd b e with ⟨hstops, hx⟩ | ⟨hstops, hnone, hx⟩ |
      ⟨hstops, c, haccepted, hvalid, hx⟩
  · exact iff_of_false (hpanics hx) fun h => h.1 hstops
  · rw [hx]
    exact iff_of_true ⟨_, rfl⟩ ⟨hstops, fun c' hc' => absurd hc' (hnone c')⟩
  · have hunique {P : Amnezia3Config → Prop} : (∀ c', Accepted d.amnezia b c' → P c') ↔ P c := by
      refine ⟨fun h => h c haccepted, fun h c' hc' => ?_⟩
      rw [hc'.overlaid.unique haccepted.overlaid]
      exact h
    rw [hunique, hx]
    rcases Ledger.setAmneziaConfig_spec hd c e with
      ⟨hinstalls, d', e', hrun, htables, hof⟩ | ⟨hshort, hstuck⟩
    · have hinstalled : ({ d with amnezia := c } : Device C).Regular :=
        ⟨hvalid, haccepted.passes, hd.ref_lt⟩
      have hregular := hinstalled.of_sameTables htables
      rw [hrun, ← hof, ← hnext d' e' hregular]
      exact ⟨fun h => ⟨hstops, hinstalls, h⟩, fun h => h.2.2⟩
    · refine iff_of_false (hpanics ?_) fun h => hshort h.2.1
      rintro ⟨status, hstatus⟩
      obtain ⟨a, ha, -⟩ := map_eq_ok.mp hstatus
      exact hstuck ⟨a, ha⟩

/-- The same for the text of the block. -/
theorem takesBlock_iff (hd : d.Regular) (b : List Setting) (e : ε)
    (hnext : ∀ d' e', d'.Regular → ((next d' e').1.Returns ↔ rest (Ledger.of d'))) :
    (onSuccess (applyAmneziaBlock d (Amnezia3Config.block b) e) next).1.Returns ↔
      TakesBlock (Ledger.of d) d.amnezia (Amnezia3Config.block b) rest := by
  constructor
  · intro h b' hb'
    rw [hb'] at h
    exact (onSuccess_returns_iff hd b' e hnext).mp h
  · intro h
    exact (onSuccess_returns_iff hd b e hnext).mpr (h b rfl)

theorem applyAmneziaBlock_returns_iff (hd : d.Regular) (b : List Setting) (e : ε) :
    (applyAmneziaBlock d (Amnezia3Config.block b) e).1.Returns ↔
      TakesBlock (Ledger.of d) d.amnezia (Amnezia3Config.block b) fun _ => True := by
  have hself : (onSuccess (applyAmneziaBlock d (Amnezia3Config.block b) e)
      fun d e => (.ok 0, d, e)).1.Returns ↔
      TakesBlock (Ledger.of d) d.amnezia (Amnezia3Config.block b) fun _ => True :=
    takesBlock_iff hd b e fun _ _ _ => iff_of_true ⟨_, rfl⟩ trivial
  rwa [onSuccess_self] at hself

/-- **The loop** comes back exactly if the lines that are left are harmless. -/
theorem setLoop_returns_iff (os : SysCalls) (broken : Bool) (lines : List Text)
    (hlines : ∀ line ∈ lines, '\n' ∉ line.dropLast) :
    ∀ {d : Device C}, d.Regular → ∀ (n : ℕ) (b : List Setting) (e : ε),
      (setLoop os broken lines n (Amnezia3Config.block b) d e).1.Returns ↔
        Harmless os broken d.amnezia lines n (Amnezia3Config.block b) (Ledger.of d) := by
  induction lines with
  | nil =>
    intro d hd n b e
    cases broken with
    | true => exact iff_of_true ⟨_, rfl⟩ (.inl rfl)
    | false =>
      refine (applyAmneziaBlock_returns_iff hd b e).trans ?_
      simp [Harmless]
  | cons line rest ih =>
    intro d hd n b e
    have hrest {d : Device C} (hd : d.Regular) := ih (fun l hl => hlines l (by simp [hl])) hd
    rw [setLoop, Harmless]
    cases hread : InterfaceLine.read line.dropLast with
    | finish => exact applyAmneziaBlock_returns_iff hd b e
    | stop result => exact InterfaceLine.returns_iff_of_stop hread
    | amnezia key val =>
      obtain ⟨s, hs⟩ := InterfaceLine.setting_of_amnezia hread (hlines line (by simp))
      have hblock :
          Amnezia3Config.block b ++ writeln key val = Amnezia3Config.block (b ++ [s]) := by
        rw [Amnezia3Config.block_append, ← hs]
        simp [Amnezia3Config.block]
      simp only [hblock]
      exact hrest hd (n + 1) (b ++ [s]) e
    | privateKey key =>
      obtain ⟨hregular, hamnezia, hof⟩ := Ledger.setKey_spec hd key e
      simp only
      rw [hrest hregular (n + 1) b, hamnezia, hof]
    | listenPort port =>
      obtain ⟨hregular, hof⟩ := Ledger.openListenSocket_spec ε hd
      simp only
      rcases os.listen n with p | opened
      · exact iff_of_false (Outcome.not_returns_error p) fun h => Outcome.not_returns_error p h.1
      · cases opened with
        | false => exact iff_of_true ⟨_, rfl⟩ ⟨⟨_, rfl⟩, fun h => by cases h⟩
        | true =>
          simp only
          rw [hrest hregular (n + 1) b, hof]
          exact ⟨fun h => ⟨⟨_, rfl⟩, fun _ => h⟩, fun h => h.2 (by simp)⟩
    | fwmark mark =>
      simp only
      split_ifs with hmark
      · rw [hrest hd (n + 1) b]
        exact ⟨fun h _ => h, fun h => h hmark⟩
      · exact iff_of_true ⟨_, rfl⟩ fun h => absurd h hmark
    | replacePeers value =>
      cases value with
      | true =>
        obtain ⟨hregular, hof⟩ := Ledger.clearPeers_spec hd
        refine (hrest hregular (n + 1) b e).trans ?_
        rw [hof]
        rfl
      | false => exact hrest hd (n + 1) b e
    | publicKey key =>
      exact takesBlock_iff hd b e fun d' e' hd' => apiSetPeer_returns_iff hd' ⟨rest, broken⟩ key e'

/-- **A request** comes back exactly if it is harmless. -/
theorem apiSet_returns_iff (hd : d.Regular) (os : SysCalls) (text : Text) (broken : Bool) (e : ε) :
    (apiSet os ⟨splitInclusive text, broken⟩ d e).1.Returns ↔
      Harmless os broken d.amnezia (splitInclusive text) 0 [] (Ledger.of d) :=
  setLoop_returns_iff os broken (splitInclusive text)
    (fun _ hline => not_mem_dropLast_of_splitInclusive hline) hd 0 [] e

end Api

