import AwgTun.Amnezia.Cuts
import AwgTun.Amnezia.Uapi
import AwgTun.Device.Api
import AwgTun.Device.EventLoop
import AwgTun.Device.Register

/-!
# Incremental configuration

The AmneziaWG lines of a `set=1` request are collected in a block.  `apply_amnezia_block`
writes the configuration of the device as such a block, appends the new one and parses the
whole, so that a line overrides what was there before it.

* `Overlaid` — what a block should make of a configuration.
* `Device.OverlaysBlock` — the block is rejected or installed as it should.
* `Device.amnezia_block_overlays_iff` — this holds exactly if no line cuts a character
  before a malformed line has been found.
* `Device.amnezia_block_panics` — a line that does.
-/

open Text Control

variable {C : Crypto} {ε : Type} [Env ε]

namespace Amnezia3Config

variable {b : List Setting}

/-! ## What a block means -/

namespace Setting

/-- The line has no value. -/
def Malformed [Hex] (s : Setting) : Prop := ∀ x, ¬ s.Denotes x

/-- The line is for a chain, and the chain cuts a character. -/
def Cuts (s : Setting) : Prop := s.field.kind = .chain ∧ ChainCuts (trim s.value)

theorem Denotes.unique [Hex] {s : Setting} {x y : s.field.Value} (hx : s.Denotes x)
    (hy : s.Denotes y) : x = y := by
  have hboth := hx.symm.trans hy
  cases hboth
  rfl

end Setting

/-- Every field has the value of its last line in the block, or else the value it had. -/
structure Overlaid [Hex] (c : Amnezia3Config) (b : List Setting) (c' : Amnezia3Config) : Prop where
  kept : ∀ f, f ∉ b.map Setting.field → c'.get f = c.get f
  taken : ∀ before s after, b = before ++ s :: after → s.field ∉ after.map Setting.field →
    s.Denotes (c'.get s.field)

theorem exists_last {f : Field} (h : f ∈ b.map Setting.field) :
    ∃ before s after, b = before ++ s :: after ∧ s.field = f ∧ f ∉ after.map Setting.field := by
  induction b with
  | nil => cases h
  | cons s b ih =>
    by_cases hrest : f ∈ b.map Setting.field
    · obtain ⟨before, s', after, rfl, hfield, hafter⟩ := ih hrest
      exact ⟨s :: before, s', after, rfl, hfield, hafter⟩
    · rw [List.map_cons, List.mem_cons] at h
      rcases h with h | h
      · exact ⟨[], s, b, rfl, h.symm, hrest⟩
      · exact absurd h hrest

/-- There is one configuration that a block makes of another. -/
theorem Overlaid.unique [Hex] {c c₁ c₂ : Amnezia3Config} (h₁ : Overlaid c b c₁)
    (h₂ : Overlaid c b c₂) : c₁ = c₂ := by
  refine ext_get (funext fun f => ?_)
  by_cases hf : f ∈ b.map Setting.field
  · obtain ⟨before, s, after, hb, rfl, hafter⟩ := exists_last hf
    exact (h₁.taken before s after hb hafter).unique (h₂.taken before s after hb hafter)
  · rw [h₁.kept f hf, h₂.kept f hf]

/-! ## Reading a block -/

theorem Setting.read_eq_ok [Hex] {s : Setting} {a : Σ f : Field, f.Value} :
    s.read.run = .ok (.ok a) ↔ ∃ x, a = ⟨s.field, x⟩ ∧ s.Denotes x := by
  rw [Setting.read, Fallible.bind_eq_ok]
  constructor
  · rintro ⟨x, hx, ha⟩
    cases ha
    exact ⟨x, rfl, hx⟩
  · rintro ⟨x, rfl, hx⟩
    exact ⟨x, hx, rfl⟩

theorem Kind.read_returns_iff [Hex] (k : Kind) (key value : Text) :
    (k.read key value).run.Returns ↔ ¬ (k = .chain ∧ ChainCuts value) := by
  cases k with
  | chain =>
    rw [show Kind.read key value .chain = do return some (← CpsChain.parse value) from rfl]
    simp only [true_and, ← CpsChain.parse_returns_iff]
    exact Fallible.returns_bind_iff fun _ => ⟨_, rfl⟩
  | _ => exact iff_of_true ⟨_, rfl⟩ (by simp)

/-- Only a line that cuts a character does not come back. -/
theorem Setting.read_returns_iff [Hex] (s : Setting) : s.read.run.Returns ↔ ¬ s.Cuts := by
  rw [Setting.Cuts, ← Kind.read_returns_iff s.field.kind s.field.key, Setting.read]
  exact Fallible.returns_bind_iff fun _ => ⟨_, rfl⟩

theorem map_fst_of_read [Hex] {as : List (Σ f : Field, f.Value)}
    (h : List.Forall₂ (fun s a => s.read.run = .ok (.ok a)) b as) :
    as.map Sigma.fst = b.map Setting.field := by
  induction h with
  | nil => rfl
  | cons hread _ ih =>
    obtain ⟨x, rfl, -⟩ := Setting.read_eq_ok.mp hread
    rw [List.map_cons, List.map_cons, ih]

/-- Settings that were all read are overlaid. -/
theorem overlaid_overlay [Hex] {c : Amnezia3Config} {as : List (Σ f : Field, f.Value)}
    (h : List.Forall₂ (fun s a => s.read.run = .ok (.ok a)) b as) :
    Overlaid c b (c.overlay as).toConfig := by
  constructor
  · intro f hf
    rw [get_overlay]
    exact assignAll_of_not_mem (by rwa [map_fst_of_read h]) c.get
  · rintro before s after rfl hafter
    obtain ⟨as₁, a, as₂, rfl, hread, hrest⟩ := forall₂_at h
    obtain ⟨x, rfl, hx⟩ := Setting.read_eq_ok.mp hread
    rw [get_overlay, assignAll_of_last (by rwa [map_fst_of_read hrest])]
    exact hx

end Amnezia3Config

/-! ## Indices for the tunnels made anew -/

namespace Device

variable [IpTable]

/-- How a peer's turn ends: only for want of an index it does not come back. -/
theorem rebuildPeer_result (d : Device C) (privateKey pubKey : Key) (ref : PeerRef) (e : ε) :
    ((d.rebuildPeer privateKey pubKey ref e).1 = .ok () ∧
        ((d.rebuildPeer privateKey pubKey ref e).2.1.nextIndex = d.nextIndex ∨
          (d.rebuildPeer privateKey pubKey ref e).2.1.nextIndex = d.nextIndex.next.2)) ∨
      (¬ d.nextIndex.next.1.Returns ∧
        (d.rebuildPeer privateKey pubKey ref e).1 = .panic "Too many peers created") := by
  unfold rebuildPeer
  split
  · exact .inl ⟨rfl, .inl rfl⟩
  · simp only
    split
    · rename_i err herr
      right
      rcases d.nextIndex.next_cases with ⟨index, hindex⟩ | hpanic
      · rw [herr] at hindex
        cases hindex
      · rw [hpanic] at herr
        cases herr
        exact ⟨by rw [hpanic]; exact Outcome.not_returns_panic _, rfl⟩
    · split
      · exact .inl ⟨rfl, .inr rfl⟩
      · exact .inl ⟨rfl, .inr rfl⟩

theorem rebuildPeer_amnezia (d : Device C) (privateKey pubKey : Key) (ref : PeerRef) (e : ε) :
    (d.rebuildPeer privateKey pubKey ref e).2.1.amnezia = d.amnezia := by
  rcases d.rebuildPeer_cases privateKey pubKey ref e with ⟨_, h⟩ | ⟨_, _, _, _, -, h⟩ <;> rw [h]

/-- The loop leaves the configuration, and comes back if there are enough indices. -/
theorem rebuildPeers_result (privateKey : Key) (entries : List (Sigma fun _ : Key => PeerRef)) :
    ∀ (d : Device C) (e : ε),
      (rebuildPeers privateKey entries d e).2.1.amnezia = d.amnezia ∧
        ((rebuildPeers privateKey entries d e).1 = .ok () ∨
          (¬ d.nextIndex.Supplies entries.length ∧
            (rebuildPeers privateKey entries d e).1 = .panic "Too many peers created")) := by
  induction entries with
  | nil => exact fun d e => ⟨rfl, .inl rfl⟩
  | cons entry entries ih =>
    intro d e
    have hamnezia := d.rebuildPeer_amnezia privateKey entry.1 entry.2 e
    have hresult := d.rebuildPeer_result privateKey entry.1 entry.2 e
    rw [rebuildPeers]
    rcases hrun : d.rebuildPeer privateKey entry.1 entry.2 e with ⟨result, d', e'⟩
    rw [hrun] at hamnezia hresult
    rcases hresult with ⟨rfl, hnext⟩ | ⟨hempty, rfl⟩
    · obtain ⟨hsame, hend⟩ := ih d' e'
      refine ⟨hsame.trans hamnezia, hend.imp_right fun ⟨hsupplies, hpanic⟩ => ⟨?_, hpanic⟩⟩
      intro hmore
      rcases hnext with hnext | hnext
      · exact hsupplies (by rw [hnext]; exact hmore.of_succ)
      · exact hsupplies (by rw [hnext]; exact hmore.2)
    · exact ⟨hamnezia, .inr ⟨fun hmore => hempty hmore.1, rfl⟩⟩

/-- The configuration is stored, and the call comes back if there are enough indices. -/
theorem setAmneziaConfig_result (d : Device C) (c : Amnezia3Config) (e : ε) :
    (d.setAmneziaConfig c e).2.1.amnezia = c ∧
      ((d.setAmneziaConfig c e).1 = .ok () ∨
        (¬ d.nextIndex.Supplies d.peers.entries.length ∧
          (d.setAmneziaConfig c e).1 = .panic "Too many peers created")) := by
  unfold setAmneziaConfig
  split_ifs with hsame
  · exact ⟨hsame, .inl rfl⟩
  · simp only
    split
    · exact ⟨rfl, .inl rfl⟩
    · rename_i privateKey publicKey _
      have hloop := rebuildPeers_result privateKey (Env.walk e d.peers.entries)
        { d with amnezia := c } e
      rwa [Env.length_walk] at hloop

end Device

/-! ## Applying a block -/

namespace Api

/-- The keys that `is_amnezia_interface_key` matches. -/
def interfaceKeys : List String :=
  ["jc", "jmin", "jmax", "s1", "s2", "s3", "s4", "h1", "h2", "h3", "h4", "i1", "i2", "i3", "i4",
    "i5", "header_protection_key", "content_padding_addition", "rekey_after_time", "rekey_timeout",
    "reject_after_time", "keepalive_timeout", "max_handshake_attempts", "random_trailers",
    "disable_cookies"]

/-- `is_amnezia_interface_key`. -/
def isAmneziaInterfaceKey (key : Text) : Bool := decide (String.ofList key ∈ interfaceKeys)

/-- The keys of the interface are those of the parser, but for the two that it has no
business with. -/
theorem isAmneziaInterfaceKey_iff (key : Text) :
    isAmneziaInterfaceKey key = true ↔
      ∃ f : Amnezia3Config.Field, key = f.key ∧ f ≠ .mtu ∧ f ≠ .persistentKeepaliveInterval := by
  have hnames : interfaceKeys = (Amnezia3Config.Field.all.filter fun f =>
      decide (f ≠ .mtu ∧ f ≠ .persistentKeepaliveInterval)).map Amnezia3Config.Field.name := by
    decide
  rw [isAmneziaInterfaceKey, decide_eq_true_eq, hnames]
  constructor
  · intro h
    obtain ⟨f, hf, hname⟩ := List.mem_map.mp h
    refine ⟨f, ?_, by simpa using (List.mem_filter.mp hf).2⟩
    rw [Amnezia3Config.Field.key, hname, String.toList_ofList]
  · rintro ⟨f, rfl, hf⟩
    refine List.mem_map.mpr ⟨f, List.mem_filter.mpr ⟨f.mem_all, by simpa using hf⟩, ?_⟩
    rw [Amnezia3Config.Field.key, String.ofList_toList]

variable [IpTable]

/-- `apply_amnezia_block`. -/
def applyAmneziaBlock [Hex] (d : Device C) (block : Text) (e : ε) : Outcome Int × Device C × ε :=
  if block = [] then (.ok 0, d, e)
  else
    let merged := d.amnezia.toUapiBlock ++ block
    match (Amnezia3Config.parse merged).run with
    | .error p => (.error p, d, e)
    | .ok (.ok config) =>
        let (result, d, e) := d.setAmneziaConfig config e
        (result.map fun _ => 0, d, e)
    | .ok (.error _) => (.ok einval, d, e)

end Api

namespace Device

open Amnezia3Config (Setting Overlaid block)

variable [IpTable] {d : Device C} {b : List Setting} {e : ε} {s : Setting}

/-- The block is rejected and the device is left as it was. -/
def RejectsBlock [Hex] (d : Device C) (b : List Setting) (e : ε) : Prop :=
  Api.applyAmneziaBlock d (block b) e = (.ok einval, d, e)

/-- The device has the configuration afterwards, and the call comes back with success unless
there are no indices left for the tunnels made anew. -/
structure InstallsBlock [Hex] (d : Device C) (b : List Setting) (e : ε) (c : Amnezia3Config) :
    Prop where
  amnezia : (Api.applyAmneziaBlock d (block b) e).2.1.amnezia = c
  status : (Api.applyAmneziaBlock d (block b) e).1 = .ok 0 ∨
    (¬ d.nextIndex.Supplies d.peers.entries.length ∧
      (Api.applyAmneziaBlock d (block b) e).1 = .panic "Too many peers created")

/-- The block is rejected, or what it makes of the configuration is installed; and it is
rejected exactly if a line is malformed or the whole does not validate. -/
structure OverlaysBlock [Hex] (d : Device C) (b : List Setting) (e : ε) : Prop where
  outcome : d.RejectsBlock b e ∨ ∃ c, Overlaid d.amnezia b c ∧ d.InstallsBlock b e c
  rejects_iff : d.RejectsBlock b e ↔
    (∃ s ∈ b, s.Malformed) ∨ ∃ c, Overlaid d.amnezia b c ∧ c.validate ≠ .ok ()

/-- The end of the call, once the whole has been parsed. -/
def installParsed (d : Device C) (parsed : Outcome (Except ConfigError Amnezia3Config)) (e : ε) :
    Outcome Int × Device C × ε :=
  match parsed with
  | .error p => (.error p, d, e)
  | .ok (.ok config) =>
      let (result, d, e) := d.setAmneziaConfig config e
      (result.map fun _ => 0, d, e)
  | .ok (.error _) => (.ok einval, d, e)

theorem installParsed_ok (d : Device C) (c : Amnezia3Config) (e : ε) :
    d.installParsed (.ok (.ok c)) e =
      ((d.setAmneziaConfig c e).1.map fun _ => 0, (d.setAmneziaConfig c e).2) := rfl

/-- The call on a block of settings: an empty one is no exception. -/
theorem applyAmneziaBlock_eq [Hex] (hvalid : d.amnezia.Valid)
    (hpass : d.amnezia.validate = .ok ()) : Api.applyAmneziaBlock d (block b) e =
      d.installParsed (b.mapM Setting.read >>= fun as =>
        Amnezia3Config.finish (d.amnezia.overlay as)).run e := by
  rw [← Amnezia3Config.parse_toUapiBlock_append hvalid, Api.applyAmneziaBlock]
  split_ifs with hnil
  · have hsame : (d.amnezia.overlay []).toConfig = d.amnezia :=
      Amnezia3Config.ext_get (d.amnezia.get_overlay [])
    have hparse : Amnezia3Config.parse (d.amnezia.toUapiBlock ++ block b) = return d.amnezia := by
      have hrun := Amnezia3Config.parse_toUapiBlock_append hvalid []
      rw [← hsame] at hpass
      rw [hnil]
      rw [show block [] = [] from rfl] at hrun
      rw [hrun, List.mapM_nil, pure_bind,
        Amnezia3Config.finish_of_valid (d.amnezia.collecting_overlay []) hpass, hsame]
    have hset : d.setAmneziaConfig d.amnezia e = (.ok (), d, e) := if_pos rfl
    rw [hparse, show (return d.amnezia : Fallible ConfigError _).run = .ok (.ok d.amnezia) from rfl,
      installParsed_ok, hset]
    rfl
  · simp only [installParsed]

/-- A configuration that was parsed is installed. -/
theorem installsBlock_of_parsed [Hex] {c : Amnezia3Config}
    (h : Api.applyAmneziaBlock d (block b) e = d.installParsed (.ok (.ok c)) e) :
    d.InstallsBlock b e c ∧ ¬ d.RejectsBlock b e := by
  obtain ⟨hamnezia, hresult⟩ := d.setAmneziaConfig_result c e
  have hstatus : (Api.applyAmneziaBlock d (block b) e).1 =
      (d.setAmneziaConfig c e).1.map fun _ => 0 := by rw [h]; rfl
  have hdevice : (Api.applyAmneziaBlock d (block b) e).2.1 = (d.setAmneziaConfig c e).2.1 := by
    rw [h]; rfl
  have hend : (Api.applyAmneziaBlock d (block b) e).1 = .ok 0 ∨
      (¬ d.nextIndex.Supplies d.peers.entries.length ∧
        (Api.applyAmneziaBlock d (block b) e).1 = .panic "Too many peers created") := by
    rw [hstatus]
    rcases hresult with hok | ⟨hsupplies, hpanic⟩
    · exact .inl (by rw [hok]; rfl)
    · exact .inr ⟨hsupplies, by rw [hpanic]; rfl⟩
  refine ⟨⟨by rw [hdevice, hamnezia], hend⟩, ?_⟩
  intro hrejects
  have hcode : (Api.applyAmneziaBlock d (block b) e).1 = .ok einval := by rw [hrejects]
  rcases hend with hok | ⟨-, hpanic⟩
  · rw [hok] at hcode
    cases hcode
  · rw [hpanic] at hcode
    cases hcode

omit [IpTable] in
/-- A line that is read denotes a value, and does not cut a character. -/
theorem not_malformed_of_read [Hex] {a : Σ f : Amnezia3Config.Field, f.Value}
    (h : s.read.run = .ok (.ok a)) : ¬ s.Malformed ∧ ¬ s.Cuts := by
  obtain ⟨x, -, hx⟩ := Setting.read_eq_ok.mp h
  exact ⟨fun hmalformed => hmalformed x hx, s.read_returns_iff.mp ⟨_, h⟩⟩

omit [IpTable] in
/-- A line that is not read denotes none. -/
theorem malformed_of_not_read [Hex] (h : ∀ a, s.read.run ≠ .ok (.ok a)) : s.Malformed :=
  fun x hx => h ⟨s.field, x⟩ (Setting.read_eq_ok.mpr ⟨x, rfl, hx⟩)

/-- A block whose lines are all read is overlaid. -/
theorem overlaysBlock_of_read [Hex] {as : List (Σ f : Amnezia3Config.Field, f.Value)}
    (hall : List.Forall₂ (fun s a => s.read.run = .ok (.ok a)) b as)
    (hcall : Api.applyAmneziaBlock d (block b) e =
      d.installParsed (Amnezia3Config.finish (d.amnezia.overlay as)).run e) :
    d.OverlaysBlock b e := by
  have hoverlaid := Amnezia3Config.overlaid_overlay (c := d.amnezia) hall
  have hcollecting := d.amnezia.collecting_overlay as
  have hclean : ¬ ∃ s ∈ b, s.Malformed := by
    rintro ⟨s, hs, hmalformed⟩
    obtain ⟨before, after, rfl⟩ := List.append_of_mem hs
    obtain ⟨-, a, -, -, ha, -⟩ := forall₂_at hall
    exact (not_malformed_of_read ha).1 hmalformed
  by_cases hpass : (d.amnezia.overlay as).toConfig.validate = .ok ()
  · rw [Amnezia3Config.finish_of_valid hcollecting hpass] at hcall
    obtain ⟨hinstalls, hnot⟩ := installsBlock_of_parsed hcall
    refine ⟨.inr ⟨_, hoverlaid, hinstalls⟩, iff_of_false hnot ?_⟩
    rintro (hmalformed | ⟨c, hc, hfail⟩)
    · exact hclean hmalformed
    · rw [hc.unique hoverlaid] at hfail
      exact hfail hpass
  · obtain ⟨err, hfinish⟩ := Amnezia3Config.finish_of_invalid hcollecting hpass
    rw [hfinish] at hcall
    exact ⟨.inl hcall, iff_of_true hcall (.inr ⟨_, hoverlaid, hpass⟩)⟩

omit [IpTable] in
/-- Where the first line that is not read does not cut a character, none that comes first
does. -/
theorem cuts_after_malformed [Hex] {before after : List Setting} (hb : b = before ++ s :: after)
    (hbefore : ∀ x ∈ before, ∃ a, x.read.run = .ok (.ok a)) (hs : s.Malformed) (hcuts : ¬ s.Cuts) :
    ∀ before' s' after', b = before' ++ s' :: after' → s'.Cuts → ∃ m ∈ before', m.Malformed := by
  rintro before' s' after' hb' hcuts'
  rw [hb] at hb'
  rcases List.append_eq_append_iff.mp hb' with ⟨mid, rfl, hmid⟩ | ⟨mid, rfl, hmid⟩
  · cases mid with
    | nil =>
      cases hmid
      exact absurd hcuts' hcuts
    | cons x mid =>
      cases hmid
      exact ⟨s, by simp, hs⟩
  · cases mid with
    | nil =>
      cases hmid
      exact absurd hcuts' hcuts
    | cons x mid =>
      cases hmid
      obtain ⟨a, ha⟩ := hbefore s' (by simp)
      exact absurd hcuts' (not_malformed_of_read ha).2

/-- **Incremental configuration.**  On a device whose configuration was parsed, a block is
overlaid as it should exactly if every line that cuts a character comes after a malformed
one. -/
theorem amnezia_block_overlays_iff [Hex] {input : Text}
    (hparsed : (Amnezia3Config.parse input).run = .ok (.ok d.amnezia)) (b : List Setting) (e : ε) :
    d.OverlaysBlock b e ↔
      ∀ before s after, b = before ++ s :: after → s.Cuts → ∃ m ∈ before, m.Malformed := by
  obtain ⟨hpass, hvalid⟩ := Amnezia3Config.parse_valid hparsed
  have hcall := applyAmneziaBlock_eq (b := b) (e := e) hvalid hpass
  rw [ExceptT.run_bind] at hcall
  rcases Fallible.mapM_cases Setting.read b with ⟨as, hread, hall⟩ |
      ⟨before, s, after, hb, hbefore, ⟨err, hs, hread⟩ | ⟨p, hs, hread⟩⟩
  · -- every line is read
    rw [hread] at hcall
    refine iff_of_true (overlaysBlock_of_read hall hcall) ?_
    rintro before s after rfl hcuts
    obtain ⟨-, a, -, -, ha, -⟩ := forall₂_at hall
    exact absurd hcuts (not_malformed_of_read ha).2
  · -- the first line that is not read is refused
    have hmalformed : s.Malformed := malformed_of_not_read fun a ha => by
      rw [hs] at ha
      cases ha
    rw [hread] at hcall
    have hrejects : d.RejectsBlock b e := hcall
    have hmem : s ∈ b := by simp [hb]
    exact iff_of_true ⟨.inl hrejects, iff_of_true hrejects (.inl ⟨s, hmem, hmalformed⟩)⟩
      (cuts_after_malformed hb hbefore hmalformed (s.read_returns_iff.mp ⟨_, hs⟩))
  · -- the first line that is not read cuts a character
    have hmalformed : s.Malformed := malformed_of_not_read fun a ha => by
      rw [hs] at ha
      cases ha
    have hcuts : s.Cuts := by
      by_contra hno
      obtain ⟨r, hr⟩ := s.read_returns_iff.mpr hno
      rw [hs] at hr
      cases hr
    rw [hread] at hcall
    have hmem : s ∈ b := by simp [hb]
    refine iff_of_false (fun h => ?_) fun h => ?_
    · have hrejects := h.rejects_iff.mpr (.inl ⟨s, hmem, hmalformed⟩)
      rw [RejectsBlock, hcall] at hrejects
      cases hrejects
    · obtain ⟨m, hm, hbad⟩ := h before s after hb hcuts
      obtain ⟨a, ha⟩ := hbefore m hm
      exact (not_malformed_of_read ha).1 hbad

end Device

namespace Device

open Amnezia3Config (Setting Overlaid block)

/-- A device without peers, with the standard configuration. -/
def bareDevice : Device Crypto.transparent := .new 1420 ⟨1, 1, 1⟩

/-- A setting with a value that is on one line by inspection. -/
def inlineSetting (f : Amnezia3Config.Field) (value : String)
    (h : value.toList.contains '\n' = false) : Setting :=
  ⟨f, value.toList, by simpa using h⟩

/-- A block that sets one key twice. -/
def junkBlock : List Setting :=
  [inlineSetting .jc "3" rfl, inlineSetting .jmax "80" rfl, inlineSetting .jc " 5\r" rfl]

/-- It is overlaid. -/
theorem amnezia_block_overlays_iff_junk :
    bareDevice.OverlaysBlock junkBlock ({} : StillMachine) := by
  have hparsed : (Amnezia3Config.parse []).run = .ok (.ok bareDevice.amnezia) := by decide +kernel
  refine (amnezia_block_overlays_iff hparsed junkBlock ({} : StillMachine)).mpr ?_
  intro before s after hb hcuts
  have hmem : s ∈ junkBlock := by simp [hb]
  have hkind : ∀ s ∈ junkBlock, s.field.kind ≠ .chain := by
    simp [junkBlock, inlineSetting]
  exact absurd hcuts.1 (hkind s hmem)

/-- A chain with an accent in its bytes. -/
def accentedSetting : Setting := inlineSetting .i1 "<b 0x0é0>" rfl

theorem accentedSetting_cuts : accentedSetting.Cuts := by
  refine ⟨rfl, ?_⟩
  have htrim : trim accentedSetting.value = "<b 0x0é0>".toList := by decide
  rw [htrim]
  refine .here ⟨"b 0x0é0>".toList, by decide, show _ = some ("b 0x0é0".toList, []) by decide⟩ ?_
  exact ⟨"0é0".toList, by decide, by decide, .second (by decide) (by decide)⟩

/-- **A line that stops the program.**  The block has one line, for the first chain.  The
call neither rejects it nor installs a configuration: it does not come back. -/
theorem amnezia_block_panics :
    (Amnezia3Config.parse []).run = .ok (.ok bareDevice.amnezia) ∧
      accentedSetting.Malformed ∧
      ¬ (Api.applyAmneziaBlock bareDevice (block [accentedSetting])
        ({} : StillMachine)).1.Returns := by
  have hparsed : (Amnezia3Config.parse []).run = .ok (.ok bareDevice.amnezia) := by decide +kernel
  obtain ⟨hpass, hvalid⟩ := Amnezia3Config.parse_valid hparsed
  have hread : ¬ accentedSetting.read.run.Returns := fun h =>
    accentedSetting.read_returns_iff.mp h accentedSetting_cuts
  refine ⟨hparsed, malformed_of_not_read fun a ha => hread ⟨_, ha⟩, ?_⟩
  rw [applyAmneziaBlock_eq hvalid hpass, ExceptT.run_bind]
  cases hrun : accentedSetting.read.run with
  | ok r => exact absurd ⟨r, hrun⟩ hread
  | error p =>
    have hall : ([accentedSetting].mapM Setting.read).run = .error p := by
      rw [List.mapM_cons, ExceptT.run_bind, hrun]
      rfl
    rw [hall]
    exact Outcome.not_returns_error p

end Device
