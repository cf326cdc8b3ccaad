import AwgTun.Device.Device
import AwgTun.Serialization

/-!
# Peer sections of the configuration protocol

`api_set_peer` of `device/api.rs` reads the peer sections of a `set=1` request.  A section
is opened by a `public_key` line; what its lines say is collected in variables and handed
to `update_peer` where the next section begins or the request ends.

* `peerLoop` — the loop, over anything that takes updates.
* `peerLoop_eq_replay` — what it does to a device is the list of calls it makes to a
  recorder.
* `calls_eq_sections_iff` — these calls are the sections taken one at a time exactly if no
  section is silent about a variable that an earlier one has left set.
* `preshared_key_leaks` — a section that is.
-/

open Control Text

/-- `EPROTO`. -/
def eproto : Int := 71

/-- `EINVAL`. -/
def einval : Int := 22

/-- A line of a peer section, other than the `public_key` line that opens one. -/
inductive PeerSetting
  | remove (value : Bool)
  | presharedKey (key : Key)
  | endpoint (addr : SocketAddr)
  | keepalive (interval : UInt16)
  | keepaliveRange (range : U32Range)
  | replaceAllowedIps (value : Bool)
  | allowedIp (ip : AllowedIP)
  | protocolVersion

namespace PeerSetting

/-- A value that is parsed or refused with `EINVAL`. -/
def orEinval {α : Type} (value : Option α) (setting : α → PeerSetting) : Fallible Int PeerSetting :=
  match value with
  | some a => return setting a
  | none => throw einval

/-- What a line asks for. -/
def parse (key val : Text) : Fallible Int PeerSetting :=
  match String.ofList key with
  | "remove" => orEinval (parseBool val) remove
  | "preshared_key" => ExceptT.adapt (fun _ => einval) do
      let keyBytes ← KeyBytes.fromStr val
      return presharedKey keyBytes
  | "endpoint" => orEinval (SocketAddr.parse val) endpoint
  | "persistent_keepalive_interval" =>
      match parseU16 val with
      | .ok interval => return keepalive interval
      -- not a plain interval: a range
      | .error _ => orEinval (U32Range.parse val).toOption keepaliveRange
  | "replace_allowed_ips" => orEinval (parseBool val) replaceAllowedIps
  | "allowed_ip" => orEinval (AllowedIP.fromStr val).toOption allowedIp
  | "protocol_version" =>
      match parseU32 val with
      | .ok 1 => return protocolVersion
      | _ => throw einval
  | _ => throw einval

/-- What a line does to the variables. -/
def apply (u : PeerUpdate) : PeerSetting → PeerUpdate
  | remove value => { u with remove := value }
  | presharedKey key => { u with presharedKey := some key }
  | endpoint addr => { u with endpoint := some addr }
  | keepalive interval => { u with keepalive := some interval }
  | keepaliveRange range => { u with keepaliveRange := some range }
  | replaceAllowedIps value => { u with replaceIps := value }
  | allowedIp ip => { u with allowedIps := u.allowedIps ++ [ip] }
  | protocolVersion => u

end PeerSetting

/-- The variables where a section begins: of the section before, only the addresses are
cleared. -/
def PeerUpdate.openSection (u : PeerUpdate) (publicKey : Key) : PeerUpdate :=
  { u with publicKey := publicKey, allowedIps := [] }

/-- The variables that are not cleared between sections. -/
inductive PeerField
  | remove
  | replaceIps
  | endpoint
  | keepalive
  | keepaliveRange
  | presharedKey
  deriving DecidableEq, Repr

/-- The variable does not have its first value. -/
def PeerUpdate.isSet (u : PeerUpdate) : PeerField → Bool
  | .remove => u.remove
  | .replaceIps => u.replaceIps
  | .endpoint => u.endpoint.isSome
  | .keepalive => u.keepalive.isSome
  | .keepaliveRange => u.keepaliveRange.isSome
  | .presharedKey => u.presharedKey.isSome

/-- The variable has one value in both. -/
def PeerUpdate.SameField (u v : PeerUpdate) : PeerField → Prop
  | .remove => u.remove = v.remove
  | .replaceIps => u.replaceIps = v.replaceIps
  | .endpoint => u.endpoint = v.endpoint
  | .keepalive => u.keepalive = v.keepalive
  | .keepaliveRange => u.keepaliveRange = v.keepaliveRange
  | .presharedKey => u.presharedKey = v.presharedKey

/-- The variable a line assigns, unless it is a list or none. -/
def PeerSetting.field : PeerSetting → Option PeerField
  | .remove _ => some .remove
  | .replaceAllowedIps _ => some .replaceIps
  | .endpoint _ => some .endpoint
  | .keepalive _ => some .keepalive
  | .keepaliveRange _ => some .keepaliveRange
  | .presharedKey _ => some .presharedKey
  | .allowedIp _ | .protocolVersion => none

/-- The line gives its variable the first value again. -/
def PeerSetting.resets : PeerSetting → Bool
  | .remove value | .replaceAllowedIps value => !value
  | _ => false

/-- What `read_line` gives one call after the other: the lines with their line feeds, and
whether reading fails behind them. -/
structure LineReader where
  lines : List Text
  broken : Bool := false

/-- Reading a text to its end. -/
def LineReader.ofText (text : Text) : LineReader := { lines := splitInclusive text }

/-- What the loop makes of a line. -/
inductive PeerLine
  /-- An empty line ends the request. -/
  | finish
  /-- A line that cannot be read ends it with a status, or panics. -/
  | stop (result : Outcome Int)
  /-- A `public_key` line and what became of its value. -/
  | nextSection (publicKey : Outcome (Except String Key))
  | set (setting : PeerSetting)

/-- Read one line, without its line feed. -/
def PeerLine.read (cmd : Text) : PeerLine :=
  if cmd = [] then .finish
  else
    match splitOnce '=' cmd with
    | none => .stop (.ok eproto)
    | some (key, val) =>
        if key = "public_key".toList then .nextSection (KeyBytes.fromStr val).run
        else
          match (PeerSetting.parse key val).run with
          | .error p => .stop (.error p)
          | .ok (.error status) => .stop (.ok status)
          | .ok (.ok setting) => .set setting

namespace Api

variable {settings : List PeerSetting}

/-- Hand the collected values to `update_peer` and return. -/
def finish {σ : Type} (update : σ → PeerUpdate → Outcome Unit × σ) (u : PeerUpdate) (d : σ) :
    Outcome Int × σ :=
  let (result, d) := update d u
  (result.map fun _ => 0, d)

/-- The loop of `api_set_peer`: the status it returns and the state of what it updates. -/
def peerLoop {σ : Type} (update : σ → PeerUpdate → Outcome Unit × σ) (broken : Bool) :
    List Text → PeerUpdate → σ → Outcome Int × σ
  -- the end of the stream reads as an empty line
  | [], u, d => if broken then (.ok 0, d) else finish update u d
  | line :: rest, u, d =>
      match PeerLine.read line.dropLast with
      | .finish => finish update u d
      | .stop result => (result, d)
      | .set setting => peerLoop update broken rest (setting.apply u) d
      | .nextSection publicKey =>
          -- the update comes first, also when the new key turns out to be no key
          match update d u with
          | (.error p, d) => (.error p, d)
          | (.ok (), d) =>
              match publicKey with
              | .error p => (.error p, d)
              | .ok (.error _) => (.ok einval, d)
              | .ok (.ok publicKey) => peerLoop update broken rest (u.openSection publicKey) d

/-- `api_set_peer`. -/
def apiSetPeer [IpTable] {C : Crypto} {ε : Type} [Env ε] (reader : LineReader) (d : Device C)
    (pubKey : Key) (e : ε) : Outcome Int × Device C × ε :=
  peerLoop (fun (s : Device C × ε) u => s.1.updatePeer u s.2) reader.broken reader.lines
    { publicKey := pubKey } (d, e)

/-! ## The calls it makes -/

/-- An update that is only written down. -/
def record (log : List PeerUpdate) (u : PeerUpdate) : Outcome Unit × List PeerUpdate :=
  (.ok (), log ++ [u])

/-- The calls of `update_peer` that a request leads to. -/
def calls (reader : LineReader) (pubKey : Key) : List PeerUpdate :=
  (peerLoop record reader.broken reader.lines { publicKey := pubKey } []).2

/-- Make a list of calls, up to the first that panics. -/
def replay {σ : Type} (update : σ → PeerUpdate → Outcome Unit × σ) :
    List PeerUpdate → σ → Outcome Unit × σ
  | [], d => (.ok (), d)
  | u :: us, d =>
      match update d u with
      | (.error p, d) => (.error p, d)
      | (.ok (), d) => replay update us d

theorem peerLoop_record (broken : Bool) (lines : List Text) (u : PeerUpdate)
    (log : List PeerUpdate) :
    peerLoop record broken lines u log =
      ((peerLoop record broken lines u []).1, log ++ (peerLoop record broken lines u []).2) := by
  induction lines generalizing u log with
  | nil => cases broken <;> simp [peerLoop, finish, record]
  | cons line rest ih =>
    rw [peerLoop, peerLoop]
    cases PeerLine.read line.dropLast with
    | finish => simp [finish, record]
    | stop result => simp
    | set setting => exact ih _ log
    | nextSection publicKey =>
      simp only [record, List.nil_append]
      match publicKey with
      | .error p => rfl
      | .ok (.error _) => rfl
      | .ok (.ok publicKey) =>
        simp only
        rw [ih _ (log ++ [u]), ih _ [u], List.append_assoc]

/-- **The request is the calls it makes**: the loop leaves a device as these calls would. -/
theorem peerLoop_eq_replay {σ : Type} (update : σ → PeerUpdate → Outcome Unit × σ) (broken : Bool)
    (lines : List Text) (u : PeerUpdate) (d : σ) :
    peerLoop update broken lines u d =
      let log := peerLoop record broken lines u []
      let after := replay update log.2 d
      (after.1.bind fun _ => log.1, after.2) := by
  have hfinish (u : PeerUpdate) (d : σ) : finish update u d =
      ((replay update [u] d).1.bind fun _ => .ok 0, (replay update [u] d).2) := by
    rw [finish, replay]
    rcases update d u with ⟨p | _, d'⟩ <;> rfl
  induction lines generalizing u d with
  | nil =>
    cases broken with
    | true => rfl
    | false => exact hfinish u d
  | cons line rest ih =>
    rw [peerLoop, peerLoop]
    cases PeerLine.read line.dropLast with
    | finish => exact hfinish u d
    | stop result => rfl
    | set setting => exact ih _ d
    | nextSection publicKey =>
      match publicKey with
      | .error p | .ok (.error _) =>
        simp only [record, List.nil_append, replay]
        rcases update d u with ⟨p | _, d'⟩ <;> rfl
      | .ok (.ok publicKey) =>
        simp only [record, List.nil_append]
        rw [peerLoop_record broken rest _ [u]]
        simp only [List.singleton_append, replay]
        rcases update d u with ⟨p | _, d'⟩
        · rfl
        · exact ih _ d'

/-! ## Sections on their own -/

/-- The key that opens a section, and its lines. -/
structure PeerSection where
  publicKey : Key
  settings : List PeerSetting

/-- The call that a section makes on its own. -/
def PeerSection.update (s : PeerSection) : PeerUpdate :=
  s.settings.foldl PeerSetting.apply { publicKey := s.publicKey }

/-- The sections of a request that are read to their end. -/
def sections (broken : Bool) : List Text → PeerSection → List PeerSection
  | [], s => if broken then [] else [s]
  | line :: rest, s =>
      match PeerLine.read line.dropLast with
      | .finish => [s]
      | .stop _ => []
      | .set setting => sections broken rest { s with settings := s.settings ++ [setting] }
      | .nextSection publicKey =>
          s ::
            match publicKey with
            | .ok (.ok publicKey) => sections broken rest ⟨publicKey, []⟩
            | _ => []

/-- The variables after a section, when they came into it as `u`. -/
def runSection (u : PeerUpdate) (s : PeerSection) : PeerUpdate :=
  s.settings.foldl PeerSetting.apply (u.openSection s.publicKey)

/-- The calls for a list of sections, each with the variables as the one before left them. -/
def carried : PeerUpdate → List PeerSection → List PeerUpdate
  | _, [] => []
  | u, s :: ss => runSection u s :: carried (runSection u s) ss

theorem peerLoop_record_eq_carried (broken : Bool) (lines : List Text) (u : PeerUpdate)
    (s : PeerSection) :
    (peerLoop record broken lines (runSection u s) []).2 = carried u (sections broken lines s) := by
  induction lines generalizing u s with
  | nil => cases broken <;> rfl
  | cons line rest ih =>
    rw [peerLoop, sections]
    cases PeerLine.read line.dropLast with
    | finish => rfl
    | stop result => rfl
    | set setting =>
      have hset : setting.apply (runSection u s) =
          runSection u { s with settings := s.settings ++ [setting] } := by
        simp only [runSection, List.foldl_append, List.foldl_cons, List.foldl_nil]
      simp only [hset]
      exact ih u _
    | nextSection publicKey =>
      simp only [record, List.nil_append, carried]
      match publicKey with
      | .error p => rfl
      | .ok (.error _) => rfl
      | .ok (.ok publicKey) =>
        simp only
        rw [peerLoop_record, List.singleton_append]
        exact congrArg _ (ih (runSection u s) ⟨publicKey, []⟩)

/-! ## What a section leaves behind -/

/-- The lines assign the variable, and the last line that does so sets it. -/
def leavesSet (settings : List PeerSetting) (f : PeerField) : Bool :=
  ((settings.filter fun setting => setting.field = some f).getLast?).any fun setting =>
    !setting.resets

/-- The section has a line for the variable. -/
def PeerSection.Assigns (s : PeerSection) (f : PeerField) : Prop :=
  ∃ setting ∈ s.settings, setting.field = some f

/-- A section has a line for every variable that the sections before it leave set. -/
def Independent (ss : List PeerSection) : Prop :=
  ∀ before s after, ss = before ++ s :: after →
    ∀ f, leavesSet (before.flatMap PeerSection.settings) f = true → s.Assigns f

theorem isSet_apply (u : PeerUpdate) (setting : PeerSetting) (f : PeerField) :
    (setting.apply u).isSet f =
      if setting.field = some f then !setting.resets else u.isSet f := by
  cases setting <;> cases f <;> simp [PeerSetting.apply, PeerUpdate.isSet, PeerSetting.field,
    PeerSetting.resets]

/-- After some lines a variable is set if they leave it so, or if they do not assign it and
it was. -/
theorem isSet_foldl (u : PeerUpdate) (settings : List PeerSetting) (f : PeerField) :
    (settings.foldl PeerSetting.apply u).isSet f =
      if ∃ setting ∈ settings, setting.field = some f then leavesSet settings f else u.isSet f := by
  induction settings using List.reverseRecOn with
  | nil => simp
  | append_singleton settings setting ih =>
    rw [List.foldl_append, List.foldl_cons, List.foldl_nil, isSet_apply]
    by_cases hlast : setting.field = some f
    · rw [if_pos hlast, if_pos ⟨setting, by simp, hlast⟩]
      simp [leavesSet, hlast]
    · have hiff : (∃ x ∈ settings ++ [setting], x.field = some f) ↔
          ∃ x ∈ settings, x.field = some f := by
        simp [hlast]
      have hsame : leavesSet (settings ++ [setting]) f = leavesSet settings f := by
        simp [leavesSet, hlast]
      rw [if_neg hlast, ih, hsame]
      simp only [hiff]

theorem leavesSet_of_unassigned {f : PeerField}
    (h : ¬ ∃ setting ∈ settings, setting.field = some f) : leavesSet settings f = false := by
  have hnil : (settings.filter fun setting => setting.field = some f) = [] := by
    rw [List.filter_eq_nil_iff]
    intro setting hmem
    simpa using fun hf => h ⟨setting, hmem, hf⟩
  simp [leavesSet, hnil]

/-- Lines that assign every variable in which two starting points differ lead to one
result. -/
theorem foldl_apply_congr {u v : PeerUpdate} (hkey : u.publicKey = v.publicKey)
    (hips : u.allowedIps = v.allowedIps)
    (h : ∀ f, u.SameField v f ∨ ∃ setting ∈ settings, setting.field = some f) :
    settings.foldl PeerSetting.apply u = settings.foldl PeerSetting.apply v := by
  induction settings generalizing u v with
  | nil =>
    have hsame (f : PeerField) : u.SameField v f := (h f).resolve_right (by simp)
    exact PeerUpdate.ext hkey (hsame .remove) (hsame .replaceIps) (hsame .endpoint) hips
      (hsame .keepalive) (hsame .keepaliveRange) (hsame .presharedKey)
  | cons setting settings ih =>
    rw [List.foldl_cons, List.foldl_cons]
    apply ih
    · cases setting <;> exact hkey
    · cases setting <;> simp only [PeerSetting.apply, hips]
    · intro f
      rcases h f with hsame | ⟨x, hx, hfield⟩
      · left
        cases setting <;> cases f <;> first | exact hsame | rfl
      · rcases List.mem_cons.mp hx with rfl | hmem
        · left
          cases x <;> cases hfield <;> rfl
        · exact .inr ⟨x, hmem, hfield⟩

/-- A section ends as it would on its own exactly if it assigns every variable that came
into it set. -/
theorem runSection_eq_update_iff (u : PeerUpdate) (s : PeerSection) :
    runSection u s = s.update ↔ ∀ f, u.isSet f = true → s.Assigns f := by
  have hopen (f : PeerField) : (u.openSection s.publicKey).isSet f = u.isSet f := by cases f <;> rfl
  constructor
  · intro heq f hset
    by_contra hno
    rw [PeerSection.Assigns] at hno
    have hrun := isSet_foldl (u.openSection s.publicKey) s.settings f
    have hown := isSet_foldl { publicKey := s.publicKey } s.settings f
    rw [if_neg hno, hopen, hset] at hrun
    rw [if_neg hno] at hown
    rw [runSection, PeerSection.update] at heq
    rw [heq, hown] at hrun
    cases f <;> cases hrun
  · intro h
    refine foldl_apply_congr rfl rfl fun f => ?_
    cases hset : u.isSet f with
    | true => exact .inr (h f hset)
    | false =>
      left
      cases f <;> simpa [PeerUpdate.isSet, PeerUpdate.SameField, PeerUpdate.openSection] using hset

/-- What comes into a section: what the lines before it leave set. -/
theorem isSet_foldl_runSection (u : PeerUpdate) (ss : List PeerSection) (f : PeerField)
    (hu : u.isSet f = false) :
    (ss.foldl runSection u).isSet f = leavesSet (ss.flatMap PeerSection.settings) f := by
  have hflat (u : PeerUpdate) : (ss.foldl runSection u).isSet f =
      ((ss.flatMap PeerSection.settings).foldl PeerSetting.apply u).isSet f := by
    induction ss generalizing u with
    | nil => rfl
    | cons s ss ih =>
      have hopen : (u.openSection s.publicKey).isSet f = u.isSet f := by cases f <;> rfl
      rw [List.foldl_cons, ih, List.flatMap_cons, List.foldl_append, isSet_foldl, isSet_foldl,
        runSection, isSet_foldl, isSet_foldl, hopen]
  rw [hflat, isSet_foldl]
  split_ifs with hassigned
  · rfl
  · rw [hu, leavesSet_of_unassigned hassigned]

theorem carried_eq_iff (u : PeerUpdate) (ss : List PeerSection) :
    carried u ss = ss.map PeerSection.update ↔
      ∀ before s after, ss = before ++ s :: after →
        ∀ f, (before.foldl runSection u).isSet f = true → s.Assigns f := by
  induction ss generalizing u with
  | nil =>
    refine iff_of_true rfl fun before s after h => ?_
    simp at h
  | cons s ss ih =>
    rw [carried, List.map_cons, List.cons.injEq, runSection_eq_update_iff, ih]
    constructor
    · rintro ⟨hfirst, hrest⟩ before s' after heq
      cases before with
      | nil =>
        cases heq
        exact hfirst
      | cons b before =>
        cases heq
        exact hrest before s' after rfl
    · intro h
      refine ⟨h [] s ss rfl, fun before s' after heq => ?_⟩
      rw [heq] at h
      exact h (s :: before) s' after rfl

/-- **Peer sections are independent** exactly if every section has a line for each variable
that the lines of the sections before it leave set. -/
theorem calls_eq_sections_iff (reader : LineReader) (pubKey : Key) :
    calls reader pubKey =
        (sections reader.broken reader.lines ⟨pubKey, []⟩).map PeerSection.update ↔
      Independent (sections reader.broken reader.lines ⟨pubKey, []⟩) := by
  have hcalls : calls reader pubKey =
      carried { publicKey := pubKey } (sections reader.broken reader.lines ⟨pubKey, []⟩) :=
    peerLoop_record_eq_carried reader.broken reader.lines { publicKey := pubKey } ⟨pubKey, []⟩
  have hfresh (f : PeerField) : ({ publicKey := pubKey } : PeerUpdate).isSet f = false := by
    cases f <;> rfl
  rw [hcalls, carried_eq_iff, Independent]
  simp only [isSet_foldl_runSection _ _ _ (hfresh _)]

/-- The first of two sections has a preshared key.  It is passed for the second peer too. -/
theorem preshared_key_leaks :
    let reader := LineReader.ofText
      ("preshared_key=".toList ++ List.replicate 64 '1' ++ "\npublic_key=".toList ++
        List.replicate 64 '2' ++ "\n\n".toList)
    let first : Key := zeroKey
    let second : Key := ⟨List.replicate 32 0x22, rfl⟩
    let secret : Key := ⟨List.replicate 32 0x11, rfl⟩
    calls reader first =
        [{ publicKey := first, presharedKey := some secret },
          { publicKey := second, presharedKey := some secret }] ∧
      (sections reader.broken reader.lines ⟨first, []⟩).map PeerSection.update =
        [{ publicKey := first, presharedKey := some secret }, { publicKey := second }] := by
  decide +kernel

end Api
