import AwgTun.Lib.TextWrite

/-!
# Loops over the lines of a stream

A loop reads a stream line by line, takes the terminator off each and hands the rest to whatever
state it is in, which goes on or ends the loop.  How the terminator is taken off is a parameter:
what a loop has read can then be compared with what it would have read of whole lines.

* `run`, `log`, `after` — the result of the loop, the pairs it came across, and where it gets to.
* `log_chomp_eq_iff` — of whole lines it reads the pairs of the text, unless it stops early.
* `log_dropLast_eq_iff` — a loop that drops the last character of each line reads them exactly if it
  neither stops early nor is cut.
-/

open Text

namespace LineLoop

/-- The key and the value of a line, if it has them. -/
def pair (cmd : Text) : List (Text × Text) := (splitOnce '=' cmd).toList

/-- A line without its line feed, if it has one. -/
def chomp (line : Text) : Text := if line.getLast? = some '\n' then line.dropLast else line

/-- The lines of a text up to the first blank one, without their line feeds. -/
def commands (text : Text) : List Text := ((splitInclusive text).map chomp).takeWhile (· ≠ [])

/-- The key=value lines of a text up to the first blank one. -/
def keyValueLines (text : Text) : List (Text × Text) := (commands text).flatMap pair

variable {σ ρ : Type} (turn : σ → Text → ρ ⊕ σ) (strip : Text → Text)

/-- What the loop returns. -/
def run (atEnd : σ → ρ) : List Text → σ → ρ
  | [], s => atEnd s
  | line :: rest, s =>
      match turn s (strip line) with
      | .inl result => result
      | .inr s => run atEnd rest s

/-- The pairs that the loop comes across, the one it ends with included. -/
def log : List Text → σ → List (Text × Text)
  | [], _ => []
  | line :: rest, s =>
      pair (strip line) ++
        match turn s (strip line) with
        | .inl _ => []
        | .inr s => log rest s

/-- Where the loop is after these lines, if it does not end before. -/
def after : List Text → σ → Option σ
  | [], s => some s
  | line :: rest, s =>
      match turn s (strip line) with
      | .inl _ => none
      | .inr s => after rest s

variable {turn strip}

theorem log_append (front rest : List Text) (s : σ) :
    log turn strip (front ++ rest) s =
      log turn strip front s ++ ((after turn strip front s).map (log turn strip rest)).getD [] := by
  induction front generalizing s with
  | nil => rfl
  | cons line front ih =>
    rw [List.cons_append, log, log, after]
    cases turn s (strip line) with
    | inl result => simp
    | inr s' => simp only [ih, List.append_assoc]

theorem log_congr {strip' : Text → Text} {lines : List Text}
    (h : ∀ line ∈ lines, strip line = strip' line) (s : σ) :
    log turn strip lines s = log turn strip' lines s ∧
      after turn strip lines s = after turn strip' lines s := by
  induction lines generalizing s with
  | nil => exact ⟨rfl, rfl⟩
  | cons line lines ih =>
    have hrest := ih fun x hx => h x (List.mem_cons_of_mem _ hx)
    rw [log, log, after, after, h line List.mem_cons_self]
    cases turn s (strip' line) with
    | inl result => exact ⟨rfl, rfl⟩
    | inr s' => exact ⟨congrArg _ (hrest s').1, (hrest s').2⟩

/-! ## Whole lines -/

/-- A line ends the loop, and there is a pair behind it. -/
def StopsEarly (turn : σ → Text → ρ ⊕ σ) : List Text → σ → Prop
  | [], _ => False
  | line :: rest, s =>
      match turn s line with
      | .inl _ => ∃ later ∈ rest, '=' ∈ later
      | .inr s => StopsEarly turn rest s

theorem pair_eq_nil_iff {line : Text} : pair line = [] ↔ '=' ∉ line := by
  rw [pair, Option.toList_eq_nil_iff, splitOnce_eq_none_iff]

theorem log_id_eq_iff (lines : List Text) (s : σ) :
    log turn id lines s = lines.flatMap pair ↔ ¬ StopsEarly turn lines s := by
  induction lines generalizing s with
  | nil => exact iff_of_true rfl id
  | cons line rest ih =>
    rw [log, StopsEarly, List.flatMap_cons, id, List.append_cancel_left_eq]
    cases turn s line with
    | inl result =>
      simp only
      rw [eq_comm, List.flatMap_eq_nil_iff]
      simp only [pair_eq_nil_iff, not_exists, not_and]
    | inr s' => exact ih s'

/-- The loop ends with a blank line, if not before. -/
theorem log_chomp_eq_log_id (hblank : ∀ s, ∃ result, turn s [] = .inl result) (lines : List Text)
    (s : σ) :
    log turn chomp lines s = log turn id ((lines.map chomp).takeWhile (· ≠ [])) s := by
  induction lines generalizing s with
  | nil => rfl
  | cons line lines ih =>
    rw [log, List.map_cons]
    by_cases hempty : chomp line = []
    · obtain ⟨result, hstop⟩ := hblank s
      rw [hempty, hstop]
      rfl
    · rw [List.takeWhile_cons_of_pos (by simpa using hempty), log, id]
      cases turn s (chomp line) with
      | inl result => rfl
      | inr s' => exact congrArg _ (ih s')

/-- **Whole lines.** -/
theorem log_chomp_eq_iff (hblank : ∀ s, ∃ result, turn s [] = .inl result) (text : Text) (s : σ) :
    log turn chomp (splitInclusive text) s = keyValueLines text ↔
      ¬ StopsEarly turn (commands text) s := by
  rw [log_chomp_eq_log_id hblank]
  exact log_id_eq_iff (commands text) s

/-- A loop that gets to the last line does not stop early. -/
theorem not_stopsEarly_of_after (hblank : ∀ s, ∃ result, turn s [] = .inl result)
    {front : List Text} {s s' : σ} (h : after turn chomp front s = some s') (last : Text) :
    ¬ StopsEarly turn (((front ++ [last]).map chomp).takeWhile (· ≠ [])) s := by
  induction front generalizing s with
  | nil =>
    rw [List.nil_append, List.map_singleton, List.takeWhile_cons]
    split
    · rw [List.takeWhile_nil, StopsEarly]
      cases turn s (chomp last) <;> simp [StopsEarly]
    · exact id
  | cons line front ih =>
    rw [after] at h
    have hline : chomp line ≠ [] := by
      intro hempty
      obtain ⟨result, hstop⟩ := hblank s
      rw [hempty, hstop] at h
      cases h
    rw [List.cons_append, List.map_cons, List.takeWhile_cons_of_pos (by simpa using hline),
      StopsEarly]
    cases hturn : turn s (chomp line) with
    | inl result =>
      rw [hturn] at h
      cases h
    | inr s'' =>
      rw [hturn] at h
      exact ih h

/-! ## Dropping the last character -/

/-- Without its last character a line has another pair, if it has one at all. -/
theorem pair_dropLast_eq_iff (line : Text) : pair line.dropLast = pair line ↔ '=' ∉ line := by
  unfold pair
  cases hsplit : splitOnce '=' line with
  | none =>
    have hnot := splitOnce_eq_none_iff.mp hsplit
    have hdrop : splitOnce '=' line.dropLast = none :=
      splitOnce_eq_none_iff.mpr (mt List.mem_of_mem_dropLast hnot)
    rw [hdrop]
    exact iff_of_true rfl hnot
  | some kv =>
    obtain ⟨key, val⟩ := kv
    obtain ⟨rfl, hkey⟩ := splitOnce_eq_some_iff.mp hsplit
    refine iff_of_false ?_ (by simp)
    rw [List.dropLast_append_cons]
    cases val with
    | nil =>
      -- the sign itself is dropped
      rw [List.dropLast_singleton, List.append_nil, splitOnce_eq_none_iff.mpr hkey]
      simp
    | cons c val =>
      rw [List.dropLast_cons_cons, splitOnce_append hkey]
      intro h
      have hlen := congrArg List.length (Prod.mk.inj (List.cons.inj h).1).2
      simp at hlen

/-- The last line has no line feed, and a pair, and the loop reaches it. -/
def Cut (turn : σ → Text → ρ ⊕ σ) (text : Text) (s : σ) : Prop :=
  ∃ front last s', splitInclusive text = front ++ [last] ∧ last.getLast? ≠ some '\n' ∧
    after turn chomp front s = some s' ∧ '=' ∈ last

/-- Dropping the last character is taking the terminator off, unless the loop is cut. -/
theorem log_dropLast_eq_chomp_iff (text : Text) (s : σ) :
    log turn List.dropLast (splitInclusive text) s = log turn chomp (splitInclusive text) s ↔
      ¬ Cut turn text s := by
  rcases List.eq_nil_or_concat' (splitInclusive text) with hnil | ⟨front, last, hpieces⟩
  · rw [hnil]
    refine iff_of_true rfl ?_
    rintro ⟨front, last, s', hpieces, -⟩
    rw [hnil] at hpieces
    exact List.append_ne_nil_of_right_ne_nil front (List.cons_ne_nil last []) hpieces.symm
  have hfront : ∀ line ∈ front, line.dropLast = chomp line := by
    intro line hline
    have hfeed : line.getLast? = some '\n' :=
      getLast?_of_mem_splitInclusive_dropLast (by rw [hpieces, List.dropLast_concat]; exact hline)
    rw [chomp, if_pos hfeed]
  obtain ⟨hlog, hafter⟩ : log turn List.dropLast front s = log turn chomp front s ∧
    after turn List.dropLast front s = after turn chomp front s := log_congr hfront s
  have hcut : Cut turn text s ↔ last.getLast? ≠ some '\n' ∧
      (∃ s', after turn chomp front s = some s') ∧ '=' ∈ last := by
    constructor
    · rintro ⟨front', last', s', hpieces', hfeed, hs', hmem⟩
      rw [hpieces] at hpieces'
      obtain ⟨rfl, hlast⟩ := List.append_inj' hpieces' rfl
      cases hlast
      exact ⟨hfeed, ⟨s', hs'⟩, hmem⟩
    · rintro ⟨hfeed, ⟨s', hs'⟩, hmem⟩
      exact ⟨front, last, s', hpieces, hfeed, hs', hmem⟩
  rw [hpieces, log_append, log_append, hlog, hafter, hcut, List.append_cancel_left_eq]
  cases hs' : after turn chomp front s with
  | none => exact iff_of_true rfl (by rintro ⟨-, ⟨s', ⟨⟩⟩, -⟩)
  | some s' =>
    have hone : ∀ strip : Text → Text, log turn strip [last] s' = pair (strip last) := by
      intro strip
      rw [log]
      cases turn s' (strip last) <;> exact List.append_nil _
    simp only [Option.map_some, Option.getD_some, hone]
    by_cases hfeed : last.getLast? = some '\n'
    · rw [chomp, if_pos hfeed]
      exact iff_of_true rfl fun h => h.1 hfeed
    · rw [chomp, if_neg hfeed, pair_dropLast_eq_iff]
      exact ⟨fun hno h => hno h.2.2, fun h hmem => h ⟨hfeed, ⟨s', rfl⟩, hmem⟩⟩

/-- A loop that is cut gets to the last line. -/
theorem Cut.not_stopsEarly (hblank : ∀ s, ∃ result, turn s [] = .inl result) {text : Text} {s : σ}
    (h : Cut turn text s) : ¬ StopsEarly turn (commands text) s := by
  obtain ⟨front, last, s', hpieces, -, hafter, -⟩ := h
  rw [commands, hpieces]
  exact not_stopsEarly_of_after hblank hafter last

/-- **A loop that drops the last character of each line** reads the pairs of the text exactly if it
is not cut and does not stop early. -/
theorem log_dropLast_eq_iff (hblank : ∀ s, ∃ result, turn s [] = .inl result)
    (text : Text) (s : σ) :
    log turn List.dropLast (splitInclusive text) s = keyValueLines text ↔
      ¬ Cut turn text s ∧ ¬ StopsEarly turn (commands text) s := by
  by_cases hcut : Cut turn text s
  · -- whole lines would all be read
    have hwhole := (log_chomp_eq_iff hblank text s).mpr (hcut.not_stopsEarly hblank)
    rw [← hwhole, log_dropLast_eq_chomp_iff]
    exact iff_of_false (not_not_intro hcut) fun h => h.1 hcut
  · rw [(log_dropLast_eq_chomp_iff text s).mpr hcut, log_chomp_eq_iff hblank, and_iff_right hcut]

end LineLoop
