import AwgTun.Lib.Control

/-!
# Settings that are read one after another

A record whose fields are set by name is a function from the fields to their values, and a
setting is a field with a value for it.  Settings are taken in order, so the last one for a
field decides.

* `assignAll_of_not_mem`, `assignAll_of_last` — what a list of settings leaves in a field.
* `assignAll_eq_of_agree` — settings that agree with a record and cover what differs from
  it give that record.
* `Fallible.mapM_cases` — reading a list: every element is read, or the first one that is
  not decides how it ends.
-/

namespace Control

variable {F : Type} {V : F → Type} [DecidableEq F] {f : F}

/-- Give a field a value. -/
def assign (record : ∀ f, V f) (setting : Σ f, V f) : ∀ f, V f :=
  Function.update record setting.1 setting.2

/-- Take settings in order. -/
def assignAll (record : ∀ f, V f) (settings : List (Σ f, V f)) : ∀ f, V f :=
  settings.foldl assign record

theorem assignAll_append (record : ∀ f, V f) (first second : List (Σ f, V f)) :
    assignAll record (first ++ second) = assignAll (assignAll record first) second :=
  List.foldl_append

/-- A field that no setting names keeps its value. -/
theorem assignAll_of_not_mem {settings : List (Σ f, V f)} (h : f ∉ settings.map Sigma.fst)
    (record : ∀ f, V f) : assignAll record settings f = record f := by
  induction settings generalizing record with
  | nil => rfl
  | cons a settings ih =>
    rw [List.map_cons, List.mem_cons, not_or] at h
    have hrest : assignAll (assign record a) settings f = assign record a f := ih h.2 _
    exact hrest.trans (Function.update_of_ne h.1 _ _)

/-- Of the settings for a field, the last one counts. -/
theorem assignAll_of_last {last : List (Σ f, V f)} (h : f ∉ last.map Sigma.fst) (record : ∀ f, V f)
    (first : List (Σ f, V f)) (x : V f) :
    assignAll record (first ++ ⟨f, x⟩ :: last) f = x := by
  rw [assignAll_append]
  have hrest : assignAll (assign (assignAll record first) ⟨f, x⟩) last f =
      assign (assignAll record first) ⟨f, x⟩ f := assignAll_of_not_mem h _
  exact hrest.trans (Function.update_self f x _)

/-- Settings that all agree with a record give that record, if what they leave out is there
already. -/
theorem assignAll_eq_of_agree {record target : ∀ f, V f} {settings : List (Σ f, V f)}
    (hagree : ∀ a ∈ settings, a.2 = target a.1)
    (hrest : ∀ f, f ∉ settings.map Sigma.fst → record f = target f) :
    assignAll record settings = target := by
  induction settings generalizing record with
  | nil =>
    funext f
    exact hrest f (by simp)
  | cons a settings ih =>
    rw [List.forall_mem_cons] at hagree
    refine ih hagree.2 fun f hf => ?_
    by_cases hfa : f = a.1
    · subst hfa
      rw [assign, Function.update_self, hagree.1]
    · rw [assign, Function.update_of_ne hfa]
      exact hrest f (by simp [hfa, hf])

/-- What stands at a place of one list stands at a place of a list that goes with it. -/
theorem forall₂_at {α β : Type} {R : α → β → Prop} {before after : List α} {a : α} {bs : List β}
    (h : List.Forall₂ R (before ++ a :: after) bs) :
    ∃ bs₁ b bs₂, bs = bs₁ ++ b :: bs₂ ∧ R a b ∧ List.Forall₂ R after bs₂ := by
  induction before generalizing bs with
  | nil =>
    cases h with
    | cons hab hafter => exact ⟨[], _, _, rfl, hab, hafter⟩
  | cons x before ih =>
    cases h with
    | @cons _ y _ ys _ hrest =>
      obtain ⟨bs₁, b, bs₂, rfl, hab, hafter⟩ := ih hrest
      exact ⟨y :: bs₁, b, bs₂, rfl, hab, hafter⟩

namespace Fallible

variable {ε α β σ : Type}

theorem ofExcept_map (x : Except ε α) (f : α → β) :
    ofExcept (x.map f) = do return f (← ofExcept x) := by
  cases x <;> rfl

theorem ofExcept_ok_bind (a : α) (f : α → Fallible ε β) : ofExcept (.ok a) >>= f = f a := rfl

theorem ofExcept_error_bind (err : ε) (f : α → Fallible ε β) :
    ofExcept (.error err) >>= f = throw err := rfl

/-- A loop whose body reads an element and then takes it in is a reading of the whole list,
taken in afterwards. -/
theorem foldlM_eq_mapM {step : σ → α → Fallible ε σ} {read : α → Fallible ε β} {take : σ → β → σ}
    (hstep : ∀ s a, step s a = do return take s (← read a)) (as : List α) (s : σ) :
    as.foldlM step s = do return (← as.mapM read).foldl take s := by
  induction as generalizing s with
  | nil => rfl
  | cons a as ih =>
    simp only [List.foldlM_cons, List.mapM_cons, hstep, ih, bind_assoc, pure_bind,
      List.foldl_cons]

theorem adapt_bind {ε' : Type} (g : ε → ε') (x : Fallible ε α) (f : α → Fallible ε β) :
    ExceptT.adapt g (x >>= f) = ExceptT.adapt g x >>= fun a => ExceptT.adapt g (f a) := by
  apply ExceptT.ext
  change (x >>= f).run.map (Except.mapError g) = _
  rw [ExceptT.run_bind, ExceptT.run_bind]
  change _ = x.run.map (Except.mapError g) >>= _
  rcases x.run with p | (err | a) <;> rfl

/-- Renaming the errors of a reader renames those of reading a list. -/
theorem mapM_adapt {ε' : Type} (g : ε → ε') (f : α → Fallible ε β) (as : List α) :
    (as.mapM fun a => ExceptT.adapt g (f a)) = ExceptT.adapt g (as.mapM f) := by
  induction as with
  | nil => rfl
  | cons a as ih =>
    simp only [List.mapM_cons, adapt_bind, ih]
    rfl

/-- How reading a list ends. -/
theorem mapM_cases (f : α → Fallible ε β) (as : List α) :
    (∃ bs, (as.mapM f).run = .ok (.ok bs) ∧
      List.Forall₂ (fun a b => (f a).run = .ok (.ok b)) as bs) ∨
      ∃ before a after, as = before ++ a :: after ∧ (∀ x ∈ before, ∃ y, (f x).run = .ok (.ok y)) ∧
        ((∃ err, (f a).run = .ok (.error err) ∧ (as.mapM f).run = .ok (.error err)) ∨
          ∃ p, (f a).run = .error p ∧ (as.mapM f).run = .error p) := by
  induction as with
  | nil => exact .inl ⟨[], rfl, .nil⟩
  | cons a as ih =>
    have hrun : ((a :: as).mapM f).run = (f a).run >>= fun
        | .ok b => (as.mapM f).run.map (Except.map (b :: ·))
        | .error err => .ok (.error err) := by
      rw [List.mapM_cons, ExceptT.run_bind]
      congr 1
      funext r
      rcases r with err | b
      · rfl
      · change ((as.mapM f) >>= _).run = _
        rw [ExceptT.run_bind]
        rcases (as.mapM f).run with p | (err | bs) <;> rfl
    rw [hrun]
    rcases ha : (f a).run with p | (err | b)
    · exact .inr ⟨[], a, as, rfl, by simp, .inr ⟨p, ha, rfl⟩⟩
    · exact .inr ⟨[], a, as, rfl, by simp, .inl ⟨err, ha, rfl⟩⟩
    · rcases ih with ⟨bs, hbs, hall⟩ | ⟨before, x, after, rfl, hbefore, hx⟩
      · refine .inl ⟨b :: bs, ?_, .cons ha hall⟩
        rw [hbs]
        rfl
      · refine .inr ⟨a :: before, x, after, rfl, ?_, ?_⟩
        · rw [List.forall_mem_cons]
          exact ⟨⟨b, ha⟩, hbefore⟩
        · rcases hx with ⟨err, hx, hend⟩ | ⟨p, hx, hend⟩
          · exact .inl ⟨err, hx, by rw [hend]; rfl⟩
          · exact .inr ⟨p, hx, by rw [hend]; rfl⟩

theorem length_of_mapM {f : α → Fallible ε β} {as : List α} {bs : List β}
    (h : (as.mapM f).run = .ok (.ok bs)) : bs.length = as.length := by
  rcases mapM_cases f as with ⟨bs', hbs, hall⟩ | ⟨_, _, _, -, -, ⟨err, -, hend⟩ | ⟨p, -, hend⟩⟩
  · rw [hbs] at h
    cases h
    exact hall.length_eq.symm
  · rw [hend] at h
    cases h
  · rw [hend] at h
    cases h

end Fallible

end Control
