-- SUMMARY: Histories of calls of a solver: which calls may follow each other, and what every history keeps.
import BoxLayout.Proofs.Edits
import BoxLayout.Solver.Command

/-!
# Histories of a solver

A history runs smoothly if no call in it reports a contradiction or a fault, or runs out
of steps. Calls that are refused for what was asked, such as adding a constraint twice,
are part of a smooth history.

Every smooth history from the empty solver leaves a sound solver, by one lemma about a
single call and an induction. Symbols are issued once: a symbol that is given up, be it
that of a removed constraint or the artificial one, never comes back into use
(`Precedes`).
-/

namespace BoxLayout

/-- After this error nothing is promised about the solver. -/
def SolverError.isFatal : SolverError → Bool
  | unsatisfiableConstraint | outOfSteps | internal _ => true
  | duplicateConstraint | unknownConstraint | duplicateEditVariable | unknownEditVariable => false
  | nonFiniteValue | badRequiredStrength => false

theorem Constraint.Made.weight_nonneg {c : Constraint Rat} (h : c.Made) : 0 ≤ c.strength.weight := by
  obtain ⟨label, e, r, w, rfl⟩ := h
  exact w.clip_nonneg

namespace Solver

variable {s s' s'' : Solver Rat} {label : Label} {a : Active Rat} {x : Symbol} {e : SolverError}

/-- The call ends in a fatal error. -/
def Command.isFatal (c : Command Rat) (s : Solver Rat) : Bool :=
  match (c.perform s).1 with
  | .ok _ => false
  | .error e => e.isFatal

/-- No call of the history ends in a fatal error. -/
def Smooth (s : Solver Rat) : List (Command Rat) → Prop
  | [] => True
  | c :: history => c.isFatal s = false ∧ Smooth (c.perform s).2 history

instance decidableSmooth : (s : Solver Rat) → (history : List (Command Rat)) →
    Decidable (s.Smooth history)
  | _, [] => inferInstanceAs (Decidable True)
  | s, c :: history =>
    let _ := decidableSmooth (c.perform s).2 history
    inferInstanceAs (Decidable (c.isFatal s = false ∧ Smooth (c.perform s).2 history))

/-! ## What comes after -/

/-- What is in use later and had been issued before was in use before. -/
structure Precedes (s s' : Solver Rat) : Prop where
  count : s.tableau.symbolCount ≤ s'.tableau.symbolCount
  constraints : ∀ label a, s'.constraints.get? label = some a →
    s.constraints.get? label = some a ∨ ∀ x ∈ a.tag.symbols, s.tableau.symbolCount < x.number
  tracked : ∀ y known, s'.tracked.get? y = some known →
    (∃ known', s.tracked.get? y = some known' ∧ known'.symbol = known.symbol) ∨
      s.tableau.symbolCount < known.symbol.number

namespace Precedes

theorem refl (s : Solver Rat) : Precedes s s :=
  ⟨le_refl _, fun _ _ h => Or.inl h, fun _ known h => Or.inl ⟨known, h, rfl⟩⟩

theorem trans (h : Precedes s s') (h' : Precedes s' s'') : Precedes s s'' := by
  refine ⟨h.count.trans h'.count, fun label a ha => ?_, fun y known hy => ?_⟩
  · obtain hold | hnew := h'.constraints label a ha
    · exact h.constraints label a hold
    · exact Or.inr fun x hx => h.count.trans_lt (hnew x hx)
  · obtain ⟨known', hold, hsame⟩ | hnew := h'.tracked y known hy
    · obtain ⟨known'', hold', hsame'⟩ | hnew := h.tracked y known' hold
      · exact Or.inl ⟨known'', hold', hsame'.trans hsame⟩
      · exact Or.inr (hsame ▸ hnew)
    · exact Or.inr (h.count.trans_lt hnew)

/-- A symbol that has been issued and is not in use does not come into use again. -/
theorem not_uses (h : Precedes s s') (hissued : x.number ≤ s.tableau.symbolCount)
    (hx : ¬s.Uses x) : ¬s'.Uses x := by
  rintro (⟨y, known, hy, rfl⟩ | ⟨label, a, ha, hmem⟩)
  · obtain ⟨known', hold, hsame⟩ | hnew := h.tracked y known hy
    · exact hx (Or.inl ⟨y, known', hold, hsame⟩)
    · exact absurd hissued (not_le.2 hnew)
  · obtain hold | hnew := h.constraints label a ha
    · exact hx (Or.inr ⟨label, a, hold, hmem⟩)
    · exact absurd hissued (not_le.2 (hnew x hmem))

theorem of_constraints (hcount : s.tableau.symbolCount ≤ s'.tableau.symbolCount)
    (htracked : s'.tracked = s.tracked) (hconstraints : ∀ label a,
      s'.constraints.get? label = some a → s.constraints.get? label = some a) : Precedes s s' :=
  ⟨hcount, fun label a ha => Or.inl (hconstraints label a ha),
    fun _ known hy => Or.inl ⟨known, htracked ▸ hy, rfl⟩⟩

theorem of_insert {c : Constraint Rat} {tag : Tag} {key : Label}
    (hcount : s.tableau.symbolCount ≤ s'.tableau.symbolCount)
    (htracked : ∀ y known, s'.tracked.get? y = some known →
      s.tracked.get? y = some known ∨ s.tableau.symbolCount < known.symbol.number)
    (hconstraints : s'.constraints = s.constraints.insert key ⟨c, tag⟩)
    (hfresh : ∀ x ∈ tag.symbols, s.tableau.symbolCount < x.number) : Precedes s s' := by
  refine ⟨hcount, fun label a ha => ?_, fun y known hy => ?_⟩
  · rw [hconstraints] at ha
    obtain ⟨-, rfl⟩ | ha := OrderedMap.get?_insert_cases ha
    · exact Or.inr hfresh
    · exact Or.inl ha
  · exact (htracked y known hy).imp_left fun hold => ⟨known, hold, rfl⟩

theorem of_swapErase {key : Label} (hcount : s.tableau.symbolCount = s'.tableau.symbolCount)
    (htracked : s'.tracked = s.tracked)
    (hconstraints : s'.constraints = s.constraints.swapErase key) : Precedes s s' := by
  refine of_constraints hcount.le htracked fun label a ha => ?_
  rw [hconstraints] at ha
  exact (OrderedMap.get?_of_swapErase ha).2

end Precedes

/-! ## One call -/

theorem AddFailure.fatal_or_eq {c : Constraint Rat} (hfail : AddFailure s c e s') :
    e.isFatal = true ∨ s' = s := by
  cases hfail with
  | duplicate => exact Or.inr rfl
  | contradiction => exact Or.inl rfl
  | outOfSteps => exact Or.inl rfl
  | unbounded => exact Or.inl rfl

theorem RemoveFailure.fatal_or_eq (hfail : RemoveFailure s label e s') :
    e.isFatal = true ∨ s' = s := by
  cases hfail with
  | unknown => exact Or.inr rfl
  | outOfSteps => exact Or.inl rfl
  | unbounded => exact Or.inl rfl

/-- What every call keeps. -/
structure Keeps (c : Command Rat) (s s' : Solver Rat) : Prop where
  sound : s'.Sound
  precedes : Precedes s s'
  weighted : c.Made → s.Weighted → s'.Weighted

theorem Weighted.of_insert {c : Constraint Rat} {tag : Tag} {key : Label} (h : s.Weighted)
    (hc : 0 ≤ c.strength.weight) (hconstraints : s'.constraints = s.constraints.insert key ⟨c, tag⟩) :
    s'.Weighted := by
  intro label a ha
  rw [hconstraints] at ha
  obtain ⟨-, rfl⟩ | ha := OrderedMap.get?_insert_cases ha
  · exact hc
  · exact h label a ha

theorem Weighted.of_swapErase {key : Label} (h : s.Weighted)
    (hconstraints : s'.constraints = s.constraints.swapErase key) : s'.Weighted := by
  intro label a ha
  rw [hconstraints] at ha
  exact h label a (OrderedMap.get?_of_swapErase ha).2

namespace Keeps

variable {command : Command Rat}

theorem refl (h : s.Sound) : Keeps command s s := ⟨h, .refl s, fun _ hw => hw⟩

theorem of_constraints (hsound : s'.Sound)
    (hcount : s.tableau.symbolCount ≤ s'.tableau.symbolCount) (htracked : s'.tracked = s.tracked)
    (hconstraints : s'.constraints = s.constraints) : Keeps command s s' := by
  have hold (label : Label) (a : Active Rat) (ha : s'.constraints.get? label = some a) :
      s.constraints.get? label = some a := hconstraints ▸ ha
  exact ⟨hsound, .of_constraints hcount htracked hold, fun _ hw label a ha => hw label a (hold label a ha)⟩

theorem of_insert {c : Constraint Rat} {tag : Tag} {key : Label} (hsound : s'.Sound)
    (hcount : s.tableau.symbolCount ≤ s'.tableau.symbolCount)
    (htracked : ∀ y known, s'.tracked.get? y = some known →
      s.tracked.get? y = some known ∨ s.tableau.symbolCount < known.symbol.number)
    (hconstraints : s'.constraints = s.constraints.insert key ⟨c, tag⟩)
    (hfresh : ∀ x ∈ tag.symbols, s.tableau.symbolCount < x.number)
    (hweight : command.Made → 0 ≤ c.strength.weight) : Keeps command s s' :=
  ⟨hsound, .of_insert hcount htracked hconstraints hfresh,
    fun hmade hw => hw.of_insert (hweight hmade) hconstraints⟩

theorem of_swapErase {key : Label} (hsound : s'.Sound)
    (hcount : s.tableau.symbolCount = s'.tableau.symbolCount) (htracked : s'.tracked = s.tracked)
    (hconstraints : s'.constraints = s.constraints.swapErase key) : Keeps command s s' :=
  ⟨hsound, .of_swapErase hcount htracked hconstraints, fun _ hw => hw.of_swapErase hconstraints⟩

/-- Reading the values changes what the variables are worth, not their symbols. -/
theorem updateVariables (h : s.Sound) : Keeps command s s.updateVariables := by
  refine ⟨h.updateVariables, ⟨le_refl _, fun _ _ ha => Or.inl ha, fun y known hy => ?_⟩,
    fun _ hw => hw⟩
  change (s.tracked.mapValues _).get? y = some known at hy
  rw [OrderedMap.get?_mapValues] at hy
  obtain ⟨known', hknown, rfl⟩ := Option.map_eq_some_iff.1 hy
  exact Or.inl ⟨known', hknown, rfl⟩

end Keeps

/-- A call of a sound solver ends fatally, or leaves a sound solver in which no symbol has
come back. -/
theorem run_ensures (h : s.Sound) (c : Command Rat) :
    c.run.Ensures s (fun _ s' => Keeps c s s') (fun e s' => e.isFatal = true ∨ Keeps c s s') := by
  have hkept {e : SolverError} {s' : Solver Rat} (hfail : e.isFatal = true ∨ s' = s) :
      e.isFatal = true ∨ Keeps c s s' := by
    obtain hfatal | rfl := hfail
    · exact Or.inl hfatal
    · exact Or.inr (.refl h)
  cases c with
  | addConstraint c =>
    refine (addConstraint_ensures h c).mono ?_ fun e s' hfail => hkept hfail.fatal_or_eq
    rintro - s' hadded
    obtain ⟨tag, hconstraints, hfresh⟩ := hadded.constraints
    exact .of_insert hadded.sound hadded.count hadded.tracked hconstraints hfresh
      Constraint.Made.weight_nonneg
  | removeConstraint label =>
    refine (removeConstraint_ensures h label).mono ?_ fun e s' hfail => hkept hfail.fatal_or_eq
    rintro - s' hremoved
    exact .of_swapErase hremoved.sound hremoved.count hremoved.tracked hremoved.constraints
  | addEditVariable x strength =>
    refine (addEditVariable_ensures h x strength).mono ?_ ?_
    · rintro - s' hadded
      obtain ⟨tag, hconstraints, -, hfresh⟩ := hadded.constraints
      refine .of_insert hadded.sound hadded.count hadded.tracked hconstraints hfresh fun _ => ?_
      rw [Constraint.strength_forEdit]
      exact strength.clip_nonneg
    · intro e s' hfail
      cases hfail with
      | duplicate => exact Or.inr (.refl h)
      | required => exact Or.inr (.refl h)
      | constraint _ _ hfail =>
        refine hfail.fatal_or_eq.imp_right fun heq => ?_
        subst heq
        -- the edit was counted before its constraint was refused
        have hcounted : ({ s with editCount := s.editCount + 1 } : Solver Rat).Sound :=
          h.withEdits s.edits _ { h.toFormed with } fun _ _ _ => rfl
        exact .of_constraints hcounted (le_refl _) rfl rfl
  | removeEditVariable x =>
    refine (removeEditVariable_ensures h x).mono ?_ ?_
    · rintro - s' hremoved
      obtain ⟨f, -, -, hconstraints⟩ := hremoved.present
      exact .of_swapErase hremoved.sound hremoved.count hremoved.tracked hconstraints
    · intro e s' hfail
      cases hfail with
      | unknown => exact Or.inr (.refl h)
      | constraint _ _ _ _ hfail => exact hkept hfail.fatal_or_eq
  | suggestValue x target =>
    refine (suggestValue_ensures h x target).mono ?_ ?_
    · rintro - s' hsuggested
      exact .of_constraints hsuggested.sound hsuggested.count.le hsuggested.tracked
        hsuggested.constraints
    · intro e s' hfail
      cases hfail with
      | unknown => exact Or.inr (.refl h)
      | outOfSteps => exact Or.inl rfl
      | unmendable => exact Or.inl rfl
  | updateVariables => exact Attempt.ensures_modify (.updateVariables h)

/-- What a call ensures can be read from its answer. -/
theorem Command.perform_cases {c : Command Rat} {Q : Unit → Solver Rat → Prop}
    {E : SolverError → Solver Rat → Prop} (h : c.run.Ensures s Q E) :
    (c.perform s).1 = .ok () ∧ Q () (c.perform s).2 ∨
      ∃ e, (c.perform s).1 = .error e ∧ E e (c.perform s).2 := by
  unfold Attempt.Ensures at h
  unfold Command.perform
  cases hc : c.run s with
  | ok _ s' =>
    rw [hc] at h
    exact Or.inl ⟨rfl, h⟩
  | error e s' =>
    rw [hc] at h
    exact Or.inr ⟨e, rfl, h⟩

theorem Sound.perform (h : s.Sound) {c : Command Rat} (hsmooth : c.isFatal s = false) :
    Keeps c s (c.perform s).2 := by
  obtain ⟨-, hkeeps⟩ | ⟨e, he, hfail⟩ := Command.perform_cases (run_ensures h c)
  · exact hkeeps
  · unfold Command.isFatal at hsmooth
    rw [he] at hsmooth
    refine hfail.resolve_left fun hfatal => ?_
    have hsmooth : e.isFatal = false := hsmooth
    rw [hsmooth] at hfatal
    cases hfatal

/-! ## Histories -/

theorem after_cons (s : Solver Rat) (c : Command Rat) (history : List (Command Rat)) :
    s.after (c :: history) = (c.perform s).2.after history := rfl

theorem after_append (s : Solver Rat) (earlier later : List (Command Rat)) :
    s.after (earlier ++ later) = (s.after earlier).after later := List.foldl_append

theorem smooth_append {earlier later : List (Command Rat)} :
    s.Smooth (earlier ++ later) ↔ s.Smooth earlier ∧ (s.after earlier).Smooth later := by
  induction earlier generalizing s with
  | nil => exact ⟨fun h => ⟨trivial, h⟩, fun h => h.2⟩
  | cons c earlier ih =>
    rw [List.cons_append, after_cons]
    change _ ∧ _ ↔ (_ ∧ _) ∧ _
    rw [ih, and_assoc]

/-- A smooth history of a sound solver leaves a sound solver. -/
theorem Sound.after (h : s.Sound) {history : List (Command Rat)} (hsmooth : s.Smooth history) :
    (s.after history).Sound ∧ Precedes s (s.after history) := by
  induction history generalizing s with
  | nil => exact ⟨h, .refl s⟩
  | cons c history ih =>
    obtain ⟨hfirst, hrest⟩ := hsmooth
    have hkeeps := h.perform hfirst
    obtain ⟨hsound, hprecedes⟩ := ih hkeeps.sound hrest
    rw [after_cons]
    exact ⟨hsound, hkeeps.precedes.trans hprecedes⟩

/-- With constraints from their constructor no strength becomes negative. -/
theorem Weighted.after (hw : s.Weighted) (h : s.Sound) {history : List (Command Rat)}
    (hmade : ∀ c ∈ history, c.Made) (hsmooth : s.Smooth history) : (s.after history).Weighted := by
  induction history generalizing s with
  | nil => exact hw
  | cons c history ih =>
    obtain ⟨hfirst, hrest⟩ := hsmooth
    have hkeeps := h.perform hfirst
    rw [after_cons]
    exact ih (hkeeps.weighted (hmade c List.mem_cons_self) hw) hkeeps.sound
      (fun c hc => hmade c (List.mem_cons_of_mem _ hc)) hrest

/-- The empty solver is sound. -/
theorem sound_empty (steps : Nat) : (empty steps : Solver Rat).Sound := by
  have hrows (b : Symbol) (row : Row Rat) : (empty steps : Solver Rat).tableau.rows.get? b ≠ some row := by
    intro hb
    cases hb
  have hcoef (s : Symbol) : (Row.ofConstant (0 : Rat)).coefficient s = 0 := rfl
  have hstores (r : Row Rat) (hr : (empty steps : Solver Rat).tableau.Stores r) : r = .ofConstant 0 := by
    obtain ⟨b, hb⟩ | rfl | ha := hr
    · exact absurd hb (hrows b r)
    · rfl
    · cases ha
  refine ⟨formed_empty steps, ⟨⟨rfl, ⟨?_, ?_⟩, ?_, ⟨0, ?_⟩, .none⟩, ⟨?_, ?_, ?_⟩, ?_, rfl⟩, ?_⟩
  · intro r hr
    rw [hstores r hr]
    exact Row.reduced_ofConstant 0
  · intro r hr b hb
    cases hb
  · intro v
    exact ⟨fun _ _ _ ha => (by cases ha), fun _ b row hb => absurd hb (hrows b row)⟩
  · intro v _
    change (Row.ofConstant 0).eval v = 0 + 0
    rw [Row.eval_ofConstant, add_zero]
  · intro b row hb
    exact absurd hb (hrows b row)
  · intro x _
    exact hcoef x
  · intro r hr
    cases hr
  · intro b row hb
    exact absurd hb (hrows b row)
  · intro x _
    exact (hcoef x).ge

end Solver

end BoxLayout
