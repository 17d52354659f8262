-- SUMMARY: What the calls of a solver write into its lists, in any arithmetic, and when they are denied.
import BoxLayout.OrderedMap.Lemmas
import BoxLayout.Proofs.Ensures
import BoxLayout.Solver.Command

/-!
# The lists of a solver

Beside its tableau a solver keeps the list of its constraints and that of its edit
variables. What a successful call writes there does not depend on numbers: nothing in this
module asks for a law of the scalars.

A call is denied if the lists, or a required strength, speak against it. Every other
failure comes from the tableau. So a call that finds the lists as it needs them may fail,
but is not denied.
-/

namespace BoxLayout

/-- The call was refused for what the lists hold, or for a strength that no edit variable
can have. -/
def SolverError.isDenial : SolverError → Bool
  | duplicateConstraint | unknownConstraint => true
  | duplicateEditVariable | unknownEditVariable | badRequiredStrength => true
  | unsatisfiableConstraint | nonFiniteValue | outOfSteps | internal _ => false

/-! ## Constraints from their constructors -/

/-- The constraint comes from its constructor, which keeps strengths in their range. -/
def Constraint.Made {α : Type} [Scalar α] (c : Constraint α) : Prop :=
  ∃ label e r w, c = .make label e r w

/-- The constraint that a solver keeps for an edit variable, the `n`-th of its kind. -/
def Constraint.forEdit {α : Type} [Scalar α] (n : Nat) (x : Variable) (strength : Strength α) :
    Constraint α :=
  .make (.edit n) (.ofUnknown x) .equal strength.clip

/-- The constraints that the call adds come from their constructor. -/
def Solver.Command.Made {α : Type} [Scalar α] : Command α → Prop
  | .addConstraint c => c.Made
  | _ => True

/-- The solver is left by some successful calls. -/
inductive Solver.Arises {α : Type} [Scalar α] : Solver α → Prop where
  | empty (steps : Nat) : Arises (.empty steps)
  | call {s s' : Solver α} (c : Command α) (hmade : c.Made) (hrun : c.run s = .ok () s')
      (hs : Arises s) : Arises s'

/-! ## Attempts without denials -/

namespace Attempt

variable {σ β γ : Type} {m : Attempt SolverError σ β} {Q : β → σ → Prop} {s : σ}

/-- The attempt does not end in a denial. -/
def NeverDenies (m : Attempt SolverError σ β) : Prop :=
  ∀ s, m.Ensures s (fun _ _ => True) fun e _ => e.isDenial = false

namespace NeverDenies

theorem pure (b : β) : (pure b : Attempt SolverError σ β).NeverDenies := fun _ => trivial

theorem throw {e : SolverError} (h : e.isDenial = false) :
    (throw e : Attempt SolverError σ β).NeverDenies := fun _ => h

theorem bind {f : β → Attempt SolverError σ γ} (h : m.NeverDenies) (hf : ∀ b, (f b).NeverDenies) :
    (m >>= f).NeverDenies := fun s =>
  ensures_bind ((h s).mono (fun b t _ => hf b t) fun _ _ he => he)

theorem get : (get : Attempt SolverError σ σ).NeverDenies := fun _ => trivial

theorem set (t : σ) : (set t : Attempt SolverError σ PUnit).NeverDenies := fun _ => trivial

theorem modify (g : σ → σ) : (modify g : Attempt SolverError σ PUnit).NeverDenies := fun _ => trivial

theorem modifyGet (g : σ → β × σ) : (modifyGet g : Attempt SolverError σ β).NeverDenies :=
  fun _ => trivial

theorem ofExcept {x : Except SolverError β} (h : ∀ e, x = .error e → e.isDenial = false) :
    (ofExcept x : Attempt SolverError σ β).NeverDenies := by
  intro s
  cases x with
  | ok b => trivial
  | error e => exact h e rfl

theorem loop {step : Attempt SolverError σ Bool} {out : SolverError} (h : step.NeverDenies)
    (hout : out.isDenial = false) (n : Nat) : (loop step out n).NeverDenies := fun s =>
  ensures_loop (I := fun _ => True) (Q := fun _ => True)
    (fun s _ => (h s).mono (fun more _ _ => by cases more <;> trivial) fun _ _ he => he)
    (fun _ _ => hout) n trivial

end NeverDenies

end Attempt

/-! ## The tableau -/

theorem Row.solveFor_error {α : Type} [Scalar α] {r : Row α} {x : Symbol} {e : SolverError}
    (h : r.solveFor x = .error e) : e.isDenial = false := by
  unfold solveFor at h
  cases hx : r.cells.get? x with
  | none =>
    rw [hx] at h
    cases h
    rfl
  | some k =>
    rw [hx] at h
    cases h

namespace Tableau

open Attempt

variable {α : Type} [Scalar α]

theorem pivot_neverDenies (leaving : Symbol) (row : Row α) (entering : Symbol) :
    (pivot leaving row entering).NeverDenies :=
  .bind (.ofExcept fun _ h => Row.solveFor_error h) fun _ => .modify _

theorem primalStep_neverDenies (goal : Goal) :
    (primalStep goal : Attempt SolverError (Tableau α) Bool).NeverDenies := by
  refine .bind .get fun t => ?_
  cases (t.goalRow? goal).bind Row.descent? with
  | none => exact .pure _
  | some entering =>
    dsimp only
    cases t.leavingRow? entering with
    | none => exact .throw rfl
    | some e => exact .bind (.modify _) fun _ => .bind (pivot_neverDenies _ _ _) fun _ => .pure _

theorem optimize_neverDenies (goal : Goal) (steps : Nat) :
    (optimize goal steps : Attempt SolverError (Tableau α) Unit).NeverDenies :=
  .loop (primalStep_neverDenies goal) rfl steps

theorem dualStep_neverDenies : (dualStep : Attempt SolverError (Tableau α) Bool).NeverDenies := by
  refine .bind .get fun t => ?_
  cases t.infeasible with
  | nil => exact .pure _
  | cons leaving waiting =>
    refine .bind (.set _) fun _ => ?_
    cases t.rows.get? leaving with
    | none => exact .pure _
    | some row =>
      dsimp only
      split
      · cases t.enteringSymbol? row with
        | none => exact .throw rfl
        | some entering =>
          exact .bind (.modify _) fun _ => .bind (pivot_neverDenies _ _ _) fun _ => .pure _
      · exact .pure _

theorem restore_neverDenies (steps : Nat) :
    (restore steps : Attempt SolverError (Tableau α) Unit).NeverDenies :=
  .loop dualStep_neverDenies rfl steps

theorem addArtificially_neverDenies (steps : Nat) (row : Row α) :
    (addArtificially steps row).NeverDenies := by
  refine .bind (.modifyGet _) fun art => .bind (.modify _) fun _ => ?_
  refine .bind (optimize_neverDenies _ _) fun _ => .bind .get fun t => .bind (.modify _) fun _ => ?_
  refine .bind .get fun t => ?_
  cases t.rows.get? art with
  | none => exact .bind (.modify _) fun _ => .pure _
  | some left =>
    refine .bind (.modify _) fun _ => ?_
    split
    · exact .pure _
    · cases left.pivotable? with
      | none => exact .pure _
      | some entering =>
        exact .bind (pivot_neverDenies art left entering) fun _ => .bind (.modify _) fun _ => .pure _

theorem install_neverDenies (row : Row α) (x : Symbol) :
    ((ofExcept (row.solveFor x) : Attempt SolverError (Tableau α) (Row α)) >>= fun solved =>
      modify (install x solved)).NeverDenies :=
  .bind (.ofExcept fun _ h => Row.solveFor_error h) fun _ => .modify _

theorem enterRow_neverDenies (steps : Nat) (row : Row α) (tag : Tag) :
    (enterRow steps row tag).NeverDenies := by
  unfold enterRow
  cases row.subject? tag with
  | some subject => exact install_neverDenies row subject
  | none =>
    dsimp only
    split
    · split
      · exact install_neverDenies row tag.marker
      · exact .bind (.throw rfl) fun _ => install_neverDenies row tag.marker
    · refine .bind (addArtificially_neverDenies _ _) fun feasible => ?_
      cases feasible with
      | true => exact .pure _
      | false => exact .throw rfl

theorem removeMarker_neverDenies (marker : Symbol) :
    (removeMarker marker : Attempt SolverError (Tableau α) Unit).NeverDenies := by
  refine .bind .get fun t => ?_
  split
  · exact .set _
  · cases t.markerRow? marker with
    | none => exact .throw rfl
    | some e =>
      exact .bind (.modify _) fun _ => .bind (.ofExcept fun _ h => Row.solveFor_error h) fun _ =>
        .modify _

end Tableau

/-! ## The calls -/

namespace Solver

open Attempt

variable {α : Type} {s s' s'' : Solver α}

/-- The solvers differ in their tableau and in the variables they know. -/
structure SameLists (s s' : Solver α) : Prop where
  constraints : s'.constraints = s.constraints
  edits : s'.edits = s.edits
  editCount : s'.editCount = s.editCount

theorem SameLists.refl (s : Solver α) : SameLists s s := ⟨rfl, rfl, rfl⟩

theorem SameLists.trans (h : SameLists s s') (h' : SameLists s' s'') : SameLists s s'' :=
  ⟨h'.constraints.trans h.constraints, h'.edits.trans h.edits, h'.editCount.trans h.editCount⟩

theorem onTableau_sameLists {m : Attempt SolverError (Tableau α) Unit} (h : m.NeverDenies)
    (s : Solver α) : (onTableau m).Ensures s (fun _ s' => SameLists s s')
      (fun e _ => e.isDenial = false) :=
  ensures_onPart ((h s.tableau).mono (fun _ _ _ => ⟨rfl, rfl, rfl⟩) fun _ _ he => he)

variable [Scalar α]

theorem symbolOf_sameLists (y : Variable) (s : Solver α) : SameLists s (s.symbolOf y).2 := by
  unfold symbolOf
  cases s.tracked.get? y with
  | some known => exact .refl s
  | none => exact ⟨rfl, rfl, rfl⟩

theorem addTerm_sameLists (row : Row α) (term : Term Variable α) (s : Solver α) :
    SameLists s (s.addTerm row term).2 := by
  unfold addTerm
  split
  · exact .refl s
  · exact symbolOf_sameLists term.unknown s

theorem expand_sameLists (e : Linear Variable α) (s : Solver α) : SameLists s (s.expand e).2 := by
  unfold expand
  generalize Row.ofConstant e.constant = row
  induction e.terms generalizing row s with
  | nil => exact .refl s
  | cons term terms ih =>
    rw [List.foldl_cons]
    exact (addTerm_sameLists row term s).trans (ih _ _)

theorem createRow_sameLists (c : Constraint α) (s : Solver α) : SameLists s (createRow c s).2 := by
  have h := expand_sameLists c.expression s
  exact ⟨h.constraints, h.edits, h.editCount⟩

/-! ## Constraints -/

/-- A constraint is denied if another is held under its label. -/
theorem addConstraint_lists (c : Constraint α) (s : Solver α) :
    (addConstraint c).Ensures s
      (fun _ s' => s.constraints.get? c.label = none ∧
        (∃ tag, s'.constraints = s.constraints.insert c.label ⟨c, tag⟩) ∧
        s'.edits = s.edits ∧ s'.editCount = s.editCount)
      (fun e _ => e.isDenial = true → s.constraints.get? c.label ≠ none) := by
  refine ensures_get_bind ?_
  by_cases hdup : s.hasConstraint c.label = true
  · rw [if_pos hdup]
    intro _ hnone
    rw [hasConstraint, OrderedMap.contains, hnone] at hdup
    cases hdup
  rw [if_neg hdup]
  have hvacant : s.constraints.get? c.label = none := by
    simpa [hasConstraint, OrderedMap.contains] using hdup
  -- past the first check the call does not look at the lists
  have hother {e : SolverError} (h : e.isDenial = false) :
      e.isDenial = true → s.constraints.get? c.label ≠ none := fun htrue => by
    rw [h] at htrue
    cases htrue
  by_cases hfinite : c.expression.isFinite = true
  · rw [if_pos hfinite]
    have hcreate := createRow_sameLists c s
    refine ensures_modifyGet_bind ?_
    generalize createRow c s = created at hcreate ⊢
    obtain ⟨⟨row, tag⟩, s'⟩ := created
    refine ensures_get_bind (ensures_bind ?_)
    refine (onTableau_sameLists (Tableau.enterRow_neverDenies _ _ _) s').mono ?_
      fun e _ h => hother h
    rintro - t hrow
    refine ensures_modify_bind ?_
    refine (onTableau_sameLists (Tableau.optimize_neverDenies _ _) _).mono ?_ fun e _ h => hother h
    rintro - t' hopt
    have hsame := hcreate.trans hrow
    refine ⟨hvacant, ⟨tag, ?_⟩, hopt.edits.trans hsame.edits, hopt.editCount.trans hsame.editCount⟩
    rw [hopt.constraints, ← hsame.constraints]
  · rw [if_neg hfinite]
    exact hother rfl

/-- A removal is denied if nothing is held under the label. -/
theorem removeConstraint_lists (label : Label) (s : Solver α) :
    (removeConstraint label).Ensures s
      (fun _ s' => (∃ a, s.constraints.get? label = some a) ∧
        s'.constraints = s.constraints.swapErase label ∧
        s'.edits = s.edits ∧ s'.editCount = s.editCount)
      (fun e _ => e.isDenial = true → s.constraints.get? label = none) := by
  refine ensures_get_bind ?_
  cases ha : s.constraints.get? label with
  | none => exact fun _ => rfl
  | some a =>
    have hother {e : SolverError} (h : e.isDenial = false) : e.isDenial = true → some a = none :=
      fun htrue => by
        rw [h] at htrue
        cases htrue
    refine ensures_modify_bind (ensures_bind ?_)
    refine (onTableau_sameLists (Tableau.removeMarker_neverDenies _) _).mono ?_ fun e _ h => hother h
    rintro - t hremove
    refine ensures_get_bind ?_
    refine (onTableau_sameLists (Tableau.optimize_neverDenies _ _) _).mono ?_ fun e _ h => hother h
    rintro - t' hopt
    have hsame := hremove.trans hopt
    exact ⟨⟨a, rfl⟩, hsame.constraints, hsame.edits, hsame.editCount⟩

/-! ## Edit variables -/

/-- An edit variable is denied if it is one already, if its strength is required, or if the
label for its constraint is taken. -/
theorem addEditVariable_lists (x : Variable) (strength : Strength α) (s : Solver α) :
    (addEditVariable x strength).Ensures s
      (fun _ s' => s.edits.get? x = none ∧ s.constraints.get? (.edit s.editCount) = none ∧
        (∃ tag, s'.constraints = s.constraints.insert (.edit s.editCount)
            ⟨.forEdit s.editCount x strength, tag⟩ ∧
          s'.edits = s.edits.insert x ⟨tag, .forEdit s.editCount x strength, 0⟩) ∧
        s'.editCount = s.editCount + 1)
      (fun e _ => e.isDenial = true → s.edits.get? x = none → strength.clip.isRequired = false →
        s.constraints.get? (.edit s.editCount) ≠ none) := by
  refine ensures_get_bind ?_
  by_cases hdup : s.hasEditVariable x = true
  · rw [if_pos hdup]
    intro _ hnone
    rw [hasEditVariable, OrderedMap.contains, hnone] at hdup
    cases hdup
  rw [if_neg hdup]
  have hvacant : s.edits.get? x = none := by
    simpa [hasEditVariable, OrderedMap.contains] using hdup
  dsimp only
  by_cases hreq : strength.clip.isRequired = true
  · rw [if_pos hreq]
    intro _ _ hnot
    rw [hreq] at hnot
    cases hnot
  rw [if_neg hreq]
  refine ensures_modifyGet_bind (ensures_bind ?_)
  refine (addConstraint_lists _ _).mono ?_ fun e _ h htrue _ _ => h htrue
  rintro - s' ⟨hlabel, ⟨tag, hconstraints⟩, hedits, hcount⟩
  have hactive : s'.constraints.get? (.edit s.editCount)
      = some ⟨.forEdit s.editCount x strength, tag⟩ := by
    rw [hconstraints]
    exact (OrderedMap.get?_insert _ _ _ _).trans (if_pos rfl)
  refine ensures_get_bind ?_
  have hissued : (issueEdit x strength.clip s).1.label = .edit s.editCount := rfl
  rw [hissued, hactive]
  refine ensures_modify ⟨hvacant, hlabel, ⟨tag, hconstraints, ?_⟩, hcount⟩
  rw [hedits]
  rfl

/-- The removal of an edit variable is denied if it is none, or if its constraint is missing. -/
theorem removeEditVariable_lists (x : Variable) (s : Solver α) :
    (removeEditVariable x).Ensures s
      (fun _ s' => ∃ f, s.edits.get? x = some f ∧
        s'.constraints = s.constraints.swapErase f.constraint.label ∧
        s'.edits = s.edits.swapErase x ∧ s'.editCount = s.editCount)
      (fun e _ => e.isDenial = true → ∀ f, s.edits.get? x = some f →
        s.constraints.get? f.constraint.label = none) := by
  refine ensures_get_bind ?_
  cases hf : s.edits.get? x with
  | none =>
    rintro - f hsome
    cases hsome
  | some f =>
    refine ensures_bind ?_
    refine (removeConstraint_lists _ _).mono ?_ ?_
    · rintro - s' ⟨-, hconstraints, hedits, hcount⟩
      refine ensures_modify ⟨f, rfl, hconstraints, ?_, hcount⟩
      rw [hedits]
    · rintro e - h htrue g hg
      obtain rfl := Option.some.inj hg
      exact h htrue

/-- A suggestion is denied if the variable is not an edit variable. -/
theorem suggestValue_lists (x : Variable) (target : α) (s : Solver α) :
    (suggestValue x target).Ensures s
      (fun _ s' => ∃ f, s.edits.get? x = some f ∧ s'.constraints = s.constraints ∧
        s'.edits = s.edits.insert x { f with target := target } ∧ s'.editCount = s.editCount)
      (fun e _ => e.isDenial = true → s.edits.get? x = none) := by
  unfold suggestValue
  by_cases hfinite : isFinite target = true
  · rw [if_pos hfinite]
    refine ensures_get_bind ?_
    cases hf : s.edits.get? x with
    | none => exact fun _ => rfl
    | some f =>
      refine ensures_modify_bind (ensures_get_bind ?_)
      refine (onTableau_sameLists (Tableau.restore_neverDenies _) _).mono ?_ ?_
      · rintro - t hrestore
        exact ⟨f, rfl, hrestore.constraints, hrestore.edits, hrestore.editCount⟩
      · intro e _ hfalse htrue
        rw [hfalse] at htrue
        cases htrue
  · rw [if_neg hfinite]
    intro htrue
    cases htrue

end Solver

end BoxLayout
