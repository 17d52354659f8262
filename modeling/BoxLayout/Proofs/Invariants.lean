-- SUMMARY: The shape of a tableau between calls: feasible, split and minimal, with an objective that counts the errors.
import BoxLayout.Proofs.Refinement

/-!
# The tableau between calls

Every smooth history leaves an optimal tableau: rows of slack, error and dummy symbols have
constants from zero up and mention no external symbol, the objective is the weighted sum of
the errors written over non-basic symbols, no symbol but a dummy lowers it, and no row waits
to be mended. From such a tableau no call ends in a fault, as long as no dummy has been
driven into the basis.
-/

namespace BoxLayout

/-- How often a symbol occurs in another one, read as its row if it is basic. -/
def Tableau.share (t : Tableau Rat) (e x : Symbol) : Rat :=
  match t.rows.get? e with
  | some row => row.coefficient x
  | none => if x = e then 1 else 0

/-- Raising a non-basic symbol by one raises each symbol by its share. -/
theorem Tableau.completion_update (t : Tableau Rat) (u : Assignment) (e x : Symbol) :
    t.completion (Function.update u x (u x + 1)) e = t.completion u e + t.share e x := by
  unfold completion share
  cases t.rows.get? e with
  | some row =>
    dsimp only
    rw [Row.eval_update]
    ring
  | none =>
    by_cases hxe : x = e
    · subst hxe
      simp
    · simp [hxe, Function.update_of_ne (Ne.symm hxe)]

theorem sum_map_add_share (t : Tableau Rat) (u : Assignment) (x : Symbol) (es : List Symbol) :
    (es.map (t.completion (Function.update u x (u x + 1)))).sum
      = (es.map (t.completion u)).sum + (es.map fun e => t.share e x).sum := by
  rw [← List.sum_map_add]
  congr 1
  apply List.map_congr_left
  intro e _
  exact t.completion_update u e x

namespace Solver

variable {s : Solver Rat} {x : Symbol} {c : Constraint Rat} {fault : SolverFault}

/-- The objective is the weighted sum of the errors, with the basic ones read as their rows. -/
theorem Sound.objective_coefficient (h : s.Sound) (x : Symbol) :
    s.tableau.objective.coefficient x = (s.constraints.values.map fun a =>
      if a.constraint.isRequired then 0
      else a.constraint.strength.weight * (a.tag.errors.map fun e => s.tableau.share e x).sum).sum := by
  obtain ⟨d, hd⟩ := h.ready.objective
  let u : Assignment := fun _ => 0
  have hrow (u : Assignment) : s.tableau.objective.eval u
      = (s.constraints.values.map fun a => a.cost (s.tableau.completion u)).sum + d := by
    rw [← h.ready.solved.eval_completion Tableau.stores_objective]
    exact hd _ (h.ready.completion u)
  have hcost : ∀ a ∈ s.constraints.values,
      a.cost (s.tableau.completion (Function.update u x (u x + 1)))
        = a.cost (s.tableau.completion u) + if a.constraint.isRequired then 0
          else a.constraint.strength.weight * (a.tag.errors.map fun e => s.tableau.share e x).sum := by
    intro a ha
    obtain ⟨label, hlabel⟩ := OrderedMap.mem_values_iff.1 ha
    have hfits := h.fits label a hlabel
    unfold Active.cost
    cases hreq : a.constraint.isRequired with
    | true =>
      rw [hreq] at hfits
      rw [if_pos rfl, hfits.shortfall_of_required, hfits.shortfall_of_required, mul_zero, add_zero]
    | false =>
      rw [if_neg Bool.false_ne_true]
      unfold Tag.shortfall
      rw [sum_map_add_share]
      ring
  rw [Row.coefficient_eq_eval (v := u), hrow, hrow, List.map_congr_left hcost, List.sum_map_add]
  ring

/-! ## Calls that end in no fault -/

/-- A call ends in no fault if its failures are no faults. -/
theorem Command.no_fault (c : Command Rat) {Q : Unit → Solver Rat → Prop}
    {E : SolverError → Solver Rat → Prop} (h : c.run.Ensures s Q E)
    (hE : ∀ s', ¬E (.internal fault) s') : (c.perform s).1 ≠ .error (.internal fault) := by
  intro hfault
  obtain ⟨hok, -⟩ | ⟨e, he, hfail⟩ := Command.perform_cases h
  · rw [hok] at hfault
    cases hfault
  · rw [he] at hfault
    obtain rfl := Except.error.inj hfault
    exact hE _ hfail

/-- Adding and removing constraints and edit variables ends in no fault. -/
theorem Sound.no_fault (h : s.Sound) (hw : s.Weighted) {c : Command Rat} (hmade : c.Made)
    (hc : ∀ x target, c ≠ .suggestValue x target) : (c.perform s).1 ≠ .error (.internal fault) := by
  cases c with
  | addConstraint c =>
    apply Command.no_fault (.addConstraint c) (addConstraint_ensures h c)
    intro s' hfail
    cases hfail with
    | unbounded _ hun => exact hun ⟨hw, Constraint.Made.weight_nonneg hmade⟩
  | removeConstraint label =>
    apply Command.no_fault (.removeConstraint label) (removeConstraint_ensures h label)
    intro s' hfail
    cases hfail with
    | unbounded _ hun => exact hun hw
  | addEditVariable x strength =>
    apply Command.no_fault (.addEditVariable x strength) (addEditVariable_ensures h x strength)
    intro s' hfail
    cases hfail with
    | constraint _ _ hfail =>
      cases hfail with
      | unbounded _ hun =>
        refine hun ⟨hw, ?_⟩
        rw [Constraint.strength_forEdit]
        exact strength.clip_nonneg
  | removeEditVariable x =>
    apply Command.no_fault (.removeEditVariable x) (removeEditVariable_ensures h x)
    intro s' hfail
    cases hfail with
    | constraint _ _ _ _ hfail =>
      cases hfail with
      | unbounded _ hun => exact hun hw
  | suggestValue x target => exact absurd rfl (hc x target)
  | updateVariables => exact fun he => by cases he

/-- Moving a target ends in no fault as long as every basic dummy is zero. -/
theorem Sound.suggestValue_no_fault (h : s.Sound) (hzero : s.tableau.DummiesZero) (x : Variable)
    (target : Rat) :
    ((Command.suggestValue x target).perform s).1 ≠ .error (.internal fault) := by
  apply Command.no_fault (.suggestValue x target) (suggestValue_ensures h x target)
  intro s' hfail
  cases hfail with
  | unmendable _ hun => exact hun ⟨_, h.meets_iff.2 hzero⟩

/-- After every smooth history of constraints from their constructor, the rows of symbols that
are not external have constants from zero up and mention no external symbol; the objective
mentions no external symbol, stores no zero and counts the errors of the constraints that are
not required; no symbol but a dummy lowers it; and no row waits to be mended. The next call
that adds or removes something ends in no fault. If no dummy is basic, the values meet the
required constraints with the least penalty, and moving a target ends in no fault either. -/
theorem tableau_between_calls (steps : Nat) (history : List (Command Rat))
    (hmade : ∀ c ∈ history, c.Made) (h : (empty steps).Smooth history) :
    (∀ b row, ((empty steps).after history).tableau.rows.get? b = some row →
      b.isExternal = false → 0 ≤ row.constant ∧ ∀ x ∈ row.cells.keys, x.isExternal = false) ∧
    (∀ x ∈ ((empty steps).after history).tableau.objective.cells.keys, x.isExternal = false) ∧
    (∀ x, ((empty steps).after history).tableau.objective.cells.get? x ≠ some 0 ∧
      ((empty steps).after history).tableau.objective.coefficient x
        = (((empty steps).after history).constraints.values.map fun a =>
          if a.constraint.isRequired then 0
          else a.constraint.strength.weight *
            (a.tag.errors.map fun e => ((empty steps).after history).tableau.share e x).sum).sum) ∧
    (∀ x, x.isDummy = false →
      0 ≤ ((empty steps).after history).tableau.objective.coefficient x) ∧
    ((empty steps).after history).tableau.infeasible = [] ∧
    (∀ (c : Command Rat) fault, c.Made → (∀ x target, c ≠ .suggestValue x target) →
      (c.perform ((empty steps).after history)).1 ≠ .error (.internal fault)) ∧
    ((∀ d ∈ ((empty steps).after history).tableau.rows.keys, d.isDummy = false) →
      (((empty steps).after history).Meets ((empty steps).after history).updateVariables.value ∧
        ∀ y, ((empty steps).after history).Meets y →
          ((empty steps).after history).penalty ((empty steps).after history).updateVariables.value
            ≤ ((empty steps).after history).penalty y) ∧
      ∀ x target fault, ((Command.suggestValue x target).perform ((empty steps).after history)).1
        ≠ .error (.internal fault)) := by
  obtain ⟨hsound, -⟩ := (sound_empty steps).after h
  have hw : ((empty steps).after history).Weighted :=
    Weighted.after (fun _ _ ha => by cases ha) (sound_empty steps) hmade h
  generalize (empty steps).after history = s at hsound hw ⊢
  have hinternal {r : Row Rat} (hr : s.tableau.Stores r) (hint : r.Internal) :
      ∀ x ∈ r.cells.keys, x.isExternal = false := by
    intro x hx
    by_contra hext
    exact (hsound.ready.solved.reduced r hr).mem_keys_iff.1 hx (hint x (by simpa using hext))
  refine ⟨fun b row hb hint => ⟨hsound.ready.feasible b row hb hint, ?_⟩, ?_, fun x => ⟨?_, ?_⟩,
    hsound.minimal, hsound.ready.calm, fun c fault hc hs => hsound.no_fault hw hc hs, fun hnone => ?_⟩
  · exact hinternal (Tableau.stores_row hb) (hsound.ready.split.rows b row hb hint)
  · exact hinternal Tableau.stores_objective hsound.ready.split.objective
  · exact hsound.ready.solved.reduced _ Tableau.stores_objective x
  · exact hsound.objective_coefficient x
  · have hzero : s.tableau.DummiesZero := by
      intro d row hd hdummy
      rw [hnone d (Tableau.mem_keys hd)] at hdummy
      cases hdummy
    exact ⟨⟨hsound.meets_iff.2 hzero, fun y hy => hsound.penalty_le hw hzero hy⟩,
      fun x target fault => hsound.suggestValue_no_fault hzero x target⟩

/-- The constraints of the squeezed edit variables come from their constructor, and their values
have the least penalty. -/
theorem tableau_between_calls_squeezed :
    (empty 20).Smooth squeezed ∧
      (∀ d ∈ ((empty 20).after squeezed).tableau.rows.keys, d.isDummy = false) ∧
      ∀ y, ((empty 20).after squeezed).Meets y →
        ((empty 20).after squeezed).penalty ((empty 20).after squeezed).updateVariables.value
          ≤ ((empty 20).after squeezed).penalty y := by
  have hmade : ∀ c ∈ squeezed, c.Made := by
    simp only [squeezed, List.forall_mem_cons, List.not_mem_nil, false_implies, implies_true,
      and_true]
    exact ⟨trivial, trivial, trivial, trivial, ⟨_, _, _, _, rfl⟩, ⟨_, _, _, _, rfl⟩, trivial, trivial,
      trivial⟩
  have hsmooth : (empty 20).Smooth squeezed := by decide +kernel
  have hnone : ∀ d ∈ ((empty 20).after squeezed).tableau.rows.keys, d.isDummy = false := by
    decide +kernel
  obtain ⟨-, -, -, -, -, -, hvalues⟩ := tableau_between_calls 20 squeezed hmade hsmooth
  exact ⟨hsmooth, hnone, (hvalues hnone).1.2⟩

end Solver

end BoxLayout
