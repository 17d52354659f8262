-- SUMMARY: Keeping a solver in line with what is asked of it, through every write to the registries.
import BoxLayout.Proofs.Writes

/-!
# Upkeep

The registries ask something of the solver, and each write asks something else. There are
five ways in which a demand changes: a constraint comes in or goes out, and an edit variable
comes in, moves or goes out. An upkeep says of one call of the solver for each of them what
it keeps of the solver and how it may fail.

All that a write changes is made of these five. So an invariant that is kept by the five
calls is kept by every write.
-/

namespace BoxLayout

open Attempt Solver

variable {α : Type} [Scalar α]

/-- The five calls keep `I` between demands that `A` admits, and fail only with an `E`. -/
structure Upkeep (A : Demand α → Prop) (I : Demand α → Solver α → Prop) (E : SolverError → Prop) :
    Prop where
  /-- Targets do not matter to what is admitted. -/
  retarget : ∀ {d : Demand α} {x : VariableId} {w : Wish α} (target : α),
    A (d.withWish x (some w)) → A (d.withWish x (some { w with target := target }))
  hold : ∀ {d : Demand α} {s : Solver α} {o : Owner} {c : Constraint α}, I d s →
    d.constraints o = none → A (d.withConstraint o (some c)) →
    (addConstraint c).Ensures s (fun _ s' => I (d.withConstraint o (some c)) s') fun err _ => E err
  drop : ∀ {d : Demand α} {s : Solver α} {o : Owner} {c : Constraint α}, I d s → A d →
    d.constraints o = some c →
    (removeConstraint c.label).Ensures s (fun _ s' => I (d.withConstraint o none) s') fun err _ => E err
  addWish : ∀ {d : Demand α} {s : Solver α} {x : VariableId} {p : Priority}, I d s →
    d.wishes x = none → A (d.withWish x (some ⟨p, 0⟩)) →
    (addEditVariable x.backing (.ofPriority p)).Ensures s
      (fun _ s' => I (d.withWish x (some ⟨p, 0⟩)) s') fun err _ => E err
  move : ∀ {d : Demand α} {s : Solver α} {x : VariableId} {w : Wish α}, I d s → A d →
    d.wishes x = some w → ∀ target, (suggestValue x.backing target).Ensures s
      (fun _ s' => I (d.withWish x (some { w with target := target })) s') fun err _ => E err
  unwish : ∀ {d : Demand α} {s : Solver α} {x : VariableId} {w : Wish α}, I d s → A d →
    d.wishes x = some w → (removeEditVariable x.backing).Ensures s
      (fun _ s' => I (d.withWish x none) s') fun err _ => E err

/-- Mirroring is kept up, and the calls for it are not denied. -/
theorem Mirrors.upkeep (hgraded : Strength.Graded α) :
    Upkeep (Demand.Fit : Demand α → Prop) Mirrors (fun err => err.isDenial = false) where
  retarget _ hfit := hfit.mono (fun _ _ hk => hk) fun _ _ hv => Demand.wishes_retarget hv
  hold h ho hfit := h.hold ho hfit
  drop h hfit ho := h.drop hfit ho
  addWish h hx hfit := h.addWish hgraded hx hfit
  move h hfit hx target := h.move hfit hx target
  unwish h hfit hx := h.unwish hfit hx

namespace Upkeep

variable {A : Demand α → Prop} {I : Demand α → Solver α → Prop} {E : SolverError → Prop}
  {d : Demand α} {s : Solver α} {x : VariableId} {entry : VariableEntry α}

/-- Bringing an edit variable in, and then to its target. -/
theorem wish (h : Upkeep A I E) {w : Wish α} (hs : I d s) (hx : d.wishes x = none)
    (hA : A (d.withWish x (some w))) :
    (addEditVariable x.backing (.ofPriority w.priority) >>= fun _ =>
        suggestValue x.backing w.target).Ensures s
      (fun _ s' => I (d.withWish x (some w)) s') fun err _ => E err := by
  have hA₀ : A (d.withWish x (some ⟨w.priority, 0⟩)) := h.retarget 0 hA
  refine ensures_bind ((h.addWish hs hx hA₀).mono ?_ fun _ _ he => he)
  rintro - s' h'
  have hmove := h.move h' hA₀ (Function.update_self ..) w.target
  rw [Demand.withWish, Demand.wishes_withWish, Function.update_idem] at hmove
  exact hmove

/-- Bringing a variable into the solver. -/
theorem enter (h : Upkeep A I E) (hs : I d s) (ho : d.constraints (.var x) = none)
    (hx : d.wishes x = none) (hA : A (d.withVariable x (some entry))) :
    (entry.enter x).Ensures s (fun _ s' => I (d.withVariable x (some entry)) s')
      fun err _ => E err := by
  unfold VariableEntry.enter
  cases hpin : entry.pin with
  | some pin =>
    have hd : d.withVariable x (some entry) = d.withConstraint (.var x) (some pin) := by
      unfold Demand.withVariable
      rw [Option.bind_some, Option.bind_some, VariableEntry.wish, hpin]
      exact Demand.withWish_eq_self hx
    rw [hd] at hA ⊢
    exact h.hold hs ho hA
  | none =>
    have hd : d.withVariable x (some entry) = d.withWish x (some ⟨entry.priority, entry.target⟩) := by
      unfold Demand.withVariable
      rw [Option.bind_some, Option.bind_some, VariableEntry.wish, hpin,
        Demand.withConstraint_eq_self ho]
    rw [hd] at hA ⊢
    exact h.wish (w := ⟨entry.priority, entry.target⟩) hs hx hA

/-- Taking a variable out of the solver. -/
theorem leave (h : Upkeep A I E) (hs : I d s) (hA : A d) (ho : d.constraints (.var x) = entry.pin)
    (hx : d.wishes x = entry.wish) :
    (entry.leave x).Ensures s (fun _ s' => I (d.withVariable x none) s') fun err _ => E err := by
  unfold VariableEntry.leave
  cases hpin : entry.pin with
  | some pin =>
    rw [VariableEntry.wish, hpin] at hx
    have hd : d.withVariable x none = d.withConstraint (.var x) none := Demand.withWish_eq_self hx
    rw [hd]
    exact h.drop hs hA (ho.trans hpin)
  | none =>
    rw [VariableEntry.wish, hpin] at hx
    have hd : d.withVariable x none = d.withWish x none := by
      unfold Demand.withVariable
      rw [Option.bind_none, Option.bind_none, Demand.withConstraint_eq_self (ho.trans hpin)]
    rw [hd]
    exact h.unwish hs hA hx

/-- Taking a variable out of the solver and bringing it back another way. -/
theorem reenter (h : Upkeep A I E) {moved : VariableEntry α} (hs : I d s) (hA : A d)
    (ho : d.constraints (.var x) = entry.pin) (hx : d.wishes x = entry.wish)
    (hA' : A (d.withVariable x (some moved))) :
    (entry.leave x >>= fun _ => moved.enter x).Ensures s
      (fun _ s' => I (d.withVariable x (some moved)) s') fun err _ => E err := by
  refine ensures_bind ((h.leave hs hA ho hx).mono ?_ fun _ _ he => he)
  rintro - s' hs'
  rw [← Demand.withVariable_none] at hA' ⊢
  exact h.enter hs' (Function.update_self ..) (Function.update_self ..) hA'

/-- Moving the target of a variable without a pin. -/
theorem suggest (h : Upkeep A I E) (hs : I d s) (hA : A d)
    (ho : d.constraints (.var x) = entry.pin) (hx : d.wishes x = entry.wish)
    (hpin : entry.pin = none) (target : α) :
    (Solver.suggestValue x.backing target).Ensures s
      (fun _ s' => I (d.withVariable x (some { entry with target := target })) s')
      fun err _ => E err := by
  rw [hpin] at ho
  rw [VariableEntry.wish, hpin] at hx
  have hd : d.withVariable x (some { entry with target := target })
      = d.withWish x (some ⟨entry.priority, target⟩) := by
    unfold Demand.withVariable
    rw [Option.bind_some, Option.bind_some, VariableEntry.wish, hpin,
      Demand.withConstraint_eq_self ho]
  rw [hd]
  exact h.move hs hA hx target

/-- Putting a constraint in place of another. -/
theorem exchange (h : Upkeep A I E) {o : Owner} {old new : Constraint α} (hs : I d s) (hA : A d)
    (ho : d.constraints o = some old) (hA' : A (d.withConstraint o (some new))) :
    (Engine.exchange old new).Ensures s (fun _ s' => I (d.withConstraint o (some new)) s')
      fun err _ => E err := by
  have hd : (d.withConstraint o none).withConstraint o (some new) = d.withConstraint o (some new) := by
    unfold Demand.withConstraint
    rw [Function.update_idem]
  refine ensures_bind ((h.drop hs hA ho).mono ?_ fun _ _ he => he)
  rintro - s' hs'
  rw [← hd] at hA' ⊢
  exact h.hold hs' (Function.update_self ..) hA'

/-! ## Writes -/

section

variable {e : Engine α} {c : ConstraintId}

theorem want (h : Upkeep A I E) (hs : I e.demand s) (hA : A e.demand) {p : Priority} {target : α}
    (hreg : e.Registered) (hw : (Write.want x p target).Proper e)
    (hA' : A ((Write.want x p target).record e).demand) :
    ((Write.want x p target).change e).Ensures s
      (fun _ s' => I ((Write.want x p target).record e).demand s') fun err _ => E err := by
  rw [Engine.demand_want] at hA' ⊢
  obtain rfl | ⟨old, hx⟩ := hw
  · rw [Write.change_want_new hreg.unissued_var]
    rw [hreg.unissued_var] at hA' ⊢
    obtain ⟨ho, hwish⟩ := Engine.demand_var hreg.unissued_var
    exact h.enter hs ho hwish hA'
  · rw [Write.change_want_known hx]
    rw [hx] at hA' ⊢
    obtain ⟨ho, hwish⟩ := Engine.demand_var hx
    exact h.reenter hs hA ho hwish hA'

theorem state (h : Upkeep A I E) (hs : I e.demand s) (hA : A e.demand) {k : Definition α}
    {enabled : Bool} (hreg : e.Registered) (hw : (Write.state c k enabled).Proper e)
    (hA' : A ((Write.state c k enabled).record e).demand) :
    ((Write.state c k enabled).change e).Ensures s
      (fun _ s' => I ((Write.state c k enabled).record e).demand s') fun err _ => E err := by
  rw [Engine.demand_state] at hA' ⊢
  cases enabled with
  | true =>
    rw [if_pos rfl] at hA' ⊢
    obtain rfl | ⟨old, hc, hon⟩ := hw.1
    · rw [Write.change_state_new hreg.unissued_constraint]
      exact h.hold hs (Engine.demand_constraint hreg.unissued_constraint) hA'
    · rw [Write.change_state_known hc]
      exact h.exchange hs hA (Engine.demand_enabled hc hon) hA'
  | false =>
    -- a constraint that is off asks for nothing, before as after
    have ho : e.demand.constraints (.constraint c) = none := by
      obtain rfl | ⟨old, hc, hoff⟩ := hw.1
      · exact Engine.demand_constraint hreg.unissued_constraint
      · exact Engine.demand_disabled hc hoff
    rw [Write.change_state_off, if_neg Bool.false_ne_true, Demand.withConstraint_eq_self ho]
    exact ensures_pure hs

theorem switch (h : Upkeep A I E) (hs : I e.demand s) (hA : A e.demand) {enabled : Bool}
    (hw : (Write.switch c enabled : Write α).Proper e)
    (hA' : A ((Write.switch c enabled : Write α).record e).demand) :
    ((Write.switch c enabled : Write α).change e).Ensures s
      (fun _ s' => I ((Write.switch c enabled : Write α).record e).demand s') fun err _ => E err := by
  obtain ⟨old, hc, hne⟩ := hw
  rw [Engine.demand_switch hc] at hA' ⊢
  rw [Write.change_switch hc]
  cases enabled with
  | true =>
    rw [if_pos rfl] at hA' ⊢
    exact h.hold hs (Engine.demand_disabled hc (Bool.eq_false_iff.2 hne)) hA'
  | false =>
    rw [if_neg Bool.false_ne_true] at hA' ⊢
    exact h.drop hs hA (Engine.demand_enabled hc (by simpa using hne))

theorem retract (h : Upkeep A I E) (hs : I e.demand s) (hA : A e.demand)
    (hw : (Write.retract c : Write α).Proper e) :
    ((Write.retract c : Write α).change e).Ensures s
      (fun _ s' => I ((Write.retract c : Write α).record e).demand s') fun err _ => E err := by
  obtain ⟨old, hc⟩ := hw
  rw [Engine.demand_retract, Write.change_retract hc]
  cases hon : old.enabled with
  | true =>
    rw [if_pos rfl]
    exact h.drop hs hA (Engine.demand_enabled hc hon)
  | false =>
    rw [if_neg Bool.false_ne_true, Demand.withConstraint_eq_self (Engine.demand_disabled hc hon)]
    exact ensures_pure hs

/-- What is kept up is kept through every proper write. -/
theorem change (h : Upkeep A I E) {w : Write α} (hreg : e.Registered) (hw : w.Proper e)
    (hA : A e.demand) (hA' : A (w.record e).demand) (hs : I e.demand s) :
    (w.change e).Ensures s (fun _ s' => I (w.record e).demand s') fun err _ => E err := by
  cases w with
  | want x p target => exact h.want hs hA hreg hw hA'
  | move x target =>
    obtain ⟨old, hx, hpin⟩ := hw
    obtain ⟨ho, hwish⟩ := Engine.demand_var hx
    rw [Engine.demand_move hx]
    exact h.suggest hs hA ho hwish hpin target
  | forget x =>
    obtain ⟨⟨old, hx⟩, -⟩ := hw
    obtain ⟨ho, hwish⟩ := Engine.demand_var hx
    rw [Engine.demand_forget, Write.change_forget hx]
    exact h.leave hs hA ho hwish
  | state c k enabled => exact h.state hs hA hreg hw hA'
  | switch c enabled => exact h.switch hs hA hw hA'
  | retract c => exact h.retract hs hA hw

/-- What becomes of an engine, its solver having been kept up, by a proper write: there is no
solver, or it is kept up, or it is dropped for a cause that is expected. -/
theorem write_cases (h : Upkeep A I E) {w : Write α} (hreg : e.Registered) (hw : w.Proper e)
    (hA : A e.demand) (hA' : A (w.record e).demand) (hs : ∀ s, e.solver = some s → I e.demand s) :
    (e.solver = none ∧ e.write w = w.record e) ∨
    (∃ s', e.solver.isSome = true ∧ e.write w = { w.record e with solver := some s' } ∧
      I (w.record e).demand s') ∨
    ∃ cause, e.solver.isSome = true ∧ e.write w = (w.record e).invalidate cause ∧ E cause := by
  have hsolver := (w.record_rest e).1
  obtain ⟨hnone, hwrite⟩ | ⟨s, s', hsome, hrun, hwrite⟩ | ⟨s, cause, s', hsome, hrun, hwrite⟩ :=
    (w.record e).apply_cases (w.change e)
  · exact Or.inl ⟨hsolver.symm.trans hnone, hwrite⟩
  · have hsome := hsolver.symm.trans hsome
    exact Or.inr (Or.inl ⟨s', by rw [hsome]; rfl, hwrite,
      (h.change hreg hw hA hA' (hs s hsome)).of_ok hrun⟩)
  · have hsome := hsolver.symm.trans hsome
    exact Or.inr (Or.inr ⟨cause, by rw [hsome]; rfl, hwrite,
      (h.change hreg hw hA hA' (hs s hsome)).of_error hrun⟩)

end

end Upkeep

end BoxLayout
