-- SUMMARY: What each call of the solver ensures: how it may end, and that it keeps the solver sound.
import BoxLayout.Proofs.Creation

/-!
# Solver calls

Each call of a sound solver leaves a sound solver, or fails in one of a few ways. Failures
that concern the caller leave the solver as it was. A refusal of a constraint or of a
suggestion means that no values meet the required constraints, as long as the tableau is
clean. What remains is that a loop runs out of steps, or that the objective can be lowered
without end, which negative strengths alone can bring about.
-/

namespace BoxLayout.Solver

open Tableau

variable {s s' : Solver Rat} {v : Assignment} {label : Label} {a : Active Rat} {x : Symbol}
  {y : Variable} {c : Constraint Rat} {tag : Tag} {t : Tableau Rat}

/-! ## Another tableau -/

theorem Formed.withTableau (h : s.Formed) (hcount : s.tableau.symbolCount ≤ t.symbolCount) :
    ({ s with tableau := t } : Solver Rat).Formed :=
  { h with
    issued := fun label a ha x hx => (h.issued label a ha x hx).trans hcount
    external := fun z known hz => ⟨(h.external z known hz).1, (h.external z known hz).2.trans hcount⟩
    editIssued := fun z e he x hx => (h.editIssued z e he x hx).trans hcount }

/-- A tableau that stands for the constraints of a solver, after a primal loop. -/
theorem optimize_sound (h : s.Formed) (hready : t.Ready { s.meaning with symbolCount := t.symbolCount })
    (hcount : s.tableau.symbolCount ≤ t.symbolCount) (steps : Nat) :
    (optimize .primary steps).Ensures t
      (fun _ t' => ({ s with tableau := t' } : Solver Rat).Sound ∧ t.symbolCount = t'.symbolCount ∧
        (t.Clean → t'.Clean))
      (fun e _ => e = .outOfSteps ∨ e = .internal .unbounded ∧ ¬s.Weighted) := by
  refine (optimize_ensures hready steps).mono ?_ ?_
  · rintro - t' ⟨⟨hready', hclean⟩, hmin⟩
    have hsame : t'.symbolCount = t.symbolCount := hready'.symbolCount
    refine ⟨⟨h.withTableau (hcount.trans_eq hsame.symm), ?_, hmin _ rfl⟩, hsame.symm, hclean⟩
    rw [← hsame] at hready'
    exact hready'
  · rintro e - (hout | ⟨he, hun⟩)
    · exact Or.inl hout
    · exact Or.inr ⟨he, fun hw => hun fun G hG v hv => h.bounded hw G hG v hv⟩

/-! ## Adding a constraint -/

/-- `s'` is `s` with the constraint. -/
structure Added (s : Solver Rat) (c : Constraint Rat) (s' : Solver Rat) : Prop where
  sound : s'.Sound
  vacant : s.constraints.get? c.label = none
  constraints : ∃ tag, s'.constraints = s.constraints.insert c.label ⟨c, tag⟩ ∧
    ∀ x ∈ tag.symbols, s.tableau.symbolCount < x.number
  edits : s'.edits = s.edits
  editCount : s'.editCount = s.editCount
  steps : s'.steps = s.steps
  count : s.tableau.symbolCount ≤ s'.tableau.symbolCount
  tracked : ∀ y known, s'.tracked.get? y = some known →
    s.tracked.get? y = some known ∨ s.tableau.symbolCount < known.symbol.number
  clean : s.tableau.Clean → s'.tableau.Clean

/-- How adding a constraint may fail. -/
inductive AddFailure (s : Solver Rat) (c : Constraint Rat) : SolverError → Solver Rat → Prop where
  | duplicate (h : s.hasConstraint c.label = true) : AddFailure s c .duplicateConstraint s
  | contradiction (s' : Solver Rat)
      (h : s.tableau.Clean → ¬∃ y, s.Meets y ∧ (c.isRequired = true → c.Holds y)) :
      AddFailure s c .unsatisfiableConstraint s'
  | outOfSteps (s' : Solver Rat) : AddFailure s c .outOfSteps s'
  | unbounded (s' : Solver Rat) (h : ¬(s.Weighted ∧ 0 ≤ c.strength.weight)) :
      AddFailure s c (.internal .unbounded) s'

theorem Prepared.meets {row : Row Rat} {y : Variable → Rat} (h : Prepared s c row tag s')
    (hy : s.Meets y) (hc : c.isRequired = true → c.Holds y) : (s'.register c tag).Meets y := by
  intro label a ha hreq
  obtain ⟨-, rfl⟩ | ha := register_cases ha
  · exact hc hreq
  · rw [h.constraints] at ha
    exact hy label a ha hreq

theorem Prepared.weighted {row : Row Rat} (h : Prepared s c row tag s') (hw : s.Weighted)
    (hc : 0 ≤ c.strength.weight) : (s'.register c tag).Weighted := by
  intro label a ha
  obtain ⟨-, rfl⟩ | ha := register_cases ha
  · exact hc
  · rw [h.constraints] at ha
    exact hw label a ha

theorem addConstraint_ensures (h : s.Sound) (c : Constraint Rat) :
    (addConstraint c).Ensures s (fun _ s' => Added s c s') (AddFailure s c) := by
  refine Attempt.ensures_get_bind ?_
  by_cases hdup : s.hasConstraint c.label = true
  · rw [if_pos hdup]
    exact .duplicate hdup
  rw [if_neg hdup]
  have hfinite : c.expression.isFinite = true := by
    unfold Linear.isFinite
    exact Bool.and_eq_true_iff.2 ⟨rfl, List.all_eq_true.2 fun _ _ => rfl⟩
  rw [if_pos hfinite]
  have hlabel : s.constraints.get? c.label = none := by
    rw [OrderedMap.get?_eq_none_iff]
    exact fun hmem => hdup (OrderedMap.contains_iff.2 hmem)
  have hprep := createRow_prepared h.toFormed h.ready hlabel
  have hrows : s.tableau.Clean → (createRow c s).2.tableau.Clean := by
    intro hclean
    unfold Clean
    rw [hprep.rows]
    exact hclean
  refine Attempt.ensures_modifyGet_bind ?_
  generalize createRow c s = created at hprep hrows ⊢
  obtain ⟨⟨row, tag⟩, s'⟩ := created
  refine Attempt.ensures_get_bind (Attempt.ensures_bind (Attempt.ensures_onPart ?_))
  refine (enterRow_ensures hprep.ready rfl hprep.newRow hprep.ignores hprep.newTag _).mono ?_ ?_
  · rintro - t ⟨hcount, hready, hclean⟩
    refine Attempt.ensures_modify_bind (Attempt.ensures_onPart ?_)
    have hmeans : t.Ready { (s'.register c tag).meaning with symbolCount := t.symbolCount } :=
      hready.congr rfl rfl rfl hprep.solutions fun v _ => rfl
    refine (optimize_sound hprep.formed hmeans hcount _).mono ?_ ?_
    · rintro - t' ⟨hsound, hsame, hclean'⟩
      refine ⟨hsound, hlabel, ⟨tag, ?_, hprep.fresh⟩, hprep.edits, hprep.editCount, hprep.steps,
        (hprep.count.trans hcount).trans hsame.le, hprep.tracked, fun hc => hclean' (hclean (hrows hc))⟩
      change s'.constraints.insert _ _ = _
      rw [hprep.constraints]
    · rintro e t' (rfl | ⟨rfl, hun⟩)
      · exact .outOfSteps _
      · exact .unbounded _ fun hw => hun (hprep.weighted hw.1 hw.2)
  · rintro e t (rfl | ⟨rfl, hun⟩)
    · exact .outOfSteps _
    · refine .contradiction _ fun hclean => ?_
      rintro ⟨y, hy, hc⟩
      obtain ⟨v, hv, hadm, -⟩ := hprep.formed.exists_solution (hprep.meets hy hc)
      exact hun (hrows hclean) ⟨v, (hprep.solutions v).2 hv, hadm⟩

/-! ## Removing a constraint -/

/-- The solver without a constraint on its list. -/
def strike (s : Solver Rat) (label : Label) : Solver Rat :=
  { s with constraints := s.constraints.swapErase label }

theorem get?_strike {other : Label} : (s.strike label).constraints.get? other
    = if other = label then none else s.constraints.get? other :=
  OrderedMap.get?_swapErase _ _ _

theorem of_strike {other : Label} (h : (s.strike label).constraints.get? other = some a) :
    other ≠ label ∧ s.constraints.get? other = some a :=
  OrderedMap.get?_of_swapErase h

theorem Formed.strike (h : s.Formed) (label : Label) : (s.strike label).Formed :=
  { h with
    labelled := fun other a ha => h.labelled other a (of_strike ha).2
    fits := fun other a ha => h.fits other a (of_strike ha).2
    issued := fun other a ha => h.issued other a (of_strike ha).2
    apart := fun l l' a b x ha hb => h.apart l l' a b x (of_strike ha).2 (of_strike hb).2
    known := fun other a ha => h.known other a (of_strike ha).2
    editActive := fun z e other a he ha => h.editActive z e other a he (of_strike ha).2 }

theorem objective_strike (h : s.constraints.get? label = some a) (v : Assignment) :
    s.meaning.objective v = (s.strike label).meaning.objective v + a.cost v := by
  have hperm := OrderedMap.values_perm_swapErase h
  change (s.constraints.values.map fun a => a.cost v).sum = _
  rw [(hperm.map fun a => a.cost v).sum_eq, List.map_cons, List.sum_cons, add_comm]
  rfl

/-- Setting the marker suitably, any solution of the other constraints is one of all. -/
theorem Formed.solutions_strike (h : s.Formed) (ha : s.constraints.get? label = some a) :
    (∃ x, s.meaning.solutions (Function.update v a.tag.marker x)) ↔
      (s.strike label).meaning.solutions v := by
  have hmem := a.tag.marker_mem
  have hother {other : Label} {b : Active Rat} (hb : s.constraints.get? other = some b)
      (hne : other ≠ label) (x : Rat) :
      s.Equation b (Function.update v a.tag.marker x) ↔ s.Equation b v := by
    refine h.equation_update hb (h.tracked_ne ha hmem) (fun hmem' => hne ?_) x
    exact h.apart other label b a _ hb ha hmem' hmem
  constructor
  · rintro ⟨x, hx⟩ other b hb
    obtain ⟨hne, hb⟩ := of_strike hb
    exact (hother hb hne x).1 (hx other b hb)
  · intro hv
    obtain ⟨k, hk, hside⟩ := (h.fits label a ha).side_marker
    let missing := s.gap a (s.lift v) + a.tag.side a.constraint.relation v
    refine ⟨v a.tag.marker - missing / k, fun other b hb => ?_⟩
    by_cases hne : other = label
    · subst hne
      rw [ha] at hb
      obtain rfl := Option.some.inj hb
      rw [h.equation_iff ha, hside, lift_update (h.tracked_ne ha hmem)]
      have hcancel : k * (v a.tag.marker - missing / k - v a.tag.marker) = -missing := by
        field_simp
        ring
      rw [hcancel]
      change _ + (_ + -(_ + _)) = 0
      ring
    · exact (hother hb hne _).2 (hv other b (by rw [get?_strike, if_neg hne, hb]))

/-- The marker of a constraint is tied to the other symbols. -/
theorem Formed.marker_not_free (h : s.Formed) (ha : s.constraints.get? label = some a)
    (hv : s.meaning.solutions v) : ¬Free s.meaning.solutions a.tag.marker := by
  intro hfree
  obtain ⟨k, hk, hside⟩ := (h.fits label a ha).side_marker
  have h0 := (h.equation_iff ha).1 (hv label a ha)
  have h1 := (h.equation_iff ha).1 (hfree v (v a.tag.marker + 1) hv label a ha)
  rw [lift_update (h.tracked_ne ha a.tag.marker_mem), hside] at h1
  apply hk
  linarith

/-- Taking the errors of a constraint out of the objective. -/
theorem ready_withdrawErrors {μ : Meaning} (h : t.Ready μ) (hμ : μ.artificial = none)
    (ha : ∀ e ∈ a.tag.errors, e.isExternal = false) :
    (withdrawErrors a t).Ready { μ with objective := fun v => μ.objective v - a.cost v } := by
  have hfold (es : List Symbol) (w : Rat) {t : Tableau Rat} {μ : Meaning} (h : t.Ready μ)
      (hμ : μ.artificial = none) (hes : ∀ e ∈ es, e.isExternal = false) :
      (es.foldl (fun t e => t.addToObjective e w) t).Ready
        { μ with objective := fun v => μ.objective v + w * (es.map v).sum } := by
    induction es generalizing t μ with
    | nil =>
      rw [List.foldl_nil]
      refine h.congr hμ hμ rfl (fun _ => Iff.rfl) fun v _ => ?_
      simp
    | cons e es ih =>
      have hfirst := h.addToObjective (hes e List.mem_cons_self) w
      have hrest := ih hfirst hμ fun e he => hes e (List.mem_cons_of_mem _ he)
      rw [List.foldl_cons]
      refine hrest.congr hμ hμ rfl (fun _ => Iff.rfl) fun v _ => ?_
      simp only [List.map_cons, List.sum_cons]
      ring
  have hall := hfold a.tag.errors (-a.constraint.strength.weight) h hμ ha
  refine hall.congr hμ hμ rfl (fun _ => Iff.rfl) fun v _ => ?_
  unfold Active.cost Tag.shortfall
  ring

/-- `s'` is `s` without the constraint. -/
structure Removed (s : Solver Rat) (label : Label) (s' : Solver Rat) : Prop where
  sound : s'.Sound
  present : ∃ a, s.constraints.get? label = some a
  constraints : s'.constraints = s.constraints.swapErase label
  edits : s'.edits = s.edits
  editCount : s'.editCount = s.editCount
  steps : s'.steps = s.steps
  count : s.tableau.symbolCount = s'.tableau.symbolCount
  tracked : s'.tracked = s.tracked

/-- How removing a constraint may fail. -/
inductive RemoveFailure (s : Solver Rat) (label : Label) : SolverError → Solver Rat → Prop where
  | unknown (h : s.constraints.get? label = none) : RemoveFailure s label .unknownConstraint s
  | outOfSteps (s' : Solver Rat) : RemoveFailure s label .outOfSteps s'
  | unbounded (s' : Solver Rat) (h : ¬s.Weighted) : RemoveFailure s label (.internal .unbounded) s'

/-- The objective of the other constraints is about their own errors. -/
theorem Formed.costless (h : s.Formed) (ha : s.constraints.get? label = some a) :
    Costless { s.meaning with objective := (s.strike label).meaning.objective } a.tag.marker := by
  intro v w hvw
  apply objective_congr
  intro other b hb e he
  obtain ⟨hne, hb⟩ := of_strike hb
  have hmem := Tag.mem_symbols_of_mem_errors he
  apply hvw e ((h.fits other b hb).isExternal hmem)
  rintro rfl
  exact hne (h.apart other label b a _ hb ha hmem a.tag.marker_mem)

theorem removeConstraint_ensures (h : s.Sound) (label : Label) :
    (removeConstraint label).Ensures s (fun _ s' => Removed s label s') (RemoveFailure s label) := by
  refine Attempt.ensures_get_bind ?_
  cases ha : s.constraints.get? label with
  | none => exact .unknown ha
  | some a =>
    have hmem := a.tag.marker_mem
    have hint := (h.fits label a ha).isExternal hmem
    have hsol := h.ready.completion fun _ => 0
    have hwithdrawn := ready_withdrawErrors h.ready rfl (a := a) fun e he =>
      (h.fits label a ha).isExternal (Tag.mem_symbols_of_mem_errors he)
    have hready : (withdrawErrors a s.tableau).Ready
        { s.meaning with objective := (s.strike label).meaning.objective } := by
      refine hwithdrawn.congr rfl rfl rfl (fun _ => Iff.rfl) fun v _ => ?_
      change s.meaning.objective v - a.cost v = _
      rw [objective_strike ha]
      ring
    refine Attempt.ensures_modify_bind (Attempt.ensures_bind (Attempt.ensures_onPart ?_))
    refine (removeMarker_ensures hready rfl (h.costless ha) hint (h.marker_not_free ha hsol)).mono ?_
      fun _ _ hf => hf.elim
    rintro - t ht
    refine Attempt.ensures_get_bind (Attempt.ensures_onPart ?_)
    have hcount : t.symbolCount = s.tableau.symbolCount := ht.symbolCount
    have hmeans : t.Ready { (s.strike label).meaning with symbolCount := t.symbolCount } :=
      ht.congr rfl rfl hcount.symm (fun v => h.solutions_strike ha) fun v _ => rfl
    refine (optimize_sound (h.strike label) hmeans hcount.ge _).mono ?_ ?_
    · rintro - t' ⟨hsound, hsame, -⟩
      exact ⟨hsound, ⟨a, ha⟩, rfl, rfl, rfl, rfl, hcount.symm.trans hsame, rfl⟩
    · rintro e t' (rfl | ⟨rfl, hun⟩)
      · exact .outOfSteps _
      · exact .unbounded _ fun hw => hun fun other b hb => hw other b (of_strike hb).2

/-! ## Other targets -/

/-- The meaning depends on the edit variables through the targets of active constraints. -/
theorem Sound.withEdits (h : s.Sound) (edits : OrderedMap Variable (Edit Rat)) (editCount : Nat)
    (hformed : ({ s with edits := edits, editCount := editCount } : Solver Rat).Formed)
    (htarget : ∀ label a, s.constraints.get? label = some a →
      ({ s with edits := edits, editCount := editCount } : Solver Rat).targetOf a.tag
        = s.targetOf a.tag) :
    ({ s with edits := edits, editCount := editCount } : Solver Rat).Sound := by
  refine ⟨hformed, h.ready.congr rfl rfl rfl (fun v => ?_) fun v _ => rfl, h.minimal⟩
  refine forall_congr' fun label => forall_congr' fun a => imp_congr_right fun ha => ?_
  unfold Equation gap
  rw [htarget label a ha]
  rfl

end BoxLayout.Solver
