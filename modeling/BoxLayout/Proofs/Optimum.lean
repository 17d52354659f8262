-- SUMMARY: Values of variables against values of symbols, and why a sound tableau shows values of least penalty.
import BoxLayout.Proofs.Formed

/-!
# Optimal values

Values of the variables meet a solver's constraints if the required ones hold. What the
others are violated by, weighed by strength, is the penalty.

Both can be read from the symbols: a solution with the right signs gives values that meet
the constraints, with a penalty of at most its objective, and values that meet the
constraints come from such a solution, with exactly that objective. So a tableau that is
feasible and has a minimal objective shows values of least penalty. The one proviso is
that no dummy stands for a number other than zero.
-/

namespace BoxLayout

/-- The constraint holds of the values. -/
def Constraint.Holds (c : Constraint Rat) (y : Variable → Rat) : Prop :=
  c.relation.Holds (c.expression.eval y) 0

/-- Every basic dummy is zero. -/
def Tableau.DummiesZero (t : Tableau Rat) : Prop :=
  ∀ d row, t.rows.get? d = some row → d.isDummy = true → row.constant = 0

instance (t : Tableau Rat) : Decidable t.DummiesZero :=
  decidable_of_iff (∀ v ∈ t.rows.entries, v.1.isDummy = true → v.2.constant = 0)
    ⟨fun h d row hd => h (d, row) (OrderedMap.mem_entries_iff.2 hd),
      fun h v hv => h v.1 v.2 (OrderedMap.mem_entries_iff.1 hv)⟩

theorem Tableau.Clean.dummiesZero {t : Tableau Rat} (h : t.Clean) : t.DummiesZero :=
  fun d row hd hdummy => (h d row hd hdummy).1

/-- Where all non-basic symbols are zero the signs are right. -/
theorem Tableau.Feasible.admissible_completion {t : Tableau Rat} (h : t.Feasible)
    (hzero : t.DummiesZero) : Admissible (t.completion fun _ => 0) := by
  refine ⟨h.nonneg_completion, fun d hd => ?_⟩
  cases hrow : t.rows.get? d with
  | none => rw [completion_nonbasic (OrderedMap.get?_eq_none_iff.1 hrow)]
  | some row => rw [completion_basic hrow, ← Row.constant_eq_eval, hzero d row hrow hd]

namespace Solver

variable {s : Solver Rat} {v : Assignment} {label : Label} {a : Active Rat} {x : Symbol}
  {y : Variable → Rat}

/-- The required constraints hold of the values. -/
def Meets (s : Solver Rat) (y : Variable → Rat) : Prop :=
  ∀ label a, s.constraints.get? label = some a → a.constraint.isRequired = true →
    a.constraint.Holds y

/-- How far the other constraints are from holding, weighed by strength. -/
def penalty (s : Solver Rat) (y : Variable → Rat) : Rat :=
  (s.constraints.values.map fun a =>
    if a.constraint.isRequired then 0
    else a.constraint.strength.weight * a.constraint.relation.violation (s.gap a y)).sum

/-- No constraint has a negative strength. -/
def Weighted (s : Solver Rat) : Prop :=
  ∀ label a, s.constraints.get? label = some a → 0 ≤ a.constraint.strength.weight

/-! ## From symbols to values -/

/-- A solution with the right signs gives values that meet the constraints. -/
theorem Formed.meets_of_solution (h : s.Formed) (hv : s.meaning.solutions v) (hadm : Admissible v) :
    s.Meets (s.lift v) := by
  intro label a ha hreq
  have heq := hv label a ha
  have hfits := h.fits label a ha
  unfold Equation gap at heq
  rw [h.targetOf_required ha hreq, sub_zero, hreq] at heq
  rw [hreq] at hfits
  exact hfits.holds heq hadm

/-- The errors of a solution cost at least the penalty of its values. -/
theorem Formed.penalty_le_objective (h : s.Formed) (hw : s.Weighted) (hv : s.meaning.solutions v)
    (hnonneg : Nonneg v) : s.penalty (s.lift v) ≤ s.meaning.objective v := by
  apply List.sum_le_sum
  intro a ha
  obtain ⟨label, hlabel⟩ := OrderedMap.mem_values_iff.1 ha
  have heq := hv label a hlabel
  have hfits := h.fits label a hlabel
  unfold Equation at heq
  unfold Active.cost
  cases hreq : a.constraint.isRequired with
  | true =>
    rw [hreq] at hfits
    rw [if_pos rfl, hfits.shortfall_of_required, mul_zero]
  | false =>
    rw [hreq] at hfits heq
    rw [if_neg Bool.false_ne_true]
    exact mul_le_mul_of_nonneg_left (hfits.violation_le heq hnonneg) (hw label a hlabel)

/-- The objective is never negative where no error symbol is. -/
theorem Formed.bounded (h : s.Formed) (hw : s.Weighted) : s.meaning.Bounded .primary := by
  intro G hG v _ hnonneg
  obtain rfl := Option.some.inj hG
  apply List.sum_nonneg
  intro c hc
  obtain ⟨a, ha, rfl⟩ := List.mem_map.1 hc
  obtain ⟨label, hlabel⟩ := OrderedMap.mem_values_iff.1 ha
  refine mul_nonneg (hw label a hlabel) (List.sum_nonneg fun c hc => ?_)
  obtain ⟨e, he, rfl⟩ := List.mem_map.1 hc
  exact hnonneg e ((h.fits label a hlabel).isExternal (Tag.mem_symbols_of_mem_errors he))

/-! ## From values to symbols -/

open Classical in
/-- The values of the symbols that go with values of the variables. -/
noncomputable def symbolsFor (s : Solver Rat) (y : Variable → Rat) : Assignment := fun x =>
  if h : ∃ z known, s.tracked.get? z = some known ∧ known.symbol = x then y h.choose
  else if h : ∃ a, (∃ label, s.constraints.get? label = some a) ∧ a.tag.marker = x then
    Tag.markerFor h.choose.constraint.relation (s.gap h.choose y)
  else if h : ∃ a, (∃ label, s.constraints.get? label = some a) ∧ a.tag.other = some x then
    Tag.otherFor h.choose.constraint.relation (s.gap h.choose y)
  else 0

/-- Constraints that share a symbol are one constraint. -/
theorem Formed.eq_of_mem_symbols (h : s.Formed) {b : Active Rat}
    (ha : ∃ label, s.constraints.get? label = some a)
    (hb : ∃ label, s.constraints.get? label = some b) (hxa : x ∈ a.tag.symbols)
    (hxb : x ∈ b.tag.symbols) : a = b := by
  obtain ⟨label, ha⟩ := ha
  obtain ⟨label', hb⟩ := hb
  obtain rfl := h.apart label label' a b x ha hb hxa hxb
  rw [ha] at hb
  exact Option.some.inj hb

theorem Formed.symbolsFor_tracked (h : s.Formed) {z : Variable} {known : Tracked Rat}
    (hz : s.tracked.get? z = some known) : s.symbolsFor y known.symbol = y z := by
  have hex : ∃ z' known', s.tracked.get? z' = some known' ∧ known'.symbol = known.symbol :=
    ⟨z, known, hz, rfl⟩
  unfold symbolsFor
  rw [dif_pos hex]
  obtain ⟨known', hz', heq⟩ := hex.choose_spec
  rw [h.injective _ z known' known hz' hz heq]

theorem Formed.not_tracked (h : s.Formed) (ha : s.constraints.get? label = some a)
    (hx : x ∈ a.tag.symbols) :
    ¬∃ z known, s.tracked.get? z = some known ∧ known.symbol = x := by
  rintro ⟨z, known, hz, heq⟩
  exact h.tracked_ne ha hx z known hz heq

theorem Formed.symbolsFor_marker (h : s.Formed) (ha : s.constraints.get? label = some a) :
    s.symbolsFor y a.tag.marker = Tag.markerFor a.constraint.relation (s.gap a y) := by
  have hex : ∃ b, (∃ label, s.constraints.get? label = some b) ∧ b.tag.marker = a.tag.marker :=
    ⟨a, ⟨label, ha⟩, rfl⟩
  unfold symbolsFor
  rw [dif_neg (h.not_tracked ha a.tag.marker_mem), dif_pos hex]
  obtain ⟨hb, heq⟩ := hex.choose_spec
  have hmem := hex.choose.tag.marker_mem
  rw [heq] at hmem
  rw [h.eq_of_mem_symbols hb ⟨label, ha⟩ hmem a.tag.marker_mem]

theorem Formed.symbolsFor_other (h : s.Formed) (ha : s.constraints.get? label = some a)
    (ho : a.tag.other = some x) :
    s.symbolsFor y x = Tag.otherFor a.constraint.relation (s.gap a y) := by
  have hx := Tag.other_mem ho
  have hmarker : ¬∃ b, (∃ label, s.constraints.get? label = some b) ∧ b.tag.marker = x := by
    rintro ⟨b, hb, heq⟩
    have hmem : x ∈ b.tag.symbols := heq ▸ b.tag.marker_mem
    obtain rfl := h.eq_of_mem_symbols hb ⟨label, ha⟩ hmem hx
    exact (h.fits label b ha).marker_ne_other ho heq
  have hex : ∃ b, (∃ label, s.constraints.get? label = some b) ∧ b.tag.other = some x :=
    ⟨a, ⟨label, ha⟩, ho⟩
  unfold symbolsFor
  rw [dif_neg (h.not_tracked ha hx), dif_neg hmarker, dif_pos hex]
  obtain ⟨hb, heq⟩ := hex.choose_spec
  rw [h.eq_of_mem_symbols hb ⟨label, ha⟩ (Tag.other_mem heq) hx]

theorem symbolsFor_nonneg (s : Solver Rat) (y : Variable → Rat) (hx : ¬∃ z known,
    s.tracked.get? z = some known ∧ known.symbol = x) : 0 ≤ s.symbolsFor y x := by
  unfold symbolsFor
  rw [dif_neg hx]
  split
  · exact Tag.markerFor_nonneg _ _
  · split
    · exact Tag.otherFor_nonneg _ _
    · exact le_refl 0

theorem Formed.lift_symbolsFor (h : s.Formed) {z : Variable} (hz : z ∈ s.tracked.keys) :
    s.lift (s.symbolsFor y) z = y z := by
  obtain ⟨known, hknown⟩ := OrderedMap.mem_keys_iff.1 hz
  unfold lift
  rw [hknown]
  exact h.symbolsFor_tracked hknown

theorem Formed.gap_symbolsFor (h : s.Formed) (ha : s.constraints.get? label = some a) :
    s.gap a (s.lift (s.symbolsFor y)) = s.gap a y :=
  h.gap_congr ha fun _ hz => h.lift_symbolsFor hz

theorem Formed.holds_gap (h : s.Formed) (hy : s.Meets y) (ha : s.constraints.get? label = some a)
    (hreq : a.constraint.isRequired = true) : a.constraint.relation.Holds (s.gap a y) 0 := by
  unfold gap
  rw [h.targetOf_required ha hreq, sub_zero]
  exact hy label a ha hreq

/-- A symbol that nothing uses has no value. -/
theorem symbolsFor_of_not_uses (hx : ¬s.Uses x) : s.symbolsFor y x = 0 := by
  unfold symbolsFor
  rw [dif_neg fun hex => hx (Or.inl hex)]
  rw [dif_neg fun ⟨a, ⟨label, ha⟩, heq⟩ => hx (Or.inr ⟨label, a, ha, heq ▸ a.tag.marker_mem⟩)]
  rw [dif_neg fun ⟨a, ⟨label, ha⟩, ho⟩ => hx (Or.inr ⟨label, a, ha, Tag.other_mem ho⟩)]

/-- The symbols for values that meet the constraints solve them. -/
theorem Formed.solutions_symbolsFor (h : s.Formed) (hy : s.Meets y) :
    s.meaning.solutions (s.symbolsFor y) := by
  intro label a ha
  unfold Equation
  rw [h.gap_symbolsFor ha]
  exact (h.fits label a ha).equation_of_values (h.symbolsFor_marker ha)
    (fun x hx => h.symbolsFor_other ha hx) (h.holds_gap hy ha)

/-- They have the right signs. A dummy is the marker of a required equation, which leaves no gap. -/
theorem Formed.admissible_symbolsFor (h : s.Formed) (hy : s.Meets y) :
    Admissible (s.symbolsFor y) := by
  constructor
  · intro x hx
    apply symbolsFor_nonneg
    rintro ⟨z, known, hz, rfl⟩
    rw [(h.external z known hz).1] at hx
    cases hx
  · intro d hd
    by_cases huse : s.Uses d
    · obtain ⟨z, known, hz, rfl⟩ | ⟨label, a, ha, hmem⟩ := huse
      · have hext := Symbol.isExternal_of_isDummy hd
        rw [(h.external z known hz).1] at hext
        cases hext
      · obtain ⟨rfl, hrel, hreq⟩ := (h.fits label a ha).of_isDummy hmem hd
        have hholds := h.holds_gap hy ha hreq
        rw [hrel] at hholds
        have hzero : s.gap a y = 0 := hholds
        rw [h.symbolsFor_marker ha, hrel, hzero]
        exact max_self 0
    · exact symbolsFor_of_not_uses huse

/-- Their errors cost exactly the penalty. -/
theorem Formed.objective_symbolsFor (h : s.Formed) :
    s.meaning.objective (s.symbolsFor y) = s.penalty y := by
  change List.sum _ = List.sum _
  congr 1
  apply List.map_congr_left
  intro a ha
  obtain ⟨label, hlabel⟩ := OrderedMap.mem_values_iff.1 ha
  have hfits := h.fits label a hlabel
  unfold Active.cost
  cases hreq : a.constraint.isRequired with
  | true =>
    rw [hreq] at hfits
    rw [if_pos rfl, hfits.shortfall_of_required, mul_zero]
  | false =>
    rw [hreq] at hfits
    rw [if_neg Bool.false_ne_true, hfits.shortfall_of_values (h.symbolsFor_marker hlabel)
      fun x hx => h.symbolsFor_other hlabel hx]

/-- Values that meet the constraints come from a solution that costs exactly the penalty. -/
theorem Formed.exists_solution (h : s.Formed) (hy : s.Meets y) :
    ∃ v, s.meaning.solutions v ∧ Admissible v ∧ s.meaning.objective v = s.penalty y :=
  ⟨s.symbolsFor y, h.solutions_symbolsFor hy, h.admissible_symbolsFor hy, h.objective_symbolsFor⟩

/-! ## Sound solvers -/

/-- The tableau stands for the constraints, is feasible and cannot be improved. -/
structure Sound (s : Solver Rat) : Prop extends s.Formed where
  ready : s.tableau.Ready s.meaning
  minimal : s.tableau.objective.Minimal

/-- The values that the tableau shows. -/
theorem value_updateVariables (s : Solver Rat) (z : Variable) :
    s.updateVariables.value z = s.lift (s.tableau.completion fun _ => 0) z := by
  unfold value updateVariables lift
  rw [OrderedMap.get?_mapValues]
  cases s.tracked.get? z with
  | none => rfl
  | some known =>
    change s.symbolValue known.symbol = _
    unfold symbolValue
    cases hrow : s.tableau.rows.get? known.symbol with
    | none =>
      dsimp only
      rw [Tableau.completion_nonbasic (OrderedMap.get?_eq_none_iff.1 hrow)]
    | some row =>
      dsimp only
      rw [Tableau.completion_basic hrow, Row.constant_eq_eval]

/-- The values meet the constraints exactly if every basic dummy is zero. -/
theorem Sound.meets_iff (h : s.Sound) :
    s.Meets s.updateVariables.value ↔ s.tableau.DummiesZero := by
  have hvalue : s.updateVariables.value = s.lift (s.tableau.completion fun _ => 0) :=
    funext s.value_updateVariables
  have hsol := h.ready.completion fun _ => 0
  rw [hvalue]
  constructor
  · intro hmeets d row hd hdummy
    have huse : s.Uses d := by
      by_contra hnot
      exact (h.ready.absent (h.ignores hnot).free).1 (Tableau.mem_keys hd)
    obtain ⟨z, known, hz, rfl⟩ | ⟨label, a, ha, hmem⟩ := huse
    · have hext := Symbol.isExternal_of_isDummy hdummy
      rw [(h.external z known hz).1] at hext
      cases hext
    · obtain ⟨rfl, hrel, hreq⟩ := (h.fits label a ha).of_isDummy hmem hdummy
      have hholds := hmeets label a ha hreq
      have heq := hsol label a ha
      unfold Constraint.Holds at hholds
      unfold Equation gap at heq
      rw [h.targetOf_required ha hreq, sub_zero, hrel, hreq] at heq
      rw [hrel] at hholds
      have hzero : a.constraint.expression.eval (s.lift (s.tableau.completion fun _ => 0)) = 0 :=
        hholds
      rw [hzero] at heq
      have hval : 0 + s.tableau.completion (fun _ => 0) a.tag.marker = 0 := heq
      rwa [zero_add, Tableau.completion_basic hd, ← Row.constant_eq_eval] at hval
  · intro hzero
    exact h.meets_of_solution hsol (h.ready.feasible.admissible_completion hzero)

/-- The values have the least penalty of all that meet the constraints. -/
theorem Sound.penalty_le (h : s.Sound) (hw : s.Weighted) (hzero : s.tableau.DummiesZero)
    (hy : s.Meets y) : s.penalty s.updateVariables.value ≤ s.penalty y := by
  have hvalue : s.updateVariables.value = s.lift (s.tableau.completion fun _ => 0) :=
    funext s.value_updateVariables
  have hsol := h.ready.completion fun _ => 0
  have hadm := h.ready.feasible.admissible_completion hzero
  obtain ⟨v, hv, hvadm, hcost⟩ := h.exists_solution hy
  obtain ⟨d, hd⟩ := h.ready.objective
  have hleast : s.meaning.objective (s.tableau.completion fun _ => 0) ≤ s.meaning.objective v := by
    have hle := h.minimal.constant_le h.ready.split.objective hvadm
    rw [Row.constant_eq_eval, ← h.ready.solved.eval_completion Tableau.stores_objective, hd _ hsol,
      hd v hv] at hle
    linarith
  calc s.penalty s.updateVariables.value
      = s.penalty (s.lift (s.tableau.completion fun _ => 0)) := by rw [hvalue]
    _ ≤ s.meaning.objective (s.tableau.completion fun _ => 0) :=
        h.penalty_le_objective hw hsol hadm.nonneg
    _ ≤ s.meaning.objective v := hleast
    _ = s.penalty y := hcost

end Solver

end BoxLayout
