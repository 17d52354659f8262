-- SUMMARY: The tableau of a solver means exactly its active constraints, whatever calls led to it.
import BoxLayout.Proofs.Runs

/-!
# The tableau means the active constraints

Pivots rewrite the rows of a tableau over and over. What they say together is nevertheless
what the list of active constraints says: after every smooth history an assignment of all
symbols satisfies the rows exactly if it satisfies the equation of every active constraint.

Nothing is left behind either. Every symbol that the tableau mentions belongs to a known
variable or to an active constraint; the symbols of removed constraints and the artificial
symbols of finished additions do not occur any more.
-/

namespace BoxLayout

/-- The symbol is basic or has a cell in a row or in the objective. -/
def Tableau.Mentions (t : Tableau Rat) (x : Symbol) : Prop :=
  x ∈ t.rows.keys ∨ (∃ b row, t.rows.get? b = some row ∧ x ∈ row.cells.keys) ∨
    x ∈ t.objective.cells.keys

namespace Solver

variable {s : Solver Rat} {x : Symbol} {label : Label} {a : Active Rat}

/-- The tableau mentions no symbol that is not in use. -/
theorem Sound.uses_of_mentions (h : s.Sound) (hx : s.tableau.Mentions x) : s.Uses x := by
  by_contra hnot
  have hign := h.ignores hnot
  obtain ⟨hbasic, hrows⟩ := h.ready.absent hign.free
  obtain hmem | ⟨b, row, hb, hmem⟩ | hmem := hx
  · exact hbasic hmem
  · have hred := h.ready.solved.reduced row (Tableau.stores_row hb)
    exact hred.mem_keys_iff.1 hmem (hrows b row hb)
  · have hred := h.ready.solved.reduced _ Tableau.stores_objective
    exact hred.mem_keys_iff.1 hmem (h.ready.objective_absent hign.free hign.objective)

/-- The equation of an edit constraint is about the distance of its variable from its target. -/
theorem Formed.gap_edit (h : s.Formed) {z : Variable} {e : Edit Rat} (he : s.edits.get? z = some e)
    (ha : s.constraints.get? label = some a) (htag : a.tag = e.tag) (y : Variable → Rat) :
    s.gap a y = y z - e.target := by
  obtain rfl := h.editActive z e label a he ha
    ⟨_, e.tag.marker_mem, htag ▸ e.tag.marker_mem⟩
  unfold gap
  change e.constraint.expression.eval y - s.targetOf e.tag = _
  rw [(h.editFits z e he).2, h.targetOf_eq he]
  simp [Linear.eval, Linear.ofUnknown]

/-- After every smooth history an assignment satisfies the rows of the tableau if and only if
it satisfies the equation of every active constraint; for an edit constraint the equation is
about the variable's distance from its target. Every symbol that is mentioned belongs to a
known variable or an active constraint. A symbol that was issued earlier and belonged to
neither afterwards, as the artificial symbols do, is not mentioned, and neither is a symbol of
a constraint that was active earlier and has been removed. -/
theorem rows_mean_active_constraints (steps : Nat) (history : List (Command Rat))
    (h : (empty steps).Smooth history) :
    (∀ v, ((empty steps).after history).tableau.Satisfies v ↔
      ∀ label a, ((empty steps).after history).constraints.get? label = some a →
        ((empty steps).after history).Equation a v) ∧
    (∀ z e label a, ((empty steps).after history).edits.get? z = some e →
      ((empty steps).after history).constraints.get? label = some a → a.tag = e.tag →
        ∀ y, ((empty steps).after history).gap a y = y z - e.target) ∧
    (∀ x, ((empty steps).after history).tableau.Mentions x →
      ((empty steps).after history).Uses x) ∧
    (∀ earlier later x, history = earlier ++ later →
      x.number ≤ ((empty steps).after earlier).tableau.symbolCount →
      ¬((empty steps).after earlier).Uses x →
        ¬((empty steps).after history).tableau.Mentions x) ∧
    (∀ earlier later label a, history = earlier ++ later →
      ((empty steps).after earlier).constraints.get? label = some a →
      ((empty steps).after history).constraints.get? label ≠ some a →
        ∀ x ∈ a.tag.symbols, ¬((empty steps).after history).tableau.Mentions x) ∧
    ((empty steps).after history).tableau.artificial = none := by
  obtain ⟨hsound, -⟩ := (sound_empty steps).after h
  have hparts {earlier later : List (Command Rat)} (heq : history = earlier ++ later) :
      ((empty steps).after earlier).Sound ∧
        Precedes ((empty steps).after earlier) ((empty steps).after history) := by
    rw [heq, smooth_append] at h
    obtain ⟨hearlier, -⟩ := (sound_empty steps).after h.1
    rw [heq, after_append]
    exact ⟨hearlier, (hearlier.after h.2).2⟩
  refine ⟨hsound.ready.solutions, fun z e label a he ha htag => hsound.gap_edit he ha htag,
    fun x => hsound.uses_of_mentions, ?_, ?_, hsound.ready.artificial_eq_none rfl⟩
  · intro earlier later x heq hissued hnot hx
    exact (hparts heq).2.not_uses hissued hnot (hsound.uses_of_mentions hx)
  · intro earlier later label a heq ha hgone x hxa hx
    obtain ⟨hearlier, hprecedes⟩ := hparts heq
    obtain ⟨z, known, hz, rfl⟩ | ⟨label', b, hb, hxb⟩ := hsound.uses_of_mentions hx
    · have hext := (hsound.external z known hz).1
      rw [(hearlier.fits label a ha).isExternal hxa] at hext
      cases hext
    · obtain hold | hnew := hprecedes.constraints label' b hb
      · obtain rfl := hearlier.apart label label' a b x ha hold hxa hxb
        rw [ha] at hold
        obtain rfl := Option.some.inj hold
        exact hgone hb
      · exact absurd (hearlier.issued label a ha x hxa) (not_le.2 (hnew x hxb))

/-- Two edit variables of different strength, a bound on their sum and another constraint that
is taken out again. -/
def squeezed : List (Command Rat) :=
  [.addEditVariable ⟨0⟩ (.ofPriority .p1), .addEditVariable ⟨1⟩ (.ofPriority .p2),
    .suggestValue ⟨0⟩ 6, .suggestValue ⟨1⟩ 7,
    .addConstraint (.make (.caller 0) ⟨-10, [⟨⟨0⟩, 1⟩, ⟨⟨1⟩, 1⟩]⟩ .atMost .required),
    .addConstraint (.make (.caller 1) ⟨-8, [⟨⟨0⟩, 1⟩]⟩ .equal .required),
    .removeConstraint (.caller 1), .suggestValue ⟨0⟩ 5, .updateVariables]

/-- The equations of the two edit variables and of the bound are what the rows say in the end. -/
theorem rows_mean_active_constraints_squeezed :
    (empty 20).Smooth squeezed ∧
      ∀ v, ((empty 20).after squeezed).tableau.Satisfies v ↔
        ∀ label a, ((empty 20).after squeezed).constraints.get? label = some a →
          ((empty 20).after squeezed).Equation a v := by
  have hsmooth : (empty 20).Smooth squeezed := by decide +kernel
  exact ⟨hsmooth, (rows_mean_active_constraints 20 squeezed hsmooth).1⟩

end Solver

end BoxLayout
