-- SUMMARY: When no dummy is basic, and why removing a constraint makes none basic.
import BoxLayout.Proofs.Edits

/-!
# Basic dummies

A dummy becomes basic when a required equality is added that follows from the others, and in
no other way: no search lets a dummy enter the basis. So while no dummy is basic, removing a
constraint is safe, and the tableau stays clean.

In a clean tableau a basic dummy is a combination of dummies. If each required constraint can
be violated while the others hold, there is no such combination.
-/

namespace BoxLayout

open Attempt

namespace Tableau

variable {t : Tableau Rat} {goal : Goal} {leaving entering marker : Symbol} {row : Row Rat}

/-- No dummy is basic. -/
def Undummied (t : Tableau Rat) : Prop := ∀ d ∈ t.rows.keys, d.isDummy = false

theorem Undummied.clean (h : t.Undummied) : t.Clean := by
  intro d row hd hdummy
  rw [h d (mem_keys hd)] at hdummy
  cases hdummy

theorem Undummied.dropRow (h : t.Undummied) (s : Symbol) : (t.dropRow s).Undummied :=
  fun d hd => h d (mem_keys_dropRow.1 hd).2

theorem Undummied.substitute (h : t.Undummied) (s : Symbol) (row : Row Rat) :
    (t.substitute s row).Undummied := by
  unfold Undummied
  rw [keys_substitute]
  exact h

theorem Undummied.install (h : t.Undummied) (hs : entering.isDummy = false) :
    (t.install entering row).Undummied := by
  intro d hd
  obtain rfl | hd := mem_keys_install.1 hd
  · exact hs
  · exact h d hd

theorem pivot_undummied (h : t.Undummied) (hs : entering.isDummy = false) :
    (pivot leaving row entering).Ensures t (fun _ t' => t'.Undummied) fun _ _ => True :=
  ensures_bind (ensures_ofExcept (fun _ _ => ensures_modify (h.install hs)) fun _ _ => trivial)

theorem primalStep_undummied (h : t.Undummied) :
    (primalStep goal).Ensures t (fun _ t' => t'.Undummied) fun _ _ => True := by
  refine ensures_get_bind ?_
  cases hdescent : (t.goalRow? goal).bind Row.descent? with
  | none => exact h
  | some entering =>
    obtain ⟨g, -, hg⟩ := Option.bind_eq_some_iff.1 hdescent
    dsimp only
    cases t.leavingRow? entering with
    | none => trivial
    | some found =>
      refine ensures_modify_bind (ensures_bind ?_)
      refine (pivot_undummied (h.dropRow found.1) (Row.descent?_eq_some hg).2).mono ?_ fun _ _ _ => trivial
      exact fun _ _ h' => h'

theorem optimize_undummied (h : t.Undummied) (steps : Nat) :
    (optimize goal steps).Ensures t (fun _ t' => t'.Undummied) fun _ _ => True := by
  refine ensures_loop (I := Undummied) (fun t h => ?_) (fun _ _ => trivial) steps h
  refine (primalStep_undummied h).mono (fun more t' h' => ?_) fun _ _ _ => trivial
  cases more <;> exact h'

/-- Removing a marker makes no other symbol basic. -/
theorem removeMarker_undummied (h : t.Undummied) :
    (removeMarker marker).Ensures t (fun _ t' => t'.Undummied) fun _ _ => True := by
  refine ensures_get_bind ?_
  split
  · exact h.dropRow marker
  · cases t.markerRow? marker with
    | none => trivial
    | some found =>
      refine ensures_modify_bind (ensures_bind (ensures_ofExcept (fun solved _ => ?_) fun _ _ => trivial))
      exact ensures_modify ((h.dropRow found.1).substitute marker solved)

end Tableau

namespace Solver

variable {s : Solver Rat} {label : Label} {a : Active Rat}

theorem withdrawErrors_rows (a : Active Rat) (t : Tableau Rat) : (withdrawErrors a t).rows = t.rows := by
  unfold withdrawErrors
  induction a.tag.errors generalizing t with
  | nil => rfl
  | cons e es ih => exact ih _

/-- Removing a constraint makes no dummy basic. -/
theorem removeConstraint_undummied (h : s.tableau.Undummied) (label : Label) :
    (removeConstraint label).Ensures s (fun _ s' => s'.tableau.Undummied) fun _ _ => True := by
  refine ensures_get_bind ?_
  cases s.constraints.get? label with
  | none => trivial
  | some a =>
    have hwithdrawn : (withdrawErrors a s.tableau).Undummied := by
      unfold Tableau.Undummied
      rw [withdrawErrors_rows]
      exact h
    refine ensures_modify_bind (ensures_bind (ensures_onPart ?_))
    refine (Tableau.removeMarker_undummied hwithdrawn).mono (fun _ t ht => ?_) fun _ _ _ => trivial
    exact ensures_get_bind (ensures_onPart (Tableau.optimize_undummied ht _))

theorem removeEditVariable_undummied (h : s.tableau.Undummied) (x : Variable) :
    (removeEditVariable x).Ensures s (fun _ s' => s'.tableau.Undummied) fun _ _ => True := by
  refine ensures_get_bind ?_
  cases s.edits.get? x with
  | none => trivial
  | some edit =>
    refine ensures_bind ((removeConstraint_undummied h _).mono (fun _ s' h' => ?_) fun _ _ _ => trivial)
    exact ensures_modify h'

/-- Each required constraint can be violated while the other ones hold. -/
def Independent (s : Solver Rat) : Prop :=
  ∀ label a, s.constraints.get? label = some a → a.constraint.isRequired = true →
    ∃ y, (s.strike label).Meets y ∧ ¬a.constraint.Holds y

/-- If required constraints do not follow from each other, no dummy of a clean tableau is basic. -/
theorem Sound.undummied (h : s.Sound) (hclean : s.tableau.Clean) (hs : s.Independent) :
    s.tableau.Undummied := by
  intro d hd
  by_contra hdummy
  have hdummy : d.isDummy = true := by simpa using hdummy
  obtain ⟨row, hrow⟩ := OrderedMap.mem_keys_iff.1 hd
  have huse : s.Uses d := by
    by_contra hnot
    exact (h.ready.absent (h.ignores hnot).free).1 hd
  obtain ⟨z, known, hz, rfl⟩ | ⟨label, a, ha, hmem⟩ := huse
  · have hext := Symbol.isExternal_of_isDummy hdummy
    rw [(h.external z known hz).1] at hext
    cases hext
  obtain ⟨rfl, -, hreq⟩ := (h.fits label a ha).of_isDummy hmem hdummy
  obtain ⟨y, hy, hnot⟩ := hs label a ha hreq
  -- a solution in which no other dummy is off zero
  have hadm := (h.strike label).admissible_symbolsFor hy
  obtain ⟨x, hx⟩ := (h.solutions_strike ha).2 ((h.strike label).solutions_symbolsFor hy)
  let u := (s.strike label).symbolsFor y
  have hzero : x = 0 := by
    have hrowx := (h.ready.solutions _).2 hx a.tag.marker row hrow
    obtain ⟨hconst, hcells⟩ := hclean a.tag.marker row hrow hdummy
    rw [Function.update_self] at hrowx
    rw [hrowx, ← hconst]
    apply Row.eval_eq_constant
    intro b
    by_cases hb : b = a.tag.marker
    · rw [hb, h.ready.solved.basic row (Tableau.stores_row hrow) _ hd, zero_mul]
    · rw [Function.update_of_ne hb]
      cases hbd : b.isDummy with
      | true => rw [hadm.dummy b hbd, mul_zero]
      | false => rw [hcells b hbd, zero_mul]
  subst hzero
  have hholds := h.meets_of_solution hx (hadm.update_zero a.tag.marker) label a ha hreq
  rw [lift_update (h.tracked_ne ha hmem)] at hholds
  apply hnot
  unfold Constraint.Holds at hholds ⊢
  have heval : a.constraint.expression.eval (s.lift u) = a.constraint.expression.eval y :=
    Linear.eval_congr fun t ht hne =>
      (h.strike label).lift_symbolsFor (h.known label a ha t ht hne)
  rwa [heval] at hholds

end Solver

end BoxLayout
