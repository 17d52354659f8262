-- SUMMARY: The calls for edit variables: adding one, removing one, and moving its target.
import BoxLayout.Proofs.Calls
import BoxLayout.Proofs.Ledger

/-!
# Edit variables

An edit variable is held near its target by a constraint of its own, which starts with the
target zero. Adding and removing the variable add and remove this constraint. Moving the
target changes one equation, without a change of the list of constraints.
-/

namespace BoxLayout

/-! ## Strengths -/

theorem Strength.clip_nonneg (w : Strength Rat) : 0 ≤ w.clip.weight := by
  unfold clip Scalar.clamp required
  dsimp only
  split
  · exact le_refl 0
  · next hpos =>
    split
    · norm_num
    · exact not_lt.1 hpos

theorem Strength.clip_clip (w : Strength Rat) : w.clip.clip = w.clip := by
  have hreq : (0 : Rat) ≤ (required : Strength Rat).weight := by
    unfold required
    norm_num
  have hclamp (x : Rat) (h0 : ¬x < 0) (h1 : ¬(required : Strength Rat).weight < x) :
      Scalar.clamp 0 (required : Strength Rat).weight x = x := by
    unfold Scalar.clamp
    rw [if_neg h0, if_neg h1]
  unfold clip
  congr 1
  apply hclamp
  · exact not_lt.2 w.clip_nonneg
  · unfold Scalar.clamp
    split
    · exact not_lt.2 hreq
    · split
      · exact lt_irrefl _
      · next h => exact h

theorem Constraint.strength_forEdit (n : Nat) (x : Variable) (strength : Strength Rat) :
    (forEdit n x strength).strength = strength.clip := strength.clip_clip

namespace Solver

open Tableau

variable {s s' : Solver Rat} {v : Assignment} {label : Label} {a : Active Rat} {x : Variable}
  {e : Edit Rat} {strength : Strength Rat}

/-! ## Adding an edit variable -/

/-- `s'` is `s` with the edit variable. -/
structure EditAdded (s : Solver Rat) (x : Variable) (strength : Strength Rat) (s' : Solver Rat) :
    Prop where
  sound : s'.Sound
  vacant : s.edits.get? x = none
  unlabelled : s.constraints.get? (.edit s.editCount) = none
  notRequired : strength.clip.isRequired = false
  constraints : ∃ tag, s'.constraints
      = s.constraints.insert (.edit s.editCount) ⟨.forEdit s.editCount x strength, tag⟩ ∧
    s'.edits = s.edits.insert x ⟨tag, .forEdit s.editCount x strength, 0⟩ ∧
    ∀ y ∈ tag.symbols, s.tableau.symbolCount < y.number
  editCount : s'.editCount = s.editCount + 1
  steps : s'.steps = s.steps
  count : s.tableau.symbolCount ≤ s'.tableau.symbolCount
  tracked : ∀ y known, s'.tracked.get? y = some known →
    s.tracked.get? y = some known ∨ s.tableau.symbolCount < known.symbol.number
  clean : s.tableau.Clean → s'.tableau.Clean

/-- How adding an edit variable may fail. -/
inductive AddEditFailure (s : Solver Rat) (x : Variable) (strength : Strength Rat) :
    SolverError → Solver Rat → Prop where
  | duplicate (h : s.hasEditVariable x = true) :
      AddEditFailure s x strength .duplicateEditVariable s
  | required (h : strength.clip.isRequired = true) :
      AddEditFailure s x strength .badRequiredStrength s
  | constraint (err : SolverError) (s' : Solver Rat)
      (h : AddFailure { s with editCount := s.editCount + 1 } (.forEdit s.editCount x strength) err s') :
      AddEditFailure s x strength err s'

/-- An edit variable that an active constraint holds can be registered. -/
theorem Added.edit_formed (h : Added { s with editCount := s.editCount + 1 } (.forEdit s.editCount x strength) s')
    (hs : s.Formed) (hreq : strength.clip.isRequired = false) {tag : Tag}
    (hconstraints : s'.constraints
      = s.constraints.insert (.edit s.editCount) ⟨.forEdit s.editCount x strength, tag⟩)
    (hfresh : ∀ y ∈ tag.symbols, s.tableau.symbolCount < y.number) :
    ({ s' with edits := s'.edits.insert x ⟨tag, .forEdit s.editCount x strength, 0⟩ } : Solver Rat).Formed := by
  have hsound := h.sound
  have hactive : s'.constraints.get? (.edit s.editCount) = some ⟨.forEdit s.editCount x strength, tag⟩ := by
    rw [hconstraints, OrderedMap.get?_insert, if_pos rfl]
  have hcases {z : Variable} {f : Edit Rat}
      (hz : (s'.edits.insert x ⟨tag, .forEdit s.editCount x strength, 0⟩).get? z = some f) :
      z = x ∧ f = ⟨tag, .forEdit s.editCount x strength, 0⟩ ∨ s.edits.get? z = some f := by
    rw [← h.edits]
    exact OrderedMap.get?_insert_cases hz
  have hold {z : Variable} {f : Edit Rat} (hz : s.edits.get? z = some f) : f.tag ≠ tag := by
    rintro rfl
    exact absurd (hs.editIssued z f hz _ f.tag.marker_mem) (not_le.2 (hfresh _ f.tag.marker_mem))
  refine { hsound.toFormed with editFits := ?_, editIssued := ?_, editApart := ?_, editActive := ?_ }
  · intro z f hz
    obtain ⟨rfl, rfl⟩ | hz := hcases hz
    · have hfits := hsound.fits _ _ hactive
      have hnot : (Constraint.forEdit s.editCount z strength).isRequired = false := by
        unfold Constraint.isRequired
        rw [Constraint.strength_forEdit, hreq]
      rw [hnot] at hfits
      exact ⟨hfits, rfl⟩
    · exact hs.editFits z f hz
  · intro z f hz y hy
    obtain ⟨rfl, rfl⟩ | hz := hcases hz
    · exact hsound.issued _ _ hactive y hy
    · exact (hs.editIssued z f hz y hy).trans h.count
  · intro z z' f f' hz hz' htag
    obtain ⟨hzx, rfl⟩ | hzold := hcases hz
    · obtain ⟨hzx', -⟩ | hzold' := hcases hz'
      · rw [hzx, hzx']
      · exact absurd htag.symm (hold hzold')
    · obtain ⟨-, rfl⟩ | hzold' := hcases hz'
      · exact absurd htag (hold hzold)
      · exact hs.editApart z z' f f' hzold hzold' htag
  · rintro z f other a hz ha ⟨y, hyf, hya⟩
    obtain ⟨rfl, rfl⟩ | hz := hcases hz
    · exact hsound.eq_of_mem_symbols ⟨other, ha⟩ ⟨_, hactive⟩ hya hyf
    · exact hsound.editActive z f other a (by rw [h.edits]; exact hz) ha ⟨y, hyf, hya⟩

/-- Registering it leaves the targets of the active constraints as they are. -/
theorem Added.edit_targetOf
    (h : Added { s with editCount := s.editCount + 1 } (.forEdit s.editCount x strength) s')
    (hs : s.Formed) (hvacant : s.edits.get? x = none) {tag : Tag}
    (hfresh : ∀ y ∈ tag.symbols, s.tableau.symbolCount < y.number)
    (hformed : ({ s' with edits := s'.edits.insert x ⟨tag, .forEdit s.editCount x strength, 0⟩ } :
      Solver Rat).Formed) (other : Tag) :
    ({ s' with edits := s'.edits.insert x ⟨tag, .forEdit s.editCount x strength, 0⟩ } :
      Solver Rat).targetOf other = s'.targetOf other := by
  by_cases hother : other = tag
  · have htarget := hformed.targetOf_eq (y := x) (e := ⟨tag, .forEdit s.editCount x strength, 0⟩)
      ((OrderedMap.get?_insert _ _ _ _).trans (if_pos rfl))
    have hzero : s'.targetOf tag = 0 := by
      apply targetOf_eq_zero
      rintro z f hz rfl
      rw [h.edits] at hz
      exact absurd (hs.editIssued z f hz _ f.tag.marker_mem) (not_le.2 (hfresh _ f.tag.marker_mem))
    rw [hother, hzero]
    exact htarget
  · apply hformed.targetOf_congr h.sound.toFormed
    intro z f hf
    change (s'.edits.insert x _).get? z = some f ↔ _
    rw [OrderedMap.get?_insert]
    split
    · next hzx =>
      rw [hzx, h.edits, hvacant]
      constructor
      · intro heq
        obtain rfl := Option.some.inj heq
        exact absurd hf.symm hother
      · intro heq
        cases heq
    · exact Iff.rfl

theorem addEditVariable_ensures (h : s.Sound) (x : Variable) (strength : Strength Rat) :
    (addEditVariable x strength).Ensures s (fun _ s' => EditAdded s x strength s')
      (AddEditFailure s x strength) := by
  refine Attempt.ensures_get_bind ?_
  by_cases hdup : s.hasEditVariable x = true
  · rw [if_pos hdup]
    exact .duplicate hdup
  rw [if_neg hdup]
  by_cases hreq : strength.clip.isRequired = true
  · dsimp only
    rw [if_pos hreq]
    exact .required hreq
  dsimp only
  rw [if_neg hreq]
  have hreq : strength.clip.isRequired = false := by simpa using hreq
  have hvacant : s.edits.get? x = none := by
    rw [OrderedMap.get?_eq_none_iff]
    exact fun hmem => hdup (OrderedMap.contains_iff.2 hmem)
  have hsound : ({ s with editCount := s.editCount + 1 } : Solver Rat).Sound :=
    h.withEdits s.edits _ { h.toFormed with } fun _ _ _ => rfl
  refine Attempt.ensures_modifyGet_bind (Attempt.ensures_bind ?_)
  refine (addConstraint_ensures hsound (.forEdit s.editCount x strength)).mono ?_
    fun err s' hfail => .constraint err s' hfail
  rintro - s' hadded
  obtain ⟨tag, hconstraints, hfresh⟩ := hadded.constraints
  have hactive : s'.constraints.get? (.edit s.editCount) = some ⟨.forEdit s.editCount x strength, tag⟩ := by
    rw [hconstraints]
    exact (OrderedMap.get?_insert _ _ _ _).trans (if_pos rfl)
  have hformed := hadded.edit_formed h.toFormed hreq hconstraints hfresh
  refine Attempt.ensures_get_bind ?_
  have hlabel : (issueEdit x strength.clip s).1.label = .edit s.editCount := rfl
  rw [hlabel, hactive]
  refine Attempt.ensures_modify ⟨hadded.sound.withEdits _ s'.editCount hformed fun label a _ =>
      hadded.edit_targetOf h.toFormed hvacant hfresh hformed a.tag,
    hvacant, hadded.vacant, hreq, ⟨tag, hconstraints, ?_, hfresh⟩, hadded.editCount, hadded.steps,
    hadded.count, hadded.tracked, hadded.clean⟩
  change s'.edits.insert x _ = _
  rw [hadded.edits]
  rfl

/-! ## Removing an edit variable -/

/-- `s'` is `s` without the edit variable. -/
structure EditRemoved (s : Solver Rat) (x : Variable) (s' : Solver Rat) : Prop where
  sound : s'.Sound
  present : ∃ e, s.edits.get? x = some e ∧ (∃ a, s.constraints.get? e.constraint.label = some a) ∧
    s'.constraints = s.constraints.swapErase e.constraint.label
  edits : s'.edits = s.edits.swapErase x
  editCount : s'.editCount = s.editCount
  steps : s'.steps = s.steps
  count : s.tableau.symbolCount = s'.tableau.symbolCount
  tracked : s'.tracked = s.tracked

/-- How removing an edit variable may fail. -/
inductive RemoveEditFailure (s : Solver Rat) (x : Variable) : SolverError → Solver Rat → Prop where
  | unknown (h : s.edits.get? x = none) : RemoveEditFailure s x .unknownEditVariable s
  | constraint (err : SolverError) (s' : Solver Rat) (e : Edit Rat) (he : s.edits.get? x = some e)
      (h : RemoveFailure s e.constraint.label err s') : RemoveEditFailure s x err s'

/-- What is left of the edit variables was there before. -/
theorem edits_of_swapErase {z : Variable} {f : Edit Rat}
    (hz : (s.edits.swapErase x).get? z = some f) : s.edits.get? z = some f :=
  (OrderedMap.get?_of_swapErase hz).2

/-- An edit variable whose constraint is removed can be taken off the list. -/
theorem Removed.edit_formed (h : Removed s label s') (x : Variable) :
    ({ s' with edits := s'.edits.swapErase x } : Solver Rat).Formed :=
  { h.sound.toFormed with
    editFits := fun z f hz => h.sound.editFits z f (edits_of_swapErase hz)
    editIssued := fun z f hz => h.sound.editIssued z f (edits_of_swapErase hz)
    editApart := fun z z' f f' hz hz' =>
      h.sound.editApart z z' f f' (edits_of_swapErase hz) (edits_of_swapErase hz')
    editActive := fun z f label a hz => h.sound.editActive z f label a (edits_of_swapErase hz) }

/-- With its constraint gone, no active constraint has the symbols of the edit variable. -/
theorem Removed.edit_gone (h : Removed s e.constraint.label s') (hs : s.Formed)
    (he : s.edits.get? x = some e) (ha : s'.constraints.get? label = some a) : a.tag ≠ e.tag := by
  intro htag
  rw [h.constraints] at ha
  obtain ⟨hne, ha⟩ := OrderedMap.get?_of_swapErase ha
  have hsame := hs.editActive x e label a he ha ⟨_, e.tag.marker_mem, htag ▸ e.tag.marker_mem⟩
  subst hsame
  exact hne (hs.labelled label _ ha).symm

/-- So the targets of the active constraints stay as they are. -/
theorem Removed.edit_targetOf (h : Removed s e.constraint.label s') (hs : s.Formed)
    (he : s.edits.get? x = some e) (ha : s'.constraints.get? label = some a) :
    ({ s' with edits := s'.edits.swapErase x } : Solver Rat).targetOf a.tag = s'.targetOf a.tag := by
  apply (h.edit_formed x).targetOf_congr h.sound.toFormed
  intro z f hf
  refine ⟨edits_of_swapErase, fun hz => ?_⟩
  refine (OrderedMap.get?_swapErase _ _ _).trans ?_
  rw [if_neg, hz]
  rintro rfl
  rw [h.edits, he] at hz
  obtain rfl := Option.some.inj hz
  exact h.edit_gone hs he ha hf.symm

theorem removeEditVariable_ensures (h : s.Sound) (x : Variable) :
    (removeEditVariable x).Ensures s (fun _ s' => EditRemoved s x s') (RemoveEditFailure s x) := by
  refine Attempt.ensures_get_bind ?_
  cases he : s.edits.get? x with
  | none => exact .unknown he
  | some e =>
    refine Attempt.ensures_bind ?_
    refine (removeConstraint_ensures h e.constraint.label).mono ?_
      fun err s' hfail => .constraint err s' e he hfail
    rintro - s' hremoved
    refine Attempt.ensures_modify ⟨hremoved.sound.withEdits _ s'.editCount (hremoved.edit_formed x)
        fun label a ha => hremoved.edit_targetOf h.toFormed he ha,
      ⟨e, he, hremoved.present, hremoved.constraints⟩, ?_, hremoved.editCount, hremoved.steps,
      hremoved.count, hremoved.tracked⟩
    rw [← hremoved.edits]

/-! ## Moving a target -/

/-- The solver in which the target of an edit variable is another. -/
def retarget (s : Solver Rat) (x : Variable) (e : Edit Rat) (target : Rat) : Solver Rat :=
  { s with edits := s.edits.insert x { e with target := target } }

theorem get?_retarget {target : Rat} (z : Variable) : (s.retarget x e target).edits.get? z
    = if z = x then some { e with target := target } else s.edits.get? z :=
  OrderedMap.get?_insert _ _ _ _

/-- Each edit variable is as before, but for the target of one. -/
theorem of_retarget {target : Rat} (he : s.edits.get? x = some e) {z : Variable} {f : Edit Rat}
    (hz : (s.retarget x e target).edits.get? z = some f) :
    ∃ g, s.edits.get? z = some g ∧ f.tag = g.tag ∧ f.constraint = g.constraint := by
  rw [get?_retarget] at hz
  split at hz
  · next hzx =>
    obtain rfl := Option.some.inj hz
    exact ⟨e, hzx ▸ he, rfl, rfl⟩
  · exact ⟨f, hz, rfl, rfl⟩

theorem Formed.retarget (h : s.Formed) (he : s.edits.get? x = some e) (target : Rat) :
    (s.retarget x e target).Formed := by
  refine { h with editFits := ?_, editIssued := ?_, editApart := ?_, editActive := ?_ }
  · intro z f hz
    obtain ⟨g, hg, htag, hc⟩ := of_retarget he hz
    rw [htag, hc]
    exact h.editFits z g hg
  · intro z f hz
    obtain ⟨g, hg, htag, -⟩ := of_retarget he hz
    rw [htag]
    exact h.editIssued z g hg
  · intro z z' f f' hz hz' hff
    obtain ⟨g, hg, htag, -⟩ := of_retarget he hz
    obtain ⟨g', hg', htag', -⟩ := of_retarget he hz'
    rw [htag, htag'] at hff
    exact h.editApart z z' g g' hg hg' hff
  · intro z f label a hz ha
    obtain ⟨g, hg, htag, hc⟩ := of_retarget he hz
    rw [htag, hc]
    exact h.editActive z g label a hg ha

/-- In the equation of an edit constraint the marker stands against the expression. -/
theorem side_edit {tag : Tag} (h : tag.Fits .equal false) (v : Assignment) (k : Rat) :
    tag.side .equal (Function.update v tag.marker k) = tag.side .equal v - (k - v tag.marker) := by
  cases h with
  | errors n m hne =>
    have hmn : (⟨.error, m⟩ : Symbol) ≠ ⟨.error, n⟩ := fun heq => hne (congrArg Symbol.number heq).symm
    simp only [Tag.side, Tag.terms, Entries.dot_cons, Entries.dot_nil, Function.update_self,
      Function.update_of_ne hmn]
    ring
  | slackError n m k hr => exact absurd rfl hr

/-- Lowering the other symbol of an edit constraint is raising its marker. -/
theorem side_edit_other {tag : Tag} (h : tag.Fits .equal false) {o : Symbol} (ho : tag.other = some o)
    (v : Assignment) (k : Rat) :
    tag.side .equal (Function.update v o k) = tag.side .equal v + (k - v o) := by
  cases h with
  | errors n m hne =>
    obtain rfl := Option.some.inj ho
    have hmn : (⟨.error, n⟩ : Symbol) ≠ ⟨.error, m⟩ := fun heq => hne (congrArg Symbol.number heq)
    simp only [Tag.side, Tag.terms, Entries.dot_cons, Entries.dot_nil, Function.update_self,
      Function.update_of_ne hmn]
    ring
  | slackError n m k hr => exact absurd rfl hr

/-- A symbol of an edit variable is not the symbol of a variable. -/
theorem Formed.edit_tracked_ne (h : s.Formed) (he : s.edits.get? x = some e) {y : Symbol}
    (hy : y ∈ e.tag.symbols) (z : Variable) (known : Tracked Rat)
    (hz : s.tracked.get? z = some known) : known.symbol ≠ y := by
  rintro rfl
  have hext := (h.external z known hz).1
  rw [(h.editFits x e he).1.isExternal hy] at hext
  cases hext

/-- An active constraint is the one of the edit variable, or shares no symbol with it. -/
theorem Formed.edit_cases (h : s.Formed) (he : s.edits.get? x = some e)
    (ha : s.constraints.get? label = some a) :
    a.tag = e.tag ∧ a.constraint.relation = .equal ∧ a.constraint.isRequired = false ∨
      ∀ y ∈ e.tag.symbols, y ∉ a.tag.symbols := by
  by_cases hshare : ∃ y ∈ e.tag.symbols, y ∈ a.tag.symbols
  · obtain rfl := h.editActive x e label a he ha hshare
    obtain ⟨hrel, hreq⟩ := (h.fits label _ ha).of_edit (h.editFits x e he).1
    exact Or.inl ⟨rfl, hrel, hreq⟩
  · exact Or.inr fun y hy hya => hshare ⟨y, hy, hya⟩

/-- Under a new target an equation says what it said with the marker moved. -/
theorem Formed.equation_retarget (h : s.Formed) (he : s.edits.get? x = some e)
    (ha : s.constraints.get? label = some a) (target : Rat) :
    (s.retarget x e target).Equation a v ↔ s.Equation a
      (Function.update v e.tag.marker (v e.tag.marker + (target - e.target))) := by
  have hmem := e.tag.marker_mem
  have hnew := h.retarget he target
  obtain ⟨htag, hrel, -⟩ | hapart := h.edit_cases he ha
  · have hfits := (h.editFits x e he).1
    have htarget : (s.retarget x e target).targetOf a.tag = target := by
      rw [htag]
      exact hnew.targetOf_eq (e := { e with target := target })
        ((get?_retarget x).trans (if_pos rfl))
    rw [hnew.equation_iff ha, h.equation_iff ha, lift_update (h.edit_tracked_ne he hmem)]
    unfold gap
    rw [htarget, hrel, htag, h.targetOf_eq he, side_edit hfits]
    change a.constraint.expression.eval (s.lift v) - target + _ = 0 ↔ _
    constructor <;> intro heq <;> linarith
  · rw [h.equation_update ha (h.edit_tracked_ne he hmem) (hapart _ hmem)]
    have htarget : s.targetOf a.tag = (s.retarget x e target).targetOf a.tag := by
      apply h.targetOf_congr hnew
      intro z f hf
      rw [get?_retarget]
      split
      · next hzx =>
        rw [hzx, he]
        constructor
        · intro heq
          obtain rfl := Option.some.inj heq
          exact absurd (hf ▸ hmem) (hapart _ hmem)
        · intro heq
          obtain rfl := Option.some.inj heq
          have hf : e.tag = a.tag := hf
          exact absurd (hf ▸ hmem) (hapart _ hmem)
      · exact Iff.rfl
    unfold Equation gap
    rw [htarget]
    rfl

/-- A sum over symbols grows evenly with each of them. -/
theorem sum_update (es : List Symbol) (m : Symbol) : ∃ w : Rat, ∀ (v : Assignment) (k : Rat),
    (es.map (Function.update v m k)).sum = (es.map v).sum + w * (k - v m) := by
  induction es with
  | nil => exact ⟨0, fun v k => by simp⟩
  | cons e es ih =>
    obtain ⟨w, hw⟩ := ih
    by_cases hem : e = m
    · refine ⟨1 + w, fun v k => ?_⟩
      rw [List.map_cons, List.sum_cons, List.map_cons, List.sum_cons, hw, hem, Function.update_self]
      ring
    · refine ⟨w, fun v k => ?_⟩
      rw [List.map_cons, List.sum_cons, List.map_cons, List.sum_cons, hw, Function.update_of_ne hem]
      ring

theorem objective_update (s : Solver Rat) (m : Symbol) : ∃ w : Rat, ∀ (v : Assignment) (k : Rat),
    s.meaning.objective (Function.update v m k) = s.meaning.objective v + w * (k - v m) := by
  have hall (as : List (Active Rat)) : ∃ w : Rat, ∀ (v : Assignment) (k : Rat),
      (as.map fun a => a.cost (Function.update v m k)).sum
        = (as.map fun a => a.cost v).sum + w * (k - v m) := by
    induction as with
    | nil => exact ⟨0, fun v k => by simp⟩
    | cons a as ih =>
      obtain ⟨w, hw⟩ := ih
      obtain ⟨w', hw'⟩ := sum_update a.tag.errors m
      refine ⟨a.constraint.strength.weight * w' + w, fun v k => ?_⟩
      rw [List.map_cons, List.sum_cons, List.map_cons, List.sum_cons, hw]
      unfold Active.cost Tag.shortfall
      rw [hw']
      ring
  exact hall s.constraints.values

/-- The symbols of an edit variable occur together, in one equation. -/
theorem Formed.editTag (h : s.Formed) (he : s.edits.get? x = some e) :
    EditTag s.meaning e.tag := by
  have hfits := (h.editFits x e he).1
  refine ⟨fun y hy => ?_, fun o ho v d => ?_, objective_update s e.tag.marker⟩
  · have hdummy : y.isDummy = false := by
      by_contra hd
      obtain ⟨-, -, hreq⟩ := hfits.of_isDummy hy (by simpa using hd)
      cases hreq
    exact Symbol.isPivotable_of_isDummy_eq_false (hfits.isExternal hy) hdummy
  · have ho : e.tag.other = some o := ho
    have hmem := Tag.other_mem ho
    refine forall_congr' fun label => forall_congr' fun a => imp_congr_right fun ha => ?_
    obtain ⟨htag, hrel, -⟩ | hapart := h.edit_cases he ha
    · rw [h.equation_iff ha, h.equation_iff ha, lift_update (h.edit_tracked_ne he hmem),
        lift_update (h.edit_tracked_ne he e.tag.marker_mem), hrel, htag, side_edit hfits,
        side_edit_other hfits ho]
      constructor <;> intro heq <;> linarith
    · rw [h.equation_update ha (h.edit_tracked_ne he hmem) (hapart o hmem),
        h.equation_update ha (h.edit_tracked_ne he e.tag.marker_mem) (hapart _ e.tag.marker_mem)]

/-- `s'` is `s` with the target of the edit variable moved. -/
structure Suggested (s : Solver Rat) (x : Variable) (target : Rat) (s' : Solver Rat) : Prop where
  sound : s'.Sound
  constraints : s'.constraints = s.constraints
  edits : ∃ e, s.edits.get? x = some e ∧
    s'.edits = s.edits.insert x { e with target := target }
  editCount : s'.editCount = s.editCount
  steps : s'.steps = s.steps
  count : s.tableau.symbolCount = s'.tableau.symbolCount
  tracked : s'.tracked = s.tracked
  clean : s.tableau.Clean → s'.tableau.Clean

/-- How moving a target may fail. -/
inductive SuggestFailure (s : Solver Rat) (x : Variable) : SolverError → Solver Rat → Prop where
  | unknown (h : s.edits.get? x = none) : SuggestFailure s x .unknownEditVariable s
  | outOfSteps (s' : Solver Rat) : SuggestFailure s x .outOfSteps s'
  | unmendable (s' : Solver Rat) (h : ¬∃ y, s.Meets y) :
      SuggestFailure s x (.internal .noEnteringSymbol) s'

theorem suggestValue_ensures (h : s.Sound) (x : Variable) (target : Rat) :
    (suggestValue x target).Ensures s (fun _ s' => Suggested s x target s') (SuggestFailure s x) := by
  unfold suggestValue
  rw [if_pos (show isFinite target = true from rfl)]
  refine Attempt.ensures_get_bind ?_
  cases he : s.edits.get? x with
  | none => exact .unknown he
  | some e =>
    let d := target - e.target
    obtain ⟨hmending, hclean⟩ := shiftEdit_mending h.ready h.minimal rfl (h.editTag he) d
    have hformed := h.retarget he target
    have hsolutions (v : Assignment) : (s.meaning.shifting e.tag.marker d).solutions v
        ↔ (s.retarget x e target).meaning.solutions v :=
      forall_congr' fun label => forall_congr' fun a => imp_congr_right fun ha =>
        (h.equation_retarget he ha target).symm
    refine Attempt.ensures_modify_bind (Attempt.ensures_get_bind (Attempt.ensures_onPart ?_))
    refine (restore_ensures hmending s.steps).mono ?_ ?_
    · rintro - t ⟨⟨hready, hclean'⟩, hmin⟩
      have hcount : t.symbolCount = s.tableau.symbolCount := hready.symbolCount
      refine ⟨⟨hformed.withTableau (s := s.retarget x e target) hcount.ge, ?_, hmin⟩, rfl,
        ⟨e, he, rfl⟩, rfl, rfl, hcount.symm, rfl, fun hc => hclean' (hclean hc)⟩
      exact hready.congr rfl rfl hcount.symm hsolutions fun v _ => rfl
    · rintro err t (rfl | ⟨rfl, hun⟩)
      · exact .outOfSteps _
      · refine .unmendable _ ?_
        rintro ⟨y, hy⟩
        obtain ⟨v, hv, hadm, -⟩ := hformed.exists_solution (y := y) hy
        exact hun ⟨v, (hsolutions v).2 hv, hadm⟩

/-! ## Reading values -/

/-- Bringing values up to date changes nothing else. -/
theorem Sound.updateVariables (h : s.Sound) : s.updateVariables.Sound := by
  have hget (z : Variable) : s.updateVariables.tracked.get? z
      = (s.tracked.get? z).map fun known => { known with value := s.symbolValue known.symbol } :=
    OrderedMap.get?_mapValues _ _ _
  have hold {z : Variable} {known : Tracked Rat}
      (hz : s.updateVariables.tracked.get? z = some known) :
      ∃ known', s.tracked.get? z = some known' ∧ known.symbol = known'.symbol := by
    rw [hget] at hz
    obtain ⟨known', hknown, rfl⟩ := Option.map_eq_some_iff.1 hz
    exact ⟨known', hknown, rfl⟩
  have hlift (v : Assignment) : s.updateVariables.lift v = s.lift v := by
    funext z
    unfold lift
    rw [hget]
    cases s.tracked.get? z with
    | none => rfl
    | some known => rfl
  refine ⟨{ h.toFormed with known := ?_, external := ?_, injective := ?_ }, ?_, h.minimal⟩
  · intro label a ha term hterm hne
    change term.unknown ∈ (s.tracked.mapValues _).keys
    rw [OrderedMap.keys_mapValues]
    exact h.known label a ha term hterm hne
  · intro z known hz
    obtain ⟨known', hz', hsame⟩ := hold hz
    rw [hsame]
    exact h.external z known' hz'
  · intro z z' known known' hz hz' heq
    obtain ⟨k, hk, hsame⟩ := hold hz
    obtain ⟨k', hk', hsame'⟩ := hold hz'
    exact h.injective z z' k k' hk hk' (by rw [← hsame, ← hsame', heq])
  · refine h.ready.congr rfl rfl rfl (fun v => ?_) fun v _ => rfl
    refine forall_congr' fun label => forall_congr' fun a => imp_congr_right fun _ => ?_
    unfold Equation
    rw [hlift]
    rfl

end Solver

end BoxLayout
