-- SUMMARY: What a solver's constraints say about its symbols, and how its registries fit together.
import BoxLayout.Proofs.Equation

/-!
# The meaning of a solver

A solver keeps a list of constraints beside its tableau. `Solver.meaning` is what the
list says: each constraint with its equation, moved by the target if it belongs to an
edit variable, and the weighted sum of all error symbols as the objective. That the
tableau stands for this meaning is the invariant of the solver.

`Formed` collects what else holds of the registries: symbols are issued once, each
constraint has the symbols that fit it, and an edit variable knows its constraint. The
meaning then depends on the symbols in use and on no other.
-/

namespace BoxLayout

theorem Linear.eval_congr {ν : Type} {e : Linear ν Rat} {y z : ν → Rat}
    (h : ∀ t ∈ e.terms, t.coefficient ≠ 0 → y t.unknown = z t.unknown) : e.eval y = e.eval z := by
  unfold eval
  congr 2
  apply List.map_congr_left
  intro t ht
  by_cases hz : t.coefficient = 0
  · rw [hz, zero_mul, zero_mul]
  · rw [h t ht hz]

/-- What the errors of a constraint cost. -/
def Active.cost (a : Active Rat) (v : Assignment) : Rat :=
  a.constraint.strength.weight * a.tag.shortfall v

namespace Solver

variable {s s' : Solver Rat} {v w : Assignment} {label : Label} {a : Active Rat} {x : Symbol}
  {y : Variable} {e : Edit Rat} {tag : Tag}

/-! ## Values of variables -/

/-- The values of the variables where `v` gives those of the symbols. -/
def lift (s : Solver Rat) (v : Assignment) (y : Variable) : Rat :=
  match s.tracked.get? y with
  | some known => v known.symbol
  | none => 0

/-- The target of the edit constraint with these symbols, zero if they belong to none. -/
def targetOf (s : Solver Rat) (tag : Tag) : Rat :=
  ((s.edits.values.find? fun e => e.tag = tag).map Edit.target).getD 0

/-- The value of a constraint's expression, for an edit constraint the distance from its
target. -/
def gap (s : Solver Rat) (a : Active Rat) (y : Variable → Rat) : Rat :=
  a.constraint.expression.eval y - s.targetOf a.tag

/-! ## The meaning -/

/-- The equation of a constraint. -/
def Equation (s : Solver Rat) (a : Active Rat) (v : Assignment) : Prop :=
  a.tag.Equation a.constraint.relation a.constraint.isRequired (s.gap a (s.lift v)) v

/-- What the constraints of the solver say together. -/
def meaning (s : Solver Rat) : Meaning where
  symbolCount := s.tableau.symbolCount
  solutions := fun v => ∀ label a, s.constraints.get? label = some a → s.Equation a v
  objective := fun v => (s.constraints.values.map fun a => a.cost v).sum
  artificial := none

/-- The symbol belongs to a variable or to a constraint. -/
def Uses (s : Solver Rat) (x : Symbol) : Prop :=
  (∃ y known, s.tracked.get? y = some known ∧ known.symbol = x) ∨
    ∃ label a, s.constraints.get? label = some a ∧ x ∈ a.tag.symbols

/-! ## The registries -/

/-- The registries of a solver fit together. -/
structure Formed (s : Solver Rat) : Prop where
  labelled : ∀ label a, s.constraints.get? label = some a → a.constraint.label = label
  fits : ∀ label a, s.constraints.get? label = some a →
    a.tag.Fits a.constraint.relation a.constraint.isRequired
  issued : ∀ label a, s.constraints.get? label = some a →
    ∀ x ∈ a.tag.symbols, x.number ≤ s.tableau.symbolCount
  /-- Constraints do not share symbols. -/
  apart : ∀ label label' a b x, s.constraints.get? label = some a →
    s.constraints.get? label' = some b → x ∈ a.tag.symbols → x ∈ b.tag.symbols → label = label'
  known : ∀ label a, s.constraints.get? label = some a → ∀ term ∈ a.constraint.expression.terms,
    term.coefficient ≠ 0 → term.unknown ∈ s.tracked.keys
  external : ∀ y known, s.tracked.get? y = some known →
    known.symbol.isExternal = true ∧ known.symbol.number ≤ s.tableau.symbolCount
  /-- Variables do not share symbols. -/
  injective : ∀ y z known other, s.tracked.get? y = some known → s.tracked.get? z = some other →
    known.symbol = other.symbol → y = z
  editFits : ∀ y e, s.edits.get? y = some e → e.tag.Fits .equal false ∧
    e.constraint.expression = .ofUnknown y
  editIssued : ∀ y e, s.edits.get? y = some e → ∀ x ∈ e.tag.symbols,
    x.number ≤ s.tableau.symbolCount
  editApart : ∀ y z e f, s.edits.get? y = some e → s.edits.get? z = some f → e.tag = f.tag → y = z
  /-- A constraint with the symbols of an edit variable is the one that holds it. -/
  editActive : ∀ y e label a, s.edits.get? y = some e → s.constraints.get? label = some a →
    (∃ x ∈ e.tag.symbols, x ∈ a.tag.symbols) → a = ⟨e.constraint, e.tag⟩

theorem formed_empty (steps : Nat) : (empty steps : Solver Rat).Formed where
  labelled _ _ h := by cases h
  fits _ _ h := by cases h
  issued _ _ h := by cases h
  apart _ _ _ _ _ h := by cases h
  known _ _ h := by cases h
  external _ _ h := by cases h
  injective _ _ _ _ h := by cases h
  editFits _ _ h := by cases h
  editIssued _ _ h := by cases h
  editApart _ _ _ _ h := by cases h
  editActive _ _ _ _ h := by cases h

/-! ## Targets -/

theorem Formed.targetOf_eq (h : s.Formed) (he : s.edits.get? y = some e) :
    s.targetOf e.tag = e.target := by
  unfold targetOf
  cases hfind : s.edits.values.find? fun f => f.tag = e.tag with
  | none =>
    have hmem : e ∈ s.edits.values := OrderedMap.mem_values_iff.2 ⟨y, he⟩
    have hne := List.find?_eq_none.1 hfind e hmem
    exact absurd (decide_eq_true rfl) hne
  | some f =>
    obtain ⟨z, hz⟩ := OrderedMap.mem_values_iff.1 (List.mem_of_find?_eq_some hfind)
    have htag : f.tag = e.tag := by simpa using List.find?_some hfind
    obtain rfl := h.editApart z y f e hz he htag
    rw [hz] at he
    obtain rfl := Option.some.inj he
    rfl

theorem targetOf_eq_zero (h : ∀ y e, s.edits.get? y = some e → e.tag ≠ tag) :
    s.targetOf tag = 0 := by
  unfold targetOf
  have hfind : s.edits.values.find? (fun e => e.tag = tag) = none := by
    rw [List.find?_eq_none]
    intro e he htag
    obtain ⟨y, hy⟩ := OrderedMap.mem_values_iff.1 he
    exact h y e hy (of_decide_eq_true htag)
  rw [hfind]
  rfl

/-- Only the edit variable with these symbols matters to their target. -/
theorem Formed.targetOf_congr (h : s.Formed) (h' : s'.Formed)
    (hsame : ∀ z f, f.tag = tag → (s.edits.get? z = some f ↔ s'.edits.get? z = some f)) :
    s.targetOf tag = s'.targetOf tag := by
  by_cases hex : ∃ z f, s.edits.get? z = some f ∧ f.tag = tag
  · obtain ⟨z, f, hz, rfl⟩ := hex
    rw [h.targetOf_eq hz, h'.targetOf_eq ((hsame z f rfl).1 hz)]
  · rw [targetOf_eq_zero fun z f hz htag => hex ⟨z, f, hz, htag⟩,
      targetOf_eq_zero fun z f hz htag => hex ⟨z, f, (hsame z f htag).2 hz, htag⟩]

/-- A required constraint has no target. -/
theorem Formed.targetOf_required (h : s.Formed) (ha : s.constraints.get? label = some a)
    (hreq : a.constraint.isRequired = true) : s.targetOf a.tag = 0 := by
  apply targetOf_eq_zero
  intro y e he htag
  have hfits := h.fits label a ha
  rw [hreq, ← htag] at hfits
  exact hfits.not_required (h.editFits y e he).1

/-! ## What the meaning depends on -/

theorem Formed.equation_iff (h : s.Formed) (ha : s.constraints.get? label = some a) :
    s.Equation a v ↔ s.gap a (s.lift v) + a.tag.side a.constraint.relation v = 0 :=
  (h.fits label a ha).equation_iff

theorem Formed.gap_congr (h : s.Formed) (ha : s.constraints.get? label = some a)
    {y z : Variable → Rat} (hyz : ∀ x ∈ s.tracked.keys, y x = z x) : s.gap a y = s.gap a z := by
  unfold gap
  rw [Linear.eval_congr fun t ht hne => hyz _ (h.known label a ha t ht hne)]

theorem lift_update (hx : ∀ y known, s.tracked.get? y = some known → known.symbol ≠ x) (k : Rat) :
    s.lift (Function.update v x k) = s.lift v := by
  funext y
  unfold lift
  cases hy : s.tracked.get? y with
  | none => rfl
  | some known => exact Function.update_of_ne (hx y known hy) _ _

theorem shortfall_congr (h : ∀ x ∈ tag.errors, v x = w x) : tag.shortfall v = tag.shortfall w :=
  congrArg List.sum (List.map_congr_left h)

theorem objective_congr (h : ∀ label a, s.constraints.get? label = some a →
    ∀ x ∈ a.tag.errors, v x = w x) : s.meaning.objective v = s.meaning.objective w := by
  change List.sum _ = List.sum _
  congr 1
  apply List.map_congr_left
  intro a ha
  obtain ⟨label, hlabel⟩ := OrderedMap.mem_values_iff.1 ha
  unfold Active.cost
  rw [shortfall_congr (h label a hlabel)]

/-- An equation does not depend on what is neither a variable's symbol nor its own. -/
theorem Formed.equation_update (h : s.Formed) (ha : s.constraints.get? label = some a)
    (hx : ∀ y known, s.tracked.get? y = some known → known.symbol ≠ x) (hxa : x ∉ a.tag.symbols)
    (k : Rat) : s.Equation a (Function.update v x k) ↔ s.Equation a v := by
  rw [h.equation_iff ha, h.equation_iff ha, lift_update hx]
  have hside : a.tag.side a.constraint.relation (Function.update v x k)
      = a.tag.side a.constraint.relation v := by
    apply Tag.side_congr
    intro y hy
    have hyx : y ≠ x := by
      rintro rfl
      exact hxa hy
    exact Function.update_of_ne hyx _ _
  rw [hside]

/-- The meaning does not depend on symbols that are not in use. -/
theorem Formed.ignores (h : s.Formed) (hx : ¬s.Uses x) : s.meaning.Ignores x := by
  have htracked (y : Variable) (known : Tracked Rat) (hy : s.tracked.get? y = some known) :
      known.symbol ≠ x := fun e => hx (Or.inl ⟨y, known, hy, e⟩)
  have hactive (label : Label) (a : Active Rat) (ha : s.constraints.get? label = some a) :
      x ∉ a.tag.symbols := fun hmem => hx (Or.inr ⟨label, a, ha, hmem⟩)
  constructor
  · intro v k hv label a ha
    exact (h.equation_update ha htracked (hactive label a ha) k).2 (hv label a ha)
  · intro v k
    apply objective_congr
    intro label a ha e he
    have hex : e ≠ x := by
      rintro rfl
      exact hactive label a ha (Tag.mem_symbols_of_mem_errors he)
    exact Function.update_of_ne hex _ _

theorem Formed.number_le (h : s.Formed) (hx : s.Uses x) : x.number ≤ s.tableau.symbolCount := by
  obtain ⟨y, known, hy, rfl⟩ | ⟨label, a, ha, hmem⟩ := hx
  · exact (h.external y known hy).2
  · exact h.issued label a ha x hmem

/-- Symbols of constraints are not symbols of variables. -/
theorem Formed.tracked_ne (h : s.Formed) (ha : s.constraints.get? label = some a)
    (hx : x ∈ a.tag.symbols) (y : Variable) (known : Tracked Rat)
    (hy : s.tracked.get? y = some known) : known.symbol ≠ x := by
  rintro rfl
  have hext := (h.external y known hy).1
  rw [(h.fits label a ha).isExternal hx] at hext
  cases hext

end Solver

end BoxLayout
