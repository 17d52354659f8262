-- SUMMARY: The row of a new constraint: the variables and symbols it makes known, and what it says.
import BoxLayout.Proofs.Optimum

/-!
# The row of a new constraint

A new constraint may mention variables that the solver has not met; they get symbols
first (`Grown`). Its expression then becomes a row of the same value (`Summed`) over
non-basic symbols (`Sketch`), its own symbols are added, and its errors enter the objective.
Nothing is known of the new symbols yet, so the rows of the tableau still stand for the old
constraints, and the new row is zero exactly where the new equation holds.
-/

namespace BoxLayout

open Tableau

namespace Solver

variable {s s' s₁ s₂ : Solver Rat} {v : Assignment} {label : Label} {a : Active Rat} {x : Symbol}
  {y : Variable} {row row' : Row Rat} {c : Constraint Rat} {tag : Tag}

/-! ## More known variables -/

/-- The same solver, but for newly known variables and the symbols they got. -/
structure Grown (s s' : Solver Rat) : Prop where
  tableau : s'.tableau = { s.tableau with symbolCount := s'.tableau.symbolCount }
  count : s.tableau.symbolCount ≤ s'.tableau.symbolCount
  constraints : s'.constraints = s.constraints
  edits : s'.edits = s.edits
  editCount : s'.editCount = s.editCount
  steps : s'.steps = s.steps
  tracked : ∀ y known, s.tracked.get? y = some known → s'.tracked.get? y = some known
  fresh : ∀ y known, s'.tracked.get? y = some known →
    s.tracked.get? y = some known ∨ s.tableau.symbolCount < known.symbol.number

namespace Grown

theorem refl (s : Solver Rat) : Grown s s :=
  ⟨rfl, le_refl _, rfl, rfl, rfl, rfl, fun _ _ h => h, fun _ _ h => Or.inl h⟩

theorem trans (h : Grown s s₁) (h' : Grown s₁ s₂) : Grown s s₂ where
  tableau := by rw [h'.tableau, h.tableau]
  count := h.count.trans h'.count
  constraints := h'.constraints.trans h.constraints
  edits := h'.edits.trans h.edits
  editCount := h'.editCount.trans h.editCount
  steps := h'.steps.trans h.steps
  tracked y known hy := h'.tracked y known (h.tracked y known hy)
  fresh y known hy := by
    obtain hold | hnew := h'.fresh y known hy
    · exact h.fresh y known hold
    · exact Or.inr (h.count.trans_lt hnew)

theorem rows (h : Grown s s') : s'.tableau.rows = s.tableau.rows := by rw [h.tableau]

theorem keys (h : Grown s s') (hy : y ∈ s.tracked.keys) : y ∈ s'.tracked.keys := by
  obtain ⟨known, hknown⟩ := OrderedMap.mem_keys_iff.1 hy
  exact OrderedMap.mem_keys_iff.2 ⟨known, h.tracked y known hknown⟩

theorem lift_eq (h : Grown s s') (hy : y ∈ s.tracked.keys) : s'.lift v y = s.lift v y := by
  obtain ⟨known, hknown⟩ := OrderedMap.mem_keys_iff.1 hy
  unfold lift
  rw [hknown, h.tracked y known hknown]

end Grown

/-- A variable that is not known gets a new symbol. -/
theorem symbolOf_grown (s : Solver Rat) (y : Variable) :
    Grown s (s.symbolOf y).2 ∧
      ∃ known, (s.symbolOf y).2.tracked.get? y = some known ∧ known.symbol = (s.symbolOf y).1 := by
  unfold symbolOf
  cases hy : s.tracked.get? y with
  | some known => exact ⟨.refl s, known, hy, rfl⟩
  | none =>
    let new : Tracked Rat := ⟨⟨.external, s.tableau.symbolCount + 1⟩, 0⟩
    have hget (z : Variable) : (s.tracked.insert y new).get? z
        = if z = y then some new else s.tracked.get? z := OrderedMap.get?_insert _ _ _ _
    refine ⟨⟨rfl, Nat.le_succ _, rfl, rfl, rfl, rfl, fun z known hz => ?_, fun z known hz => ?_⟩,
      new, ?_, rfl⟩
    · change (s.tracked.insert y new).get? z = some known
      rw [hget, if_neg, hz]
      rintro rfl
      rw [hy] at hz
      cases hz
    · obtain ⟨-, rfl⟩ | hz := OrderedMap.get?_insert_cases hz
      · exact Or.inr (Nat.lt_succ_self s.tableau.symbolCount)
      · exact Or.inl hz
    · change (s.tracked.insert y new).get? y = _
      rw [hget, if_pos rfl]

/-- No other variable has the new symbol. -/
theorem symbolOf_formed (h : s.Formed) (y : Variable) : (s.symbolOf y).2.Formed := by
  unfold symbolOf
  cases hy : s.tracked.get? y with
  | some known => exact h
  | none =>
    let count := s.tableau.symbolCount
    let new : Tracked Rat := ⟨⟨.external, count + 1⟩, 0⟩
    have hcases {z : Variable} {known : Tracked Rat}
        (hz : (s.tracked.insert y new).get? z = some known) :
        z = y ∧ known = new ∨ s.tracked.get? z = some known :=
      OrderedMap.get?_insert_cases hz
    refine { h with issued := ?_, known := ?_, external := ?_, injective := ?_, editIssued := ?_ }
    · intro label a ha x hx
      exact (h.issued label a ha x hx).trans (Nat.le_succ _)
    · intro label a ha term hterm hne
      exact OrderedMap.mem_keys_insert.2 (Or.inr (h.known label a ha term hterm hne))
    · intro z known hz
      obtain ⟨rfl, rfl⟩ | hz := hcases hz
      · exact ⟨rfl, le_refl _⟩
      · exact ⟨(h.external z known hz).1, (h.external z known hz).2.trans (Nat.le_succ _)⟩
    · intro z z' known known' hz hz' heq
      have hlt {z : Variable} {known : Tracked Rat} (hz : s.tracked.get? z = some known) :
          known.symbol ≠ new.symbol := by
        intro heq
        have hle := (h.external z known hz).2
        rw [heq] at hle
        exact absurd hle (Nat.not_succ_le_self count)
      obtain ⟨hzy, rfl⟩ | hzold := hcases hz
      · obtain ⟨hzy', -⟩ | hzold' := hcases hz'
        · rw [hzy, hzy']
        · exact absurd heq.symm (hlt hzold')
      · obtain ⟨-, rfl⟩ | hzold' := hcases hz'
        · exact absurd heq (hlt hzold)
        · exact h.injective z z' known known' hzold hzold' heq
    · intro z e he x hx
      exact (h.editIssued z e he x hx).trans (Nat.le_succ _)

/-! ## The expression -/

/-- `row'` has the value of `row` with the terms added, over the symbols of `s'`. -/
structure Summed (s s' : Solver Rat) (row row' : Row Rat) (terms : List (Term Variable Rat)) :
    Prop where
  grown : Grown s s'
  eval : ∀ v, s.tableau.Satisfies v →
    row'.eval v = row.eval v + (terms.map fun t => t.coefficient * s'.lift v t.unknown).sum
  known : ∀ t ∈ terms, t.coefficient ≠ 0 → t.unknown ∈ s'.tracked.keys

theorem Grown.satisfies (h : Grown s s') : s'.tableau.Satisfies v ↔ s.tableau.Satisfies v := by
  unfold Satisfies
  rw [h.rows]

theorem Summed.refl (s : Solver Rat) (row : Row Rat) : Summed s s row row [] :=
  ⟨.refl s, fun v _ => (add_zero _).symm, fun _ ht => by cases ht⟩

/-- Terms that are added later do not change what the variables of the terms before are. -/
theorem Summed.trans {row₁ row₂ : Row Rat} {ts us : List (Term Variable Rat)}
    (h : Summed s s₁ row row₁ ts) (h' : Summed s₁ s₂ row₁ row₂ us) :
    Summed s s₂ row row₂ (ts ++ us) where
  grown := h.grown.trans h'.grown
  eval v hv := by
    have hsame : (ts.map fun t => t.coefficient * s₁.lift v t.unknown)
        = ts.map fun t => t.coefficient * s₂.lift v t.unknown := by
      apply List.map_congr_left
      intro t ht
      by_cases hz : t.coefficient = 0
      · rw [hz, zero_mul, zero_mul]
      · rw [h'.grown.lift_eq (h.known t ht hz)]
    rw [h'.eval v (h.grown.satisfies.2 hv), h.eval v hv, hsame, List.map_append, List.sum_append,
      add_assoc]
  known t ht hne := by
    obtain ht | ht := List.mem_append.1 ht
    · exact h'.grown.keys (h.known t ht hne)
    · exact h'.known t ht hne

/-- One term. -/
theorem addTerm_summed (s : Solver Rat) (row : Row Rat) (term : Term Variable Rat) :
    Summed s (s.addTerm row term).2 row (s.addTerm row term).1 [term] := by
  unfold addTerm
  by_cases hz : term.coefficient = 0
  · rw [if_pos (nearZero_iff.2 hz)]
    refine ⟨.refl s, fun v _ => ?_, fun t ht hne => ?_⟩
    · simp [hz]
    · obtain rfl := List.mem_singleton.1 ht
      exact absurd hz hne
  · rw [if_neg fun hnear => hz (nearZero_iff.1 hnear)]
    obtain ⟨hgrown, known, hknown, hsymbol⟩ := symbolOf_grown s term.unknown
    refine ⟨hgrown, fun v hv => ?_, fun t ht _ => ?_⟩
    · change ((s.symbolOf term.unknown).2.tableau.addTo row _ _).eval v = _
      rw [eval_addTo (hgrown.satisfies.2 hv), ← hsymbol]
      have hlift : (s.symbolOf term.unknown).2.lift v term.unknown = v known.symbol := by
        unfold lift
        rw [hknown]
      change _ = _ + (_ * (s.symbolOf term.unknown).2.lift v term.unknown + 0)
      rw [hlift, add_zero]
    · obtain rfl := List.mem_singleton.1 ht
      exact OrderedMap.mem_keys_iff.2 ⟨known, hknown⟩

/-- All terms, one after the other. -/
theorem foldl_addTerm_summed (terms : List (Term Variable Rat)) (s : Solver Rat) (row : Row Rat) :
    Summed s (terms.foldl (fun acc t => acc.2.addTerm acc.1 t) (row, s)).2 row
      (terms.foldl (fun acc t => acc.2.addTerm acc.1 t) (row, s)).1 terms := by
  induction terms generalizing row s with
  | nil => exact .refl s row
  | cons term terms ih => exact (addTerm_summed s row term).trans (ih _ _)

theorem expand_summed (s : Solver Rat) (e : Linear Variable Rat) :
    Summed s (s.expand e).2 (.ofConstant e.constant) (s.expand e).1 e.terms :=
  foldl_addTerm_summed e.terms s _

theorem Grown.solved (h : Grown s s') (hs : s.tableau.Solved) : s'.tableau.Solved := by
  rw [h.tableau]
  exact ⟨hs.reduced, hs.basic⟩

/-- The solver is well formed and the row is a reduced one over non-basic symbols. -/
structure Sketch (s : Solver Rat) (row : Row Rat) : Prop where
  formed : s.Formed
  solved : s.tableau.Solved
  reduced : row.Reduced
  basic : ∀ b ∈ s.tableau.rows.keys, row.coefficient b = 0

theorem Sketch.addTerm (h : s.Sketch row) (term : Term Variable Rat) :
    (s.addTerm row term).2.Sketch (s.addTerm row term).1 := by
  unfold Solver.addTerm
  split
  · exact h
  · obtain ⟨hgrown, -⟩ := symbolOf_grown s term.unknown
    have hsolved := hgrown.solved h.solved
    refine ⟨symbolOf_formed h.formed term.unknown, hsolved, reduced_addTo h.reduced _ _, ?_⟩
    exact hsolved.addTo_basic (by rw [hgrown.rows]; exact h.basic) _ _

theorem expand_sketch (h : s.Formed) (hs : s.tableau.Solved) (e : Linear Variable Rat) :
    (s.expand e).2.Sketch (s.expand e).1 := by
  have hstart : s.Sketch (.ofConstant e.constant) := by
    refine ⟨h, hs, Row.reduced_ofConstant _, fun b _ => ?_⟩
    rw [Row.coefficient_eq_eval (v := fun _ => 0), Row.eval_ofConstant, Row.eval_ofConstant, sub_self]
  unfold expand
  generalize Row.ofConstant e.constant = row at hstart
  clear h hs
  induction e.terms generalizing row s with
  | nil => exact hstart
  | cons term terms ih => exact ih _ (hstart.addTerm term)

/-! ## The symbols of the constraint -/

theorem freshTag_spec (t : Tableau Rat) (r : Relation) (required : Bool) :
    (t.freshTag r required).1.Fits r required ∧
      (∀ x ∈ (t.freshTag r required).1.symbols, t.symbolCount < x.number ∧
        x.number ≤ (t.freshTag r required).2.symbolCount) ∧
      (t.freshTag r required).2 = { t with symbolCount := (t.freshTag r required).2.symbolCount } := by
  obtain ⟨hnumbers, -, hrest⟩ := freshTag_numbers t r required
  refine ⟨?_, hnumbers, hrest⟩
  cases r with
  | equal =>
    cases required with
    | true => exact .dummy _
    | false => exact .errors _ _ (Nat.lt_succ_self _).ne
  | atMost | atLeast =>
    cases required with
    | true => exact .slack _ _ (by simp)
    | false => exact .slackError _ _ _ (by simp)

/-- The solver with a constraint on its list. -/
def register (s : Solver Rat) (c : Constraint Rat) (tag : Tag) : Solver Rat :=
  { s with constraints := s.constraints.insert c.label ⟨c, tag⟩ }

theorem get?_register : (s.register c tag).constraints.get? label
    = if label = c.label then some ⟨c, tag⟩ else s.constraints.get? label :=
  OrderedMap.get?_insert _ _ _ _

theorem get?_register_self : (s.register c tag).constraints.get? c.label = some ⟨c, tag⟩ := by
  rw [get?_register, if_pos rfl]

theorem register_cases (h : (s.register c tag).constraints.get? label = some a) :
    label = c.label ∧ a = ⟨c, tag⟩ ∨ s.constraints.get? label = some a :=
  OrderedMap.get?_insert_cases h

/-- A constraint with new symbols, about known variables, can be registered. -/
theorem Formed.register (h : s.Formed) {t : Tableau Rat} (hcount : s.tableau.symbolCount ≤ t.symbolCount)
    (hfits : tag.Fits c.relation c.isRequired)
    (hnew : ∀ x ∈ tag.symbols, s.tableau.symbolCount < x.number ∧ x.number ≤ t.symbolCount)
    (hknown : ∀ term ∈ c.expression.terms, term.coefficient ≠ 0 → term.unknown ∈ s.tracked.keys) :
    (({ s with tableau := t } : Solver Rat).register c tag).Formed := by
  have hold (label : Label) (a : Active Rat) (ha : s.constraints.get? label = some a) (x : Symbol)
      (hx : x ∈ a.tag.symbols) : x ∉ tag.symbols := fun hmem =>
    absurd (h.issued label a ha x hx) (not_le.2 (hnew x hmem).1)
  refine ⟨?_, ?_, ?_, ?_, ?_, ?_, h.injective, h.editFits, ?_, h.editApart, ?_⟩
  · intro label a ha
    obtain ⟨rfl, rfl⟩ | ha := register_cases ha
    · rfl
    · exact h.labelled label a ha
  · intro label a ha
    obtain ⟨rfl, rfl⟩ | ha := register_cases ha
    · exact hfits
    · exact h.fits label a ha
  · intro label a ha x hx
    obtain ⟨rfl, rfl⟩ | ha := register_cases ha
    · exact (hnew x hx).2
    · exact (h.issued label a ha x hx).trans hcount
  · intro label label' a b x ha hb hxa hxb
    obtain ⟨hl, rfl⟩ | ha := register_cases ha
    · obtain ⟨hl', rfl⟩ | hb := register_cases hb
      · rw [hl, hl']
      · exact absurd hxa (hold label' b hb x hxb)
    · obtain ⟨hl', rfl⟩ | hb := register_cases hb
      · exact absurd hxb (hold label a ha x hxa)
      · exact h.apart label label' a b x ha hb hxa hxb
  · intro label a ha
    obtain ⟨rfl, rfl⟩ | ha := register_cases ha
    · exact hknown
    · exact h.known label a ha
  · intro z known hz
    exact ⟨(h.external z known hz).1, (h.external z known hz).2.trans hcount⟩
  · intro z e he x hx
    exact (h.editIssued z e he x hx).trans hcount
  · rintro z e label a he ha ⟨x, hxe, hxa⟩
    obtain ⟨rfl, rfl⟩ | ha := register_cases ha
    · exact absurd (h.editIssued z e he x hxe) (not_le.2 (hnew x hxa).1)
    · exact h.editActive z e label a he ha ⟨x, hxe, hxa⟩

theorem objective_register (h : s.constraints.get? c.label = none) (v : Assignment) :
    (s.register c tag).meaning.objective v = s.meaning.objective v + Active.cost ⟨c, tag⟩ v := by
  have hperm := OrderedMap.values_insert_perm (⟨c, tag⟩ : Active Rat) h
  change ((s.constraints.insert c.label ⟨c, tag⟩).values.map fun a => a.cost v).sum = _
  rw [(hperm.map fun a => a.cost v).sum_eq, List.map_cons, List.sum_cons, add_comm]
  rfl

/-! ## The row -/

/-- The meaning of a tableau in which the symbols of a constraint are known, but not yet its
equation. -/
def pending (s s' : Solver Rat) (c : Constraint Rat) (tag : Tag) : Meaning :=
  { (s'.register c tag).meaning with solutions := s.meaning.solutions }

/-- What is known when the row of a constraint has been created: `s` has become `s'`, which
still lacks the constraint on its list and the row in its tableau. -/
structure Prepared (s : Solver Rat) (c : Constraint Rat) (row : Row Rat) (tag : Tag)
    (s' : Solver Rat) : Prop where
  formed : (s'.register c tag).Formed
  ready : s'.tableau.Ready (pending s s' c tag)
  newRow : s'.tableau.NewRow row
  newTag : NewTag (pending s s' c tag) tag row
  ignores : (pending s s' c tag).Ignores s'.tableau.artificialSymbol
  solutions : ∀ v, s.meaning.solutions v ∧ row.eval v = 0 ↔ (s'.register c tag).meaning.solutions v
  fresh : ∀ x ∈ tag.symbols, s.tableau.symbolCount < x.number
  rows : s'.tableau.rows = s.tableau.rows
  count : s.tableau.symbolCount ≤ s'.tableau.symbolCount
  constraints : s'.constraints = s.constraints
  edits : s'.edits = s.edits
  editCount : s'.editCount = s.editCount
  steps : s'.steps = s.steps
  tracked : ∀ y known, s'.tracked.get? y = some known →
    s.tracked.get? y = some known ∨ s.tableau.symbolCount < known.symbol.number

/-- The objective with the errors of a new constraint. -/
def withErrors (o : Row Rat) (tag : Tag) (w : Rat) : Row Rat :=
  tag.errors.foldl (fun o e => o.addSymbol e w) o

theorem withErrors_eq (o : Row Rat) (tag : Tag) (w : Rat) :
    withErrors o tag w
      = (tag.errors.map fun e => (e, w)).foldl (fun r c => r.addSymbol c.1 c.2) o := by
  unfold withErrors
  rw [List.foldl_map]

theorem eval_withErrors (o : Row Rat) (tag : Tag) (w : Rat) (v : Assignment) :
    (withErrors o tag w).eval v = o.eval v + w * tag.shortfall v := by
  rw [withErrors_eq, Row.eval_addSymbols]
  congr 1
  unfold Tag.shortfall Entries.dot
  rw [List.map_map, ← List.sum_map_mul_left]
  rfl

theorem coefficient_withErrors {o : Row Rat} {w : Rat} (h : x ∉ tag.errors) :
    (withErrors o tag w).coefficient x = o.coefficient x := by
  rw [withErrors_eq]
  apply Row.coefficient_addSymbols
  intro c hc
  obtain ⟨e, he, rfl⟩ := List.mem_map.1 hc
  rintro rfl
  exact h he

/-- Adding new errors to the objective of a tableau that does not mention them. -/
theorem ready_withErrors (tag : Tag) {t : Tableau Rat} {μ : Meaning} (h : t.Ready μ)
    (hfree : ∀ x ∈ tag.errors, Free μ.solutions x ∧ x.isExternal = false) {n : Nat} (w : Rat) :
    ({ t with symbolCount := n, objective := withErrors t.objective tag w } : Tableau Rat).Ready
      { μ with symbolCount := n, objective := fun v => μ.objective v + w * tag.shortfall v } := by
  refine ⟨⟨rfl, ⟨?_, ?_⟩, h.solutions, ?_, h.artificial⟩, ⟨h.split.rows, ?_, h.split.artificial⟩,
    h.feasible, h.calm⟩
  · intro r hr
    obtain hb | rfl | ha := hr
    · exact h.solved.reduced r (Or.inl hb)
    · change (Solver.withErrors t.objective tag w).Reduced
      rw [withErrors_eq]
      exact (h.solved.reduced _ stores_objective).addSymbols _
    · exact h.solved.reduced r (stores_artificial ha)
  · intro r hr b hb
    obtain hrow | rfl | ha := hr
    · exact h.solved.basic r (Or.inl hrow) b hb
    · change (Solver.withErrors t.objective tag w).coefficient b = 0
      rw [coefficient_withErrors, h.solved.basic _ stores_objective b hb]
      intro hmem
      exact (h.absent (hfree b hmem).1).1 hb
    · exact h.solved.basic r (stores_artificial ha) b hb
  · obtain ⟨d, hd⟩ := h.objective
    refine ⟨d, fun v hv => ?_⟩
    change (Solver.withErrors t.objective tag w).eval v = _
    rw [eval_withErrors, hd v hv]
    ring
  · intro x hx
    change (Solver.withErrors t.objective tag w).coefficient x = 0
    rw [coefficient_withErrors, h.split.objective x hx]
    intro hmem
    rw [(hfree x hmem).2] at hx
    cases hx

/-- The row before it is turned. -/
def unturned (c : Constraint Rat) (s : Solver Rat) : Row Rat :=
  ((createRow c s).1.2.terms c.relation).foldl (fun row t => row.addSymbol t.1 t.2)
    (s.expand c.expression).1

theorem createRow_cases (c : Constraint Rat) (s : Solver Rat) :
    0 ≤ (unturned c s).constant ∧ (createRow c s).1.1 = unturned c s ∨
      (unturned c s).constant < 0 ∧ (createRow c s).1.1 = (unturned c s).negate := by
  rcases lt_or_ge (unturned c s).constant 0 with hneg | hpos
  · exact Or.inr ⟨hneg, if_pos hneg⟩
  · exact Or.inl ⟨hpos, if_neg (not_lt.2 hpos)⟩

/-- The row, its sign apart, is the value of the expression with the constraint's symbols. -/
theorem createRow_eval (c : Constraint Rat) (s : Solver Rat) :
    ∃ k : Rat, (k = 1 ∨ k = -1) ∧ ∀ v, s.tableau.Satisfies v → (createRow c s).1.1.eval v
      = k * (c.expression.eval ((createRow c s).2.lift v) + (createRow c s).1.2.side c.relation v) := by
  have hvalue (v : Assignment) (hv : s.tableau.Satisfies v) : (unturned c s).eval v
      = c.expression.eval ((createRow c s).2.lift v) + (createRow c s).1.2.side c.relation v := by
    unfold unturned
    rw [Row.eval_addSymbols, (expand_summed s c.expression).eval v hv, Row.eval_ofConstant]
    rfl
  obtain ⟨-, hrow⟩ | ⟨-, hrow⟩ := createRow_cases c s
  · refine ⟨1, Or.inl rfl, fun v hv => ?_⟩
    rw [hrow, hvalue v hv, one_mul]
  · refine ⟨-1, Or.inr rfl, fun v hv => ?_⟩
    rw [hrow, Row.eval_negate, hvalue v hv]
    ring

theorem createRow_tableau (c : Constraint Rat) (s : Solver Rat) :
    (createRow c s).2.tableau = { s.tableau with
      symbolCount := (createRow c s).2.tableau.symbolCount
      objective := withErrors s.tableau.objective (createRow c s).1.2 c.strength.weight } := by
  have hgrown := (expand_summed s c.expression).grown
  obtain ⟨-, -, htab⟩ := freshTag_spec (s.expand c.expression).2.tableau c.relation c.isRequired
  have hsame {t t₁ t₀ : Tableau Rat} (h : t = { t₁ with symbolCount := t.symbolCount })
      (h₁ : t₁ = { t₀ with symbolCount := t₁.symbolCount }) (tag : Tag) (w : Rat) :
      ({ t with objective := withErrors t.objective tag w } : Tableau Rat)
        = { t₀ with
          symbolCount := t.symbolCount
          objective := withErrors t₀.objective tag w } := by
    cases t
    cases t₁
    cases t₀
    simp_all
  exact hsame htab hgrown.tableau _ _

/-- The symbols of the constraint fit it, and they are new. -/
theorem createRow_tag (c : Constraint Rat) (s : Solver Rat) :
    (createRow c s).1.2.Fits c.relation c.isRequired ∧
      (∀ x ∈ (createRow c s).1.2.symbols, s.tableau.symbolCount < x.number) ∧
      s.tableau.symbolCount ≤ (createRow c s).2.tableau.symbolCount := by
  have hcount := (expand_summed s c.expression).grown.count
  obtain ⟨hfits, hbounds, -⟩ := freshTag_spec (s.expand c.expression).2.tableau c.relation c.isRequired
  obtain ⟨hlt, hle⟩ := hbounds _ (Tag.marker_mem _)
  exact ⟨hfits, fun x hx => hcount.trans_lt (hbounds x hx).1, hcount.trans (hlt.le.trans hle)⟩

/-- The constraint can be put on the list. -/
theorem createRow_formed (h : s.Formed) (hs : s.tableau.Solved) (c : Constraint Rat) :
    ((createRow c s).2.register c (createRow c s).1.2).Formed := by
  obtain ⟨hfits, hbounds, -⟩ := freshTag_spec (s.expand c.expression).2.tableau c.relation c.isRequired
  have hcount : (s.expand c.expression).2.tableau.symbolCount
      ≤ (createRow c s).2.tableau.symbolCount := by
    obtain ⟨hlt, hle⟩ := hbounds _ (Tag.marker_mem _)
    exact hlt.le.trans hle
  exact (expand_sketch h hs c.expression).formed.register hcount hfits hbounds
    (expand_summed s c.expression).known

theorem createRow_reduced (h : s.Formed) (hs : s.tableau.Solved) (c : Constraint Rat) :
    (createRow c s).1.1.Reduced := by
  have hraw : (unturned c s).Reduced := (expand_sketch h hs c.expression).reduced.addSymbols _
  obtain ⟨-, hrow⟩ | ⟨-, hrow⟩ := createRow_cases c s
  · rw [hrow]
    exact hraw
  · rw [hrow]
    exact hraw.negate

theorem createRow_nonneg (c : Constraint Rat) (s : Solver Rat) :
    0 ≤ (createRow c s).1.1.constant := by
  obtain ⟨hpos, hrow⟩ | ⟨hneg, hrow⟩ := createRow_cases c s
  · rw [hrow]
    exact hpos
  · rw [hrow]
    exact neg_nonneg.2 hneg.le

theorem createRow_basic (h : s.Formed) (hs : s.tableau.Solved) (c : Constraint Rat)
    (hnot : ∀ x ∈ (createRow c s).1.2.symbols, x ∉ s.tableau.rows.keys) :
    ∀ b ∈ s.tableau.rows.keys, (createRow c s).1.1.coefficient b = 0 := by
  intro b hb
  have hexpanded : b ∈ (s.expand c.expression).2.tableau.rows.keys := by
    rwa [(expand_summed s c.expression).grown.rows]
  have hraw : (unturned c s).coefficient b = 0 := by
    unfold unturned
    rw [Row.coefficient_addSymbols, (expand_sketch h hs c.expression).basic b hexpanded]
    rintro t ht rfl
    exact hnot _ (Tag.mem_symbols_of_mem_terms ht) hb
  obtain ⟨-, hrow⟩ | ⟨-, hrow⟩ := createRow_cases c s
  · rw [hrow, hraw]
  · rw [hrow, Row.coefficient_negate, hraw, neg_zero]

/-- The equations of registered constraints stay the same. -/
theorem equation_register (h : s.Formed) (hgrown : ∀ y ∈ s.tracked.keys, s'.lift v y = s.lift v y)
    (hedits : s'.edits = s.edits) (ha : s.constraints.get? label = some a) :
    (s'.register c tag).Equation a v ↔ s.Equation a v := by
  have hgap : (s'.register c tag).gap a (s'.lift v) = s.gap a (s.lift v) := by
    rw [← h.gap_congr ha hgrown]
    unfold gap targetOf
    change _ - ((s'.edits.values.find? _).map _).getD 0 = _
    rw [hedits]
  unfold Equation
  change a.tag.Equation _ _ ((s'.register c tag).gap a (s'.lift v)) v ↔ _
  rw [hgap]

/-! ## The whole -/

/-- What creating the row of a constraint does: the constraint gets a tag of new symbols, its
expression and these symbols make up the row, and the errors among them enter the objective. -/
structure Created (s : Solver Rat) (c : Constraint Rat) (row : Row Rat) (tag : Tag)
    (s' : Solver Rat) : Prop where
  formed : (s'.register c tag).Formed
  fits : tag.Fits c.relation c.isRequired
  fresh : ∀ x ∈ tag.symbols, s.tableau.symbolCount < x.number
  eval : ∃ k : Rat, k ≠ 0 ∧ ∀ v, s.tableau.Satisfies v →
    row.eval v = k * (c.expression.eval (s'.lift v) + tag.side c.relation v)
  reduced : row.Reduced
  nonneg : 0 ≤ row.constant
  basic : (∀ x ∈ tag.symbols, x ∉ s.tableau.rows.keys) →
    ∀ b ∈ s.tableau.rows.keys, row.coefficient b = 0
  tableau : s'.tableau = { s.tableau with
    symbolCount := s'.tableau.symbolCount
    objective := withErrors s.tableau.objective tag c.strength.weight }
  count : s.tableau.symbolCount ≤ s'.tableau.symbolCount
  constraints : s'.constraints = s.constraints
  edits : s'.edits = s.edits
  editCount : s'.editCount = s.editCount
  steps : s'.steps = s.steps
  lift : ∀ v, ∀ y ∈ s.tracked.keys, s'.lift v y = s.lift v y
  tracked : ∀ y known, s'.tracked.get? y = some known →
    s.tracked.get? y = some known ∨ s.tableau.symbolCount < known.symbol.number

theorem createRow_created (h : s.Formed) (hs : s.tableau.Solved) (c : Constraint Rat) :
    Created s c (createRow c s).1.1 (createRow c s).1.2 (createRow c s).2 := by
  have hgrown := (expand_summed s c.expression).grown
  obtain ⟨hfits, hfresh, hcount⟩ := createRow_tag c s
  obtain ⟨k, hk, heval⟩ := createRow_eval c s
  have hne : k ≠ 0 := by obtain rfl | rfl := hk <;> norm_num
  exact {
    formed := createRow_formed h hs c
    fits := hfits
    fresh := hfresh
    eval := ⟨k, hne, heval⟩
    reduced := createRow_reduced h hs c
    nonneg := createRow_nonneg c s
    basic := createRow_basic h hs c
    tableau := createRow_tableau c s
    count := hcount
    constraints := hgrown.constraints
    edits := hgrown.edits
    editCount := hgrown.editCount
    steps := hgrown.steps
    lift := fun _ _ hy => hgrown.lift_eq hy
    tracked := hgrown.fresh }

theorem Created.rows (hc : Created s c row tag s') : s'.tableau.rows = s.tableau.rows := by
  rw [hc.tableau]

/-- The tag's symbols do not matter to the equations of the constraints before. -/
theorem Created.free (hc : Created s c row tag s') (h : s.Formed) (hx : x ∈ tag.symbols) :
    Free s.meaning.solutions x :=
  (h.ignores fun huse => absurd (h.number_le huse) (not_le.2 (hc.fresh x hx))).free

/-- The next artificial symbol is not in use. -/
theorem Created.artificial_unused (hc : Created s c row tag s') :
    ¬(s'.register c tag).Uses s'.tableau.artificialSymbol := fun huse =>
  absurd (hc.formed.number_le huse) (Nat.not_succ_le_self _)

theorem Created.artificial_free (hc : Created s c row tag s') (h : s.Formed) :
    Free s.meaning.solutions s'.tableau.artificialSymbol := by
  have hnew : s.tableau.symbolCount < s'.tableau.artificialSymbol.number :=
    Nat.lt_succ_of_le hc.count
  exact (h.ignores fun huse => absurd (h.number_le huse) (not_le.2 hnew)).free

theorem Created.pending_eq (hc : Created s c row tag s') (hlabel : s.constraints.get? c.label = none) :
    pending s s' c tag = { s.meaning with
      symbolCount := s'.tableau.symbolCount
      objective := fun v => s.meaning.objective v + c.strength.weight * tag.shortfall v } := by
  have hobj : (s'.register c tag).meaning.objective
      = fun v => s.meaning.objective v + c.strength.weight * tag.shortfall v := by
    funext v
    rw [objective_register (by rw [hc.constraints]; exact hlabel)]
    unfold meaning
    rw [hc.constraints]
    rfl
  rw [← hobj]
  rfl

theorem Created.ready (hc : Created s c row tag s') (h : s.Formed) (hready : s.tableau.Ready s.meaning)
    (hlabel : s.constraints.get? c.label = none) : s'.tableau.Ready (pending s s' c tag) := by
  rw [hc.pending_eq hlabel]
  have hnew := ready_withErrors tag hready (n := s'.tableau.symbolCount)
    (fun x hx => ⟨hc.free h (Tag.mem_symbols_of_mem_errors hx),
      hc.fits.isExternal (Tag.mem_symbols_of_mem_errors hx)⟩) c.strength.weight
  rwa [← hc.tableau] at hnew

/-- What a symbol that belongs to no variable contributes to the row. -/
theorem Created.coefficient (hc : Created s c row tag s') (hready : s.tableau.Ready s.meaning)
    (hfree : Free s.meaning.solutions x)
    (hne : ∀ z known, s'.tracked.get? z = some known → known.symbol ≠ x) :
    ∃ k : Rat, k ≠ 0 ∧ ∀ v, s.meaning.solutions v → row.coefficient x
      = k * (tag.side c.relation (Function.update v x (v x + 1)) - tag.side c.relation v) := by
  obtain ⟨k, hk, heval⟩ := hc.eval
  refine ⟨k, hk, fun v hv => ?_⟩
  have hmoved := heval _ ((hready.solutions _).2 (hfree v (v x + 1) hv))
  rw [lift_update hne, Row.eval_update, heval _ ((hready.solutions _).2 hv)] at hmoved
  linarith

/-- The marker occurs in the row. -/
theorem Created.marker (hc : Created s c row tag s') (h : s.Formed)
    (hready : s.tableau.Ready s.meaning) : row.coefficient tag.marker ≠ 0 := by
  obtain ⟨k, hk, hcoef⟩ := hc.coefficient hready (hc.free h tag.marker_mem)
    (hc.formed.tracked_ne get?_register_self tag.marker_mem)
  obtain ⟨k', hk', hside⟩ := hc.fits.side_marker
  rw [hcoef _ (hready.completion fun _ => 0), hside]
  simp only [add_sub_cancel_left, mul_one]
  exact mul_ne_zero hk hk'

/-- The next artificial symbol does not. -/
theorem Created.artificial (hc : Created s c row tag s') (h : s.Formed)
    (hready : s.tableau.Ready s.meaning) : row.coefficient s'.tableau.artificialSymbol = 0 := by
  have hunused := hc.artificial_unused
  obtain ⟨k, -, hcoef⟩ := hc.coefficient hready (hc.artificial_free h)
    fun z known hz heq => hunused (Or.inl ⟨z, known, hz, heq⟩)
  rw [hcoef _ (hready.completion fun _ => 0),
    Tag.side_congr (w := s.tableau.completion fun _ => 0), sub_self, mul_zero]
  intro x hx
  apply Function.update_of_ne
  rintro rfl
  exact hunused (Or.inr ⟨c.label, ⟨c, tag⟩, get?_register_self, hx⟩)

/-- Where the equations before hold, the row is zero exactly if the new equation holds. -/
theorem Created.row_iff (hc : Created s c row tag s') (h : s.Formed) (hready : s.tableau.Ready s.meaning)
    (hv : s.meaning.solutions v) : row.eval v = 0 ↔ (s'.register c tag).Equation ⟨c, tag⟩ v := by
  obtain ⟨k, hk, heval⟩ := hc.eval
  have htarget : (s'.register c tag).targetOf tag = 0 := by
    apply targetOf_eq_zero
    rintro z e he rfl
    have hle := h.editIssued z e (hc.edits ▸ he) _ e.tag.marker_mem
    exact absurd hle (not_le.2 (hc.fresh _ e.tag.marker_mem))
  rw [hc.formed.equation_iff get?_register_self, heval v ((hready.solutions v).2 hv)]
  unfold gap
  rw [htarget, sub_zero, mul_eq_zero, or_iff_right hk]
  rfl

theorem Created.solutions_iff (hc : Created s c row tag s') (h : s.Formed)
    (hready : s.tableau.Ready s.meaning) (hlabel : s.constraints.get? c.label = none) :
    s.meaning.solutions v ∧ row.eval v = 0 ↔ (s'.register c tag).meaning.solutions v := by
  have hequation {label : Label} {a : Active Rat} (ha : s.constraints.get? label = some a) :
      (s'.register c tag).Equation a v ↔ s.Equation a v :=
    equation_register h (hc.lift v) hc.edits ha
  constructor
  · rintro ⟨hv, hzero⟩ label a ha
    obtain ⟨rfl, rfl⟩ | hold := register_cases ha
    · exact (hc.row_iff h hready hv).1 hzero
    · rw [hc.constraints] at hold
      exact (hequation hold).2 (hv label a hold)
  · intro hv
    have hold : s.meaning.solutions v := by
      intro label a ha
      have hne : label ≠ c.label := by
        rintro rfl
        rw [hlabel] at ha
        cases ha
      have hreg := hv label a (by rw [get?_register, if_neg hne, hc.constraints, ha])
      exact (hequation ha).1 hreg
    exact ⟨hold, (hc.row_iff h hready hold).2 (hv c.label _ get?_register_self)⟩

theorem createRow_prepared (h : s.Formed) (hready : s.tableau.Ready s.meaning)
    (hlabel : s.constraints.get? c.label = none) :
    Prepared s c (createRow c s).1.1 (createRow c s).1.2 (createRow c s).2 := by
  have hc := createRow_created h hready.solved c
  generalize (createRow c s).1.1 = row at hc ⊢
  generalize (createRow c s).1.2 = tag at hc ⊢
  generalize (createRow c s).2 = s' at hc ⊢
  have hbasic : ∀ b ∈ s'.tableau.rows.keys, row.coefficient b = 0 := by
    rw [hc.rows]
    exact hc.basic fun x hx => (hready.absent (hc.free h hx)).1
  exact {
    formed := hc.formed
    ready := hc.ready h hready hlabel
    newRow := ⟨hc.reduced, hbasic, hc.nonneg, hc.artificial h hready⟩
    newTag := ⟨fun x hx => hc.fits.isExternal hx, fun x hx => hc.free h hx, hc.marker h hready⟩
    ignores := ⟨hc.artificial_free h, (hc.formed.ignores hc.artificial_unused).objective⟩
    solutions := fun v => hc.solutions_iff h hready hlabel
    fresh := hc.fresh
    rows := hc.rows
    count := hc.count
    constraints := hc.constraints
    edits := hc.edits
    editCount := hc.editCount
    steps := hc.steps
    tracked := hc.tracked }

end Solver

end BoxLayout
