-- SUMMARY: After every history of a solver, over any arithmetic, its tableau has its shape and no call lapses.
import BoxLayout.Proofs.Ledger
import BoxLayout.Proofs.Shape
import BoxLayout.Scalar.Exact

/-!
# Integrity of the solver

A solver goes on after errors that leave an artificial objective, a constraint taken off
the list but not out of the tableau, or rows that still wait to be mended. What it keeps
in all of them is how its symbols are used: `Tidy` says that the tableau has its shape
over the symbols issued so far, that whatever the solver remembers was issued, and that no
two constraints share a symbol.

Every call keeps this, however it ends. Symbols are issued when a variable is met, with a
constraint, and for a row without a subject, so the set of issued symbols only grows.
-/

namespace BoxLayout

/-! ## The row of a new constraint -/

/-- The marker of a constraint enters its row, and its other symbol does not take it out. -/
theorem Row.marker_mem_addTerms {α : Type} [Scalar α] (hα : Scalar.Discerning α) {row : Row α}
    {tag : Tag} (hmarker : tag.marker ∉ row.cells.keys) (hnodup : tag.symbols.Nodup) (r : Relation) :
    tag.marker ∈ ((tag.terms r).foldl (fun row term => row.addSymbol term.1 term.2) row).cells.keys := by
  obtain ⟨marker, other⟩ := tag
  have hplus := mem_keys_addSymbol_self hmarker hα.one
  have hminus := mem_keys_addSymbol_self hmarker hα.minusOne
  cases other with
  | none =>
    cases r with
    | atMost | equal => exact hplus
    | atLeast => exact hminus
  | some other =>
    have hne : marker ≠ other := (List.pairwise_cons.1 hnodup).1 other (List.mem_singleton_self _)
    cases r with
    | atMost => exact (mem_keys_addSymbol_of_ne hne).2 hplus
    | atLeast | equal => exact (mem_keys_addSymbol_of_ne hne).2 hminus

namespace Solver

open Attempt

variable {α : Type} {s s' : Solver α} {issued issued' : Symbol → Prop} {row : Row α} {tag : Tag}

/-! ## Symbols in use -/

/-- The symbols in use: those of the tableau, of the constraints and edit variables, and of
the known variables. -/
def symbols (s : Solver α) : List Symbol :=
  let rows := s.tableau.rows.values ++ s.tableau.objective :: s.tableau.artificial.toList
  s.tableau.rows.keys ++ rows.flatMap (fun row => row.cells.keys) ++ s.tableau.infeasible
    ++ s.constraints.values.flatMap (fun a => a.tag.symbols)
    ++ s.edits.values.flatMap (fun e => e.tag.symbols)
    ++ s.tracked.values.map fun known => known.symbol

/-- The symbols of a solver are used consistently. -/
structure Intact (s : Solver α) : Prop where
  /-- No basic symbol occurs in a row or in an objective, also not in one left over. -/
  nonbasic : s.tableau.Over fun x => x ∉ s.tableau.rows.keys
  numbered : ∀ x ∈ s.symbols, x.number ≤ s.tableau.symbolCount
  /-- A number belongs to one kind of symbol only. -/
  single : ∀ x ∈ s.symbols, ∀ y ∈ s.symbols, x.number = y.number → x.kind = y.kind
  /-- No two constraints share a symbol. -/
  apart : (s.constraints.values.flatMap fun a => a.tag.symbols).Nodup

/-! ## Tidy solvers -/

/-- The tableau has its shape, what the solver remembers was issued, and constraints share
no symbol. -/
structure Tidy (issued : Symbol → Prop) (s : Solver α) : Prop where
  tableau : s.tableau.Shaped issued
  constraints : ∀ label a, s.constraints.get? label = some a → ∀ x ∈ a.tag.symbols, issued x
  edits : ∀ y e, s.edits.get? y = some e → ∀ x ∈ e.tag.symbols, issued x
  tracked : ∀ y known, s.tracked.get? y = some known → issued known.symbol
  apart : (s.constraints.values.flatMap fun a => a.tag.symbols).Nodup

/-- The solver is tidy over these symbols and perhaps more. -/
def Outgrows (issued : Symbol → Prop) (s : Solver α) : Prop :=
  ∃ issued', (∀ x, issued x → issued' x) ∧ s.Tidy issued'

theorem tidy_empty [Scalar α] (steps : Nat) : (empty steps : Solver α).Tidy fun _ => False where
  tableau := Tableau.shaped_empty
  constraints _ _ h := by cases h
  edits _ _ h := by cases h
  tracked _ _ h := by cases h
  apart := List.nodup_nil

namespace Tidy

theorem outgrows (h : s.Tidy issued') (hmore : ∀ x, issued x → issued' x) : s.Outgrows issued :=
  ⟨issued', hmore, h⟩

theorem issued_of_mem (h : s.Tidy issued) {x : Symbol} (hx : x ∈ s.symbols) : issued x := by
  simp only [symbols, List.mem_append, or_assoc] at hx
  obtain hx | hx | hx | hx | hx | hx := hx
  · exact h.tableau.basic x hx
  · obtain ⟨row, hrow, hx⟩ := List.mem_flatMap.1 hx
    have hcells := h.tableau.cells
    obtain hrow | hrow := List.mem_append.1 hrow
    · obtain ⟨b, hb⟩ := OrderedMap.mem_values_iff.1 hrow
      exact (hcells.rows b row hb x hx).1
    · obtain rfl | hrow := List.mem_cons.1 hrow
      · exact (hcells.objective x hx).1
      · exact (hcells.artificial row (Option.mem_toList.1 hrow) x hx).1
  · exact h.tableau.waiting x hx
  · obtain ⟨a, ha, hx⟩ := List.mem_flatMap.1 hx
    obtain ⟨label, hlabel⟩ := OrderedMap.mem_values_iff.1 ha
    exact h.constraints label a hlabel x hx
  · obtain ⟨e, he, hx⟩ := List.mem_flatMap.1 hx
    obtain ⟨y, hy⟩ := OrderedMap.mem_values_iff.1 he
    exact h.edits y e hy x hx
  · obtain ⟨known, hknown, rfl⟩ := List.mem_map.1 hx
    obtain ⟨y, hy⟩ := OrderedMap.mem_values_iff.1 hknown
    exact h.tracked y known hy

theorem intact (h : s.Tidy issued) : s.Intact where
  nonbasic := h.tableau.cells.mono fun _ hx => hx.2
  numbered x hx := h.tableau.numbered x (h.issued_of_mem hx)
  single x hx y hy heq := by rw [h.tableau.single x y (h.issued_of_mem hx) (h.issued_of_mem hy) heq]
  apart := h.apart

/-- The tableau may change its shape over more symbols. -/
theorem replace (h : s.Tidy issued) {u : Tableau α} (hu : u.Shaped issued')
    (hmore : ∀ x, issued x → issued' x) : ({ s with tableau := u } : Solver α).Tidy issued' where
  tableau := hu
  constraints label a ha x hx := hmore x (h.constraints label a ha x hx)
  edits y e he x hx := hmore x (h.edits y e he x hx)
  tracked y known hy := hmore _ (h.tracked y known hy)
  apart := h.apart

/-- An attempt on the tableau that keeps its shape keeps the solver tidy. -/
theorem onTableau {β : Type} (h : s.Tidy issued) {m : Attempt SolverError (Tableau α) β}
    (hm : m.Upholds (Tableau.Shaped issued) s.tableau) : (onTableau m).Upholds (Tidy issued) s :=
  ensures_onPart (hm.mono fun _ hu => h.replace hu fun _ hx => hx)

/-- An edit variable remembers symbols that were issued. -/
theorem insertEdit (h : s.Tidy issued) (y : Variable) {e : Edit α}
    (he : ∀ x ∈ e.tag.symbols, issued x) :
    ({ s with edits := s.edits.insert y e } : Solver α).Tidy issued := by
  refine { h with edits := fun z f hf => ?_ }
  obtain ⟨-, rfl⟩ | hf := OrderedMap.get?_insert_cases hf
  · exact he
  · exact h.edits z f hf

/-! ## New symbols -/

theorem symbolOf [Scalar α] (h : s.Tidy issued) (y : Variable) : ∃ issued', (∀ x, issued x → issued' x) ∧
    (s.symbolOf y).2.Tidy issued' ∧ issued' (s.symbolOf y).1 ∧
      (s.symbolOf y).2.tableau.rows = s.tableau.rows := by
  unfold Solver.symbolOf
  cases hy : s.tracked.get? y with
  | some known => exact ⟨issued, fun _ hx => hx, h, h.tracked y known hy, rfl⟩
  | none =>
    have hnew := List.mem_singleton_self (s.tableau.fresh .external).1
    have hgrown := h.replace (h.tableau.fresh .external) fun _ hx => Or.inr hx
    refine ⟨_, fun _ hx => Or.inr hx, { hgrown with tracked := ?_ }, Or.inl hnew, rfl⟩
    intro z known hz
    obtain ⟨-, rfl⟩ | hz := OrderedMap.get?_insert_cases hz
    · exact Or.inl hnew
    · exact Or.inr (h.tracked z known hz)

end Tidy

/-- The solver is tidy and the row is over its non-basic symbols. -/
structure Drafts (issued : Symbol → Prop) (s : Solver α) (row : Row α) : Prop where
  solver : s.Tidy issued
  cells : row.Over (s.tableau.Nonbasic issued)

/-- A row for a constraint with new symbols, of which its marker occurs in it. -/
structure Drawn (issued issued' : Symbol → Prop) (s : Solver α) (row : Row α) (tag : Tag) : Prop
    extends Drafts issued' s row where
  more : ∀ x, issued x → issued' x
  marker : tag.marker ∈ row.cells.keys
  nodup : tag.symbols.Nodup
  fresh : ∀ x ∈ tag.symbols, issued' x ∧ ¬issued x

/-- A constraint goes on the list under its symbols, which no other constraint has. -/
theorem Drawn.enlist (h : s'.Drawn issued issued' row tag) (hs : s.Tidy issued)
    (hsame : SameLists s s') {u : Tableau α} (hu : u.Outgrows issued') {c : Constraint α}
    (hvacant : s.constraints.get? c.label = none) :
    ({ s' with tableau := u, constraints := s'.constraints.insert c.label ⟨c, tag⟩ } : Solver α).Outgrows
      issued := by
  obtain ⟨issued₂, hmore₂, hshape⟩ := hu
  have hgrown := h.solver.replace hshape hmore₂
  refine ⟨issued₂, fun x hx => hmore₂ x (h.more x hx), { hgrown with constraints := ?_, apart := ?_ }⟩
  · intro label a ha x hx
    obtain ⟨-, rfl⟩ | ha := OrderedMap.get?_insert_cases ha
    · exact hmore₂ x (h.fresh x hx).1
    · exact hgrown.constraints label a ha x hx
  · rw [hsame.constraints]
    have hperm := (OrderedMap.values_insert_perm ⟨c, tag⟩ hvacant).flatMap_right fun a => a.tag.symbols
    refine hperm.nodup_iff.2 (List.nodup_append.2 ⟨h.nodup, hs.apart, ?_⟩)
    rintro x hx _ hold rfl
    obtain ⟨a, ha, hxa⟩ := List.mem_flatMap.1 hold
    obtain ⟨label, hlabel⟩ := OrderedMap.mem_values_iff.1 ha
    exact (h.fresh x hx).2 (hs.constraints label a hlabel x hxa)

variable [Scalar α]

theorem Drafts.addTerm (h : s.Drafts issued row) (term : Term Variable α) :
    ∃ issued', (∀ x, issued x → issued' x) ∧
      (s.addTerm row term).2.Drafts issued' (s.addTerm row term).1 := by
  unfold Solver.addTerm
  split
  · exact ⟨issued, fun _ hx => hx, h⟩
  · obtain ⟨issued', hmore, htidy, hsymbol, hrows⟩ := h.solver.symbolOf term.unknown
    refine ⟨issued', hmore, htidy, htidy.tableau.addTo (h.cells.mono fun x hx => ?_) hsymbol _⟩
    exact ⟨hmore x hx.1, by rw [hrows]; exact hx.2⟩

theorem Tidy.expand (h : s.Tidy issued) (e : Linear Variable α) :
    ∃ issued', (∀ x, issued x → issued' x) ∧ (s.expand e).2.Drafts issued' (s.expand e).1 := by
  unfold Solver.expand
  have hstart : s.Drafts issued (.ofConstant e.constant) := ⟨h, Row.over_ofConstant _⟩
  generalize Row.ofConstant e.constant = row at hstart
  clear h
  induction e.terms generalizing row s issued with
  | nil => exact ⟨issued, fun _ hx => hx, hstart⟩
  | cons term terms ih =>
    obtain ⟨issued₁, hmore₁, hfirst⟩ := hstart.addTerm term
    obtain ⟨issued₂, hmore₂, hrest⟩ := ih _ hfirst
    exact ⟨issued₂, fun x hx => hmore₂ x (hmore₁ x hx), hrest⟩

theorem Tidy.createRow (h : s.Tidy issued) (hα : Scalar.Discerning α) (c : Constraint α) :
    ∃ issued', (Solver.createRow c s).2.Drawn issued issued' (Solver.createRow c s).1.1
      (Solver.createRow c s).1.2 := by
  obtain ⟨issued₁, hmore, hdraft⟩ := h.expand c.expression
  unfold Solver.createRow
  generalize s.expand c.expression = expanded at hdraft ⊢
  obtain ⟨row, s₁⟩ := expanded
  obtain ⟨ht, hlate, hnodup, hrows⟩ := hdraft.solver.tableau.freshTag c.relation c.isRequired
  dsimp only at hdraft ht hlate hnodup hrows ⊢
  generalize s₁.tableau.freshTag c.relation c.isRequired = made at ht hlate hnodup hrows ⊢
  obtain ⟨tag, t⟩ := made
  dsimp only at ht hlate hnodup hrows ⊢
  have hnonbasic {x : Symbol} (hx : x ∈ tag.symbols) :
      t.Nonbasic (fun x => x ∈ tag.symbols ∨ issued₁ x) x :=
    ⟨Or.inl hx, fun hmem => hlate x hx (hdraft.solver.tableau.basic x (by rwa [← hrows]))⟩
  have hrow : row.Over (t.Nonbasic fun x => x ∈ tag.symbols ∨ issued₁ x) :=
    hdraft.cells.mono fun x hx => ⟨Or.inr hx.1, by rw [hrows]; exact hx.2⟩
  have hmarker : tag.marker ∉ row.cells.keys := fun hmem =>
    hlate _ tag.marker_mem (hdraft.cells _ hmem).1
  -- turning the row keeps its symbols
  let entered := (tag.terms c.relation).foldl (fun row term => row.addSymbol term.1 term.2) row
  have hterms : entered.Over (t.Nonbasic fun x => x ∈ tag.symbols ∨ issued₁ x) :=
    hrow.addSymbols (fun _ hc => hnonbasic (Tag.mem_symbols_of_mem_terms hc)) Prod.snd
  have hkeys : (if entered.constant < 0 then entered.negate else entered).cells.keys
      = entered.cells.keys := by
    split
    · exact Row.keys_negate
    · rfl
  have hobjective : (tag.errors.foldl (fun o e => o.addSymbol e c.strength.weight) t.objective).Over
      (t.Nonbasic fun x => x ∈ tag.symbols ∨ issued₁ x) :=
    ht.cells.objective.addSymbols (fun _ hx => hnonbasic (Tag.mem_symbols_of_mem_errors hx))
      fun _ => c.strength.weight
  exact ⟨fun x => x ∈ tag.symbols ∨ issued₁ x, {
    solver := hdraft.solver.replace (ht.withObjective hobjective) fun _ hx => Or.inr hx
    cells := fun x hx => hterms x (by rwa [← hkeys])
    more := fun x hx => Or.inr (hmore x hx)
    marker := by
      rw [hkeys]
      exact Row.marker_mem_addTerms hα hmarker hnodup c.relation
    nodup := hnodup
    fresh := fun x hx => ⟨Or.inl hx, fun hold => hlate x hx (hmore x hold)⟩ }⟩

/-! ## The calls -/

theorem Tidy.addConstraint (h : s.Tidy issued) (hα : Scalar.Discerning α) (c : Constraint α) :
    (Solver.addConstraint c).Upholds (Outgrows issued) s := by
  have hsame : s.Outgrows issued := h.outgrows fun _ hx => hx
  refine ensures_get_bind ?_
  by_cases hdup : s.hasConstraint c.label = true
  · rw [if_pos hdup]
    exact ⟨hsame, rfl⟩
  rw [if_neg hdup]
  have hvacant : s.constraints.get? c.label = none := by
    simpa [hasConstraint, OrderedMap.contains] using hdup
  by_cases hfinite : c.expression.isFinite = true
  · rw [if_pos hfinite]
    obtain ⟨issued', hdrawn⟩ := h.createRow hα c
    have hlists := createRow_sameLists c s
    refine ensures_modifyGet_bind ?_
    generalize Solver.createRow c s = created at hdrawn hlists ⊢
    obtain ⟨⟨row, tag⟩, s'⟩ := created
    refine ensures_get_bind (ensures_bind (ensures_onPart ?_))
    refine Ensures.mono
      (hdrawn.solver.tableau.enterRow hα.lt_irrefl hdrawn.cells hdrawn.marker _) ?_ ?_
    · intro _ u hu
      obtain ⟨issued₂, hmore₂, htidy⟩ := hdrawn.enlist h hlists hu hvacant
      refine ensures_modify_bind ?_
      exact (htidy.onTableau (htidy.tableau.optimize hα.lt_irrefl .primary _)).mono
        fun _ hs' => hs'.outgrows hmore₂
    · rintro e u ⟨⟨issued₂, hmore₂, hu⟩, he⟩
      exact ⟨(hdrawn.solver.replace hu hmore₂).outgrows fun x hx => hmore₂ x (hdrawn.more x hx), he⟩
  · rw [if_neg hfinite]
    exact ⟨hsame, rfl⟩

theorem Tidy.withdrawErrors (h : s.Tidy issued) {a : Active α} (ha : ∀ x ∈ a.tag.symbols, issued x) :
    (Solver.withdrawErrors a s.tableau).Shaped issued := by
  have hfold (es : List Symbol) (t : Tableau α) (ht : t.Shaped issued) (hes : ∀ x ∈ es, issued x) :
      (es.foldl (fun t e => t.addToObjective e (-a.constraint.strength.weight)) t).Shaped issued := by
    induction es generalizing t with
    | nil => exact ht
    | cons x es ih =>
      refine ih _ (ht.addToObjective (hes x List.mem_cons_self) _) fun y hy => ?_
      exact hes y (List.mem_cons_of_mem _ hy)
  exact hfold _ _ h.tableau fun x hx => ha x (Tag.mem_symbols_of_mem_errors hx)

theorem Tidy.removeConstraint (h : s.Tidy issued) (hα : Scalar.Discerning α) (label : Label) :
    (Solver.removeConstraint label).Upholds (Tidy issued) s := by
  refine ensures_get_bind ?_
  split
  · exact ⟨h, rfl⟩
  next a ha =>
  have hstart : ({ s with
      constraints := s.constraints.swapErase label
      tableau := Solver.withdrawErrors a s.tableau } : Solver α).Tidy issued := by
    refine { h with
      tableau := h.withdrawErrors (h.constraints label a ha), constraints := ?_, apart := ?_ }
    · intro label' a' ha'
      exact h.constraints label' a' (OrderedMap.get?_of_swapErase ha').2
    · have hperm := (OrderedMap.values_perm_swapErase ha).flatMap_right fun a => a.tag.symbols
      exact (List.nodup_append.1 (hperm.nodup_iff.1 h.apart)).2.1
  refine ensures_modify_bind (ensures_bind ?_)
  refine Ensures.mono (hstart.onTableau (hstart.tableau.removeMarker hα.zero_beq _)) ?_
    fun _ _ he => he
  intro _ s' hs'
  exact ensures_get_bind (hs'.onTableau (hs'.tableau.optimize hα.lt_irrefl .primary _))

/-- The constraint of a new edit variable is on the list once it has been added. -/
theorem Tidy.addEditVariable (h : s.Tidy issued) (hα : Scalar.Discerning α) (y : Variable)
    (strength : Strength α) :
    (Solver.addEditVariable y strength).Upholds (Outgrows issued) s := by
  have hsame : s.Outgrows issued := h.outgrows fun _ hx => hx
  refine ensures_get_bind ?_
  split
  · exact ⟨hsame, rfl⟩
  · dsimp only
    split
    · exact ⟨hsame, rfl⟩
    · refine ensures_modifyGet_bind (ensures_bind ?_)
      have hissued : (issueEdit y strength.clip s).2.Tidy issued := { h with }
      generalize issueEdit y strength.clip s = made at hissued ⊢
      obtain ⟨c, s₁⟩ := made
      refine (Ensures.and (hissued.addConstraint hα c) (addConstraint_lists c s₁)).mono ?_
        fun _ _ he => he.1
      rintro - s₂ ⟨⟨issued₂, hmore₂, htidy⟩, -, ⟨tag, hlist⟩, -⟩
      have hget : s₂.constraints.get? c.label = some ⟨c, tag⟩ := by
        rw [hlist, OrderedMap.get?_insert, if_pos rfl]
      refine ensures_get_bind ?_
      rw [hget]
      exact (htidy.insertEdit y (htidy.constraints _ _ hget)).outgrows hmore₂

theorem Tidy.removeEditVariable (h : s.Tidy issued) (hα : Scalar.Discerning α) (y : Variable) :
    (Solver.removeEditVariable y).Upholds (Tidy issued) s := by
  refine ensures_get_bind ?_
  split
  · exact ⟨h, rfl⟩
  · refine ensures_bind (Ensures.mono (h.removeConstraint hα _) ?_ fun _ _ he => he)
    intro _ s' hs'
    exact { hs' with edits := fun z f hf => hs'.edits z f (OrderedMap.get?_of_swapErase hf).2 }

theorem Tidy.suggestValue (h : s.Tidy issued) (y : Variable) (value : α) :
    (Solver.suggestValue y value).Upholds (Tidy issued) s := by
  unfold Solver.suggestValue
  split
  · refine ensures_get_bind ?_
    split
    · exact ⟨h, rfl⟩
    · next edit hedit =>
      have hmoved := (h.insertEdit y (e := { edit with target := value }) (h.edits y edit hedit)).replace
        (h.tableau.shiftEdit edit.tag (value - edit.target)) fun _ hx => hx
      exact ensures_modify_bind (ensures_get_bind (hmoved.onTableau (hmoved.tableau.restore _)))
  · exact ⟨h, rfl⟩

theorem Tidy.updateVariables (h : s.Tidy issued) : s.updateVariables.Tidy issued := by
  refine { h with tracked := fun y known hy => ?_ }
  rw [Solver.updateVariables, OrderedMap.get?_mapValues] at hy
  obtain ⟨known₀, hold, rfl⟩ := Option.map_eq_some_iff.1 hy
  exact h.tracked y known₀ hold

/-! ## Histories -/

namespace Tidy

theorem run (h : s.Tidy issued) (hα : Scalar.Discerning α) (c : Command α) :
    c.run.Upholds (Outgrows issued) s := by
  have hsame (s' : Solver α) (hs' : s'.Tidy issued) : s'.Outgrows issued := hs'.outgrows fun _ hx => hx
  cases c with
  | addConstraint c => exact h.addConstraint hα c
  | removeConstraint label => exact (h.removeConstraint hα label).mono hsame
  | addEditVariable y strength => exact h.addEditVariable hα y strength
  | removeEditVariable y => exact (h.removeEditVariable hα y).mono hsame
  | suggestValue y value => exact (h.suggestValue y value).mono hsame
  | updateVariables => exact hsame _ h.updateVariables

theorem perform (h : s.Tidy issued) (hα : Scalar.Discerning α) (c : Command α) :
    (c.perform s).2.Outgrows issued ∧ ∀ e, (c.perform s).1 = .error e → e.isLapse = false := by
  have hrun := h.run hα c
  unfold Upholds at hrun
  unfold Command.perform
  cases hm : c.run s with
  | ok b s' => exact ⟨hrun.of_ok hm, fun _ he => by cases he⟩
  | error e s' =>
    have hfailed := hrun.of_error hm
    refine ⟨hfailed.1, fun e' he => ?_⟩
    obtain rfl := Except.error.inj he
    exact hfailed.2

/-- A call may fail, and the next one starts from what it left. -/
theorem after (h : s.Tidy issued) (hα : Scalar.Discerning α) (history : List (Command α)) :
    (s.after history).Outgrows issued := by
  induction history generalizing s issued with
  | nil => exact h.outgrows fun _ hx => hx
  | cons c history ih =>
    obtain ⟨issued₁, hmore₁, hs₁⟩ := (h.perform hα c).1
    obtain ⟨issued₂, hmore₂, hs₂⟩ := ih hs₁
    exact ⟨issued₂, fun x hx => hmore₂ x (hmore₁ x hx), hs₂⟩

end Tidy

/-- After every history of a new solver, with calls that failed in any way in it, symbols
are used consistently, and the next call finds the pivot that it has chosen and the edit
constraint that it has added. -/
theorem history_keeps_shape (hα : Scalar.Discerning α) (steps : Nat) (history : List (Command α)) :
    ((empty steps).after history).Intact ∧
      ∀ c : Command α, (c.perform ((empty steps).after history)).1 ≠ .error (.internal .pivotMissing) ∧
        (c.perform ((empty steps).after history)).1 ≠ .error (.internal .editMissing) := by
  obtain ⟨issued, -, h⟩ := (tidy_empty steps : (empty steps : Solver α).Tidy _).after hα history
  refine ⟨h.intact, fun c => ?_⟩
  have hlapse := (h.perform hα c).2
  exact ⟨fun he => absurd (hlapse _ he) (by decide), fun he => absurd (hlapse _ he) (by decide)⟩

/-- Two upper bounds on a variable, the second of which runs out of steps while its
artificial row is in the tableau, the end of the first one, and a lower bound. -/
def cutShort : List (Command Rat) :=
  [.addConstraint (.compare (.caller 0) (.ofUnknown ⟨0⟩) .atMost (.ofConstant 10) .p0),
    .addConstraint (.compare (.caller 1) (.ofUnknown ⟨0⟩) .atMost (.ofConstant 5) .p0),
    .removeConstraint (.caller 0),
    .addConstraint (.compare (.caller 2) (.ofUnknown ⟨0⟩) .atLeast (.ofConstant 3) .p0)]

theorem history_keeps_shape_cutShort :
    let s := (empty 1 : Solver Rat).after cutShort
    Scalar.Discerning Rat ∧ s.tableau.artificial.isSome = true ∧ s.constraints.size = 1 ∧
      s.tableau.rows.size = 2 ∧ s.Intact ∧
      ∀ c : Command Rat, (c.perform s).1 ≠ .error (.internal .pivotMissing) ∧
        (c.perform s).1 ≠ .error (.internal .editMissing) := by
  have hα : Scalar.Discerning Rat := ⟨by decide +kernel, by decide +kernel, by decide, by decide⟩
  exact ⟨hα, by decide +kernel, by decide +kernel, by decide +kernel,
    history_keeps_shape hα 1 cutShort⟩

end Solver

end BoxLayout
