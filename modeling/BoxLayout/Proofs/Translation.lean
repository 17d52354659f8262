-- SUMMARY: From a written constraint to its row nothing changes meaning.
import BoxLayout.Proofs.Creation
import BoxLayout.Proofs.Expressions
import BoxLayout.Proofs.Integrity
import BoxLayout.Proofs.Pivots

/-!
# From a written constraint to its row

A constraint is written over handles. The engine resolves the handles and states the
difference of the two sides to the solver, which turns it into a row over non-basic symbols
and adds the symbols of the constraint. Each layer keeps the value: what is written
(`Written`), the expression over handles, the one over variables and, up to a turned sign, the
row.

No invariant of the solver is used for the value of the row. That no basic symbol has a cell
in it needs that none has a cell in the rows before, and that new symbols are new; both hold
after every history of a solver (`resolvedRows_after`).
-/

namespace BoxLayout

open Attempt

/-- Exact numbers tell apart what the solver has to tell apart. -/
theorem Scalar.discerning_rat : Scalar.Discerning Rat :=
  ⟨by decide +kernel, by decide +kernel, by decide, by decide⟩

/-! ## Resolving handles -/

namespace Engine

variable {e : Engine Rat}

theorem resolve_backing {l : Linear VariableId Rat}
    (h : ∀ x ∈ l.unknowns, ∃ entry, e.vars.lookup x = .ok entry) :
    l.resolve e.backingOf = .ok (l.rename Handle.backing) := by
  refine Linear.resolve_ok fun x hx => ?_
  obtain ⟨entry, hentry⟩ := h x hx
  rw [backingOf, hentry]
  rfl

/-- A definition about known variables is stated to the solver under a new label. -/
theorem build_ok {d : Definition Rat}
    (h : ∀ x ∈ d.lhs.unknowns ++ d.rhs.unknowns, ∃ entry, e.vars.lookup x = .ok entry) :
    build d e = .ok (d.backing (.caller e.labels)) { e with labels := e.labels + 1 } := by
  unfold build
  rw [get_bind_run, resolve_backing fun x hx => h x (List.mem_append_left _ hx),
    resolve_backing fun x hx => h x (List.mem_append_right _ hx)]
  rfl

end Engine

/-! ## Rows over non-basic symbols -/

namespace Solver

open Tableau

variable {s : Solver Rat} {row : Row Rat}

/-- A basic variable enters a row as its own row, so that no basic symbol does. -/
theorem addTerm_resolved (h : s.tableau.ResolvedRows) (hrow : s.tableau.Resolved row)
    (term : Term Variable Rat) : s.tableau.Resolved (s.addTerm row term).1 := by
  unfold addTerm
  split
  · exact hrow
  · have hrows := (symbolOf_grown s term.unknown).1.rows
    dsimp only
    unfold Tableau.addTo
    rw [hrows]
    cases hbasic : s.tableau.rows.get? (s.symbolOf term.unknown).1 with
    | some basic => exact Row.Over.addRow hrow (h _ basic hbasic) _
    | none => exact Row.Over.addSymbol hrow (OrderedMap.get?_eq_none_iff.1 hbasic) _

theorem expand_resolved (h : s.tableau.ResolvedRows) (e : Linear Variable Rat) :
    s.tableau.Resolved (s.expand e).1 := by
  have hstart : s.tableau.Resolved (.ofConstant e.constant) := Row.over_ofConstant _
  unfold expand
  generalize Row.ofConstant e.constant = row at hstart
  induction e.terms generalizing row s with
  | nil => exact hstart
  | cons term terms ih =>
    -- the variables that get known on the way do not change the rows
    have hrows := (addTerm_summed s row term).grown.rows
    have hrest := ih (h.congr hrows) _ (resolved_congr hrows ▸ addTerm_resolved h hstart term)
    rwa [resolved_congr hrows] at hrest

theorem createRow_resolved (c : Constraint Rat) (h : s.tableau.ResolvedRows)
    (hissued : ∀ b ∈ s.tableau.rows.keys, b.number ≤ s.tableau.symbolCount) :
    s.tableau.Resolved (createRow c s).1.1 := by
  obtain ⟨-, hfresh, -⟩ := createRow_tag c s
  have hraw : s.tableau.Resolved (unturned c s) := by
    refine (expand_resolved h c.expression).addSymbols (fun t ht hmem => ?_) Prod.snd
    exact absurd (hissued _ hmem) (not_le.2 (hfresh _ (Tag.mem_symbols_of_mem_terms ht)))
  obtain ⟨-, hrow⟩ | ⟨-, hrow⟩ := createRow_cases c s
  · rw [hrow]
    exact hraw
  · rw [hrow]
    unfold Resolved Row.Over
    rw [Row.keys_negate]
    exact hraw

/-- After every history, whatever failed in it, no basic symbol has a cell in a row, and the
numbers of the basic symbols have been given out. -/
theorem resolvedRows_after (steps : Nat) (history : List (Command Rat)) :
    ((empty steps).after history).tableau.ResolvedRows ∧
      ∀ b ∈ ((empty steps).after history).tableau.rows.keys,
        b.number ≤ ((empty steps).after history).tableau.symbolCount := by
  obtain ⟨issued, -, h⟩ := (tidy_empty steps).after Scalar.discerning_rat history
  refine ⟨fun b r hb => (h.tableau.cells.rows b r hb).mono fun _ hx => hx.2, fun b hb => ?_⟩
  exact h.tableau.numbered b (h.tableau.basic b hb)

end Solver

/-! ## The whole way -/

/-- An expression has the value that is written. The constraint that the engine states about
two expressions with known variables has the value of their difference. The row that the solver
makes of a constraint has, up to its sign, the value of the expression together with what the
symbols of the constraint allow for, wherever the rows before hold; its constant is not
negative; and if no basic symbol had a cell in a row before, none has one in the new row. After
every history of a solver none had. -/
theorem row_means_written :
    (∀ (ν : Type) (e : Written ν) (y : ν → Rat), e.build.eval y = e.value y) ∧
    (∀ (e : Engine Rat) (lhs rhs : Written VariableId) (r : Relation) (p : Priority),
      (∀ x ∈ lhs.build.unknowns ++ rhs.build.unknowns, ∃ entry, e.vars.lookup x = .ok entry) →
      ∃ c e', Engine.build ⟨lhs.build, r, rhs.build, p⟩ e = .ok c e' ∧ c.relation = r ∧
        ∀ y : Variable → Rat, c.expression.eval y
          = lhs.value (fun x => y x.backing) - rhs.value fun x => y x.backing) ∧
    (∀ (s s' : Solver Rat) (c : Constraint Rat) (row : Row Rat) (tag : Tag),
      Solver.createRow c s = ((row, tag), s') →
      0 ≤ row.constant ∧ tag.Fits c.relation c.isRequired ∧
      (∃ k : Rat, (k = 1 ∨ k = -1) ∧ ∀ v, s.tableau.Satisfies v → row.eval v
        = k * (c.expression.eval (s'.lift v) + tag.allowance c.relation c.isRequired v)) ∧
      (s.tableau.ResolvedRows →
        (∀ b ∈ s.tableau.rows.keys, b.number ≤ s.tableau.symbolCount) →
        s'.tableau.rows = s.tableau.rows ∧ s.tableau.Resolved row)) ∧
    ∀ (steps : Nat) (history : List (Solver.Command Rat)),
      ((Solver.empty steps).after history).tableau.ResolvedRows ∧
        ∀ b ∈ ((Solver.empty steps).after history).tableau.rows.keys,
          b.number ≤ ((Solver.empty steps).after history).tableau.symbolCount := by
  refine ⟨fun ν e y => e.eval_build y, fun e lhs rhs r p hknown => ?_,
    fun s s' c row tag hmade => ?_, Solver.resolvedRows_after⟩
  · refine ⟨_, _, Engine.build_ok hknown, rfl, fun y => ?_⟩
    rw [Definition.eval_backing, Written.eval_build, Written.eval_build]
  · have hnonneg := Solver.createRow_nonneg c s
    obtain ⟨hfits, -⟩ := Solver.createRow_tag c s
    obtain ⟨k, hk, heval⟩ := Solver.createRow_eval c s
    have hresolved := Solver.createRow_resolved c (s := s)
    have htableau := Solver.createRow_tableau c s
    rw [hmade] at hnonneg hfits heval hresolved htableau
    refine ⟨hnonneg, hfits, ⟨k, hk, fun v hv => ?_⟩, fun h hissued => ⟨?_, hresolved h hissued⟩⟩
    · rw [← hfits.side_eq]
      exact heval v hv
    · rw [htableau]

/-- An engine with one variable. -/
def lonely : Engine Rat := ((Engine.create ⟨0⟩ .default).createVariable 5 .p2).2

/-- Twice what a variable is above three, and the variable itself. -/
theorem row_means_written_doubled :
    let x : VariableId := ⟨⟨0⟩, 0⟩
    let lhs : Written VariableId := .mul (.subNumber (.unknown x) 3) 2
    let rhs : Written VariableId := .unknown x
    ∃ c e', Engine.build ⟨lhs.build, .atMost, rhs.build, .p0⟩ lonely = .ok c e' ∧
      c.relation = .atMost ∧
      ∀ y : Variable → Rat, c.expression.eval y = (y x.backing - 3) * 2 - y x.backing := by
  intro x lhs rhs
  have hknown : ∃ entry, lonely.vars.lookup x = .ok entry := by
    have hok : (lonely.vars.lookup x).isOk = true := by decide +kernel
    cases hlookup : lonely.vars.lookup x with
    | ok entry => exact ⟨entry, rfl⟩
    | error err =>
      rw [hlookup] at hok
      cases hok
  refine row_means_written.2.1 lonely lhs rhs .atMost .p0 fun z hz => ?_
  have hz : z = x := (by decide : ∀ z ∈ lhs.build.unknowns ++ rhs.build.unknowns, z = x) z hz
  rw [hz]
  exact hknown

end BoxLayout
