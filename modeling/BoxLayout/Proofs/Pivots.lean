-- SUMMARY: One pivot of a tableau, cell by cell: the rows it leaves, their symbols and their solutions.
import BoxLayout.Proofs.Feasible
import BoxLayout.Proofs.Symbols

/-!
# Pivots

A row is resolved in a tableau if no basic symbol has a cell in it. Where all rows are
resolved, a basic symbol can be exchanged for any symbol that its row has a coefficient of.
The solutions stay, and so does the value of every row on them; resolved rows stay resolved
in the new tableau once the new basic symbol is replaced in them.

Stored zeros are not excluded here. Whether a symbol has a cell and whether it has a
coefficient are two questions, and the answers below keep them apart.
-/

namespace BoxLayout

namespace Row

variable {r q row solved : Row Rat} {s leaving entering : Symbol} {v : Assignment}

theorem mem_keys_of_coefficient_ne (h : r.coefficient s ≠ 0) : s ∈ r.cells.keys := by
  by_contra hnot
  exact h (coefficient_of_not_mem hnot)

/-- No symbol of the row is external. -/
def Restricted (r : Row Rat) : Prop := r.Over fun x => x.isExternal = false

theorem Restricted.internal (h : r.Restricted) : r.Internal := fun s hs =>
  h.coefficient_eq_zero fun hint => by rw [hs] at hint; cases hint

/-! ## Exchanging a symbol in a row -/

/-- `solved` is the row of `leaving`, solved for another symbol. -/
structure Exchanged (leaving entering : Symbol) (row solved : Row Rat) : Prop where
  keys : solved.Over fun x => (x ∈ row.cells.keys ∨ x = leaving) ∧ x ≠ entering
  eval : ∀ v, solved.eval v = v entering - (row.eval v - v leaving) / row.coefficient entering

theorem exists_exchange (he : row.coefficient entering ≠ 0) (hne : entering ≠ leaving) :
    ∃ solved, row.exchange leaving entering = .ok solved ∧
      Exchanged leaving entering row solved := by
  have hself : row.Over fun x => x ∈ row.cells.keys := fun _ hx => hx
  obtain ⟨solved, hok, hover⟩ := hself.exchange (mem_keys_of_coefficient_ne he) hne
  refine ⟨solved, hok, hover, fun v => ?_⟩
  have hcoef := Tableau.coefficient_addSymbol_of_ne row hne (-1)
  rw [eval_solveFor hok (by rwa [hcoef]), hcoef, eval_addSymbol, neg_one_mul, ← sub_eq_add_neg]

namespace Exchanged

theorem value_iff (h : Exchanged leaving entering row solved)
    (he : row.coefficient entering ≠ 0) : v entering = solved.eval v ↔ v leaving = row.eval v := by
  rw [h.eval]
  constructor
  · intro hv
    have hzero : (row.eval v - v leaving) / row.coefficient entering = 0 := by linarith
    exact (sub_eq_zero.1 ((div_eq_zero_iff.1 hzero).resolve_right he)).symm
  · intro hv
    rw [hv, sub_self, zero_div, sub_zero]

theorem constant (h : Exchanged leaving entering row solved) :
    solved.constant = -row.constant / row.coefficient entering := by
  rw [constant_eq_eval, h.eval, ← constant_eq_eval]
  ring

theorem restricted (h : Exchanged leaving entering row solved) (hrow : row.Restricted)
    (hl : leaving.isExternal = false) : solved.Restricted := by
  intro x hx
  obtain ⟨hx | rfl, -⟩ := h.keys x hx
  · exact hrow x hx
  · exact hl

end Exchanged

end Row

namespace Tableau

variable {t : Tableau Rat} {b s x leaving entering : Symbol} {r q row solved : Row Rat}
  {v : Assignment} {P : Symbol → Prop}

/-! ## Resolved rows -/

/-- No basic symbol has a cell in the row. -/
def Resolved (t : Tableau Rat) (r : Row Rat) : Prop := r.Over fun x => x ∉ t.rows.keys

theorem Resolved.coefficient (h : t.Resolved r) : ∀ b ∈ t.rows.keys, r.coefficient b = 0 :=
  fun _ hb => h.coefficient_eq_zero fun hnot => hnot hb

theorem Resolved.eval_completion (h : t.Resolved r) (u : Assignment) :
    r.eval (t.completion u) = r.eval u :=
  Tableau.eval_completion h.coefficient u

/-- No basic symbol has a cell in a row. -/
def ResolvedRows (t : Tableau Rat) : Prop := ∀ b r, t.rows.get? b = some r → t.Resolved r

theorem resolved_congr {u : Tableau Rat} (h : u.rows = t.rows) : u.Resolved = t.Resolved := by
  unfold Resolved
  rw [h]

theorem ResolvedRows.congr {u : Tableau Rat} (h : t.ResolvedRows) (hrows : u.rows = t.rows) :
    u.ResolvedRows := by
  unfold ResolvedRows
  rw [hrows, resolved_congr hrows]
  exact h

theorem ResolvedRows.coefficient (h : t.ResolvedRows) : ∀ b r, t.rows.get? b = some r →
    ∀ x ∈ t.rows.keys, r.coefficient x = 0 :=
  fun b r hb => (h b r hb).coefficient

theorem ResolvedRows.satisfies_completion (h : t.ResolvedRows) (u : Assignment) :
    t.Satisfies (t.completion u) :=
  Tableau.satisfies_completion h.coefficient u

/-- Only the rows of external symbols have external symbols. -/
def RestrictedRows (t : Tableau Rat) : Prop :=
  ∀ b r, t.rows.get? b = some r → b.isExternal = false → r.Restricted

/-- The basic symbols and those of the rows are among these. -/
structure Within (P : Symbol → Prop) (t : Tableau Rat) : Prop where
  keys : ∀ b ∈ t.rows.keys, P b
  rows : ∀ b r, t.rows.get? b = some r → r.Over P

/-! ## The tableau after a pivot -/

/-- The tableau in which `entering` is basic in place of `leaving`. -/
def exchanged (t : Tableau Rat) (leaving entering : Symbol) (solved : Row Rat) : Tableau Rat :=
  (t.dropRow leaving).install entering solved

/-- The row of `leaving` is solved for a symbol that it has a coefficient of. -/
structure Pivots (t : Tableau Rat) (leaving entering : Symbol) (row solved : Row Rat) : Prop where
  resolved : t.ResolvedRows
  basic : t.rows.get? leaving = some row
  coefficient : row.coefficient entering ≠ 0
  solved : row.Exchanged leaving entering solved

theorem mem_keys_exchanged : b ∈ (t.exchanged leaving entering solved).rows.keys
    ↔ b = entering ∨ b ≠ leaving ∧ b ∈ t.rows.keys := by
  unfold exchanged
  rw [mem_keys_install, mem_keys_dropRow]

theorem get?_exchanged_cases (h : (t.exchanged leaving entering solved).rows.get? b = some r) :
    b = entering ∧ r = solved ∨
      b ≠ leaving ∧ ∃ r₀, t.rows.get? b = some r₀ ∧ r = r₀.substitute entering solved := by
  unfold exchanged at h
  rw [get?_install] at h
  split at h
  · next hb => exact Or.inl ⟨hb, (Option.some.inj h).symm⟩
  · obtain ⟨r₀, hr₀, rfl⟩ := Option.map_eq_some_iff.1 h
    obtain ⟨hb, hr₀⟩ := get?_of_dropRow hr₀
    exact Or.inr ⟨hb, r₀, hr₀, rfl⟩

/-- In resolved rows every coefficient can be pivoted on. -/
theorem exists_pivots (hrows : t.ResolvedRows) (hrow : t.rows.get? leaving = some row)
    (he : row.coefficient entering ≠ 0) : ∃ solved,
      row.exchange leaving entering = .ok solved ∧ t.Pivots leaving entering row solved := by
  have hnot := hrows leaving row hrow entering (Row.mem_keys_of_coefficient_ne he)
  have hne : entering ≠ leaving := fun e => hnot (e ▸ mem_keys hrow)
  obtain ⟨solved, hok, hsolved⟩ := Row.exists_exchange he hne
  exact ⟨solved, hok, hrows, hrow, he, hsolved⟩

namespace Pivots

variable (h : t.Pivots leaving entering row solved)

include h

theorem nonbasic : entering ∉ t.rows.keys :=
  h.resolved leaving row h.basic entering (Row.mem_keys_of_coefficient_ne h.coefficient)

theorem resolved_solved : (t.exchanged leaving entering solved).Resolved solved := by
  intro x hx hmem
  obtain ⟨hx, hne⟩ := h.solved.keys x hx
  obtain rfl | ⟨hxl, hmem⟩ := mem_keys_exchanged.1 hmem
  · exact hne rfl
  · exact h.resolved leaving row h.basic x (hx.resolve_right hxl) hmem

/-- Replacing the new basic symbol resolves a row in the new tableau. -/
theorem resolved_substitute (hq : t.Resolved q) :
    (t.exchanged leaving entering solved).Resolved (q.substitute entering solved) := by
  refine Row.Over.substitute hq (fun x hx hne hmem => ?_) h.resolved_solved
  obtain heq | ⟨-, hmem⟩ := mem_keys_exchanged.1 hmem
  · exact hne heq
  · exact hx hmem

theorem resolvedRows : (t.exchanged leaving entering solved).ResolvedRows := by
  intro b r hb
  obtain ⟨-, rfl⟩ | ⟨-, r₀, hr₀, rfl⟩ := get?_exchanged_cases hb
  · exact h.resolved_solved
  · exact h.resolved_substitute (h.resolved b r₀ hr₀)

theorem satisfies_iff : (t.exchanged leaving entering solved).Satisfies v ↔ t.Satisfies v := by
  have hnot : entering ∉ (t.dropRow leaving).rows.keys :=
    fun hmem => h.nonbasic (mem_keys_dropRow.1 hmem).2
  unfold exchanged
  rw [satisfies_install hnot, satisfies_dropRow h.basic, h.solved.value_iff h.coefficient]

/-- On solutions no value changes. -/
theorem eval_substitute (hv : t.Satisfies v) (q : Row Rat) :
    (q.substitute entering solved).eval v = q.eval v := by
  have hvalue := (h.solved.value_iff h.coefficient).2 (hv leaving row h.basic)
  rw [Row.eval_substitute, ← hvalue, sub_self, mul_zero, add_zero]

/-- The constant of a row moves with its coefficient of the new basic symbol. -/
theorem constant_substitute (q : Row Rat) : (q.substitute entering solved).constant
    = q.constant + q.coefficient entering * (-row.constant / row.coefficient entering) := by
  rw [Row.constant_substitute, h.solved.constant]

theorem feasible (hnew : 0 ≤ -row.constant / row.coefficient entering)
    (hold : ∀ b r, t.rows.get? b = some r → b.isExternal = false →
      0 ≤ r.constant - r.coefficient entering * (row.constant / row.coefficient entering)) :
    (t.exchanged leaving entering solved).Feasible := by
  intro b r hb hint
  obtain ⟨-, rfl⟩ | ⟨-, r₀, hr₀, rfl⟩ := get?_exchanged_cases hb
  · rw [h.solved.constant]
    exact hnew
  · rw [h.constant_substitute, neg_div, mul_neg, ← sub_eq_add_neg]
    exact hold b r₀ hr₀ hint

/-- A pivot that keeps the rows feasible puts none of them on the list of infeasible ones. -/
theorem infeasible (hold : ∀ b r, t.rows.get? b = some r → b.isExternal = false →
      0 ≤ r.constant - r.coefficient entering * (row.constant / row.coefficient entering)) :
    (t.exchanged leaving entering solved).infeasible = t.infeasible := by
  refine infeasible_substitute (t := t.dropRow leaving) (feasible_substitute fun b r hb hint => ?_)
  rw [h.solved.constant, neg_div, mul_neg, ← sub_eq_add_neg]
  exact hold b r (get?_of_dropRow hb).2 hint

theorem restricted_substitute (hres : t.RestrictedRows) (hl : leaving.isExternal = false)
    (hq : q.Restricted) : (q.substitute entering solved).Restricted :=
  Row.Over.substitute hq (fun _ hx _ => hx) (h.solved.restricted (hres leaving row h.basic hl) hl)

theorem restrictedRows (hres : t.RestrictedRows) (hl : leaving.isExternal = false) :
    (t.exchanged leaving entering solved).RestrictedRows := by
  intro b r hb hint
  obtain ⟨-, rfl⟩ | ⟨-, r₀, hr₀, rfl⟩ := get?_exchanged_cases hb
  · exact h.solved.restricted (hres leaving row h.basic hl) hl
  · exact h.restricted_substitute hres hl (hres b r₀ hr₀ hint)

/-- A pivot brings in no new symbols. -/
theorem within (hP : t.Within P) : (t.exchanged leaving entering solved).Within P := by
  have hentering : P entering :=
    hP.rows leaving row h.basic entering (Row.mem_keys_of_coefficient_ne h.coefficient)
  have hsolved : solved.Over P := by
    intro x hx
    obtain ⟨hx | rfl, -⟩ := h.solved.keys x hx
    · exact hP.rows leaving row h.basic x hx
    · exact hP.keys x (mem_keys h.basic)
  constructor
  · intro b hb
    obtain rfl | ⟨-, hb⟩ := mem_keys_exchanged.1 hb
    · exact hentering
    · exact hP.keys b hb
  · intro b r hb
    obtain ⟨-, rfl⟩ | ⟨-, r₀, hr₀, rfl⟩ := get?_exchanged_cases hb
    · exact hsolved
    · exact (hP.rows b r₀ hr₀).substitute (fun _ hx _ => hx) hsolved

end Pivots

end Tableau

end BoxLayout
