-- SUMMARY: Feasible tableaux, and the conditions under which substitution and pivots keep them feasible.
import BoxLayout.Proofs.Meaning
import BoxLayout.Proofs.Search

/-!
# Feasible tableaux

Slack, error and dummy symbols stand for numbers from zero up. Their rows mention no
external symbol (`Split`), so the rows of external symbols can be read off last, and
their constants are not negative (`Feasible`), so that setting all other symbols to
zero is a solution with the right signs.

Between two calls of the solver no row waits to be made feasible: `Ready`.
-/

namespace BoxLayout

theorem Symbol.ne_of_test {p : Symbol → Bool} {x s : Symbol} (hx : p x = true) (hs : p s = false) :
    x ≠ s := by
  rintro rfl
  rw [hx] at hs
  cases hs

/-- The row mentions no external symbol. -/
def Row.Internal (r : Row Rat) : Prop := ∀ s, s.isExternal = true → r.coefficient s = 0

theorem Row.Internal.substitute {r row : Row Rat} {s : Symbol} (h : r.Internal)
    (hrow : s.isExternal = false → row.Internal) : (r.substitute s row).Internal := by
  intro x hx
  rw [coefficient_substitute, h x hx]
  cases hs : s.isExternal with
  | true => rw [h s hs, zero_mul, add_zero]
  | false =>
    rw [hrow hs x hx, if_neg (Symbol.ne_of_test hx hs)]
    ring

theorem Row.Internal.of_solves {q solved : Row Rat} {s : Symbol} (h : q.Internal)
    (hsolve : solved.Solves q s) (hs : s.isExternal = false) : solved.Internal := by
  intro x hx
  rw [hsolve.coefficient, if_neg (Symbol.ne_of_test hx hs), h x hx]
  ring

theorem Row.Internal.addSymbol {r : Row Rat} {s : Symbol} (h : r.Internal)
    (hs : s.isExternal = false) (k : Rat) : (r.addSymbol s k).Internal := by
  intro x hx
  rw [coefficient_addSymbol, if_neg (Symbol.ne_of_test hx hs), h x hx, add_zero]

namespace Tableau

variable {t : Tableau Rat} {μ ν : Meaning} {s b m leaving entering : Symbol}
  {r row q solved : Row Rat}

/-- External symbols occur only in the rows of external symbols. -/
structure Split (t : Tableau Rat) : Prop where
  rows : ∀ b row, t.rows.get? b = some row → b.isExternal = false → row.Internal
  objective : t.objective.Internal
  artificial : ∀ r, t.artificial = some r → r.Internal

/-- Symbols that stand for numbers from zero up have rows with such constants. -/
def Feasible (t : Tableau Rat) : Prop :=
  ∀ b row, t.rows.get? b = some row → b.isExternal = false → 0 ≤ row.constant

/-- The tableau stands for `μ` and nothing is left to mend. -/
structure Ready (t : Tableau Rat) (μ : Meaning) : Prop extends t.Means μ where
  split : t.Split
  feasible : t.Feasible
  calm : t.infeasible = []

/-- Between calls, meanings are compared on their solutions. -/
theorem Ready.congr (h : t.Ready ν) (hν : ν.artificial = none) (hμ : μ.artificial = none)
    (hcount : ν.symbolCount = μ.symbolCount) (hsol : ∀ v, ν.solutions v ↔ μ.solutions v)
    (hobj : ∀ v, μ.solutions v → ν.objective v = μ.objective v) : t.Ready μ := by
  refine ⟨h.toMeans.congr hcount hsol ⟨0, fun v hv => ?_⟩ ?_, h.split, h.feasible, h.calm⟩
  · rw [hobj v hv, add_zero]
  · rw [h.artificial_eq_none hν, hμ]
    exact .none

/-! ## Dropping a row -/

theorem Split.dropRow (h : t.Split) (m : Symbol) : (t.dropRow m).Split where
  rows b row hb := h.rows b row (get?_of_dropRow hb).2
  objective := h.objective
  artificial := h.artificial

theorem Feasible.dropRow (h : t.Feasible) (m : Symbol) : (t.dropRow m).Feasible :=
  fun b row hb => h b row (get?_of_dropRow hb).2

/-! ## Substitution -/

theorem Split.substitute (h : t.Split) (hrow : s.isExternal = false → row.Internal) :
    (t.substitute s row).Split := by
  refine ⟨?_, h.objective.substitute hrow, ?_⟩
  · intro b r hb hint
    obtain ⟨r₀, hr₀, rfl⟩ := get?_substitute_eq_some hb
    exact (h.rows b r₀ hr₀ hint).substitute hrow
  · intro r hr
    obtain ⟨r₀, hr₀, rfl⟩ := Option.map_eq_some_iff.1 hr
    exact (h.artificial r₀ hr₀).substitute hrow

theorem feasible_substitute (h : ∀ b r, t.rows.get? b = some r → b.isExternal = false →
    0 ≤ r.constant + r.coefficient s * row.constant) : (t.substitute s row).Feasible := by
  intro b r hb hint
  obtain ⟨r₀, hr₀, rfl⟩ := get?_substitute_eq_some hb
  rw [Row.constant_substitute]
  exact h b r₀ hr₀ hint

/-- Substitution puts every negative row on the list of infeasible ones. -/
theorem mem_infeasible_substitute (hb : (t.substitute s row).rows.get? b = some r)
    (hint : b.isExternal = false) (hneg : r.constant < 0) :
    b ∈ (t.substitute s row).infeasible := by
  refine List.mem_append_left _ (List.mem_reverse.2 (List.mem_map.2 ⟨(b, r), ?_, rfl⟩))
  refine List.mem_filter.2 ⟨mem_entries hb, ?_⟩
  simp [isNegative, hint, hneg]

theorem isExternal_of_infeasible (hb : b ∈ (t.substitute s row).infeasible) :
    b.isExternal = false ∨ b ∈ t.infeasible := by
  obtain hb | hb := List.mem_append.1 hb
  · obtain ⟨e, he, rfl⟩ := List.mem_map.1 (List.mem_reverse.1 hb)
    have hneg := (List.mem_filter.1 he).2
    simp only [isNegative, Bool.and_eq_true, Bool.not_eq_true'] at hneg
    exact Or.inl hneg.1
  · exact Or.inr hb

theorem infeasible_substitute (h : (t.substitute s row).Feasible) :
    (t.substitute s row).infeasible = t.infeasible := by
  have hnil : ((t.substitute s row).rows.entries.filter isNegative) = [] := by
    rw [List.filter_eq_nil_iff]
    intro e he hneg
    simp only [isNegative, Bool.and_eq_true, Bool.not_eq_true', decide_eq_true_eq] at hneg
    have hpos := h e.1 e.2 (get?_of_mem he) hneg.1
    linarith [hneg.2]
  change (((t.substitute s row).rows.entries.filter isNegative).map Prod.fst).reverse ++ _ = _
  rw [hnil]
  rfl

/-! ## Installing a solved equation -/

theorem Split.install (h : t.Split) (hsolve : solved.Solves q s)
    (hq : s.isExternal = false → q.Internal) : (t.install s solved).Split := by
  have hsolved (hs : s.isExternal = false) : solved.Internal := (hq hs).of_solves hsolve hs
  have hsub := h.substitute hsolved
  refine ⟨?_, hsub.objective, hsub.artificial⟩
  intro b r hb hint
  rw [get?_install] at hb
  split at hb
  · next hbs =>
    obtain rfl := Option.some.inj hb
    exact hsolved (hbs ▸ hint)
  · rw [← get?_substitute] at hb
    exact hsub.rows b r hb hint

/-- Entering a solved equation keeps a tableau ready if the new row and the changed ones
are feasible. For an external symbol they are, because no restricted row mentions it. -/
theorem Ready.install (h : t.Ready μ) (hq : ∀ b ∈ t.rows.keys, q.coefficient b = 0)
    (hs : q.coefficient s ≠ 0) (hsolve : solved.Solves q s)
    (hint : s.isExternal = false → q.Internal ∧ 0 ≤ -q.constant / q.coefficient s ∧
      ∀ b r, t.rows.get? b = some r → b.isExternal = false →
        0 ≤ r.constant - r.coefficient s * (q.constant / q.coefficient s)) :
    (t.install s solved).Ready { μ with solutions := fun v => μ.solutions v ∧ q.eval v = 0 } := by
  have hsub : (t.substitute s solved).Feasible := by
    apply feasible_substitute
    intro b r hb hbi
    rw [hsolve.constant, neg_div, mul_neg, ← sub_eq_add_neg]
    cases hse : s.isExternal with
    | false => exact (hint hse).2.2 b r hb hbi
    | true =>
      rw [h.split.rows b r hb hbi s hse, zero_mul, sub_zero]
      exact h.feasible b r hb hbi
  refine ⟨h.toMeans.install hq hs hsolve, h.split.install hsolve fun hse => (hint hse).1, ?_, ?_⟩
  · intro b r hb hbi
    rw [get?_install] at hb
    split at hb
    · next hbs =>
      obtain rfl := Option.some.inj hb
      rw [hsolve.constant]
      exact (hint (hbs ▸ hbi)).2.1
    · rw [← get?_substitute] at hb
      exact hsub b r hb hbi
  · change (t.substitute s solved).infeasible = []
    rw [infeasible_substitute hsub, h.calm]

/-! ## Pivots -/

/-- The equation that a pivot solves has the numbers of the leaving row. -/
theorem Means.pivot_coefficient (h : t.Means μ) (hrow : t.rows.get? leaving = some row)
    (he : row.coefficient entering ≠ 0) (k : Rat) :
    (row.addSymbol leaving k).coefficient entering = row.coefficient entering :=
  coefficient_addSymbol_of_ne _ (h.solved.ne_of_coefficient hrow he).2 k

/-- The pivot of a row that is not external, on a symbol that it mentions, keeps a
tableau ready if it keeps the rows feasible. -/
theorem Ready.pivot (h : t.Ready μ) (hrow : t.rows.get? leaving = some row)
    (hint : leaving.isExternal = false) (he : row.coefficient entering ≠ 0)
    (hsolve : solved.Solves (row.addSymbol leaving (-1)) entering)
    (hnew : 0 ≤ -row.constant / row.coefficient entering)
    (hrows : ∀ b r, t.rows.get? b = some r → b.isExternal = false →
      0 ≤ r.constant - r.coefficient entering * (row.constant / row.coefficient entering)) :
    ((t.dropRow leaving).install entering solved).Ready μ := by
  have hk := h.pivot_coefficient hrow he (-1)
  have hcoef : (row.addSymbol leaving (-1)).coefficient entering ≠ 0 := by rwa [hk]
  have hrest : (t.dropRow leaving).Ready (t.dropRow leaving).meaning :=
    ⟨(h.solved.dropRow leaving).means, h.split.dropRow leaving, h.feasible.dropRow leaving, h.calm⟩
  have hready := hrest.install (fun b hb => h.solved.coefficient_exchange hrow hb (-1)) hcoef hsolve
    fun _ => by
      rw [hk]
      exact ⟨(h.split.rows leaving row hrow hint).addSymbol hint (-1), hnew,
        fun b r hb => hrows b r (get?_of_dropRow hb).2⟩
  exact ⟨h.toMeans.pivot hrow he hsolve, hready.split, hready.feasible, hready.calm⟩

end Tableau

end BoxLayout
