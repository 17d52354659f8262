-- SUMMARY: Entering the row of a new constraint, removing the row of a marker, and changing the objective.
import BoxLayout.Proofs.Artificial

/-!
# Entering and removing rows

A new row is solved for one of its symbols: an external one, a slack or error symbol
of its own constraint, or its marker if it consists of dummies alone. If none serves
the artificial symbol is used. Each way adds the equation `row = 0` to the meaning of
the tableau. A row is refused only if no solution with the right signs makes it zero.

Removing a marker takes the equation out that the marker belongs to. If the marker is
only mentioned by rows of external symbols, such a row is given up for it.
-/

namespace BoxLayout.Tableau

variable {t : Tableau Rat} {μ : Meaning} {s b m leaving : Symbol} {r row solved : Row Rat}
  {tag : Tag}

/-! ## Entering a row -/

theorem Ready.widen (h : t.Ready (μ.adding row)) (hcount : μ.symbolCount = t.symbolCount) :
    t.Ready { μ.adding row with symbolCount := t.symbolCount } := by
  rw [← hcount]
  exact h

/-- The symbols that a new constraint brings along: nothing is known of them yet. -/
structure NewTag (μ : Meaning) (tag : Tag) (row : Row Rat) : Prop where
  internal : ∀ s ∈ tag.symbols, s.isExternal = false
  free : ∀ s ∈ tag.symbols, Free μ.solutions s
  marker : row.coefficient tag.marker ≠ 0

/-- Solving the row for an external symbol, or for one of its own that makes it positive. -/
theorem Ready.install_subject (h : t.Ready μ) (hnew : t.NewRow row) (htag : NewTag μ tag row)
    (hsub : row.subject? tag = some s) (hsolve : solved.Solves row s) :
    (t.install s solved).Ready (μ.adding row) ∧ (t.Clean → (t.install s solved).Clean) := by
  obtain ⟨hcoef, hkind⟩ := Row.subject?_eq_some hnew.reduced hsub
  have hdummy : s.isDummy = false := by
    obtain hext | ⟨-, hpiv, -⟩ := hkind
    · by_contra hd
      rw [Symbol.isExternal_of_isDummy (by simpa using hd)] at hext
      cases hext
    · exact Symbol.isDummy_of_isPivotable hpiv
  constructor
  · refine h.install hnew.basic hcoef hsolve fun hint => ?_
    obtain hext | ⟨hmem, -, hneg, hrow⟩ := hkind
    · rw [hint] at hext
      cases hext
    · refine ⟨hrow, div_nonneg_of_nonpos (neg_nonpos.2 hnew.nonneg) hneg.le, fun b r hb hbi => ?_⟩
      rw [(h.absent (htag.free s hmem)).2 b r hb, zero_mul, sub_zero]
      exact h.feasible b r hb hbi
  · intro hclean
    refine hclean.install (fun hd => ?_) fun d r hd hdd => (hclean d r hd hdd).2 s hdummy
    rw [hdummy] at hd
    cases hd

/-- Solving a row of dummies alone, with constant zero, for its marker. -/
theorem Ready.install_dummies (h : t.Ready μ) (hnew : t.NewRow row) (htag : NewTag μ tag row)
    (hall : ∀ x, x.isDummy = false → row.coefficient x = 0) (hzero : row.constant = 0)
    (hsolve : solved.Solves row tag.marker) :
    (t.install tag.marker solved).Ready (μ.adding row) ∧
      (t.Clean → (t.install tag.marker solved).Clean) := by
  have hmem : tag.marker ∈ tag.symbols := List.mem_cons_self
  have habsent := (h.absent (htag.free _ hmem)).2
  have hrow : row.Internal := by
    intro x hx
    apply hall
    by_contra hd
    rw [Symbol.isExternal_of_isDummy (by simpa using hd)] at hx
    cases hx
  constructor
  · refine h.install hnew.basic htag.marker hsolve fun _ => ⟨hrow, ?_, fun b r hb hbi => ?_⟩
    · rw [hzero, neg_zero, zero_div]
    · rw [habsent b r hb, zero_mul, sub_zero]
      exact h.feasible b r hb hbi
  · intro hclean
    refine hclean.install (fun hd => ⟨?_, fun x hx => ?_⟩) fun d r hd _ => habsent d r hd
    · rw [hsolve.constant, hzero, neg_zero, zero_div]
    · rw [hsolve.coefficient, if_neg (Symbol.ne_of_test hd hx).symm, hall x hx, zero_div, sub_zero]

/-- With the right signs, a row of dummies alone is worth its constant. -/
theorem eval_of_dummies {v : Assignment} (hv : Admissible v)
    (hall : ∀ x, x.isDummy = false → row.coefficient x = 0) : row.eval v = row.constant := by
  apply Row.eval_eq_constant
  intro x
  cases hx : x.isDummy with
  | true => rw [hv.dummy x hx, mul_zero]
  | false => rw [hall x hx, zero_mul]

/-- Entering a row adds its equation, or no solution with the right signs allows it. -/
theorem enterRow_ensures (h : t.Ready μ) (hμ : μ.artificial = none) (hnew : t.NewRow row)
    (hign : μ.Ignores t.artificialSymbol) (htag : NewTag μ tag row) (steps : Nat) :
    (enterRow steps row tag).Ensures t
      (fun _ t' => μ.symbolCount ≤ t'.symbolCount ∧
        t'.Ready { μ.adding row with symbolCount := t'.symbolCount } ∧ (t.Clean → t'.Clean))
      (fun e _ => e = .outOfSteps ∨ e = .unsatisfiableConstraint ∧
        (t.Clean → ¬∃ v, (μ.adding row).solutions v ∧ Admissible v)) := by
  unfold enterRow
  cases hsub : row.subject? tag with
  | some s =>
    obtain ⟨hcoef, -⟩ := Row.subject?_eq_some hnew.reduced hsub
    obtain ⟨solved, hok, hsolve⟩ := Row.solveFor_ok hnew.reduced hcoef
    obtain ⟨hready, hclean⟩ := h.install_subject hnew htag hsub hsolve
    dsimp only
    rw [hok]
    exact ⟨h.symbolCount.ge, hready.widen h.symbolCount.symm, hclean⟩
  | none =>
    obtain ⟨hint, -⟩ := Row.subject?_eq_none hnew.reduced hsub
    dsimp only
    by_cases hall : row.allDummies = true
    · rw [if_pos hall]
      have hdummies := (Row.allDummies_iff hnew.reduced).1 hall
      by_cases hzero : row.constant = 0
      · obtain ⟨solved, hok, hsolve⟩ := Row.solveFor_ok hnew.reduced htag.marker
        obtain ⟨hready, hclean⟩ := h.install_dummies hnew htag hdummies hzero hsolve
        rw [if_pos (nearZero_iff.2 hzero), hok]
        exact ⟨h.symbolCount.ge, hready.widen h.symbolCount.symm, hclean⟩
      · rw [if_neg (fun hz => hzero (nearZero_iff.1 hz))]
        refine Or.inr ⟨rfl, ?_⟩
        rintro - ⟨v, ⟨-, hrow⟩, hadm⟩
        exact hzero ((eval_of_dummies hadm hdummies).symm.trans hrow)
    · rw [if_neg hall]
      rw [Row.allDummies_iff hnew.reduced] at hall
      push Not at hall
      obtain ⟨x, hx, hcoef⟩ := hall
      refine Attempt.ensures_bind ?_
      refine (addArtificially_ensures h hμ hnew hint hign hx hcoef steps).mono ?_
        fun e _ he => Or.inl he
      intro added t' hadded
      cases added with
      | false => exact Or.inr ⟨rfl, hadded⟩
      | true =>
        obtain ⟨hready, hclean⟩ := hadded
        have hcount : t'.symbolCount = μ.symbolCount + 1 := hready.symbolCount
        refine ⟨by omega, ?_, hclean⟩
        rw [hcount]
        exact hready

/-! ## Removing a marker -/

/-- The objective is about symbols other than `m` that are not external. -/
def Costless (μ : Meaning) (m : Symbol) : Prop :=
  ∀ v w, (∀ s : Symbol, s.isExternal = false → s ≠ m → v s = w s) → μ.objective v = μ.objective w

theorem Costless.update (h : Costless μ m) (v : Assignment) (x : Rat) :
    μ.objective (Function.update v m x) = μ.objective v :=
  h _ _ fun _ _ hs => Function.update_of_ne hs _ _

/-- If only rows of external symbols mention the marker, the objective does not. -/
theorem Ready.objective_of_external_rows (h : t.Ready μ) (hcost : Costless μ m)
    (hrows : ∀ b r, t.rows.get? b = some r → b.isExternal = false → r.coefficient m = 0) :
    t.objective.coefficient m = 0 := by
  obtain ⟨d, hd⟩ := h.objective
  let v := t.completion fun _ => 0
  let w := t.completion (Function.update (fun _ => 0) m 1)
  have hsame : μ.objective v = μ.objective w := by
    apply hcost
    intro s hs hsm
    change t.completion _ s = t.completion _ s
    cases hrow : t.rows.get? s with
    | none =>
      have hnot := OrderedMap.get?_eq_none_iff.1 hrow
      rw [completion_nonbasic hnot, completion_nonbasic hnot, Function.update_of_ne hsm]
    | some row =>
      rw [completion_basic hrow, completion_basic hrow, Row.eval_update, hrows s row hrow hs,
        zero_mul, add_zero]
  have hv := hd v (h.completion _)
  have hw := hd w (h.completion _)
  rw [h.solved.eval_completion stores_objective] at hv hw
  rw [Row.eval_update] at hw
  linarith

/-- Giving up a row that mentions the marker takes the marker's equation out. -/
theorem Ready.exchange_marker (h : t.Ready μ) (hμ : μ.artificial = none) (hcost : Costless μ m)
    (hint : m.isExternal = false) (hfound : t.markerRow? m = some (leaving, row))
    (hsolve : solved.Solves (row.addSymbol leaving (-1)) m) :
    ((t.dropRow leaving).substitute m solved).Ready (μ.without m) := by
  obtain ⟨hrow, hcoef, hfeas, hext⟩ := markerRow?_eq_some hfound h.feasible
  have hart := h.artificial_eq_none hμ
  have hk := h.pivot_coefficient hrow hcoef (-1)
  have hsub : ((t.dropRow leaving).substitute m solved).Feasible := by
    apply feasible_substitute
    intro b r hb hbi
    have hge := hfeas b r (get?_of_dropRow hb).2 hbi
    rw [hsolve.constant, hk, Row.constant_addSymbol, neg_div, mul_neg, ← sub_eq_add_neg]
    exact hge
  refine ⟨h.toMeans.exchange_marker hrow hcoef hsolve hart hcost.update, ?_, hsub, ?_⟩
  · cases hl : leaving.isExternal with
    | false =>
      apply (h.split.dropRow leaving).substitute
      intro _
      exact ((h.split.rows leaving row hrow hl).addSymbol hl (-1)).of_solves hsolve hint
    | true =>
      -- nothing that must stay free of external symbols mentions the marker
      have hkeep {r : Row Rat} (hr : r.Internal) (hz : r.coefficient m = 0) :
          (r.substitute m solved).Internal := by
        intro x hx
        rw [Row.coefficient_substitute, hr x hx, hz, zero_mul, add_zero]
      refine ⟨?_, ?_, ?_⟩
      · intro b r hb hbi
        obtain ⟨r₀, hr₀, rfl⟩ := get?_substitute_eq_some hb
        have hr₀ := (get?_of_dropRow hr₀).2
        exact hkeep (h.split.rows b r₀ hr₀ hbi) (hext hl b r₀ hr₀ hbi)
      · exact hkeep h.split.objective (h.objective_of_external_rows hcost (hext hl))
      · intro r hr
        change t.artificial.map _ = some r at hr
        rw [hart] at hr
        cases hr
  · rw [infeasible_substitute hsub]
    exact h.calm

/-- A marker that the solutions do not leave free can be removed, and its equation is
what is taken out of the meaning. -/
theorem removeMarker_ensures (h : t.Ready μ) (hμ : μ.artificial = none) (hcost : Costless μ m)
    (hint : m.isExternal = false) (hfree : ¬Free μ.solutions m) :
    (removeMarker m).Ensures t (fun _ t' => t'.Ready (μ.without m)) (fun _ _ => False) := by
  have hart := h.artificial_eq_none hμ
  refine Attempt.ensures_get_bind ?_
  by_cases hmem : t.rows.contains m = true
  · rw [if_pos hmem]
    obtain ⟨row, hrow⟩ := OrderedMap.mem_keys_iff.1 (OrderedMap.contains_iff.1 hmem)
    exact ⟨h.toMeans.dropRow hrow hart hcost.update, h.split.dropRow m, h.feasible.dropRow m, h.calm⟩
  · rw [if_neg hmem]
    have hnot : m ∉ t.rows.keys := fun hk => hmem (OrderedMap.contains_iff.2 hk)
    cases hfound : t.markerRow? m with
    | none =>
      refine absurd ?_ hfree
      intro v x hv
      rw [← h.solutions, satisfies_update hnot fun b r hb => markerRow?_eq_none hfound hb]
      exact (h.solutions v).2 hv
    | some found =>
      obtain ⟨leaving, row⟩ := found
      obtain ⟨hrow, hcoef, -⟩ := markerRow?_eq_some hfound h.feasible
      have hk := h.pivot_coefficient hrow hcoef (-1)
      have hred := (h.solved.reduced row (stores_row hrow)).addSymbol leaving (-1)
      obtain ⟨solved, hok, hsolve⟩ := Row.solveFor_ok hred (by rw [hk]; exact hcoef)
      refine Attempt.ensures_modify_bind ?_
      unfold Row.exchange
      rw [hok]
      exact h.exchange_marker hμ hcost hint hfound hsolve

/-! ## The objective -/

/-- On solutions a symbol and its row are the same. -/
theorem eval_addTo {v : Assignment} (hv : t.Satisfies v) (row : Row Rat) (s : Symbol) (k : Rat) :
    (t.addTo row s k).eval v = row.eval v + k * v s := by
  unfold addTo
  cases hs : t.rows.get? s with
  | none => rw [Row.eval_addSymbol]
  | some basic =>
    dsimp only
    rw [Row.eval_addRow, hv s basic hs]
    ring

theorem reduced_addTo (h : row.Reduced) (s : Symbol) (k : Rat) : (t.addTo row s k).Reduced := by
  unfold addTo
  cases t.rows.get? s with
  | none => exact h.addSymbol s k
  | some basic => exact h.addRow basic k

/-- A row over non-basic symbols stays one when symbols enter it as their rows. -/
theorem Solved.addTo_basic (h : t.Solved) (hrow : ∀ b ∈ t.rows.keys, row.coefficient b = 0)
    (s : Symbol) (k : Rat) : ∀ b ∈ t.rows.keys, (t.addTo row s k).coefficient b = 0 := by
  intro b hb
  unfold addTo
  cases hs : t.rows.get? s with
  | none =>
    have hbs : b ≠ s := by
      rintro rfl
      exact OrderedMap.get?_eq_none_iff.1 hs hb
    dsimp only
    rw [Row.coefficient_addSymbol, if_neg hbs, hrow b hb, add_zero]
  | some basic =>
    dsimp only
    rw [Row.coefficient_addRow, hrow b hb, h.basic basic (stores_row hs) b hb]
    ring

theorem Split.addTo (h : t.Split) (hrow : row.Internal) (hs : s.isExternal = false) (k : Rat) :
    (t.addTo row s k).Internal := by
  unfold Tableau.addTo
  cases hget : t.rows.get? s with
  | none => exact hrow.addSymbol hs k
  | some basic =>
    intro x hx
    dsimp only
    rw [Row.coefficient_addRow, hrow x hx, h.rows s basic hget hs x hx]
    ring

theorem Ready.addToObjective (h : t.Ready μ) (hs : s.isExternal = false) (k : Rat) :
    (t.addToObjective s k).Ready { μ with objective := fun v => μ.objective v + k * v s } := by
  have hstores (r : Row Rat) (hr : (t.addToObjective s k).Stores r) :
      r = t.addTo t.objective s k ∨ t.Stores r := by
    obtain hb | rfl | ha := hr
    · exact Or.inr (Or.inl hb)
    · exact Or.inl rfl
    · exact Or.inr (stores_artificial ha)
  refine ⟨⟨h.symbolCount, ⟨?_, ?_⟩, h.solutions, ?_, h.artificial⟩,
    ⟨h.split.rows, h.split.addTo h.split.objective hs k, h.split.artificial⟩, h.feasible, h.calm⟩
  · intro r hr
    obtain rfl | hr := hstores r hr
    · exact reduced_addTo (h.solved.reduced _ stores_objective) s k
    · exact h.solved.reduced r hr
  · intro r hr
    obtain rfl | hr := hstores r hr
    · exact h.solved.addTo_basic (h.solved.basic _ stores_objective) s k
    · exact h.solved.basic r hr
  · obtain ⟨d, hd⟩ := h.objective
    refine ⟨d, fun v hv => ?_⟩
    change (t.addTo t.objective s k).eval v = _
    rw [eval_addTo ((h.solutions v).2 hv), hd v hv]
    ring

end BoxLayout.Tableau
