-- SUMMARY: Adding a row by an artificial symbol: when it succeeds, what it adds, and when it gives up.
import BoxLayout.Proofs.Simplex

/-!
# The artificial symbol

A new row without a subject is given to an artificial symbol, which the primal loop then
drives to zero. When it gets there the equation `row = 0` has been added to the meaning
of the tableau, and nothing else.

If the least value that the artificial symbol can take is not zero, no solution with the
right signs makes the row zero. The addition also gives up if the artificial symbol ends
as a combination of dummies. In a clean tableau this does not happen: the row has a
symbol that is no dummy, and there dummies do not depend on it.
-/

namespace BoxLayout

/-- The meaning does not depend on the symbol. -/
structure Meaning.Ignores (μ : Meaning) (s : Symbol) : Prop where
  free : Tableau.Free μ.solutions s
  objective : ∀ v x, μ.objective (Function.update v s x) = μ.objective v

/-- The meaning together with the equation `row = 0`. -/
def Meaning.adding (μ : Meaning) (row : Row Rat) : Meaning :=
  { μ with solutions := fun v => μ.solutions v ∧ row.eval v = 0 }

/-- Any symbol may be set to zero. -/
theorem Admissible.update_zero {v : Assignment} (h : Admissible v) (s : Symbol) :
    Admissible (Function.update v s 0) := by
  constructor
  · intro x hx
    by_cases hxs : x = s
    · rw [hxs, Function.update_self]
    · rw [Function.update_of_ne hxs]
      exact h.nonneg x hx
  · intro x hx
    by_cases hxs : x = s
    · rw [hxs, Function.update_self]
    · rw [Function.update_of_ne hxs]
      exact h.dummy x hx

namespace Tableau

variable {t t' : Tableau Rat} {μ : Meaning} {s b art m : Symbol} {r row g left : Row Rat}

/-- The symbol that would get the artificial row of a new constraint. -/
def artificialSymbol {α : Type} (t : Tableau α) : Symbol := ⟨.slack, t.symbolCount + 1⟩

/-- Where all non-basic symbols are zero, no slack, error or dummy symbol is negative. -/
theorem Feasible.nonneg_completion (h : t.Feasible) : Nonneg (t.completion fun _ => 0) := by
  intro s hs
  cases hrow : t.rows.get? s with
  | none => rw [completion_nonbasic (OrderedMap.get?_eq_none_iff.1 hrow)]
  | some row =>
    rw [completion_basic hrow, ← Row.constant_eq_eval]
    exact h s row hrow hs

/-- The row of a new constraint is over non-basic symbols, turned so that its constant is
not negative. -/
structure NewRow (t : Tableau Rat) (row : Row Rat) : Prop where
  reduced : row.Reduced
  basic : ∀ b ∈ t.rows.keys, row.coefficient b = 0
  nonneg : 0 ≤ row.constant
  unused : row.coefficient t.artificialSymbol = 0

/-! ## The artificial row -/

/-- The meaning with an artificial symbol that has the value of a row. -/
def withArtificial (μ : Meaning) (art : Symbol) (row : Row Rat) : Meaning where
  symbolCount := μ.symbolCount + 1
  solutions := fun v => μ.solutions v ∧ v art = row.eval v
  objective := μ.objective
  artificial := some fun v => v art

/-- The tableau in which the artificial symbol has the row. -/
def startArtificial (t : Tableau Rat) (art : Symbol) (row : Row Rat) : Tableau Rat :=
  { (t.fresh .slack).2.setRow art row with artificial := some row }

theorem get?_startArtificial : (t.startArtificial art row).rows.get? b
    = if b = art then some row else t.rows.get? b :=
  OrderedMap.get?_insert _ _ _ _

theorem stores_startArtificial (hr : (t.startArtificial art row).Stores r) : r = row ∨ t.Stores r := by
  obtain ⟨b, hb⟩ | rfl | ha := hr
  · rw [get?_startArtificial] at hb
    split at hb
    · exact Or.inl (Option.some.inj hb).symm
    · exact Or.inr (stores_row hb)
  · exact Or.inr stores_objective
  · exact Or.inl (Option.some.inj ha).symm

theorem Solved.startArtificial (h : t.Solved) (hred : row.Reduced)
    (hbasic : ∀ b ∈ t.rows.keys, row.coefficient b = 0) (hart : row.coefficient art = 0)
    (habsent : ∀ r, t.Stores r → r.coefficient art = 0) : (t.startArtificial art row).Solved := by
  refine ⟨fun r hr => ?_, fun r hr b hb => ?_⟩
  · obtain rfl | hr := stores_startArtificial hr
    · exact hred
    · exact h.reduced r hr
  · obtain rfl | hold := OrderedMap.mem_keys_insert.1 hb
    · obtain rfl | hr := stores_startArtificial hr
      · exact hart
      · exact habsent r hr
    · obtain rfl | hr := stores_startArtificial hr
      · exact hbasic b hold
      · exact h.basic r hr b hold

theorem satisfies_startArtificial (hnot : art ∉ t.rows.keys) (v : Assignment) :
    (t.startArtificial art row).Satisfies v ↔ t.Satisfies v ∧ v art = row.eval v := by
  constructor
  · intro hv
    refine ⟨fun b r hb => hv b r ?_, hv art row ?_⟩
    · have hba : b ≠ art := fun e => hnot (e ▸ mem_keys hb)
      rw [get?_startArtificial, if_neg hba, hb]
    · rw [get?_startArtificial, if_pos rfl]
  · rintro ⟨hv, hva⟩ b r hb
    rw [get?_startArtificial] at hb
    split at hb
    · next hba => rw [hba, hva, Option.some.inj hb]
    · exact hv b r hb

theorem Ready.startArtificial (h : t.Ready μ) (hμ : μ.artificial = none)
    (hbasic : ∀ b ∈ t.rows.keys, row.coefficient b = 0) (hred : row.Reduced)
    (hint : row.Internal) (hnonneg : 0 ≤ row.constant) (hign : μ.Ignores art)
    (hart : row.coefficient art = 0) :
    (t.startArtificial art row).Ready (withArtificial μ art row) := by
  obtain ⟨hnot, habsent⟩ := h.absent hign.free
  have hzero (r : Row Rat) (hr : t.Stores r) : r.coefficient art = 0 := by
    obtain ⟨b, hb⟩ | rfl | ha := hr
    · exact habsent b r hb
    · exact h.objective_absent hign.free hign.objective
    · rw [h.artificial_eq_none hμ] at ha
      cases ha
  refine ⟨⟨?_, h.solved.startArtificial hred hbasic hart hzero, fun v => ?_, ?_, ?_⟩,
    ⟨?_, h.split.objective, ?_⟩, ?_, h.calm⟩
  · change t.symbolCount + 1 = _
    rw [h.symbolCount]
    rfl
  · rw [satisfies_startArtificial hnot, h.solutions]
    rfl
  · obtain ⟨d, hd⟩ := h.objective
    exact ⟨d, fun v hv => hd v hv.1⟩
  · exact .some fun v hv => hv.2.symm
  · intro b r hb hbi
    rw [get?_startArtificial] at hb
    split at hb
    · obtain rfl := Option.some.inj hb
      exact hint
    · exact h.split.rows b r hb hbi
  · intro r hr
    obtain rfl := Option.some.inj hr
    exact hint
  · intro b r hb hbi
    rw [get?_startArtificial] at hb
    split at hb
    · obtain rfl := Option.some.inj hb
      exact hnonneg
    · exact h.feasible b r hb hbi

/-- If the least value of the artificial symbol is not zero, the symbol is zero on no solution
with the right signs. -/
theorem ne_zero_of_minimal (hrows : ∀ b r, t.rows.get? b = some r →
      ∀ x ∈ t.rows.keys, r.coefficient x = 0) (hfeas : t.Feasible)
    (hg : ∀ x ∈ t.rows.keys, g.coefficient x = 0) (hgoal : ∀ v, t.Satisfies v → g.eval v = v art)
    (harti : art.isExternal = false) (hint : g.Internal) (hmin : g.Minimal)
    (hne : g.constant ≠ 0) {v : Assignment} (hv : t.Satisfies v) (hadm : Admissible v) :
    v art ≠ 0 := by
  have hpos : 0 ≤ g.constant := by
    rw [Row.constant_eq_eval, ← eval_completion hg, hgoal _ (satisfies_completion hrows _)]
    exact hfeas.nonneg_completion art harti
  intro hzero
  have hle := hmin.constant_le hint hadm
  rw [hgoal v hv, hzero] at hle
  exact hne (le_antisymm hle hpos)

/-- A goal that has the value of a basic symbol has the constant of its row. -/
theorem constant_eq_of_basic (hrows : ∀ b r, t.rows.get? b = some r →
      ∀ x ∈ t.rows.keys, r.coefficient x = 0) (hg : ∀ x ∈ t.rows.keys, g.coefficient x = 0)
    (hgoal : ∀ v, t.Satisfies v → g.eval v = v art) (hleft : t.rows.get? art = some left) :
    left.constant = g.constant := by
  have hval := hgoal _ (satisfies_completion hrows fun _ => 0)
  rw [completion_basic hleft, eval_completion hg, ← Row.constant_eq_eval,
    ← Row.constant_eq_eval] at hval
  exact hval.symm

theorem Ready.artificial_row (h : t.Ready (withArtificial μ art row)) :
    ∃ g, t.artificial = some g ∧ ∀ v, t.Satisfies v → g.eval v = v art := by
  have hrel := h.artificial
  cases hg : t.artificial with
  | none => rw [hg] at hrel; cases hrel
  | some g =>
    rw [hg] at hrel
    cases hrel with
    | some hvalue => exact ⟨g, rfl, fun v hv => hvalue v ((h.solutions v).1 hv)⟩

/-- If the least value of the artificial symbol is not zero, no solution with the right
signs makes the row zero. -/
theorem Ready.unsolvable_of_constant_ne (h : t.Ready (withArtificial μ art row))
    (hign : μ.Ignores art) (hart : row.coefficient art = 0) (harti : art.isExternal = false)
    (hg : t.artificial = some g) (hmin : g.Minimal) (hne : g.constant ≠ 0) :
    ¬∃ v, (μ.adding row).solutions v ∧ Admissible v := by
  obtain ⟨g', hg', hvalue⟩ := h.artificial_row
  rw [hg] at hg'
  obtain rfl := Option.some.inj hg'
  rintro ⟨v, ⟨hsol, hrow⟩, hadm⟩
  have hsat : t.Satisfies (Function.update v art 0) := by
    refine (h.solutions _).2 ⟨hign.free v 0 hsol, ?_⟩
    rw [Function.update_self, Row.eval_update, hart, hrow]
    ring
  refine ne_zero_of_minimal (fun _ r hb => h.solved.basic r (stores_row hb)) h.feasible
    (h.solved.basic g (stores_artificial hg)) hvalue harti (h.split.artificial g hg) hmin hne hsat
    (hadm.update_zero art) ?_
  exact Function.update_self art 0 v

/-- The artificial objective and the row of a basic artificial symbol are the same function. -/
theorem Ready.constant_of_basic (h : t.Ready (withArtificial μ art row)) (hg : t.artificial = some g)
    (hleft : t.rows.get? art = some left) : left.constant = g.constant := by
  obtain ⟨g', hg', hvalue⟩ := h.artificial_row
  rw [hg] at hg'
  obtain rfl := Option.some.inj hg'
  exact constant_eq_of_basic (fun _ r hb => h.solved.basic r (stores_row hb))
    (h.solved.basic g (stores_artificial hg)) hvalue hleft

theorem Ready.clearArtificial (h : t.Ready μ) :
    ({ t with artificial := none } : Tableau Rat).Ready { μ with artificial := none } := by
  have hstores (r : Row Rat) (hr : ({ t with artificial := none } : Tableau Rat).Stores r) :
      t.Stores r := by
    obtain hb | rfl | ha := hr
    · exact Or.inl hb
    · exact stores_objective
    · cases ha
  refine ⟨⟨h.symbolCount, ⟨?_, ?_⟩, h.solutions, h.objective, .none⟩,
    ⟨h.split.rows, h.split.objective, ?_⟩, h.feasible, h.calm⟩
  · intro r hr
    exact h.solved.reduced r (hstores r hr)
  · intro r hr
    exact h.solved.basic r (hstores r hr)
  · intro r hr
    cases hr

/-! ## Taking a symbol out that is zero -/

theorem Feasible.forget (h : t.Feasible) (s : Symbol) : (t.forget s).Feasible := by
  intro b r hb hint
  rw [get?_forget] at hb
  obtain ⟨r₀, hr₀, rfl⟩ := Option.map_eq_some_iff.1 hb
  exact h b r₀ hr₀ hint

theorem Ready.forget (h : t.Ready μ) (hs : s ∉ t.rows.keys) (hart : t.artificial = none)
    (hobj : ∀ v x, μ.objective (Function.update v s x) = μ.objective v) :
    (t.forget s).Ready (μ.fixing s) := by
  have hremove {r : Row Rat} (hr : r.Internal) : (r.remove s).Internal := by
    intro x hx
    rw [Row.coefficient_remove, hr x hx, ite_self]
  refine ⟨h.toMeans.forget hs hart hobj, ⟨?_, hremove h.split.objective, ?_⟩, h.feasible.forget s,
    h.calm⟩
  · intro b r hb hint
    rw [get?_forget] at hb
    obtain ⟨r₀, hr₀, rfl⟩ := Option.map_eq_some_iff.1 hb
    exact hremove (h.split.rows b r₀ hr₀ hint)
  · intro r hr
    change t.artificial = some r at hr
    rw [hart] at hr
    cases hr

/-- A basic symbol whose row is zero is taken out with the row. -/
theorem Ready.dropZero (h : t.Ready μ) (hrow : t.rows.get? s = some row) (hart : t.artificial = none)
    (hzero : ∀ v, row.eval v = 0)
    (hobj : ∀ v x, μ.objective (Function.update v s x) = μ.objective v) :
    (t.dropRow s).Ready (μ.fixing s) := by
  have hdrop : (t.dropRow s).Ready (μ.without s) :=
    ⟨h.toMeans.dropRow hrow hart hobj, h.split.dropRow s, h.feasible.dropRow s, h.calm⟩
  refine hdrop.congr rfl rfl rfl (fun v => ?_) fun v _ => rfl
  constructor
  · rintro ⟨x, hx⟩
    have hval := (h.solutions _).2 hx s row hrow
    rw [Function.update_self, hzero] at hval
    subst hval
    exact hx
  · intro hv
    exact ⟨0, hv⟩

/-- A basic symbol that is zero is exchanged for another one and taken out. -/
theorem Ready.pivotOut {leaving entering : Symbol} {solved : Row Rat} (h : t.Ready μ)
    (hrow : t.rows.get? leaving = some row) (hzero : row.constant = 0) (hart : t.artificial = none)
    (hint : leaving.isExternal = false) (he : row.coefficient entering ≠ 0)
    (hsolve : Row.Solves solved (row.addSymbol leaving (-1)) entering)
    (hobj : ∀ v x, μ.objective (Function.update v leaving x) = μ.objective v) :
    (((t.dropRow leaving).install entering solved).forget leaving).Ready (μ.fixing leaving) := by
  have hpivot := h.pivot hrow hint he hsolve (by rw [hzero]; simp) fun b r hb hbi => by
    rw [hzero, zero_div, mul_zero, sub_zero]
    exact h.feasible b r hb hbi
  have hne := (h.solved.ne_of_coefficient hrow he).2
  have hnot : leaving ∉ ((t.dropRow leaving).install entering solved).rows.keys := by
    intro hmem
    obtain heq | hmem := mem_keys_install.1 hmem
    · exact hne heq.symm
    · exact (mem_keys_dropRow.1 hmem).1 rfl
  have hnone : ((t.dropRow leaving).install entering solved).artificial = none := by
    change t.artificial.map _ = none
    rw [hart]
    rfl
  exact hpivot.forget hnot hnone hobj

/-- Where the artificial symbol is zero the row is. -/
theorem Ready.of_fixing
    (h : t.Ready (({ withArtificial μ art row with artificial := none } : Meaning).fixing art))
    (hμ : μ.artificial = none) (hign : μ.Ignores art) (hart : row.coefficient art = 0) :
    t.Ready { μ.adding row with symbolCount := μ.symbolCount + 1 } := by
  refine h.congr rfl hμ rfl (fun v => ?_) fun v _ => rfl
  change μ.solutions (Function.update v art 0) ∧ Function.update v art 0 art
    = row.eval (Function.update v art 0) ↔ μ.solutions v ∧ row.eval v = 0
  exact hign.free.equation_at_zero hart

/-! ## Driving the artificial symbol to zero -/

theorem bounded_withArtificial (harti : art.isExternal = false) :
    (withArtificial μ art row).Bounded .artificial := by
  intro G hG v _ hv
  obtain rfl := Option.some.inj hG
  exact hv art harti

/-- In a clean tableau every choice of the symbols that are no dummies has a solution in
which all dummies are zero. -/
theorem Clean.dummy_completion (h : t.Clean) {u : Assignment}
    (hu : ∀ s : Symbol, s.isDummy = true → u s = 0) (hs : s.isDummy = true) :
    t.completion u s = 0 := by
  cases hrow : t.rows.get? s with
  | none => rw [completion_nonbasic (OrderedMap.get?_eq_none_iff.1 hrow), hu s hs]
  | some row =>
    obtain ⟨hconst, hcells⟩ := h s row hrow hs
    rw [completion_basic hrow, ← hconst]
    apply Row.eval_eq_constant
    intro x
    cases hx : x.isDummy with
    | true => rw [hu x hx, mul_zero]
    | false => rw [hcells x hx, zero_mul]

/-- A row with a symbol that is no dummy takes different values on solutions of a clean
tableau in which all dummies are zero. So a symbol that has the value of the row is not a
combination of dummies. -/
theorem not_all_dummies {t₀ : Tableau Rat} (hrows : ∀ b r, t₀.rows.get? b = some r →
      ∀ x ∈ t₀.rows.keys, r.coefficient x = 0) (hclean : t₀.Clean) (hfree : Free t₀.Satisfies art)
    (hbasic : ∀ b ∈ t₀.rows.keys, row.coefficient b = 0) (hart : row.coefficient art = 0)
    (hartd : art.isDummy = false) (hs : s.isDummy = false) (hcoef : row.coefficient s ≠ 0)
    (hsol : ∀ v, t₀.Satisfies v → v art = row.eval v → t.Satisfies v)
    (hleft : t.rows.get? art = some left) : ∃ x, x.isDummy = false ∧ left.coefficient x ≠ 0 := by
  by_contra hnone
  push Not at hnone
  have hvalue {u : Assignment} (hu : ∀ s : Symbol, s.isDummy = true → u s = 0) :
      row.eval u = left.constant := by
    let v := t₀.completion u
    let w := Function.update v art (row.eval v)
    have hw : t.Satisfies w := by
      refine hsol w (hfree v _ (satisfies_completion hrows u)) ?_
      change Function.update v art (row.eval v) art = row.eval (Function.update v art (row.eval v))
      rw [Function.update_self, Row.eval_update, hart, zero_mul, add_zero]
    have hval := hw art left hleft
    change Function.update v art (row.eval v) art = left.eval w at hval
    rw [Function.update_self, eval_completion hbasic] at hval
    rw [hval]
    apply Row.eval_eq_constant
    intro x
    cases hx : x.isDummy with
    | false => rw [hnone x hx, zero_mul]
    | true =>
      have hvx : v x = 0 := hclean.dummy_completion hu hx
      change _ * Function.update v art (row.eval v) x = 0
      rw [Function.update_of_ne (Symbol.ne_of_test hx hartd), hvx, mul_zero]
  have h0 := hvalue (u := fun _ => 0) fun _ _ => rfl
  have h1 := hvalue (u := Function.update (fun _ => 0) s 1) fun x hx => by
    rw [Function.update_of_ne (Symbol.ne_of_test hx hs)]
  rw [Row.eval_update, h0] at h1
  exact hcoef (by linarith)

theorem Clean.startArtificial (h : t.Clean) :
    (t.startArtificial t.artificialSymbol row).Clean := by
  intro d r hd hdummy
  rw [get?_startArtificial] at hd
  split at hd
  · next hda =>
    rw [hda] at hdummy
    cases hdummy
  · exact h d r hd hdummy

theorem Clean.forget (h : t.Clean) (s : Symbol) : (t.forget s).Clean := by
  intro d r hd hdummy
  rw [get?_forget] at hd
  obtain ⟨r₀, hr₀, rfl⟩ := Option.map_eq_some_iff.1 hd
  obtain ⟨hconst, hcells⟩ := h d r₀ hr₀ hdummy
  refine ⟨hconst, fun x hx => ?_⟩
  rw [Row.coefficient_remove, hcells x hx, ite_self]

/-- The row of a basic artificial symbol has a symbol that can replace it, in a clean tableau. -/
theorem Ready.pivotable?_ne_none {t₀ : Tableau Rat} (h₀ : t₀.Ready μ) (hclean : t₀.Clean)
    (hign : μ.Ignores art) (hnew : t₀.NewRow row) (hart : row.coefficient art = 0)
    (harti : art.isExternal = false) (hartd : art.isDummy = false) (hs : s.isDummy = false)
    (hcoef : row.coefficient s ≠ 0) (h : t.Ready (withArtificial μ art row))
    (hleft : t.rows.get? art = some left) : left.pivotable? ≠ none := by
  intro hpiv
  obtain ⟨x, hx, hne⟩ := not_all_dummies (fun _ r hb => h₀.solved.basic r (stores_row hb)) hclean
    (fun v a hv => (h₀.solutions _).2 (hign.free v a ((h₀.solutions v).1 hv))) hnew.basic hart hartd
    hs hcoef (fun v hv hva => (h.solutions v).2 ⟨(h₀.solutions v).1 hv, hva⟩) hleft
  have hext : x.isExternal = false := by
    by_contra hext
    exact hne (h.split.rows art left hleft harti x (by simpa using hext))
  exact hne (Row.pivotable?_eq_none (h.solved.reduced left (stores_row hleft)) hpiv
    (Symbol.isPivotable_of_isDummy_eq_false hext hx))

/-! ## Adding a row -/

/-- The rule for adding a row by the artificial symbol, from what holds of the tableau and of
its goal after the optimization. In whichever way the symbol is taken out, the answer is whether
its least value is zero. -/
theorem ensures_addArtificially {steps : Nat} {I : Tableau Rat → Row Rat → Prop}
    {Q : Bool → Tableau Rat → Prop} {E : SolverError → Tableau Rat → Prop}
    (hopt : (optimize .artificial steps).Ensures (t.startArtificial t.artificialSymbol row)
      (fun _ u => ∃ g, u.artificial = some g ∧ I u g) E)
    (hforget : ∀ u g, I u g → u.rows.get? t.artificialSymbol = none →
      Q (decide (g.constant = 0)) (({ u with artificial := none } : Tableau Rat).forget t.artificialSymbol))
    (hdrop : ∀ u g left, I u g → u.rows.get? t.artificialSymbol = some left →
      left.cells.isEmpty = true → Q (decide (g.constant = 0))
        (({ u with artificial := none } : Tableau Rat).dropRow t.artificialSymbol))
    (hstuck : ∀ u g left, I u g → u.rows.get? t.artificialSymbol = some left →
      left.pivotable? = none →
        Q false (({ u with artificial := none } : Tableau Rat).dropRow t.artificialSymbol))
    (hpivot : ∀ u g left entering, I u g → u.rows.get? t.artificialSymbol = some left →
      left.pivotable? = some entering → (pivot t.artificialSymbol left entering).Ensures
        (({ u with artificial := none } : Tableau Rat).dropRow t.artificialSymbol)
        (fun _ u' => Q (decide (g.constant = 0)) (u'.forget t.artificialSymbol)) E) :
    (addArtificially steps row).Ensures t Q E := by
  refine Attempt.ensures_modifyGet_bind (Attempt.ensures_modify_bind (Attempt.ensures_bind ?_))
  refine hopt.mono ?_ fun _ _ he => he
  rintro - u ⟨g, hg, hu⟩
  have hfeas : (u.artificial.any fun goal => nearZero goal.constant) = decide (g.constant = 0) := by
    rw [hg]
    exact Bool.eq_iff_iff.2 (by simp)
  refine Attempt.ensures_get_bind (Attempt.ensures_modify_bind (Attempt.ensures_get_bind ?_))
  rw [hfeas]
  dsimp only
  rw [show (fresh .slack t).1 = t.artificialSymbol from rfl]
  cases hleft : u.rows.get? t.artificialSymbol with
  | none => exact Attempt.ensures_modify_bind (Attempt.ensures_pure (hforget u g hu hleft))
  | some left =>
    refine Attempt.ensures_modify_bind ?_
    by_cases hempty : left.cells.isEmpty = true
    · rw [if_pos hempty]
      exact Attempt.ensures_pure (hdrop u g left hu hleft hempty)
    · rw [if_neg hempty]
      cases hpiv : left.pivotable? with
      | none => exact Attempt.ensures_pure (hstuck u g left hu hleft hpiv)
      | some entering =>
        refine Attempt.ensures_bind ((hpivot u g left entering hu hleft hpiv).mono ?_
          fun _ _ he => he)
        intro _ u' hu'
        exact Attempt.ensures_modify_bind (Attempt.ensures_pure hu')

/-- The tableau `t₁` and its goal, once the artificial symbol is as small as it can be. -/
structure Lowest (t : Tableau Rat) (μ : Meaning) (row : Row Rat) (t₁ : Tableau Rat) (g : Row Rat) :
    Prop where
  ready : t₁.Ready (withArtificial μ t.artificialSymbol row)
  clean : t.Clean → t₁.Clean
  goal : t₁.artificial = some g
  minimal : g.Minimal

/-- What it answers to add the row, if the artificial symbol can be taken out where it is zero. -/
theorem Lowest.answer {t₁ : Tableau Rat} (h : t.Lowest μ row t₁ g) (hμ : μ.artificial = none)
    (hign : μ.Ignores t.artificialSymbol) (hunused : row.coefficient t.artificialSymbol = 0)
    (ht' : g.constant = 0 → t'.Ready
      (({ withArtificial μ t.artificialSymbol row with artificial := none } : Meaning).fixing
        t.artificialSymbol))
    (hc' : t₁.Clean → t'.Clean) :
    if decide (g.constant = 0) then
      t'.Ready { μ.adding row with symbolCount := μ.symbolCount + 1 } ∧ (t.Clean → t'.Clean)
    else t.Clean → ¬∃ v, (μ.adding row).solutions v ∧ Admissible v := by
  by_cases hz : g.constant = 0
  · rw [if_pos (decide_eq_true hz)]
    exact ⟨(ht' hz).of_fixing hμ hign hunused, fun hc => hc' (h.clean hc)⟩
  · rw [if_neg (by simpa using hz)]
    exact fun _ => h.ready.unsolvable_of_constant_ne hign hunused rfl h.goal h.minimal hz

/-- A row with a symbol that is no dummy is added by the artificial symbol, or no solution
with the right signs makes it zero. -/
theorem addArtificially_ensures (h : t.Ready μ) (hμ : μ.artificial = none) (hnew : t.NewRow row)
    (hint : row.Internal) (hign : μ.Ignores t.artificialSymbol) (hs : s.isDummy = false)
    (hcoef : row.coefficient s ≠ 0) (steps : Nat) :
    (addArtificially steps row).Ensures t
      (fun added t' =>
        if added then
          t'.Ready { μ.adding row with symbolCount := μ.symbolCount + 1 } ∧ (t.Clean → t'.Clean)
        else t.Clean → ¬∃ v, (μ.adding row).solutions v ∧ Admissible v)
      (fun e _ => e = .outOfSteps) := by
  let art := t.artificialSymbol
  have hobj (v : Assignment) (x : Rat) : μ.objective (Function.update v art x) = μ.objective v :=
    hign.objective v x
  have hstart := h.startArtificial hμ hnew.basic hnew.reduced hint hnew.nonneg hign hnew.unused
  refine ensures_addArtificially (I := t.Lowest μ row) ?optimize ?forget ?drop ?stuck ?pivot
  case optimize =>
    refine (optimize_ensures hstart steps).mono ?_ ?_
    · rintro - t₁ ⟨⟨h₁, hclean⟩, hmin⟩
      obtain ⟨g, hg, -⟩ := h₁.artificial_row
      exact ⟨g, hg, h₁, fun hc => hclean hc.startArtificial, hg, hmin g hg⟩
    · rintro e - (hout | ⟨-, hun⟩)
      · exact hout
      · exact absurd (bounded_withArtificial rfl) hun
  case forget =>
    intro t₁ g h₁ hleft
    have hnot : art ∉ t₁.rows.keys := OrderedMap.get?_eq_none_iff.1 hleft
    exact h₁.answer hμ hign hnew.unused
      (fun _ => h₁.ready.clearArtificial.forget hnot rfl hobj) fun hc => hc.forget art
  case drop =>
    intro t₁ g left h₁ hleft hempty
    have hconst := h₁.ready.constant_of_basic h₁.goal hleft
    refine h₁.answer hμ hign hnew.unused (fun hz => ?_) fun hc => hc.dropRow art
    refine h₁.ready.clearArtificial.dropZero hleft rfl (fun v => ?_) hobj
    rw [Row.eval_of_isEmpty hempty, hconst, hz]
  case stuck =>
    intro t₁ g left h₁ hleft hpiv hc
    exact absurd hpiv
      (h.pivotable?_ne_none hc hign hnew hnew.unused rfl rfl hs hcoef h₁.ready hleft)
  case pivot =>
    intro t₁ g left entering h₁ hleft hpiv
    have hconst := h₁.ready.constant_of_basic h₁.goal hleft
    have hred := h₁.ready.solved.reduced left (stores_row hleft)
    obtain ⟨hne, hpivotable⟩ := Row.pivotable?_eq_some hred hpiv
    have hdummy := Symbol.isDummy_of_isPivotable hpivotable
    obtain ⟨-, hea⟩ := h₁.ready.solved.ne_of_coefficient hleft hne
    refine pivot_ensures hred hea hne fun solved hsolve => ?_
    exact h₁.answer hμ hign hnew.unused
      (fun hz => h₁.ready.clearArtificial.pivotOut hleft (hconst.trans hz) rfl rfl hne hsolve hobj)
      fun hc => (hc.pivot hdummy).forget art

end Tableau

end BoxLayout
