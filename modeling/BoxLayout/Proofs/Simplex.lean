-- SUMMARY: The primal and the dual loop: what their steps keep, when they fail, and what holds when they end.
import BoxLayout.Proofs.Ensures
import BoxLayout.Proofs.Feasible

/-!
# The simplex loops

A primal step keeps a tableau ready and keeps its meaning. It fails only if the goal
could be lowered without end, which a goal that is never negative rules out. When the
loop ends, the goal cannot be lowered by any symbol that is no dummy.

A dual step keeps the meaning of a tableau whose goal cannot be lowered, while rows
with negative constants wait on the list of infeasible ones (`Mending`). It fails only
if no solution has the right signs. When the loop ends, the tableau is ready.

The dummy-keyed rows of a tableau deserve a word. A dummy becomes basic when a required
equality follows from others. As long as such a row consists of dummies alone, with
constant zero (`Clean`), no pivot of either loop touches it.
-/

namespace BoxLayout

/-- No slack, error or dummy symbol is negative. -/
def Nonneg (v : Assignment) : Prop := ∀ s : Symbol, s.isExternal = false → 0 ≤ v s

/-- The signs are right: no slack or error symbol is negative and every dummy is zero. -/
structure Admissible (v : Assignment) : Prop where
  nonneg : Nonneg v
  dummy : ∀ s : Symbol, s.isDummy = true → v s = 0

/-- No symbol but a dummy lowers the row. -/
def Row.Minimal (r : Row Rat) : Prop := ∀ s, s.isDummy = false → 0 ≤ r.coefficient s

theorem Symbol.isExternal_of_isDummy {s : Symbol} (h : s.isDummy = true) : s.isExternal = false := by
  unfold isDummy at h
  unfold isExternal
  rw [of_decide_eq_true h]
  rfl

/-- A symbol that is neither external nor a slack or error symbol is a dummy. -/
theorem Symbol.isPivotable_of_isDummy_eq_false {s : Symbol} (hext : s.isExternal = false)
    (h : s.isDummy = false) : s.isPivotable = true := by
  obtain ⟨kind, n⟩ := s
  cases kind with
  | external => cases hext
  | slack => rfl
  | error => rfl
  | dummy => cases h

theorem Symbol.isDummy_of_isPivotable {s : Symbol} (h : s.isPivotable = true) :
    s.isDummy = false := by
  obtain ⟨kind, n⟩ := s
  cases kind with
  | external => cases h
  | slack => rfl
  | error => rfl
  | dummy => cases h

/-- A row that only dummies lower is least where all its symbols are zero. -/
theorem Row.Minimal.constant_le {r : Row Rat} {v : Assignment} (h : r.Minimal) (hint : r.Internal)
    (hv : Admissible v) : r.constant ≤ r.eval v := by
  apply Row.constant_le_eval
  intro s
  cases hd : s.isDummy with
  | true => rw [hv.dummy s hd, mul_zero]
  | false =>
    cases hs : s.isExternal with
    | true => rw [hint s hs, zero_mul]
    | false => exact mul_nonneg (h s hd) (hv.nonneg s hs)

/-- What a primal loop minimises, in the meaning of a tableau. -/
def Meaning.goal? (μ : Meaning) : Tableau.Goal → Option (Assignment → Rat)
  | .primary => some μ.objective
  | .artificial => μ.artificial

/-- The goal is never negative where no slack, error or dummy symbol is. -/
def Meaning.Bounded (μ : Meaning) (goal : Tableau.Goal) : Prop :=
  ∀ G, μ.goal? goal = some G → ∀ v, μ.solutions v → Nonneg v → 0 ≤ G v

namespace Tableau

variable {t : Tableau Rat} {μ : Meaning} {s b leaving entering : Symbol} {r row g : Row Rat}
  {goal : Goal}

/-! ## Goals -/

theorem Means.goalRow (h : t.Means μ) (hg : t.goalRow? goal = some g) :
    t.Stores g ∧ ∃ G d, μ.goal? goal = some G ∧ ∀ v, μ.solutions v → g.eval v = G v + d := by
  cases goal with
  | primary =>
    obtain rfl := Option.some.inj hg
    obtain ⟨d, hd⟩ := h.objective
    exact ⟨stores_objective, μ.objective, d, rfl, hd⟩
  | artificial =>
    have hart := h.artificial
    change t.artificial = some g at hg
    rw [hg] at hart
    cases hG : μ.artificial with
    | none => rw [hG] at hart; cases hart
    | some G =>
      rw [hG] at hart
      cases hart with
      | some hval =>
        exact ⟨stores_artificial hg, G, 0, hG, fun v hv => by rw [hval v hv, add_zero]⟩

/-- The solution in which all non-basic symbols but `s` are zero. -/
theorem completion_single (hb : t.rows.get? b = some row) (x : Rat) :
    t.completion (Function.update (fun _ => 0) s x) b = row.constant + row.coefficient s * x := by
  rw [completion_basic hb, Row.eval_update, ← Row.constant_eq_eval]
  ring

/-- If no row limits the increase of a symbol, a row over non-basic symbols that falls with
it falls without end. -/
theorem leavingRow?_ne_none (hrows : ∀ b r, t.rows.get? b = some r →
      ∀ x ∈ t.rows.keys, r.coefficient x = 0) (hfeas : t.Feasible)
    (hg : ∀ x ∈ t.rows.keys, g.coefficient x = 0) (hs : g.coefficient s < 0) {least : Rat}
    (hbound : ∀ v, t.Satisfies v → Nonneg v → least ≤ g.eval v) : t.leavingRow? s ≠ none := by
  intro hnone
  have hnot : s ∉ t.rows.keys := fun hmem => hs.ne (hg s hmem)
  let far : Rat := (|g.constant - least| + 1) / -g.coefficient s
  have hfar : 0 ≤ far := div_nonneg (by positivity) (by linarith)
  let v : Assignment := t.completion (Function.update (fun _ => 0) s far)
  have hnonneg : Nonneg v := by
    intro b hb
    cases hrow : t.rows.get? b with
    | none =>
      change 0 ≤ t.completion _ b
      rw [completion_nonbasic (OrderedMap.get?_eq_none_iff.1 hrow)]
      by_cases hbs : b = s
      · rw [hbs, Function.update_self]
        exact hfar
      · rw [Function.update_of_ne hbs]
    | some row =>
      change 0 ≤ t.completion _ b
      rw [completion_single hrow]
      have hcoef := leavingRow?_eq_none hnone hrow hb
      have hconst := hfeas b row hrow hb
      positivity
  have hvalue : g.eval v = g.constant - (|g.constant - least| + 1) := by
    rw [eval_completion hg, Row.eval_update, ← Row.constant_eq_eval]
    have hmul : g.coefficient s * far = -(|g.constant - least| + 1) := by
      have hne : g.coefficient s ≠ 0 := hs.ne
      change g.coefficient s * (_ / _) = _
      field_simp
    linarith
  have hpos := hbound v (satisfies_completion hrows _) hnonneg
  have habs := le_abs_self (g.constant - least)
  linarith

/-- A bounded goal does not fall without end. -/
theorem Ready.leavingRow?_ne_none (h : t.Ready μ) (hbound : μ.Bounded goal)
    (hg : t.goalRow? goal = some g) (hs : g.coefficient s < 0) : t.leavingRow? s ≠ none := by
  obtain ⟨hstored, G, d, hG, hval⟩ := h.goalRow hg
  refine Tableau.leavingRow?_ne_none (fun _ r hb => h.solved.basic r (stores_row hb)) h.feasible
    (h.solved.basic g hstored) hs fun v hv hnonneg => (?_ : d ≤ g.eval v)
  have hsol := (h.solutions v).1 hv
  linarith [hbound G hG v hsol hnonneg, hval v hsol]

/-! ## Pivots -/

theorem pivot_ensures {Q : Unit → Tableau Rat → Prop} {E : SolverError → Tableau Rat → Prop}
    (hred : row.Reduced) (hne : entering ≠ leaving) (he : row.coefficient entering ≠ 0)
    (h : ∀ solved, Row.Solves solved (row.addSymbol leaving (-1)) entering →
      Q () (t.install entering solved)) :
    (pivot leaving row entering).Ensures t Q E := by
  have hcoef : (row.addSymbol leaving (-1)).coefficient entering ≠ 0 := by
    rwa [coefficient_addSymbol_of_ne _ hne]
  obtain ⟨solved, hok, hsolve⟩ := Row.solveFor_ok (hred.addSymbol leaving (-1)) hcoef
  unfold pivot Row.exchange
  rw [hok]
  exact h solved hsolve

/-! ## Rows of dummies -/

/-- Every dummy-keyed row consists of dummies alone and has constant zero. -/
def Clean (t : Tableau Rat) : Prop :=
  ∀ d row, t.rows.get? d = some row → d.isDummy = true →
    row.constant = 0 ∧ ∀ s, s.isDummy = false → row.coefficient s = 0

theorem Clean.dropRow (h : t.Clean) (m : Symbol) : (t.dropRow m).Clean :=
  fun d row hd => h d row (get?_of_dropRow hd).2

/-- Replacing a symbol that no dummy-keyed row mentions does not change these rows. -/
theorem Clean.install (h : t.Clean) (hs : s.isDummy = true → row.constant = 0 ∧
      ∀ x, x.isDummy = false → row.coefficient x = 0)
    (habsent : ∀ d r, t.rows.get? d = some r → d.isDummy = true → r.coefficient s = 0) :
    (t.install s row).Clean := by
  intro d r hd hdummy
  rw [get?_install] at hd
  split at hd
  · next hds =>
    obtain rfl := Option.some.inj hd
    exact hs (hds ▸ hdummy)
  · obtain ⟨r₀, hr₀, rfl⟩ := Option.map_eq_some_iff.1 hd
    have hzero := habsent d r₀ hr₀ hdummy
    obtain ⟨hconst, hcells⟩ := h d r₀ hr₀ hdummy
    refine ⟨?_, fun x hx => ?_⟩
    · rw [Row.constant_substitute, hzero, zero_mul, add_zero, hconst]
    · rw [Row.coefficient_substitute, hzero, zero_mul, add_zero, hcells x hx]

theorem Clean.pivot (h : t.Clean) (hs : entering.isDummy = false) :
    ((t.dropRow leaving).install entering row).Clean := by
  refine (h.dropRow leaving).install (fun hd => ?_) fun d r hd hdummy => ?_
  · rw [hs] at hd
    cases hd
  · exact (h d r (get?_of_dropRow hd).2 hdummy).2 entering hs

/-! ## The primal loop -/

theorem primalStep_ensures (h : t.Ready μ) :
    (primalStep goal).Ensures t
      (fun more t' => if more then t'.Ready μ ∧ (t.Clean → t'.Clean)
        else (t'.Ready μ ∧ (t.Clean → t'.Clean)) ∧ ∀ g, t'.goalRow? goal = some g → g.Minimal)
      (fun e _ => e = .internal .unbounded ∧ ¬μ.Bounded goal) := by
  refine Attempt.ensures_get_bind ?_
  cases hg : t.goalRow? goal with
  | none => exact ⟨⟨h, id⟩, fun g hg' => by rw [hg] at hg'; cases hg'⟩
  | some g =>
    rw [Option.bind_some]
    cases hdesc : g.descent? with
    | none =>
      refine ⟨⟨h, id⟩, fun g' hg' s hs => ?_⟩
      rw [hg] at hg'
      obtain rfl := Option.some.inj hg'
      exact Row.descent?_eq_none hdesc hs
    | some entering =>
      obtain ⟨hneg, hdummy⟩ := Row.descent?_eq_some hdesc
      dsimp only
      cases hleave : t.leavingRow? entering with
      | none => exact ⟨rfl, fun hbound => h.leavingRow?_ne_none hbound hg hneg hleave⟩
      | some found =>
        obtain ⟨leaving, row⟩ := found
        obtain ⟨hrow, hint, hcoef, -⟩ := leavingRow?_eq_some hleave
        obtain ⟨-, hne⟩ := h.solved.ne_of_coefficient hrow hcoef.ne
        have hconst := h.feasible leaving row hrow hint
        have hratio : row.constant / row.coefficient entering ≤ 0 :=
          div_nonpos_of_nonneg_of_nonpos hconst hcoef.le
        refine Attempt.ensures_modify_bind ?_
        refine Attempt.ensures_bind ?_
        refine pivot_ensures (h.solved.reduced row (stores_row hrow)) hne hcoef.ne ?_
        intro solved hsolve
        refine ⟨h.pivot hrow hint hcoef.ne hsolve ?_ ?_, fun hclean => hclean.pivot hdummy⟩
        · rw [neg_div]
          linarith
        · exact fun b r hb hbi => feasible_of_leavingRow? hleave h.feasible hb hbi

/-- The primal loop keeps the meaning, and ends only where the goal cannot be lowered. -/
theorem optimize_ensures (h : t.Ready μ) (steps : Nat) :
    (optimize goal steps).Ensures t
      (fun _ t' => (t'.Ready μ ∧ (t.Clean → t'.Clean)) ∧ ∀ g, t'.goalRow? goal = some g → g.Minimal)
      (fun e _ => e = .outOfSteps ∨ e = .internal .unbounded ∧ ¬μ.Bounded goal) := by
  refine Attempt.ensures_loop (I := fun t' => t'.Ready μ ∧ (t.Clean → t'.Clean)) ?_ ?_ steps ⟨h, id⟩
  · rintro t' ⟨h', hclean⟩
    refine (primalStep_ensures h').mono ?_ (fun _ _ hf => Or.inr hf)
    intro more t'' hstep
    cases more with
    | true => exact ⟨hstep.1, fun hc => hstep.2 (hclean hc)⟩
    | false => exact ⟨⟨hstep.1.1, fun hc => hstep.1.2 (hclean hc)⟩, hstep.2⟩
  · intro _ _
    exact Or.inl rfl

/-! ## The dual loop -/

/-- The goal cannot be lowered, and the rows with negative constants wait to be mended. -/
structure Mending (t : Tableau Rat) (μ : Meaning) : Prop extends t.Means μ where
  split : t.Split
  minimal : t.objective.Minimal
  queued : ∀ b row, t.rows.get? b = some row → b.isExternal = false → row.constant < 0 →
    b ∈ t.infeasible
  internal : ∀ b ∈ t.infeasible, b.isExternal = false

/-- A row that waits is mended, needs no mending, or is no row any more. -/
theorem Mending.skip {waiting : List Symbol} (h : t.Mending μ) (hq : t.infeasible = leaving :: waiting)
    (hnone : ∀ row, t.rows.get? leaving = some row → 0 ≤ row.constant) :
    ({ t with infeasible := waiting } : Tableau Rat).Mending μ := by
  refine ⟨⟨h.symbolCount, ⟨h.solved.reduced, h.solved.basic⟩, h.solutions, h.objective,
    h.artificial⟩, ⟨h.split.rows, h.split.objective, h.split.artificial⟩, h.minimal, ?_, ?_⟩
  · intro b row hb hint hneg
    have hmem := h.queued b row hb hint hneg
    rw [hq] at hmem
    obtain rfl | hmem := List.mem_cons.1 hmem
    · linarith [hnone row hb]
    · exact hmem
  · intro b hb
    exact h.internal b (by rw [hq]; exact List.mem_cons_of_mem _ hb)

/-- A goal that cannot be lowered stays so if the cheapest symbol enters. -/
theorem minimal_pivot {objective solved : Row Rat} (h : objective.Minimal)
    (hl : objective.coefficient leaving = 0) (hrl : row.coefficient leaving = 0)
    (hne : entering ≠ leaving) (hpos : 0 < row.coefficient entering)
    (hsolve : solved.Solves (row.addSymbol leaving (-1)) entering)
    (hdummy : entering.isDummy = false)
    (hleast : ∀ s, 0 < row.coefficient s → s.isDummy = false →
      objective.coefficient entering / row.coefficient entering
        ≤ objective.coefficient s / row.coefficient s) :
    (objective.substitute entering solved).Minimal := by
  intro x hx
  have hk := coefficient_addSymbol_of_ne row hne (-1)
  have hcost : 0 ≤ objective.coefficient entering / row.coefficient entering :=
    div_nonneg (h entering hdummy) hpos.le
  rw [Row.coefficient_substitute, hsolve.coefficient, hk, Row.coefficient_addSymbol]
  by_cases hxl : x = leaving
  · subst hxl
    rw [hl, hrl, if_pos rfl]
    have heq : (0 : Rat) + objective.coefficient entering *
        ((if x = entering then 1 else 0) - (0 + -1) / row.coefficient entering
          - if x = entering then 1 else 0)
        = objective.coefficient entering / row.coefficient entering := by ring
    rw [heq]
    exact hcost
  · have heq : objective.coefficient x + objective.coefficient entering *
        ((if x = entering then 1 else 0) - (row.coefficient x + if x = leaving then -1 else 0)
          / row.coefficient entering - if x = entering then 1 else 0)
        = objective.coefficient x
          - objective.coefficient entering / row.coefficient entering * row.coefficient x := by
      rw [if_neg hxl]
      ring
    rw [heq]
    rcases lt_or_ge 0 (row.coefficient x) with hgt | hle
    · have hmul := mul_le_mul_of_nonneg_right (hleast x hgt hx) hgt.le
      rw [div_mul_cancel₀ _ hgt.ne'] at hmul
      linarith
    · have hxpos := h x hx
      nlinarith

/-- Mending a row by the cheapest symbol that can. -/
theorem Mending.pivot {waiting : List Symbol} {solved : Row Rat} (h : t.Mending μ)
    (hq : t.infeasible = leaving :: waiting) (hrow : t.rows.get? leaving = some row)
    (hneg : row.constant < 0) (henter : t.enteringSymbol? row = some entering)
    (hsolve : solved.Solves (row.addSymbol leaving (-1)) entering) :
    ((({ t with infeasible := waiting } : Tableau Rat).dropRow leaving).install entering
      solved).Mending μ := by
  have hint : leaving.isExternal = false := h.internal leaving (by rw [hq]; exact List.mem_cons_self)
  have hred := h.solved.reduced row (stores_row hrow)
  obtain ⟨hpos, hdummy, hleast⟩ := enteringSymbol?_eq_some hred henter
  obtain ⟨-, hne⟩ := h.solved.ne_of_coefficient hrow hpos.ne'
  have hrowint := h.split.rows leaving row hrow hint
  have hkept : ({ t with infeasible := waiting } : Tableau Rat).Means μ :=
    ⟨h.symbolCount, ⟨h.solved.reduced, h.solved.basic⟩, h.solutions, h.objective, h.artificial⟩
  have hsplit : ({ t with infeasible := waiting } : Tableau Rat).Split :=
    ⟨h.split.rows, h.split.objective, h.split.artificial⟩
  have hleaving := mem_keys hrow
  have hwaiting (b : Symbol) (hb : b ∈ waiting) : b.isExternal = false :=
    h.internal b (by rw [hq]; exact List.mem_cons_of_mem _ hb)
  refine ⟨hkept.pivot hrow hpos.ne' hsolve, ?_, ?_, ?_, ?_⟩
  · exact (hsplit.dropRow leaving).install hsolve fun _ => hrowint.addSymbol hint (-1)
  · exact minimal_pivot h.minimal (h.solved.basic _ stores_objective leaving hleaving)
      (h.solved.basic row (stores_row hrow) leaving hleaving) hne hpos hsolve hdummy hleast
  · intro b r hb hbi hbneg
    rw [get?_install] at hb
    split at hb
    · obtain rfl := Option.some.inj hb
      have hk := coefficient_addSymbol_of_ne row hne (-1)
      rw [hsolve.constant, hk] at hbneg
      have hgood : 0 ≤ -(row.addSymbol leaving (-1)).constant / row.coefficient entering :=
        div_nonneg (by rw [Row.constant_addSymbol]; linarith) hpos.le
      linarith
    · rw [← get?_substitute] at hb
      exact mem_infeasible_substitute hb hbi hbneg
  · intro b hb
    obtain hbi | hb := isExternal_of_infeasible hb
    · exact hbi
    · exact hwaiting b hb

/-- A row with a negative constant that no symbol can mend has no solution with the
right signs. -/
theorem Mending.unsolvable (h : t.Mending μ) (hrow : t.rows.get? leaving = some row)
    (hint : leaving.isExternal = false) (hneg : row.constant < 0)
    (henter : t.enteringSymbol? row = none) : ¬∃ v, μ.solutions v ∧ Admissible v := by
  rintro ⟨v, hv, hadm⟩
  have hred := h.solved.reduced row (stores_row hrow)
  have hvalue := (h.solutions v).2 hv leaving row hrow
  have hle : row.negate.constant ≤ row.negate.eval v := by
    apply Row.constant_le_eval
    intro s
    rw [Row.coefficient_negate]
    cases hd : s.isDummy with
    | true => rw [hadm.dummy s hd, mul_zero]
    | false =>
      cases hs : s.isExternal with
      | true => rw [h.split.rows leaving row hrow hint s hs, neg_zero, zero_mul]
      | false =>
        have hcoef := enteringSymbol?_eq_none hred henter hd
        exact mul_nonneg (by linarith) (hadm.nonneg s hs)
  rw [Row.eval_negate] at hle
  change -row.constant ≤ _ at hle
  have hpos := hadm.nonneg leaving hint
  linarith

theorem dualStep_ensures (h : t.Mending μ) :
    dualStep.Ensures t
      (fun more t' => if more then t'.Mending μ ∧ (t.Clean → t'.Clean)
        else (t'.Ready μ ∧ (t.Clean → t'.Clean)) ∧ t'.objective.Minimal)
      (fun e _ => e = .internal .noEnteringSymbol ∧ ¬∃ v, μ.solutions v ∧ Admissible v) := by
  refine Attempt.ensures_get_bind ?_
  cases hq : t.infeasible with
  | nil =>
    refine ⟨⟨⟨h.toMeans, h.split, ?_, hq⟩, id⟩, h.minimal⟩
    intro b row hb hint
    by_contra hneg
    have hmem := h.queued b row hb hint (not_le.1 hneg)
    rw [hq] at hmem
    cases hmem
  | cons leaving waiting =>
    refine Attempt.ensures_set_bind ?_
    cases hrow : t.rows.get? leaving with
    | none =>
      refine ⟨h.skip hq ?_, id⟩
      intro row hrow'
      rw [hrow] at hrow'
      cases hrow'
    | some row =>
      dsimp only
      by_cases hneg : row.constant < 0
      · have hcond : (decide (row.constant < 0) && !nearZero row.constant) = true := by
          have hz : ¬nearZero row.constant = true := fun hz => hneg.ne (nearZero_iff.1 hz)
          simp [hneg, hz]
        rw [if_pos hcond]
        cases henter : t.enteringSymbol? row with
        | none =>
          have hint := h.internal leaving (by rw [hq]; exact List.mem_cons_self)
          exact ⟨rfl, h.unsolvable hrow hint hneg henter⟩
        | some entering =>
          have hred := h.solved.reduced row (stores_row hrow)
          obtain ⟨hpos, hdummy, -⟩ := enteringSymbol?_eq_some hred henter
          obtain ⟨-, hne⟩ := h.solved.ne_of_coefficient hrow hpos.ne'
          refine Attempt.ensures_modify_bind ?_
          refine Attempt.ensures_bind ?_
          refine pivot_ensures hred hne hpos.ne' fun solved hsolve => ?_
          exact ⟨h.pivot hq hrow hneg henter hsolve, fun hclean => Clean.pivot hclean hdummy⟩
      · have hcond : ¬(decide (row.constant < 0) && !nearZero row.constant) = true := by
          simp [hneg]
        rw [if_neg hcond]
        refine ⟨h.skip hq fun row' hrow' => ?_, id⟩
        rw [hrow] at hrow'
        obtain rfl := Option.some.inj hrow'
        exact not_lt.1 hneg

/-- The dual loop keeps the meaning and ends with nothing left to mend. It gets stuck
only if no solution has the right signs. -/
theorem restore_ensures (h : t.Mending μ) (steps : Nat) :
    (restore steps).Ensures t
      (fun _ t' => (t'.Ready μ ∧ (t.Clean → t'.Clean)) ∧ t'.objective.Minimal)
      (fun e _ => e = .outOfSteps ∨
        e = .internal .noEnteringSymbol ∧ ¬∃ v, μ.solutions v ∧ Admissible v) := by
  refine Attempt.ensures_loop (I := fun t' => t'.Mending μ ∧ (t.Clean → t'.Clean)) ?_ ?_ steps
    ⟨h, id⟩
  · rintro t' ⟨h', hclean⟩
    refine (dualStep_ensures h').mono ?_ (fun _ _ hf => Or.inr hf)
    intro more t'' hstep
    cases more with
    | true => exact ⟨hstep.1, fun hc => hstep.2 (hclean hc)⟩
    | false => exact ⟨⟨hstep.1.1, fun hc => hstep.1.2 (hclean hc)⟩, hstep.2⟩
  · intro _ _
    exact Or.inl rfl

end Tableau

end BoxLayout
