-- SUMMARY: The primal loop goes downhill: what each pivot keeps, what it gains, and how a run can fail to end.
import Mathlib.Data.Fintype.Pigeonhole
import BoxLayout.Proofs.Pivots
import BoxLayout.Proofs.Simplex

/-!
# The descent of the primal loop

A tableau is poised for a goal if its rows and the goal are resolved and feasible. A pivot
of the primal loop keeps it so, keeps the solutions, and lowers the constant of the goal by
the coefficient of the entering symbol times the least ratio.

The basic symbols determine that constant: it is the value of the goal at the solution where
all others are zero. A goal that has been lowered therefore never comes back to a basis. A
pivot that does not lower the goal is degenerate, its row has the constant zero. Since
pivots bring in no new symbols there are finitely many bases, so that a loop that does not
end is at last degenerate forever and comes back to its bases.
-/

namespace BoxLayout.Tableau

variable {t u t' : Tableau Rat} {goal : Goal} {g row solved : Row Rat}
  {entering leaving : Symbol} {run : Nat → Tableau Rat} {n : Nat}

/-! ## Poised tableaux -/

/-- The rows and the goal are over non-basic symbols, and external symbols and negative
constants occur only in the rows of external symbols. -/
structure Poised (goal : Goal) (t : Tableau Rat) : Prop where
  resolved : t.ResolvedRows
  goalResolved : ∀ g, t.goalRow? goal = some g → t.Resolved g
  feasible : t.Feasible
  restricted : t.RestrictedRows
  goalRestricted : ∀ g, t.goalRow? goal = some g → g.Restricted

/-- The pivot that a primal step takes: the goal falls with `entering`, and the row of
`leaving` limits that. -/
structure Chooses (goal : Goal) (t : Tableau Rat) (g : Row Rat) (entering leaving : Symbol)
    (row : Row Rat) : Prop where
  goalRow : t.goalRow? goal = some g
  falls : g.descent? = some entering
  limits : t.leavingRow? entering = some (leaving, row)

/-- The next pivot is on a row with the constant zero. -/
def Degenerate (goal : Goal) (t : Tableau Rat) : Prop :=
  ∃ g entering leaving row, t.Chooses goal g entering leaving row ∧ row.constant = 0

/-- A primal step pivots, or it changes nothing. -/
theorem primalStep_cases (goal : Goal) (h : t.ResolvedRows) :
    (primalStep goal t = .ok false t ∧ ∀ g, t.goalRow? goal = some g → g.descent? = none) ∨
    (primalStep goal t = .error (.internal .unbounded) t ∧
      ∃ g s, t.goalRow? goal = some g ∧ g.descent? = some s ∧ t.leavingRow? s = none) ∨
    ∃ g entering leaving row solved, t.Chooses goal g entering leaving row ∧
      t.Pivots leaving entering row solved ∧
      primalStep goal t = .ok true (t.exchanged leaving entering solved) := by
  unfold primalStep
  rw [Attempt.get_bind_run]
  cases hg : t.goalRow? goal with
  | none => exact Or.inl ⟨rfl, fun g hg => by cases hg⟩
  | some g =>
    rw [Option.bind_some]
    cases hs : g.descent? with
    | none =>
      refine Or.inl ⟨rfl, fun g' hg' => ?_⟩
      obtain rfl := Option.some.inj hg'
      exact hs
    | some entering =>
      dsimp only
      cases hleave : t.leavingRow? entering with
      | none => exact Or.inr (Or.inl ⟨rfl, g, entering, rfl, hs, hleave⟩)
      | some found =>
        obtain ⟨leaving, row⟩ := found
        obtain ⟨hrow, -, hcoef, -⟩ := leavingRow?_eq_some hleave
        obtain ⟨solved, hok, hpivots⟩ := exists_pivots h hrow hcoef.ne
        refine Or.inr (Or.inr ⟨g, entering, leaving, row, solved, ⟨hg, hs, hleave⟩, hpivots, ?_⟩)
        dsimp only
        unfold pivot
        rw [Attempt.modify_bind_run, hok]
        rfl

/-- A primal step that goes on has pivoted. -/
theorem pivots_of_primalStep (h : t.ResolvedRows) (hstep : primalStep goal t = .ok true u) :
    ∃ g entering leaving row solved, t.Chooses goal g entering leaving row ∧
      t.Pivots leaving entering row solved ∧ u = t.exchanged leaving entering solved := by
  obtain ⟨heq, -⟩ | ⟨heq, -⟩ | ⟨g, entering, leaving, row, solved, hc, hp, heq⟩ :=
    primalStep_cases goal h
  · rw [hstep] at heq
    cases heq
  · rw [hstep] at heq
    cases heq
  · rw [hstep] at heq
    cases heq
    exact ⟨g, entering, leaving, row, solved, hc, hp, rfl⟩

theorem goalRow?_exchanged : (t.exchanged leaving entering solved).goalRow? goal
    = (t.goalRow? goal).map fun g => g.substitute entering solved := by
  cases goal with
  | primary => rfl
  | artificial => rfl

/-- A primal step keeps a tableau poised. -/
theorem Poised.exchanged (h : t.Poised goal) (hc : t.Chooses goal g entering leaving row)
    (hp : t.Pivots leaving entering row solved) :
    (t.exchanged leaving entering solved).Poised goal := by
  obtain ⟨hrow, hint, hcoef, -⟩ := leavingRow?_eq_some hc.limits
  have hnew : 0 ≤ -row.constant / row.coefficient entering :=
    div_nonneg_of_nonpos (neg_nonpos.2 (h.feasible leaving row hrow hint)) hcoef.le
  refine ⟨hp.resolvedRows, fun g' hg' => ?_,
    hp.feasible hnew fun b r hb hbi => feasible_of_leavingRow? hc.limits h.feasible hb hbi,
    hp.restrictedRows h.restricted hint, fun g' hg' => ?_⟩
  all_goals
    rw [goalRow?_exchanged, hc.goalRow] at hg'
    obtain rfl := Option.some.inj hg'
  · exact hp.resolved_substitute (h.goalResolved g hc.goalRow)
  · exact hp.restricted_substitute h.restricted hint (h.goalRestricted g hc.goalRow)

/-- The least ratio is no step back, and it is a step if the row has a positive constant. -/
theorem Chooses.gain (h : t.Poised goal) (hc : t.Chooses goal g entering leaving row) :
    g.coefficient entering * (-row.constant / row.coefficient entering) ≤ 0 ∧
      (0 < row.constant →
        g.coefficient entering * (-row.constant / row.coefficient entering) < 0) := by
  obtain ⟨hrow, hint, hcoef, -⟩ := leavingRow?_eq_some hc.limits
  obtain ⟨hneg, -⟩ := Row.descent?_eq_some hc.falls
  have hconst := h.feasible leaving row hrow hint
  constructor
  · exact mul_nonpos_of_nonpos_of_nonneg hneg.le
      (div_nonneg_of_nonpos (neg_nonpos.2 hconst) hcoef.le)
  · intro hpos
    exact mul_neg_of_neg_of_pos hneg (div_pos_of_neg_of_neg (neg_neg_of_pos hpos) hcoef)

/-! ## The goal and the basis -/

/-- The value of the goal under an assignment, zero without a goal. -/
def goalValue (goal : Goal) (t : Tableau Rat) (v : Assignment) : Rat :=
  (t.goalRow? goal).elim 0 (Row.eval v)

/-- The constant of the goal, zero without a goal. -/
def goalConstant (goal : Goal) (t : Tableau Rat) : Rat := (t.goalRow? goal).elim 0 Row.constant

/-- The basic symbols. -/
def basis (t : Tableau Rat) : Finset Symbol := t.rows.keys.toFinset

theorem goalConstant_eq (h : t.goalRow? goal = some g) : t.goalConstant goal = g.constant := by
  unfold goalConstant
  rw [h]
  rfl

/-- The constant of a resolved goal is its value where all non-basic symbols are zero. -/
theorem Poised.goalConstant_eq_value (h : t.Poised goal) :
    t.goalConstant goal = t.goalValue goal (t.completion fun _ => 0) := by
  unfold goalConstant goalValue
  cases hg : t.goalRow? goal with
  | none => rfl
  | some g =>
    change g.constant = g.eval _
    rw [(h.goalResolved g hg).eval_completion, ← Row.constant_eq_eval]

/-- The tableau says of the goal and of the symbols what an earlier one said. -/
structure Continues (goal : Goal) (t u : Tableau Rat) : Prop where
  poised : u.Poised goal
  solutions : ∀ v, u.Satisfies v ↔ t.Satisfies v
  value : ∀ v, t.Satisfies v → u.goalValue goal v = t.goalValue goal v
  within : ∀ P, t.Within P → u.Within P

theorem Poised.continues (h : t.Poised goal) : t.Continues goal t :=
  ⟨h, fun _ => Iff.rfl, fun _ _ => rfl, fun _ hP => hP⟩

theorem Continues.step (h : t.Continues goal u) (hstep : primalStep goal u = .ok true t') :
    t.Continues goal t' := by
  obtain ⟨g, entering, leaving, row, solved, hc, hp, rfl⟩ :=
    pivots_of_primalStep h.poised.resolved hstep
  refine ⟨h.poised.exchanged hc hp, fun v => hp.satisfies_iff.trans (h.solutions v),
    fun v hv => ?_, fun P hP => hp.within (h.within P hP)⟩
  rw [← h.value v hv]
  unfold goalValue
  rw [goalRow?_exchanged, hc.goalRow]
  exact hp.eval_substitute ((h.solutions v).2 hv) g

/-- The basis determines the constant of the goal. -/
theorem Continues.goalConstant_eq (h : t.Continues goal u) (h' : t.Continues goal t')
    (hbasis : u.basis = t'.basis) : u.goalConstant goal = t'.goalConstant goal := by
  have hkeys (s : Symbol) : s ∈ u.rows.keys ↔ s ∈ t'.rows.keys := by
    unfold basis at hbasis
    rw [← List.mem_toFinset, hbasis, List.mem_toFinset]
  -- the solution of one tableau where all non-basic symbols are zero is that of the other
  have hsame : u.completion (fun _ => 0) = t'.completion fun _ => 0 := by
    have hsol := h.poised.resolved.satisfies_completion fun _ => 0
    rw [← ((h'.solutions _).2 ((h.solutions _).1 hsol)).completion_eq]
    refine completion_congr h'.poised.resolved.coefficient fun s hs => ?_
    exact completion_nonbasic fun hmem => hs ((hkeys s).1 hmem)
  have hsol := (h.solutions _).1 (h.poised.resolved.satisfies_completion fun _ => 0)
  rw [h.poised.goalConstant_eq_value, h.value _ hsol, hsame,
    h'.poised.goalConstant_eq_value, h'.value _ (hsame ▸ hsol)]

/-- One pivot moves the constant of the goal by the coefficient of the entering symbol times
the least ratio. -/
theorem Chooses.goalConstant_exchanged (hc : t.Chooses goal g entering leaving row)
    (hp : t.Pivots leaving entering row solved) :
    (t.exchanged leaving entering solved).goalConstant goal
      = g.constant + g.coefficient entering * (-row.constant / row.coefficient entering) := by
  have hg : (t.exchanged leaving entering solved).goalRow? goal
      = some (g.substitute entering solved) := by
    rw [goalRow?_exchanged, hc.goalRow, Option.map_some]
  rw [Tableau.goalConstant_eq hg, hp.constant_substitute]

theorem Poised.goalConstant_step (h : t.Poised goal) (hstep : primalStep goal t = .ok true u) :
    u.goalConstant goal ≤ t.goalConstant goal ∧
      (¬t.Degenerate goal → u.goalConstant goal < t.goalConstant goal) := by
  obtain ⟨g, entering, leaving, row, solved, hc, hp, rfl⟩ := pivots_of_primalStep h.resolved hstep
  obtain ⟨hle, hlt⟩ := hc.gain h
  rw [hc.goalConstant_exchanged hp, Tableau.goalConstant_eq hc.goalRow]
  refine ⟨by linarith, fun hdeg => ?_⟩
  obtain ⟨hrow, hint, -, -⟩ := leavingRow?_eq_some hc.limits
  have hne : row.constant ≠ 0 := fun hz => hdeg ⟨g, entering, leaving, row, hc, hz⟩
  have hpos := hlt ((h.feasible leaving row hrow hint).lt_of_ne' hne)
  linarith

/-! ## Runs -/

/-- Each of the first `n` tableaux goes over into the next by a pivot. -/
def Runs (goal : Goal) (run : Nat → Tableau Rat) (n : Nat) : Prop :=
  ∀ i < n, primalStep goal (run i) = .ok true (run (i + 1))

theorem Runs.continues (h : (run 0).Poised goal) (hrun : Runs goal run n) {i : Nat} (hi : i ≤ n) :
    (run 0).Continues goal (run i) := by
  induction i with
  | zero => exact h.continues
  | succ i ih => exact (ih (Nat.le_of_succ_le hi)).step (hrun i hi)

theorem Runs.goalConstant_le (h : (run 0).Poised goal) (hrun : Runs goal run n) {i j : Nat}
    (hij : i ≤ j) (hj : j ≤ n) : (run j).goalConstant goal ≤ (run i).goalConstant goal := by
  induction j, hij using Nat.le_induction with
  | base => exact le_refl _
  | succ j hij ih =>
    have hpoised := (hrun.continues h (Nat.le_of_succ_le hj)).poised
    exact (hpoised.goalConstant_step (hrun j hj)).1.trans (ih (Nat.le_of_succ_le hj))

/-- A stretch without degenerate pivots does not come back to a basis. -/
theorem Runs.basis_ne (h : (run 0).Poised goal) (hrun : Runs goal run n) {i j : Nat} (hij : i < j)
    (hj : j ≤ n) (hdeg : ∀ k, i ≤ k → k < j → ¬(run k).Degenerate goal) :
    (run i).basis ≠ (run j).basis := by
  intro hbasis
  have hi : i < n := hij.trans_le hj
  have hci := hrun.continues h hi.le
  have heq := hci.goalConstant_eq (hrun.continues h hj) hbasis
  have hlt := (hci.poised.goalConstant_step (hrun i hi)).2 (hdeg i le_rfl hij)
  have hle := hrun.goalConstant_le h hij hj
  linarith

/-! ## Loops that do not end -/

/-- The loop takes all its steps, however many it is given. -/
def Endless (goal : Goal) (t : Tableau Rat) : Prop :=
  ∀ steps, ∃ u, optimize goal steps t = .error .outOfSteps u

theorem Endless.step (h : t.Poised goal) (hend : t.Endless goal) :
    ∃ u, primalStep goal t = .ok true u ∧ u.Endless goal := by
  have hsucc (steps : Nat) := Attempt.loop_succ (primalStep goal) SolverError.outOfSteps steps t
  obtain ⟨heq, -⟩ | ⟨heq, -⟩ | ⟨-, entering, leaving, -, solved, -, -, heq⟩ :=
    primalStep_cases goal h.resolved
  · obtain ⟨u, hu⟩ := hend 1
    rw [optimize, hsucc, heq] at hu
    cases hu
  · obtain ⟨u, hu⟩ := hend 1
    rw [optimize, hsucc, heq] at hu
    cases hu
  · refine ⟨_, heq, fun steps => ?_⟩
    obtain ⟨u, hu⟩ := hend (steps + 1)
    rw [optimize, hsucc, heq] at hu
    exact ⟨u, hu⟩

/-- A loop that does not end is a run of pivots without end. -/
theorem Endless.exists_run (h : t.Poised goal) (hend : t.Endless goal) :
    ∃ run : Nat → Tableau Rat, run 0 = t ∧ ∀ n, Runs goal run n := by
  have hstep (x : {u : Tableau Rat // u.Poised goal ∧ u.Endless goal}) :
      ∃ y : {u : Tableau Rat // u.Poised goal ∧ u.Endless goal},
        primalStep goal x.1 = .ok true y.1 := by
    obtain ⟨u, hu, hendu⟩ := x.2.2.step x.2.1
    exact ⟨⟨u, (x.2.1.continues.step hu).poised, hendu⟩, hu⟩
  choose next hnext using hstep
  refine ⟨fun i => (next^[i] ⟨t, h, hend⟩).1, rfl, fun n i _ => ?_⟩
  change primalStep goal (next^[i] ⟨t, h, hend⟩).1 = .ok true (next^[i + 1] ⟨t, h, hend⟩).1
  rw [Function.iterate_succ_apply', hnext]

/-- A run without end visits finitely many bases. -/
theorem finite_range_basis (h : (run 0).Poised goal) (hrun : ∀ n, Runs goal run n) :
    (Set.range fun i => (run i).basis).Finite := by
  let symbols : List Symbol :=
    (run 0).rows.keys ++ (run 0).rows.entries.flatMap fun e => e.2.cells.keys
  have hwithin : (run 0).Within (· ∈ symbols) := by
    refine ⟨fun b hb => List.mem_append_left _ hb, fun b r hb x hx => ?_⟩
    exact List.mem_append_right _ (List.mem_flatMap.2 ⟨(b, r), mem_entries hb, hx⟩)
  refine (symbols.toFinset.powerset.finite_toSet).subset ?_
  rintro _ ⟨i, rfl⟩
  rw [Finset.mem_coe, Finset.mem_powerset]
  intro s hs
  have hi := ((hrun i).continues h le_rfl).within _ hwithin
  exact List.mem_toFinset.2 (hi.keys s (List.mem_toFinset.1 hs))

/-- A run without end is degenerate from some point on. -/
theorem eventually_degenerate (h : (run 0).Poised goal) (hrun : ∀ n, Runs goal run n) :
    ∃ n, ∀ i, n ≤ i → (run i).Degenerate goal := by
  have hcontinues (i : Nat) := (hrun i).continues h le_rfl
  -- the constants of the goal are a function of the bases, so one of them is the least
  have hfactors : Function.FactorsThrough (fun i => (run i).goalConstant goal)
      fun i => (run i).basis :=
    fun i j hij => (hcontinues i).goalConstant_eq (hcontinues j) hij
  obtain ⟨f, hf⟩ := (Function.factorsThrough_iff _).1 hfactors
  have hfinite : (Set.range fun i => (run i).goalConstant goal).Finite := by
    rw [hf, Set.range_comp]
    exact (finite_range_basis h hrun).image f
  obtain ⟨_, ⟨n, rfl⟩, hleast⟩ := Set.exists_min_image _ id hfinite (Set.range_nonempty _)
  refine ⟨n, fun i hi => ?_⟩
  by_contra hdeg
  have hlt := ((hcontinues i).poised.goalConstant_step (hrun (i + 1) i i.lt_succ_self)).2 hdeg
  have hle := (hrun i).goalConstant_le h hi le_rfl
  have hmin := hleast _ ⟨i + 1, rfl⟩
  dsimp only [id] at hmin
  linarith

/-- After any point a run without end comes back to one of its bases. -/
theorem basis_recurs (h : (run 0).Poised goal) (hrun : ∀ n, Runs goal run n) (n : Nat) :
    ∃ i j, n ≤ i ∧ i < j ∧ (run i).basis = (run j).basis := by
  have hfin := (finite_range_basis h hrun).to_subtype
  let later (i : Nat) : Set.range fun i => (run i).basis := ⟨(run (n + i)).basis, n + i, rfl⟩
  obtain ⟨i, j, hne, heq⟩ := Finite.exists_ne_map_eq_of_infinite later
  have heq : (run (n + i)).basis = (run (n + j)).basis := congrArg Subtype.val heq
  obtain hij | hji := lt_or_gt_of_ne hne
  · exact ⟨n + i, n + j, Nat.le_add_right n i, Nat.add_lt_add_left hij n, heq⟩
  · exact ⟨n + j, n + i, Nat.le_add_right n j, Nat.add_lt_add_left hji n, heq.symm⟩

/-! ## The loop -/

/-- Where the loop ends the goal cannot be lowered. -/
theorem Poised.optimize (h : t.Poised goal) {steps : Nat}
    (hok : optimize goal steps t = .ok () u) :
    t.Continues goal u ∧ ∀ g, u.goalRow? goal = some g → g.descent? = none := by
  have hloop : (Tableau.optimize goal steps).Ensures t
      (fun _ u => t.Continues goal u ∧ ∀ g, u.goalRow? goal = some g → g.descent? = none)
      fun _ _ => True := by
    refine Attempt.ensures_loop (fun t' ht' => ?_) (fun _ _ => trivial) steps h.continues
    unfold Attempt.Ensures
    obtain ⟨heq, hnone⟩ | ⟨heq, -⟩ | ⟨_, _, _, _, _, -, -, heq⟩ :=
      primalStep_cases goal ht'.poised.resolved
    · rw [heq]
      exact ⟨ht', hnone⟩
    · rw [heq]
      trivial
    · rw [heq]
      exact ht'.step heq
  exact hloop.of_ok hok

/-- Every iteration keeps a poised tableau poised, keeps its solutions, and moves the constant
of the goal by the coefficient of the entering symbol times the least ratio, which is never
upwards and is downwards if the leaving row has a positive constant. An iteration fails only
if no row limits the entering symbol.

So a stretch without degenerate pivots never comes back to a basis, and a loop that does not
end is a run that at last takes degenerate pivots only and comes back to its bases again and
again. Where the loop ends, only dummies have negative coefficients in the goal. -/
theorem optimize_descends (goal : Goal) (t : Tableau Rat) (h : t.Poised goal) :
    (∀ u, primalStep goal t = .ok true u →
      u.Poised goal ∧ (∀ v, u.Satisfies v ↔ t.Satisfies v) ∧
      ∃ g entering leaving row, t.Chooses goal g entering leaving row ∧
        (∀ b r, t.rows.get? b = some r → b.isExternal = false → r.coefficient entering < 0 →
          -row.constant / row.coefficient entering ≤ -r.constant / r.coefficient entering) ∧
        u.goalConstant goal = t.goalConstant goal
          + g.coefficient entering * (-row.constant / row.coefficient entering) ∧
        g.coefficient entering * (-row.constant / row.coefficient entering) ≤ 0 ∧
        (0 < row.constant → u.goalConstant goal < t.goalConstant goal)) ∧
    (∀ e u, primalStep goal t = .error e u → e = .internal .unbounded ∧ u = t ∧
      ∃ g s, t.goalRow? goal = some g ∧ g.coefficient s < 0 ∧
        ∀ b r, t.rows.get? b = some r → b.isExternal = false → 0 ≤ r.coefficient s) ∧
    (∀ run n, run 0 = t → Runs goal run n → ∀ i j, i < j → j ≤ n →
      (∀ k, i ≤ k → k < j → ¬(run k).Degenerate goal) → (run i).basis ≠ (run j).basis) ∧
    (t.Endless goal → ∃ run, run 0 = t ∧ (∀ n, Runs goal run n) ∧
      (∃ n, ∀ i, n ≤ i → (run i).Degenerate goal) ∧
      ∀ n, ∃ i j, n ≤ i ∧ i < j ∧ (run i).basis = (run j).basis) ∧
    ∀ steps u, optimize goal steps t = .ok () u → ∀ g, u.goalRow? goal = some g →
      ∀ s, s.isDummy = false → 0 ≤ g.coefficient s := by
  refine ⟨fun u hstep => ?_, fun e u hstep => ?_, fun run n hrun => ?_, fun hend => ?_,
    fun steps u hok g hg s hs => ?_⟩
  · obtain ⟨g, entering, leaving, row, solved, hc, hp, rfl⟩ :=
      pivots_of_primalStep h.resolved hstep
    obtain ⟨-, -, -, hleast⟩ := leavingRow?_eq_some hc.limits
    obtain ⟨hle, hlt⟩ := hc.gain h
    have hconstant := hc.goalConstant_exchanged hp
    rw [← Tableau.goalConstant_eq hc.goalRow] at hconstant
    refine ⟨h.exchanged hc hp, fun v => hp.satisfies_iff, g, entering, leaving, row, hc, hleast,
      hconstant, hle, fun hpos => ?_⟩
    linarith [hlt hpos]
  · obtain ⟨heq, -⟩ | ⟨heq, g, s, hg, hs, hleave⟩ | ⟨_, _, _, _, _, -, -, heq⟩ :=
      primalStep_cases goal h.resolved
    · rw [hstep] at heq
      cases heq
    · rw [hstep] at heq
      cases heq
      exact ⟨rfl, rfl, g, s, hg, (Row.descent?_eq_some hs).1, fun b r hb hint =>
        leavingRow?_eq_none hleave hb hint⟩
    · rw [hstep] at heq
      cases heq
  · subst hrun
    exact fun hrun i j hij hj hdeg => hrun.basis_ne h hij hj hdeg
  · obtain ⟨run, rfl, hrun⟩ := hend.exists_run h
    exact ⟨run, rfl, hrun, eventually_degenerate h hrun, basis_recurs h hrun⟩
  · exact Row.descent?_eq_none ((h.optimize hok).2 g hg) hs

/-- A slack with room for two units of another symbol, each of which lowers the objective by
three. -/
def slope : Tableau Rat where
  symbolCount := 2
  rows := .insert ∅ ⟨.slack, 1⟩ ⟨4, .insert ∅ ⟨.slack, 2⟩ (-2)⟩
  objective := ⟨10, .insert ∅ ⟨.slack, 2⟩ (-3)⟩
  artificial := none
  infeasible := []

theorem optimize_descends_slope : slope.Poised .primary ∧
    ∃ u, primalStep .primary slope = .ok true u ∧ u.Poised .primary ∧
      u.goalConstant .primary < slope.goalConstant .primary := by
  have hpoised : slope.Poised .primary := by
    refine ⟨fun b r hb => ?_, fun g hg => ?_, fun b r hb _ => ?_, fun b r hb _ => ?_,
      fun g hg => ?_⟩
    · exact (by decide : ∀ e ∈ slope.rows.entries, ∀ x ∈ e.2.cells.keys, x ∉ slope.rows.keys)
        (b, r) (mem_entries hb)
    · obtain rfl := Option.some.inj hg
      exact (by decide : ∀ x ∈ slope.objective.cells.keys, x ∉ slope.rows.keys)
    · exact (by decide : ∀ e ∈ slope.rows.entries, 0 ≤ e.2.constant) (b, r) (mem_entries hb)
    · exact (by decide : ∀ e ∈ slope.rows.entries, ∀ x ∈ e.2.cells.keys, x.isExternal = false)
        (b, r) (mem_entries hb)
    · obtain rfl := Option.some.inj hg
      exact (by decide : ∀ x ∈ slope.objective.cells.keys, x.isExternal = false)
  obtain ⟨u, hu⟩ : ∃ u, primalStep .primary slope = .ok true u := by
    have hmore : (match primalStep .primary slope with
      | .ok more _ => more
      | .error _ _ => false) = true := by decide +kernel
    split at hmore
    · next more u hstep => exact ⟨u, by rw [hstep, hmore]⟩
    · cases hmore
  obtain ⟨hkept, -, g, entering, leaving, row, hc, -, -, -, hlt⟩ :=
    (optimize_descends .primary slope hpoised).1 u hu
  obtain ⟨hrow, -, -, -⟩ := leavingRow?_eq_some hc.limits
  have hpos := (by decide : ∀ e ∈ slope.rows.entries, 0 < e.2.constant) (leaving, row)
    (mem_entries hrow)
  exact ⟨hpoised, u, hu, hkept, hlt hpos⟩

end BoxLayout.Tableau
