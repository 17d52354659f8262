-- SUMMARY: The artificial symbol decides: a row is added exactly if some solution with the right signs makes it zero.
import BoxLayout.Proofs.Artificial
import BoxLayout.Proofs.Descent

/-!
# Deciding a row

A row without a subject is given to the artificial symbol, and the primal loop lowers that
symbol as far as it goes. Nothing is asked here of how the tableau came about, only what the
loop needs: rows over non-basic symbols, feasible and clean, and a number for the artificial
symbol that nobody uses (`Orderly`). Rows may even store zeros, but not the row that is added:
a stored zero may be the cell that the artificial symbol is exchanged for, and an equation
cannot be solved for a symbol with the coefficient zero.

What holds while the loop runs is `Seeking`: the solutions are those of the old rows, with the
artificial symbol standing for the new one, and the goal has the value of that symbol. The
least value of the goal then decides, and in whichever way the artificial symbol is taken out
it is taken out as zero.
-/

namespace BoxLayout.Tableau

variable {t t₀ u : Tableau Rat} {row left g : Row Rat} {v : Assignment}

/-! ## Tableaux and rows -/

/-- Between two rows: all rows and the objective are over non-basic symbols, feasible and
clean, and the number of every symbol in use has been given out. -/
structure Orderly (t : Tableau Rat) : Prop where
  resolved : t.ResolvedRows
  objective : t.Resolved t.objective
  feasible : t.Feasible
  restricted : t.RestrictedRows
  clean : t.Clean
  numbered : t.Within fun x => x.number ≤ t.symbolCount
  objectiveNumbered : t.objective.Over fun x => x.number ≤ t.symbolCount
  waiting : ∀ x ∈ t.infeasible, x.number ≤ t.symbolCount

/-- A row over non-basic symbols, turned so that its constant is not negative, that mentions a
slack or error symbol and no external one. -/
structure Pending (t : Tableau Rat) (row : Row Rat) : Prop where
  resolved : t.Resolved row
  numbered : row.Over fun x => x.number ≤ t.symbolCount
  reduced : row.Reduced
  restricted : row.Restricted
  nonneg : 0 ≤ row.constant
  pivotable : ∃ s ∈ row.cells.keys, s.isPivotable = true

theorem artificialSymbol_not_numbered : ¬t.artificialSymbol.number ≤ t.symbolCount :=
  Nat.not_succ_le_self _

theorem Orderly.not_basic (h : t.Orderly) : t.artificialSymbol ∉ t.rows.keys :=
  fun hmem => artificialSymbol_not_numbered (h.numbered.keys _ hmem)

/-- No solution says anything about the artificial symbol. -/
theorem Orderly.free (h : t.Orderly) : Free t.Satisfies t.artificialSymbol := fun _ x hv =>
  (satisfies_update h.not_basic (fun b r hb =>
    (h.numbered.rows b r hb).coefficient_eq_zero artificialSymbol_not_numbered) x).2 hv

theorem Pending.unused (h : t.Pending row) : row.coefficient t.artificialSymbol = 0 :=
  h.numbered.coefficient_eq_zero artificialSymbol_not_numbered

/-- The artificial symbol is left free by the old rows, so it may be set to zero where the new
row is zero. -/
theorem Orderly.satisfies_zero (h : t.Orderly) (hrow : t.Pending row) :
    t.Satisfies (Function.update v t.artificialSymbol 0) ∧
        Function.update v t.artificialSymbol 0 t.artificialSymbol
          = row.eval (Function.update v t.artificialSymbol 0)
      ↔ t.Satisfies v ∧ row.eval v = 0 :=
  h.free.equation_at_zero hrow.unused

/-! ## While the loop runs -/

/-- The artificial symbol stands for the row, and the goal has its value. -/
structure Seeking (t₀ : Tableau Rat) (row : Row Rat) (t : Tableau Rat) : Prop where
  poised : t.Poised .artificial
  objective : t.Resolved t.objective
  clean : t.Clean
  waiting : t.infeasible = t₀.infeasible
  solutions : ∀ v, t.Satisfies v ↔ t₀.Satisfies v ∧ v t₀.artificialSymbol = row.eval v
  goal : ∃ g, t.artificial = some g ∧ ∀ v, t.Satisfies v → g.eval v = v t₀.artificialSymbol
  reduced : ∀ left, t.rows.get? t₀.artificialSymbol = some left → left.Reduced

theorem Orderly.seeking (h : t.Orderly) (hrow : t.Pending row) :
    Seeking t row (t.startArtificial t.artificialSymbol row) := by
  have hkeys {x : Symbol} (hnot : x ∉ t.rows.keys) (hx : x.number ≤ t.symbolCount) :
      x ∉ (t.startArtificial t.artificialSymbol row).rows.keys := by
    intro hmem
    obtain rfl | hmem := OrderedMap.mem_keys_insert.1 hmem
    · exact artificialSymbol_not_numbered hx
    · exact hnot hmem
  have hresolved : (t.startArtificial t.artificialSymbol row).Resolved row :=
    fun x hx => hkeys (hrow.resolved x hx) (hrow.numbered x hx)
  have hsat (v : Assignment) : (t.startArtificial t.artificialSymbol row).Satisfies v
      ↔ t.Satisfies v ∧ v t.artificialSymbol = row.eval v :=
    satisfies_startArtificial h.not_basic v
  refine ⟨⟨fun b r hb => ?_, fun g hg => ?_, fun b r hb hint => ?_, fun b r hb hint => ?_,
    fun g hg => ?_⟩, fun x hx => ?_, h.clean.startArtificial, rfl, hsat,
    ⟨row, rfl, fun v hv => ((hsat v).1 hv).2.symm⟩, fun left hleft => ?_⟩
  · rw [get?_startArtificial] at hb
    split at hb
    · obtain rfl := Option.some.inj hb
      exact hresolved
    · exact fun x hx => hkeys (h.resolved b r hb x hx) (h.numbered.rows b r hb x hx)
  · obtain rfl := Option.some.inj hg
    exact hresolved
  · rw [get?_startArtificial] at hb
    split at hb
    · obtain rfl := Option.some.inj hb
      exact hrow.nonneg
    · exact h.feasible b r hb hint
  · rw [get?_startArtificial] at hb
    split at hb
    · obtain rfl := Option.some.inj hb
      exact hrow.restricted
    · exact h.restricted b r hb hint
  · obtain rfl := Option.some.inj hg
    exact hrow.restricted
  · exact hkeys (h.objective x hx) (h.objectiveNumbered x hx)
  · rw [get?_startArtificial, if_pos rfl] at hleft
    obtain rfl := Option.some.inj hleft
    exact hrow.reduced

/-- Where the artificial symbol is not basic the goal is that symbol. -/
theorem Seeking.eval_goal (h : Seeking t₀ row t) (hg : t.artificial = some g)
    (hnot : t₀.artificialSymbol ∉ t.rows.keys) (u : Assignment) :
    g.eval u = u t₀.artificialSymbol := by
  obtain ⟨g', hg', hvalue⟩ := h.goal
  rw [hg] at hg'
  obtain rfl := Option.some.inj hg'
  have hval := hvalue _ (h.poised.resolved.satisfies_completion u)
  rwa [(h.poised.goalResolved g hg).eval_completion, completion_nonbasic hnot] at hval

theorem Seeking.step (h : Seeking t₀ row t) (hstep : primalStep .artificial t = .ok true u) :
    Seeking t₀ row u := by
  obtain ⟨g, entering, leaving, r, solved, hc, hp, rfl⟩ :=
    pivots_of_primalStep h.poised.resolved hstep
  obtain ⟨hneg, hdummy⟩ := Row.descent?_eq_some hc.falls
  obtain ⟨g', hg', hvalue⟩ := h.goal
  obtain rfl : g = g' := Option.some.inj (hc.goalRow.symm.trans hg')
  refine ⟨h.poised.exchanged hc hp, hp.resolved_substitute h.objective, h.clean.pivot hdummy,
    (hp.infeasible fun b r hb hint => ?_).trans h.waiting,
    fun v => hp.satisfies_iff.trans (h.solutions v), ⟨g.substitute entering solved, ?_, ?_⟩,
    fun left hleft => ?_⟩
  · exact feasible_of_leavingRow? hc.limits h.poised.feasible hb hint
  · change t.artificial.map _ = _
    rw [hg', Option.map_some]
  · intro v hv
    have hv := hp.satisfies_iff.1 hv
    rw [hp.eval_substitute hv, hvalue v hv]
  · obtain ⟨heq, -⟩ | ⟨-, r₀, hr₀, rfl⟩ := get?_exchanged_cases hleft
    · -- once the artificial symbol has left, the goal does not fall with it
      have hnot : t₀.artificialSymbol ∉ t.rows.keys := by
        rw [heq]
        exact hp.nonbasic
      have heval := h.eval_goal hg' hnot
      rw [← heq, Row.coefficient_eq_eval (v := fun _ => 0), heval, heval,
        Function.update_self] at hneg
      norm_num at hneg
    · exact (h.reduced r₀ hr₀).substitute _ _

/-- The loop does not stop for a symbol without a limit: the goal is never negative. -/
theorem Seeking.leavingRow?_ne_none (h : Seeking t₀ row t) (hg : t.artificial = some g)
    {s : Symbol} (hs : g.coefficient s < 0) : t.leavingRow? s ≠ none := by
  obtain ⟨g', hg', hvalue⟩ := h.goal
  rw [hg] at hg'
  obtain rfl := Option.some.inj hg'
  refine Tableau.leavingRow?_ne_none h.poised.resolved.coefficient h.poised.feasible
    (h.poised.goalResolved g hg).coefficient hs fun v hv hnonneg => (?_ : 0 ≤ g.eval v)
  rw [hvalue v hv]
  exact hnonneg t₀.artificialSymbol rfl

theorem Seeking.optimize (h : Seeking t₀ row t) (steps : Nat) :
    (optimize .artificial steps).Ensures t
      (fun _ u => Seeking t₀ row u ∧ ∀ g, u.artificial = some g → g.Minimal)
      fun e _ => e = .outOfSteps := by
  refine Attempt.ensures_loop (fun t ht => ?_) (fun _ _ => rfl) steps h
  unfold Attempt.Ensures
  obtain ⟨heq, hnone⟩ | ⟨heq, g, s, hg, hs, hleave⟩ | ⟨_, _, _, _, _, -, -, heq⟩ :=
    primalStep_cases .artificial ht.poised.resolved
  · rw [heq]
    exact ⟨ht, fun g hg s hs => Row.descent?_eq_none (hnone g hg) hs⟩
  · exact absurd hleave (ht.leavingRow?_ne_none hg (Row.descent?_eq_some hs).1)
  · rw [heq]
    exact ht.step heq

/-! ## The answer -/

/-- The least value of the goal is zero exactly if the new row can be zero. -/
theorem Seeking.constant_eq_zero_iff (h : Seeking t₀ row t) (h₀ : t₀.Orderly)
    (hrow : t₀.Pending row) (hg : t.artificial = some g) (hmin : g.Minimal) :
    g.constant = 0 ↔ ∃ v, t₀.Satisfies v ∧ row.eval v = 0 ∧ Admissible v := by
  obtain ⟨g', hg', hvalue⟩ := h.goal
  rw [hg] at hg'
  obtain rfl := Option.some.inj hg'
  have hresolved := h.poised.goalResolved g hg
  constructor
  · intro hzero
    have hsol := h.poised.resolved.satisfies_completion fun _ => 0
    obtain ⟨hold, hart⟩ := (h.solutions _).1 hsol
    refine ⟨_, hold, ?_, h.poised.feasible.nonneg_completion, fun s hs => ?_⟩
    · rw [← hart, ← hvalue _ hsol, hresolved.eval_completion, ← Row.constant_eq_eval, hzero]
    · exact h.clean.dummy_completion (fun _ _ => rfl) hs
  · rintro ⟨v, hold, hzero, hadm⟩
    by_contra hne
    have hsol := (h.solutions _).2 ((h₀.satisfies_zero hrow).2 ⟨hold, hzero⟩)
    exact ne_zero_of_minimal h.poised.resolved.coefficient h.poised.feasible hresolved.coefficient
      hvalue rfl (h.poised.goalRestricted g hg).internal hmin hne hsol (hadm.update_zero _)
      (Function.update_self _ _ _)

/-- The artificial symbol does not end as a combination of dummies. -/
theorem Seeking.pivotable?_ne_none (h : Seeking t₀ row t) (h₀ : t₀.Orderly) (hrow : t₀.Pending row)
    (hleft : t.rows.get? t₀.artificialSymbol = some left) : left.pivotable? ≠ none := by
  intro hpiv
  obtain ⟨s, hs, hspiv⟩ := hrow.pivotable
  obtain ⟨x, hx, hne⟩ := not_all_dummies h₀.resolved.coefficient h₀.clean h₀.free
    hrow.resolved.coefficient hrow.unused rfl (Symbol.isDummy_of_isPivotable hspiv)
    (hrow.reduced.mem_keys_iff.1 hs) (fun v hv hart => (h.solutions v).2 ⟨hv, hart⟩) hleft
  have hmem := Row.mem_keys_of_coefficient_ne hne
  have hext := h.poised.restricted _ left hleft rfl x hmem
  exact List.find?_eq_none.1 hpiv x hmem (Symbol.isPivotable_of_isDummy_eq_false hext hx)

/-! ## Taking the artificial symbol out -/

/-- The symbol is not basic, it has no cell, and no row of it waits. -/
structure Absent (s : Symbol) (t : Tableau Rat) : Prop where
  basic : s ∉ t.rows.keys
  rows : ∀ b r, t.rows.get? b = some r → s ∉ r.cells.keys
  objective : s ∉ t.objective.cells.keys
  artificial : t.artificial = none
  waiting : s ∉ t.infeasible

/-- The row has been added: the artificial symbol is gone, all rows are feasible, and the
solutions are those that make the row zero. -/
structure Added (t₀ : Tableau Rat) (row : Row Rat) (t : Tableau Rat) : Prop where
  absent : t.Absent t₀.artificialSymbol
  feasible : t.Feasible
  solutions : ∀ v, t.Satisfies v ↔ t₀.Satisfies v ∧ row.eval v = 0

theorem absent_forget {s : Symbol} (hs : s ∉ t.rows.keys) (hart : t.artificial = none)
    (hwait : s ∉ t.infeasible) : (t.forget s).Absent s where
  basic := by rwa [keys_forget]
  rows b r hb := by
    rw [get?_forget] at hb
    obtain ⟨r₀, -, rfl⟩ := Option.map_eq_some_iff.1 hb
    exact fun hmem => (OrderedMap.mem_keys_swapErase.1 hmem).1 rfl
  objective hmem := (OrderedMap.mem_keys_swapErase.1 hmem).1 rfl
  artificial := hart
  waiting := hwait

theorem Seeking.not_waiting (h : Seeking t₀ row t) (h₀ : t₀.Orderly) :
    t₀.artificialSymbol ∉ t.infeasible := by
  rw [h.waiting]
  exact fun hmem => artificialSymbol_not_numbered (h₀.waiting _ hmem)

/-- An artificial symbol that is not basic is taken out of the cells. -/
theorem Seeking.added_forget (h : Seeking t₀ row t) (h₀ : t₀.Orderly) (hrow : t₀.Pending row)
    (hnot : t₀.artificialSymbol ∉ t.rows.keys) :
    Added t₀ row (({ t with artificial := none } : Tableau Rat).forget t₀.artificialSymbol) where
  absent := absent_forget hnot rfl (h.not_waiting h₀)
  feasible := Feasible.forget (t := { t with artificial := none }) h.poised.feasible _
  solutions v := by
    rw [satisfies_forget (t := { t with artificial := none }) hnot, ← h₀.satisfies_zero hrow]
    exact h.solutions _

/-- A basic artificial symbol whose row is zero is taken out with the row. -/
theorem Seeking.added_dropRow (h : Seeking t₀ row t) (h₀ : t₀.Orderly) (hrow : t₀.Pending row)
    (hleft : t.rows.get? t₀.artificialSymbol = some left) (hzero : ∀ v, left.eval v = 0) :
    Added t₀ row (({ t with artificial := none } : Tableau Rat).dropRow t₀.artificialSymbol) := by
  let art := t₀.artificialSymbol
  have hmem : art ∈ t.rows.keys := mem_keys hleft
  have hnot : art ∉ (t.dropRow art).rows.keys := fun hart => (mem_keys_dropRow.1 hart).1 rfl
  refine ⟨⟨hnot, fun b r hb hart => ?_, fun hart => h.objective art hart hmem, rfl,
    h.not_waiting h₀⟩, Feasible.dropRow (t := { t with artificial := none }) h.poised.feasible _,
    fun v => ?_⟩
  · exact h.poised.resolved b r (get?_of_dropRow hb).2 art hart hmem
  · have hfree : (t.dropRow art).Satisfies (Function.update v art 0)
        ↔ (t.dropRow art).Satisfies v :=
      satisfies_update hnot
        (fun b r hb => (h.poised.resolved b r (get?_of_dropRow hb).2).coefficient art hmem) 0
    rw [← h₀.satisfies_zero hrow, ← h.solutions, satisfies_dropRow hleft, hzero,
      Function.update_self]
    exact hfree.symm.trans (and_iff_left rfl).symm

/-- A basic artificial symbol that is zero is exchanged for another symbol and taken out. -/
theorem Seeking.added_exchanged {entering : Symbol} {solved : Row Rat} (h : Seeking t₀ row t)
    (h₀ : t₀.Orderly) (hrow : t₀.Pending row) (hzero : left.constant = 0)
    (hp : Pivots { t with artificial := none } t₀.artificialSymbol entering left solved) :
    Added t₀ row ((({ t with artificial := none } : Tableau Rat).exchanged t₀.artificialSymbol
      entering solved).forget t₀.artificialSymbol) := by
  have hnot : t₀.artificialSymbol ∉ (({ t with artificial := none } : Tableau Rat).exchanged
      t₀.artificialSymbol entering solved).rows.keys := by
    intro hmem
    obtain heq | ⟨hne, -⟩ := mem_keys_exchanged.1 hmem
    · exact hp.nonbasic (heq ▸ mem_keys hp.basic)
    · exact hne rfl
  have hkept : ∀ b r, t.rows.get? b = some r → b.isExternal = false →
      0 ≤ r.constant - r.coefficient entering * (left.constant / left.coefficient entering) := by
    intro b r hb hint
    rw [hzero, zero_div, mul_zero, sub_zero]
    exact h.poised.feasible b r hb hint
  refine ⟨absent_forget hnot rfl ?_, Feasible.forget (hp.feasible ?_ hkept) _, fun v => ?_⟩
  · rw [hp.infeasible hkept]
    exact h.not_waiting h₀
  · rw [hzero, neg_zero, zero_div]
  · rw [satisfies_forget hnot, hp.satisfies_iff, ← h₀.satisfies_zero hrow]
    exact h.solutions _

/-! ## The decision -/

/-- The row of a basic artificial symbol is worth what the goal is worth. -/
theorem Seeking.constant_eq (h : Seeking t₀ row t) (hg : t.artificial = some g)
    (hleft : t.rows.get? t₀.artificialSymbol = some left) : left.constant = g.constant := by
  obtain ⟨g', hg', hvalue⟩ := h.goal
  rw [hg] at hg'
  obtain rfl := Option.some.inj hg'
  exact constant_eq_of_basic h.poised.resolved.coefficient (h.poised.goalResolved g hg).coefficient
    hvalue hleft

theorem addArtificially_decision (h₀ : t.Orderly) (hrow : t.Pending row) (steps : Nat) :
    (addArtificially steps row).Ensures t
      (fun added t' => (added = true ↔ ∃ v, t.Satisfies v ∧ row.eval v = 0 ∧ Admissible v) ∧
        (added = true → Added t row t'))
      (fun e _ => e = .outOfSteps) := by
  let Lowest (u : Tableau Rat) (g : Row Rat) : Prop :=
    Seeking t row u ∧ u.artificial = some g ∧ g.Minimal
  have hanswer {u t' : Tableau Rat} {g : Row Rat} (hu : Lowest u g)
      (ht' : g.constant = 0 → Added t row t') :
      (decide (g.constant = 0) = true ↔ ∃ v, t.Satisfies v ∧ row.eval v = 0 ∧ Admissible v) ∧
        (decide (g.constant = 0) = true → Added t row t') := by
    rw [decide_eq_true_iff]
    exact ⟨hu.1.constant_eq_zero_iff h₀ hrow hu.2.1 hu.2.2, ht'⟩
  refine ensures_addArtificially (I := Lowest) ?optimize ?forget ?drop ?stuck ?pivot
  case optimize =>
    refine ((h₀.seeking hrow).optimize steps).mono ?_ fun _ _ he => he
    rintro - u ⟨hu, hmin⟩
    obtain ⟨g, hg, -⟩ := hu.goal
    exact ⟨g, hg, hu, hg, hmin g hg⟩
  case forget =>
    intro u g hu hleft
    exact hanswer hu fun _ => hu.1.added_forget h₀ hrow (OrderedMap.get?_eq_none_iff.1 hleft)
  case drop =>
    intro u g left hu hleft hempty
    refine hanswer hu fun hz => hu.1.added_dropRow h₀ hrow hleft fun v => ?_
    rw [Row.eval_of_isEmpty hempty, hu.1.constant_eq hu.2.1 hleft, hz]
  case stuck =>
    intro u g left hu hleft hpiv
    exact absurd hpiv (hu.1.pivotable?_ne_none h₀ hrow hleft)
  case pivot =>
    intro u g left entering hu hleft hpiv
    have hcoef := (Row.pivotable?_eq_some (hu.1.reduced left hleft) hpiv).1
    obtain ⟨solved, hok, hp⟩ := exists_pivots (t := { u with artificial := none })
      hu.1.poised.resolved hleft hcoef
    unfold pivot
    rw [hok]
    have hconst := hu.1.constant_eq hu.2.1 hleft
    exact hanswer hu fun hz => hu.1.added_exchanged h₀ hrow (hconst.trans hz) hp

/-- Unless it runs out of steps, the addition of a row by the artificial symbol answers, and it
answers that the row has been added exactly if some solution of the old rows with the right
signs makes the row zero. Then the artificial symbol occurs nowhere, no row of a slack, error
or dummy symbol has a negative constant, and the solutions are those of the old rows that make
the new row zero. -/
theorem addArtificially_decides (t : Tableau Rat) (row : Row Rat) (h : t.Orderly)
    (hrow : t.Pending row) (steps : Nat)
    (hsteps : ∀ u, addArtificially steps row t ≠ .error .outOfSteps u) :
    ∃ added t', addArtificially steps row t = .ok added t' ∧
      (added = true ↔ ∃ v, t.Satisfies v ∧ row.eval v = 0 ∧ Admissible v) ∧
      (added = true → t'.Absent t.artificialSymbol ∧ t'.Feasible ∧
        ∀ v, t'.Satisfies v ↔ t.Satisfies v ∧ row.eval v = 0) := by
  have hends := addArtificially_decision h hrow steps
  unfold Attempt.Ensures at hends
  cases hrun : addArtificially steps row t with
  | error e u =>
    rw [hrun] at hends
    exact absurd hrun (hends ▸ hsteps u)
  | ok added t' =>
    rw [hrun] at hends
    obtain ⟨hiff, hadded⟩ := hends
    exact ⟨added, t', rfl, hiff, fun ha =>
      ⟨(hadded ha).absent, (hadded ha).feasible, (hadded ha).solutions⟩⟩

/-- A slack that another one uses up, four at most. -/
def room : Tableau Rat where
  symbolCount := 2
  rows := .insert ∅ ⟨.slack, 1⟩ ⟨4, .insert ∅ ⟨.slack, 2⟩ (-1)⟩
  objective := .ofConstant 0
  artificial := none
  infeasible := []

/-- Three are asked for. -/
def request : Row Rat := ⟨3, .insert ∅ ⟨.slack, 2⟩ (-1)⟩

theorem addArtificially_decides_room : room.Orderly ∧ room.Pending request ∧
    ∃ t', addArtificially 5 request room = .ok true t' ∧ t'.Absent room.artificialSymbol ∧
      ∀ v, t'.Satisfies v ↔ room.Satisfies v ∧ request.eval v = 0 := by
  have hrows {p : Symbol → Row Rat → Prop} (h : ∀ e ∈ room.rows.entries, p e.1 e.2) (b : Symbol)
      (r : Row Rat) (hb : room.rows.get? b = some r) : p b r := h (b, r) (mem_entries hb)
  have horderly : room.Orderly := by
    refine ⟨hrows ?_, ?_, hrows ?_, hrows ?_, hrows ?_, ⟨?_, hrows ?_⟩, ?_, ?_⟩
    · exact (by decide : ∀ e ∈ room.rows.entries, ∀ x ∈ e.2.cells.keys, x ∉ room.rows.keys)
    · exact Row.over_ofConstant 0
    · exact fun e he _ => (by decide : ∀ e ∈ room.rows.entries, 0 ≤ e.2.constant) e he
    · exact fun e he _ =>
        (by decide : ∀ e ∈ room.rows.entries, ∀ x ∈ e.2.cells.keys, x.isExternal = false) e he
    · intro e he hdummy
      exact absurd hdummy ((by decide : ∀ e ∈ room.rows.entries, ¬e.1.isDummy = true) e he)
    · exact (by decide : ∀ b ∈ room.rows.keys, b.number ≤ 2)
    · exact (by decide : ∀ e ∈ room.rows.entries, ∀ x ∈ e.2.cells.keys, x.number ≤ 2)
    · exact Row.over_ofConstant 0
    · exact fun _ hx => absurd hx List.not_mem_nil
  have hpending : room.Pending request := by
    refine ⟨?_, ?_, fun s => ?_, ?_, by decide, ⟨.slack, 2⟩, by decide, rfl⟩
    · exact (by decide : ∀ x ∈ request.cells.keys, x ∉ room.rows.keys)
    · exact (by decide : ∀ x ∈ request.cells.keys, x.number ≤ 2)
    · intro hs
      exact absurd rfl
        ((by decide : ∀ c ∈ request.cells.entries, c.2 ≠ 0) (s, 0) (OrderedMap.mem_entries_iff.2 hs))
    · exact (by decide : ∀ x ∈ request.cells.keys, x.isExternal = false)
  have hadded : (match addArtificially 5 request room with
      | .ok added _ => added
      | .error _ _ => false) = true := by decide +kernel
  have hsteps (u : Tableau Rat) : addArtificially 5 request room ≠ .error .outOfSteps u := by
    intro hu
    rw [hu] at hadded
    cases hadded
  obtain ⟨added, t', hrun, -, hall⟩ :=
    addArtificially_decides room request horderly hpending 5 hsteps
  rw [hrun] at hadded
  dsimp only at hadded
  subst hadded
  obtain ⟨habsent, -, hsol⟩ := hall rfl
  exact ⟨horderly, hpending, t', hrun, habsent, hsol⟩

end BoxLayout.Tableau
