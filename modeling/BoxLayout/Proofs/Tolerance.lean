-- SUMMARY: What it costs the value of a row that coefficients below a tolerance are dropped.
import Mathlib
import BoxLayout.Proofs.Row

/-!
# Dropping small coefficients

A coefficient whose magnitude is below the tolerance of floating point is dropped, since it may
be nothing but what rounding has left behind. Over `Coarse` numbers nothing rounds and the
tolerance is the same, so what happens to the value of a row there is the cost of dropping.

Adding a row meets each symbol of that row once, and each time the value is off by less than the
tolerance for a unit of the symbol: `abs_eval_addSymbol_sub_le` is the step and
`abs_eval_addCells_sub_le` the loop. A substitution adds one row, so it costs as much. Solving a
row for a symbol drops nothing.
-/

namespace BoxLayout

/-- Exact rational numbers, of which the small ones count as zero when they have been computed. -/
def Coarse : Type := Rat

namespace Coarse

instance : Field Coarse := inferInstanceAs (Field Rat)

instance : LinearOrder Coarse := inferInstanceAs (LinearOrder Rat)

instance : IsStrictOrderedRing Coarse := inferInstanceAs (IsStrictOrderedRing Rat)

/-- The magnitude below which a computed number counts as zero. -/
def tolerance : Coarse := 1e-8

instance : Scalar Coarse where
  isFinite _ := true
  nearZero x := decide (|x| < tolerance)
  belowLargest _ := true

variable {r row : Row Coarse} {v : Symbol → Coarse} {s x : Symbol} {k a : Coarse}

theorem nearZero_iff : nearZero a = true ↔ |a| < tolerance := decide_eq_true_iff

theorem tolerance_pos : 0 < tolerance := by
  unfold tolerance
  norm_num

/-! ## Values

What counts as zero has no part in the value of a row, nor in an operation that drops no cell. So
these equations are the ones over exact numbers. -/

theorem eval_remove (s : Symbol) : (r.remove s).eval v = r.eval v - r.coefficient s * v s :=
  Row.eval_remove (r := r) (v := v) s

theorem eval_insert (s : Symbol) (a : Coarse) :
    (⟨r.constant, r.cells.insert s a⟩ : Row Coarse).eval v
      = r.eval v + (a - r.coefficient s) * v s :=
  Row.eval_insert (r := r) (v := v) s a

theorem eval_addConstant (a : Coarse) : (r.addConstant a).eval v = r.eval v + a :=
  Row.eval_addConstant (r := r) (v := v) a

theorem eval_solveFor {solved : Row Coarse} (hok : r.solveFor s = .ok solved)
    (hs : r.coefficient s ≠ 0) (v : Symbol → Coarse) :
    solved.eval v = v s - r.eval v / r.coefficient s :=
  Row.eval_solveFor (r := r) hok hs v

/-- The magnitudes of the symbols of a row, added up. -/
def extent (v : Symbol → Coarse) (r : Row Coarse) : Coarse :=
  (r.cells.entries.map fun c => |v c.1|).sum

theorem extent_nonneg : 0 ≤ extent v r :=
  List.sum_nonneg (List.forall_mem_map.2 fun _ _ => abs_nonneg _)

/-! ## Adding a symbol -/

/-- What is stored of a computed coefficient. -/
def kept (a : Coarse) : Option Coarse := if |a| < tolerance then none else some a

theorem kept_eq_some_iff : kept k = some a ↔ a = k ∧ tolerance ≤ |a| := by
  unfold kept
  split
  · next h =>
    have hsmall : ¬(a = k ∧ tolerance ≤ |a|) := by
      rintro ⟨rfl, hle⟩
      exact absurd h (not_lt.2 hle)
    simp [hsmall]
  · next h =>
    rw [Option.some.injEq, eq_comm]
    exact ⟨fun hk => ⟨hk, hk ▸ not_lt.1 h⟩, And.left⟩

/-- A coefficient below the tolerance is dropped, every other one is written. -/
theorem addSymbol_cases (r : Row Coarse) (s : Symbol) (k : Coarse) :
    (|r.coefficient s + k| < tolerance ∧ r.addSymbol s k = r.remove s) ∨
      (tolerance ≤ |r.coefficient s + k| ∧
        r.addSymbol s k = ⟨r.constant, r.cells.insert s (r.coefficient s + k)⟩) := by
  simp only [Row.addSymbol, Row.remove]
  split
  · next h => exact Or.inl ⟨nearZero_iff.1 h, rfl⟩
  · next h => exact Or.inr ⟨not_lt.1 fun hlt => h (nearZero_iff.2 hlt), rfl⟩

theorem get?_addSymbol (s : Symbol) (k : Coarse) (x : Symbol) :
    (r.addSymbol s k).cells.get? x
      = if x = s then kept (r.coefficient s + k) else r.cells.get? x := by
  unfold kept
  obtain ⟨hsmall, hadd⟩ | ⟨hlarge, hadd⟩ := addSymbol_cases r s k
  · rw [hadd, Row.remove, OrderedMap.get?_swapErase, if_pos hsmall]
  · rw [hadd, OrderedMap.get?_insert, if_neg (not_lt.2 hlarge)]

/-- A dropped cell costs less than the tolerance for each unit of its symbol. -/
theorem abs_eval_addSymbol_sub_le (r : Row Coarse) (s : Symbol) (k : Coarse)
    (v : Symbol → Coarse) :
    |(r.addSymbol s k).eval v - (r.eval v + k * v s)| ≤ tolerance * |v s| := by
  obtain ⟨hsmall, hadd⟩ | ⟨-, hadd⟩ := addSymbol_cases r s k
  · have hdrop : (r.addSymbol s k).eval v - (r.eval v + k * v s)
        = -((r.coefficient s + k) * v s) := by
      rw [hadd, eval_remove]
      ring
    rw [hdrop, abs_neg, abs_mul]
    exact mul_le_mul_of_nonneg_right hsmall.le (abs_nonneg _)
  · have hwrite : (r.addSymbol s k).eval v = r.eval v + k * v s := by
      rw [hadd, eval_insert]
      ring
    rw [hwrite, sub_self, abs_zero]
    exact mul_nonneg tolerance_pos.le (abs_nonneg _)

/-! ## Adding a row -/

/-- Add multiples of symbols, one after the other. -/
def addCells (r : Row Coarse) (cells : List (Symbol × Coarse)) (k : Coarse) : Row Coarse :=
  cells.foldl (fun r c => r.addSymbol c.1 (c.2 * k)) r

theorem addRow_eq (r row : Row Coarse) (k : Coarse) :
    r.addRow row k = addCells (r.addConstant (row.constant * k)) row.cells.entries k := rfl

theorem addCells_cons (r : Row Coarse) (c : Symbol × Coarse) (cells : List (Symbol × Coarse)) :
    addCells r (c :: cells) k = addCells (r.addSymbol c.1 (c.2 * k)) cells k := by
  unfold addCells
  rw [List.foldl_cons]

theorem abs_eval_addCells_sub_le (r : Row Coarse) (cells : List (Symbol × Coarse)) (k : Coarse)
    (v : Symbol → Coarse) :
    |(addCells r cells k).eval v - (r.eval v + k * (cells.map fun c => c.2 * v c.1).sum)|
      ≤ tolerance * (cells.map fun c => |v c.1|).sum := by
  induction cells generalizing r with
  | nil => simp [addCells]
  | cons c cells ih =>
    have hstep := abs_eval_addSymbol_sub_le r c.1 (c.2 * k) v
    have hrest := ih (r.addSymbol c.1 (c.2 * k))
    rw [addCells_cons, List.map_cons, List.map_cons, List.sum_cons, List.sum_cons]
    generalize (addCells (r.addSymbol c.1 (c.2 * k)) cells k).eval v = total at hrest ⊢
    generalize (r.addSymbol c.1 (c.2 * k)).eval v = first at hstep hrest
    generalize (cells.map fun c => c.2 * v c.1).sum = rest at hrest ⊢
    -- by way of the value after the first cell
    calc |total - (r.eval v + k * (c.2 * v c.1 + rest))|
        = |(total - (first + k * rest)) + (first - (r.eval v + c.2 * k * v c.1))| := by
          congr 1
          ring
      _ ≤ |total - (first + k * rest)| + |first - (r.eval v + c.2 * k * v c.1)| := abs_add_le _ _
      _ ≤ tolerance * (cells.map fun c => |v c.1|).sum + tolerance * |v c.1| :=
          add_le_add hrest hstep
      _ = tolerance * (|v c.1| + (cells.map fun c => |v c.1|).sum) := by ring

theorem get?_addCells_of_notMem {cells : List (Symbol × Coarse)} (h : s ∉ Entries.keys cells) :
    (addCells r cells k).cells.get? s = r.cells.get? s := by
  induction cells generalizing r with
  | nil => rfl
  | cons c cells ih =>
    rw [Entries.keys_cons, List.mem_cons, not_or] at h
    rw [addCells_cons, ih h.2, get?_addSymbol, if_neg h.1]

theorem get?_addCells {cells : List (Symbol × Coarse)} (hd : (Entries.keys cells).Nodup)
    (h : (s, a) ∈ cells) :
    (addCells r cells k).cells.get? s = kept (r.coefficient s + a * k) := by
  induction cells generalizing r with
  | nil => cases h
  | cons c cells ih =>
    rw [Entries.keys_cons, List.nodup_cons] at hd
    rw [addCells_cons]
    cases h with
    | head => rw [get?_addCells_of_notMem hd.1, get?_addSymbol, if_pos rfl]
    | tail _ hs =>
      have hne : s ≠ c.1 := fun he => hd.1 (he ▸ List.mem_map.2 ⟨(s, a), hs, rfl⟩)
      rw [ih hd.2 hs, Row.coefficient, get?_addSymbol, if_neg hne]
      rfl

theorem abs_eval_addRow_sub_le (r row : Row Coarse) (k : Coarse) (v : Symbol → Coarse) :
    |(r.addRow row k).eval v - (r.eval v + k * row.eval v)| ≤ tolerance * extent v row := by
  have hcells := abs_eval_addCells_sub_le (r.addConstant (row.constant * k)) row.cells.entries k v
  rw [eval_addConstant, ← addRow_eq] at hcells
  have hsum : r.eval v + row.constant * k + k * (row.cells.entries.map fun c => c.2 * v c.1).sum
      = r.eval v + k * row.eval v := by
    unfold Row.eval
    ring
  rwa [hsum] at hcells

theorem get?_addRow_of_notMem (h : s ∉ row.cells.keys) :
    (r.addRow row k).cells.get? s = r.cells.get? s :=
  get?_addCells_of_notMem h

theorem get?_addRow (h : s ∈ row.cells.keys) :
    (r.addRow row k).cells.get? s = kept (r.coefficient s + row.coefficient s * k) := by
  obtain ⟨a, ha⟩ := OrderedMap.mem_keys_iff.1 h
  rw [Row.coefficient_of_get? ha]
  exact get?_addCells row.cells.nodup (OrderedMap.mem_entries_iff.2 ha)

/-! ## Substituting and solving -/

theorem abs_eval_substitute_sub_le (r : Row Coarse) (hv : v s = row.eval v) :
    |(r.substitute s row).eval v - r.eval v| ≤ tolerance * extent v row := by
  unfold Row.substitute
  cases hs : r.cells.get? s with
  | none =>
    dsimp only
    rw [sub_self, abs_zero]
    exact mul_nonneg tolerance_pos.le extent_nonneg
  | some k =>
    have hk : r.coefficient s = k := Row.coefficient_of_get? hs
    have hremoved : (r.remove s).eval v + k * row.eval v = r.eval v := by
      rw [eval_remove, hk, hv]
      ring
    have hadd := abs_eval_addRow_sub_le (r.remove s) row k v
    rwa [hremoved] at hadd

theorem get?_substitute_self (r : Row Coarse) (h : s ∉ row.cells.keys) :
    (r.substitute s row).cells.get? s = none := by
  unfold Row.substitute
  cases hs : r.cells.get? s with
  | none => exact hs
  | some k =>
    dsimp only
    rw [get?_addRow_of_notMem h, Row.remove, OrderedMap.get?_swapErase, if_pos rfl]

theorem solveFor_ok (h : r.cells.get? s = some k) :
    ∃ solved, r.solveFor s = .ok solved ∧ solved.cells.get? s = none := by
  unfold Row.solveFor
  rw [h]
  refine ⟨_, rfl, ?_⟩
  rw [OrderedMap.get?_mapValues, OrderedMap.get?_swapErase, if_pos rfl]
  rfl

theorem solveFor_solves {solved : Row Coarse} (hok : r.solveFor s = .ok solved)
    (hs : r.coefficient s ≠ 0) (v : Symbol → Coarse) : r.eval v = 0 ↔ v s = solved.eval v := by
  rw [eval_solveFor hok hs, eq_comm (b := v s - _), sub_eq_self, div_eq_zero_iff, or_iff_left hs]

/-! ## The cost of dropping -/

/-- Adding a multiple of a row is off by at most the tolerance times what the symbols of that row
amount to. A cell that it leaves under one of them reaches the tolerance and holds the exact
coefficient, and it changes no other cell.

So replacing a symbol by a row that it equals moves the value of any row by no more than that,
and takes the symbol out of it. Solving a row for one of its symbols keeps the solutions exactly. -/
theorem drops_cost_at_most_tolerance :
    (∀ (r row : Row Coarse) (k : Coarse) (v : Symbol → Coarse),
      |(r.addRow row k).eval v - (r.eval v + k * row.eval v)| ≤ tolerance * extent v row ∧
      (∀ s ∈ row.cells.keys, ∀ a, (r.addRow row k).cells.get? s = some a →
        a = r.coefficient s + row.coefficient s * k ∧ tolerance ≤ |a|) ∧
      ∀ s ∉ row.cells.keys, (r.addRow row k).cells.get? s = r.cells.get? s) ∧
    (∀ (r row : Row Coarse) (s : Symbol) (v : Symbol → Coarse),
      v s = row.eval v → s ∉ row.cells.keys →
      |(r.substitute s row).eval v - r.eval v| ≤ tolerance * extent v row ∧
        (r.substitute s row).cells.get? s = none) ∧
    ∀ (r : Row Coarse) (s : Symbol) (a : Coarse), r.cells.get? s = some a → a ≠ 0 →
      ∃ solved, r.solveFor s = .ok solved ∧ solved.cells.get? s = none ∧
        ∀ v, r.eval v = 0 ↔ v s = solved.eval v := by
  refine ⟨fun r row k v => ⟨abs_eval_addRow_sub_le r row k v, fun s hs a ha => ?_,
      fun s hs => get?_addRow_of_notMem hs⟩,
    fun r row s v hv hs => ⟨abs_eval_substitute_sub_le r hv, get?_substitute_self r hs⟩,
    fun r s a ha hne => ?_⟩
  · rw [get?_addRow hs] at ha
    exact kept_eq_some_iff.1 ha
  · obtain ⟨solved, hok, hout⟩ := solveFor_ok ha
    rw [← Row.coefficient_of_get? ha] at hne
    exact ⟨solved, hok, hout, solveFor_solves hok hne⟩

/-- A residue of `5e-9` is dropped, and the value moves, by no more than three times the
tolerance. -/
theorem drops_cost_at_most_tolerance_residue :
    let x : Symbol := ⟨.slack, 1⟩
    let y : Symbol := ⟨.slack, 2⟩
    let z : Symbol := ⟨.error, 3⟩
    let s : Symbol := ⟨.external, 4⟩
    let row : Row Coarse := ⟨3, .insert (.insert ∅ x 1) y 2⟩
    let r : Row Coarse := ⟨-2, .insert (.insert (.insert ∅ x (-1 + 5e-9)) z 7) s 1⟩
    let v : Symbol → Coarse := fun a => if a = x then 2 else if a = y then 1 else
      if a = s then 7 else 0
    (r.addRow row 1).cells.get? x = none ∧ (r.addRow row 1).cells.get? y = some 2 ∧
      tolerance ≤ |(2 : Coarse)| ∧ (r.addRow row 1).cells.get? z = some 7 ∧
      v s = row.eval v ∧ s ∉ row.cells.keys ∧ (r.substitute s row).eval v ≠ r.eval v ∧
      |(r.substitute s row).eval v - r.eval v| ≤ tolerance * 3 ∧
      (2 : Coarse) ≠ 0 ∧ ∃ solved, row.solveFor y = .ok solved ∧
        ∀ v, row.eval v = 0 ↔ v y = solved.eval v := by
  intro x y z s row r v
  obtain ⟨hadd, hsubst, hsolve⟩ := drops_cost_at_most_tolerance
  obtain ⟨-, hcells, hothers⟩ := hadd r row 1 v
  have hy : (r.addRow row 1).cells.get? y = some 2 := by decide +kernel
  have hv : v s = row.eval v := by decide +kernel
  have hs : s ∉ row.cells.keys := by decide
  have hbound := (hsubst r row s v hv hs).1
  have hextent : extent v row = 3 := by decide +kernel
  rw [hextent] at hbound
  have htwo : (2 : Coarse) ≠ 0 := by decide +kernel
  obtain ⟨solved, hok, -, hiff⟩ := hsolve row y 2 (by decide +kernel) htwo
  refine ⟨by decide +kernel, hy, (hcells y (by decide) 2 hy).2, ?_, hv, hs, by decide +kernel,
    hbound, htwo, solved, hok, hiff⟩
  rw [hothers z (by decide)]
  decide +kernel

end Coarse

end BoxLayout
