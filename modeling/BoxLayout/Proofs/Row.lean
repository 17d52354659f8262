-- SUMMARY: Rows as affine functions of the symbols: the value of a row after each row operation, over exact numbers.
import Mathlib
import BoxLayout.OrderedMap.Lemmas
import BoxLayout.Scalar.Exact
import BoxLayout.Solver.Row

/-!
# Rows as affine functions

Over exact numbers a row is an affine function of the symbols, and its value says
everything about it: the constant is the value where all symbols are zero, and a
coefficient is the change in value when one symbol grows by one. So each row
operation is described by one equation about `eval`; constants and coefficients
follow from it.

What the value does not show is whether a cell with coefficient zero is stored.
No operation stores one: that is `Reduced`.
-/

namespace BoxLayout

/-- Only zero counts as zero. -/
@[simp] theorem nearZero_iff {x : Rat} : nearZero x = true ↔ x = 0 :=
  beq_iff_eq

namespace Entries

/-! ## Sums over entries -/

/-- The sum of all `coefficient * value of the key`. -/
def dot (v : Symbol → Rat) (es : List (Symbol × Rat)) : Rat :=
  (es.map fun e => e.2 * v e.1).sum

variable {v : Symbol → Rat} {s : Symbol} {es : List (Symbol × Rat)}

@[simp] theorem dot_nil : dot v [] = 0 := rfl

@[simp] theorem dot_cons (e : Symbol × Rat) : dot v (e :: es) = e.2 * v e.1 + dot v es := by
  simp [dot]

/-- Writing a coefficient replaces the old one, zero if there was none. -/
theorem dot_put (a : Rat) (h : (keys es).Nodup) :
    dot v (put s a es) = dot v es + (a - (find? s es).getD 0) * v s := by
  induction es with
  | nil => simp [put, find?]
  | cons e es ih =>
    obtain ⟨j, b⟩ := e
    rw [keys_cons, List.nodup_cons] at h
    by_cases hj : j = s
    · subst hj
      simp only [put, find?, if_true, dot_cons, Option.getD_some]
      ring
    · simp only [put, find?, hj, if_false, dot_cons, ih h.2]
      ring

theorem dropKey_cons (e : Symbol × Rat) :
    dropKey s (e :: es) = if e.1 = s then dropKey s es else e :: dropKey s es := by
  unfold dropKey
  by_cases h : e.1 = s <;> simp [h]

theorem dot_dropKey (h : (keys es).Nodup) :
    dot v (dropKey s es) = dot v es - (find? s es).getD 0 * v s := by
  induction es with
  | nil => simp [dropKey, find?]
  | cons e es ih =>
    obtain ⟨j, b⟩ := e
    rw [keys_cons, List.nodup_cons] at h
    rw [dropKey_cons]
    by_cases hj : j = s
    · subst hj
      have hnone : find? j es = none := find?_eq_none_iff.2 h.1
      simp [find?, ih h.2, hnone]
    · simp only [hj, if_false, find?, dot_cons, ih h.2]
      ring

theorem dot_swapOut (h : (keys es).Nodup) :
    dot v (swapOut s es) = dot v es - (find? s es).getD 0 * v s := by
  rw [← dot_dropKey h]
  exact List.Perm.sum_eq ((swapOut_perm h).map _)

theorem dot_map_mul (k : Rat) : dot v (es.map fun e => (e.1, e.2 * k)) = dot v es * k := by
  induction es with
  | nil => simp
  | cons e es ih =>
    simp only [List.map_cons, dot_cons, ih]
    ring

theorem dot_update (x : Rat) (h : (keys es).Nodup) :
    dot (Function.update v s x) es = dot v es + (find? s es).getD 0 * (x - v s) := by
  induction es with
  | nil => simp [find?]
  | cons e es ih =>
    obtain ⟨j, b⟩ := e
    rw [keys_cons, List.nodup_cons] at h
    by_cases hj : j = s
    · subst hj
      have hnone : find? j es = none := find?_eq_none_iff.2 h.1
      simp only [dot_cons, ih h.2, hnone, find?, if_true, Function.update_self]
      simp
      ring
    · simp only [dot_cons, ih h.2, find?, hj, if_false, Function.update_of_ne hj]
      ring

/-- A sum whose summands are not negative is not negative. -/
theorem dot_nonneg (h : ∀ e ∈ es, 0 ≤ e.2 * v e.1) : 0 ≤ dot v es :=
  List.sum_nonneg (List.forall_mem_map.2 h)

theorem dot_congr {w : Symbol → Rat} (h : ∀ e ∈ es, e.2 * v e.1 = e.2 * w e.1) :
    dot v es = dot w es :=
  congrArg List.sum (List.map_congr_left h)

end Entries

namespace Row

variable {r row : Row Rat} {v w : Symbol → Rat} {s x : Symbol} {k : Rat}

/-! ## The value of a row -/

theorem eval_eq : r.eval v = r.constant + Entries.dot v r.cells.entries := rfl

@[simp] theorem eval_ofConstant (k : Rat) : (ofConstant k).eval v = k := by
  simp [eval_eq, ofConstant, EmptyCollection.emptyCollection, OrderedMap.empty]

theorem coefficient_of_get? {α : Type} [Scalar α] {r : Row α} {a : α}
    (h : r.cells.get? s = some a) : r.coefficient s = a := by
  rw [coefficient, h, Option.getD_some]

theorem coefficient_of_get?_eq_none {α : Type} [Scalar α] {r : Row α}
    (h : r.cells.get? s = none) : r.coefficient s = 0 := by
  rw [coefficient, h, Option.getD_none]

theorem coefficient_of_mem {c : Symbol × Rat} (h : c ∈ r.cells.entries) :
    r.coefficient c.1 = c.2 :=
  coefficient_of_get? (OrderedMap.mem_entries_iff.1 h)

/-- Changing one symbol changes the value by its coefficient. -/
theorem eval_update (a : Rat) :
    r.eval (Function.update v s a) = r.eval v + r.coefficient s * (a - v s) := by
  rw [eval_eq, eval_eq, Entries.dot_update a r.cells.nodup, ← add_assoc]
  rfl

/-- Only the symbols that occur matter. -/
theorem eval_congr (h : ∀ s, r.coefficient s ≠ 0 → v s = w s) : r.eval v = r.eval w := by
  rw [eval_eq, eval_eq]
  congr 1
  apply Entries.dot_congr
  intro c hc
  by_cases hz : c.2 = 0
  · rw [hz, zero_mul, zero_mul]
  · rw [h c.1 (by rwa [coefficient_of_mem hc])]

theorem constant_le_eval (h : ∀ s, 0 ≤ r.coefficient s * v s) : r.constant ≤ r.eval v := by
  have hdot : 0 ≤ Entries.dot v r.cells.entries := by
    apply Entries.dot_nonneg
    intro c hc
    rw [← coefficient_of_mem hc]
    exact h c.1
  rw [eval_eq]
  linarith

theorem eval_eq_constant (h : ∀ s, r.coefficient s * v s = 0) : r.eval v = r.constant := by
  have hzero : r.eval v = r.eval fun _ => 0 := by
    apply eval_congr
    intro s hs
    exact (mul_eq_zero.1 (h s)).resolve_left hs
  rw [hzero, eval_eq]
  simp [Entries.dot]

theorem constant_eq_eval : r.constant = r.eval fun _ => 0 :=
  (eval_eq_constant fun _ => mul_zero _).symm

/-- A coefficient is the change in value when its symbol grows by one. -/
theorem coefficient_eq_eval :
    r.coefficient s = r.eval (Function.update v s (v s + 1)) - r.eval v := by
  rw [eval_update]
  ring

/-! ## Stored cells -/

/-- No stored coefficient is zero. -/
def Reduced (r : Row Rat) : Prop := ∀ s, r.cells.get? s ≠ some 0

/-- In a reduced row the symbols with a cell are those with a coefficient. -/
theorem Reduced.mem_keys_iff (h : r.Reduced) : s ∈ r.cells.keys ↔ r.coefficient s ≠ 0 := by
  rw [OrderedMap.mem_keys_iff, coefficient]
  cases hs : r.cells.get? s with
  | none => simp
  | some a =>
    have ha : a ≠ 0 := fun h0 => h s (by rw [hs, h0])
    simp [ha]

theorem Reduced.get?_eq_some (h : r.Reduced) {a : Rat} (hs : r.cells.get? s = some a) :
    r.coefficient s = a ∧ a ≠ 0 := by
  constructor
  · exact coefficient_of_get? hs
  · intro h0
    exact h s (by rw [hs, h0])

theorem reduced_ofConstant (k : Rat) : (ofConstant k).Reduced := by
  intro s
  simp [ofConstant, EmptyCollection.emptyCollection]

/-! ## Adding to a row -/

@[simp] theorem eval_addConstant (a : Rat) : (r.addConstant a).eval v = r.eval v + a := by
  simp only [eval_eq, addConstant]
  ring

@[simp] theorem coefficient_addConstant (a : Rat) :
    (r.addConstant a).coefficient s = r.coefficient s := rfl

@[simp] theorem constant_addConstant (a : Rat) : (r.addConstant a).constant = r.constant + a := rfl

theorem Reduced.addConstant (h : r.Reduced) (a : Rat) : (r.addConstant a).Reduced := h

theorem eval_remove (s : Symbol) : (r.remove s).eval v = r.eval v - r.coefficient s * v s := by
  have hcells := Entries.dot_swapOut (v := v) (s := s) r.cells.nodup
  change _ + Entries.dot v (Entries.swapOut s r.cells.entries) = _
  rw [hcells, eval_eq, add_sub_assoc]
  rfl

/-- Writing a cell replaces the coefficient of its symbol. -/
theorem eval_insert (s : Symbol) (a : Rat) :
    (⟨r.constant, r.cells.insert s a⟩ : Row Rat).eval v
      = r.eval v + (a - r.coefficient s) * v s := by
  have hcells := Entries.dot_put (v := v) (s := s) a r.cells.nodup
  change _ + Entries.dot v (Entries.put s a r.cells.entries) = _
  rw [hcells, eval_eq, add_assoc]
  rfl

theorem eval_addSymbol (s : Symbol) (k : Rat) : (r.addSymbol s k).eval v = r.eval v + k * v s := by
  simp only [addSymbol]
  split
  · next hz =>
    have hsum : r.coefficient s + k = 0 := nearZero_iff.1 hz
    change (r.remove s).eval v = _
    rw [eval_remove]
    linear_combination -(v s) * hsum
  · rw [eval_insert]
    ring

theorem Reduced.addSymbol (h : r.Reduced) (s : Symbol) (k : Rat) : (r.addSymbol s k).Reduced := by
  intro x
  simp only [Row.addSymbol]
  split
  · rw [OrderedMap.get?_swapErase]
    split
    · simp
    · exact h x
  · next hz =>
    rw [OrderedMap.get?_insert]
    split
    · intro h0
      exact hz (nearZero_iff.2 (Option.some.inj h0))
    · exact h x

private theorem eval_addCells (cells : List (Symbol × Rat)) (k : Rat) :
    (cells.foldl (fun r c => r.addSymbol c.1 (c.2 * k)) r).eval v
      = r.eval v + Entries.dot v cells * k := by
  induction cells generalizing r with
  | nil => simp
  | cons c cells ih =>
    rw [List.foldl_cons, ih, eval_addSymbol, Entries.dot_cons]
    ring

theorem eval_addRow (k : Rat) : (r.addRow row k).eval v = r.eval v + row.eval v * k := by
  rw [addRow, eval_addCells, eval_addConstant, eval_eq (r := row)]
  ring

theorem Reduced.addRow (h : r.Reduced) (row : Row Rat) (k : Rat) : (r.addRow row k).Reduced := by
  have hcells (cells : List (Symbol × Rat)) {q : Row Rat} (hq : q.Reduced) :
      (cells.foldl (fun r c => r.addSymbol c.1 (c.2 * k)) q).Reduced := by
    induction cells generalizing q with
    | nil => exact hq
    | cons c cells ih => exact ih (hq.addSymbol _ _)
  exact hcells _ (h.addConstant _)

/-- Adding several symbols adds what they are worth together. -/
theorem eval_addSymbols (cells : List (Symbol × Rat)) :
    (cells.foldl (fun r c => r.addSymbol c.1 c.2) r).eval v = r.eval v + Entries.dot v cells := by
  induction cells generalizing r with
  | nil => exact (add_zero _).symm
  | cons c cells ih =>
    rw [List.foldl_cons, ih, eval_addSymbol, Entries.dot_cons]
    ring

theorem Reduced.addSymbols (h : r.Reduced) (cells : List (Symbol × Rat)) :
    (cells.foldl (fun r c => r.addSymbol c.1 c.2) r).Reduced := by
  induction cells generalizing r with
  | nil => exact h
  | cons c cells ih => exact ih (h.addSymbol c.1 c.2)

theorem Reduced.remove (h : r.Reduced) (s : Symbol) : (r.remove s).Reduced := by
  intro x
  rw [Row.remove, OrderedMap.get?_swapErase]
  split
  · simp
  · exact h x

theorem coefficient_remove (s x : Symbol) :
    (r.remove s).coefficient x = if x = s then 0 else r.coefficient x := by
  unfold coefficient remove
  rw [OrderedMap.get?_swapErase]
  split
  · rfl
  · rfl

/-! ## Multiples of a row -/

private theorem eval_scaled (k : Rat) (cells : OrderedMap Symbol Rat) (a : Rat) :
    (⟨a * k, cells.mapValues fun _ x => x * k⟩ : Row Rat).eval v
      = (⟨a, cells⟩ : Row Rat).eval v * k := by
  simp only [eval_eq, OrderedMap.mapValues, Entries.dot_map_mul]
  ring

private theorem reduced_scaled {k : Rat} (hk : k ≠ 0) {cells : OrderedMap Symbol Rat} {a b : Rat}
    (h : (⟨a, cells⟩ : Row Rat).Reduced) :
    (⟨b, cells.mapValues fun _ x => x * k⟩ : Row Rat).Reduced := by
  intro x
  rw [OrderedMap.get?_mapValues]
  intro h0
  obtain ⟨c, hc, hck⟩ := Option.map_eq_some_iff.1 h0
  have hzero : c = 0 := (mul_eq_zero.1 hck).resolve_right hk
  exact h x (by rw [hc, hzero])

theorem negate_eq : r.negate = ⟨r.constant * (-1), r.cells.mapValues fun _ x => x * (-1)⟩ := by
  simp only [negate, mul_neg, mul_one]

theorem eval_negate : r.negate.eval v = -r.eval v := by
  rw [negate_eq, eval_scaled]
  ring

theorem coefficient_negate : r.negate.coefficient s = -r.coefficient s := by
  unfold coefficient negate
  rw [OrderedMap.get?_mapValues]
  cases r.cells.get? s with
  | none => exact neg_zero.symm
  | some a => rfl

theorem Reduced.negate (h : r.Reduced) : r.negate.Reduced := by
  rw [negate_eq]
  exact reduced_scaled (by norm_num) h

/-! ## Substituting and solving -/

/-- Substitution moves the value by the error that the replaced symbol makes. -/
theorem eval_substitute (s : Symbol) (row : Row Rat) :
    (r.substitute s row).eval v = r.eval v + r.coefficient s * (row.eval v - v s) := by
  unfold substitute
  cases hs : r.cells.get? s with
  | none =>
    have hzero : r.coefficient s = 0 := coefficient_of_get?_eq_none hs
    rw [hzero]
    ring
  | some k =>
    have hk : r.coefficient s = k := coefficient_of_get? hs
    dsimp only
    rw [eval_addRow, eval_remove, hk]
    ring

theorem Reduced.substitute (h : r.Reduced) (s : Symbol) (row : Row Rat) :
    (r.substitute s row).Reduced := by
  unfold Row.substitute
  cases r.cells.get? s with
  | none => exact h
  | some k => exact (h.remove s).addRow row k

theorem constant_substitute (s : Symbol) (row : Row Rat) :
    (r.substitute s row).constant = r.constant + r.coefficient s * row.constant := by
  rw [constant_eq_eval, eval_substitute, ← constant_eq_eval, ← constant_eq_eval]
  ring

theorem coefficient_substitute (s : Symbol) (row : Row Rat) (x : Symbol) :
    (r.substitute s row).coefficient x
      = r.coefficient x + r.coefficient s * (row.coefficient x - if x = s then 1 else 0) := by
  rw [coefficient_eq_eval (v := fun _ => 0), eval_substitute, eval_substitute, eval_update,
    eval_update]
  by_cases hx : x = s
  · subst hx
    simp
    ring
  · have hs : s ≠ x := fun h => hx h.symm
    simp [hx, Function.update_of_ne hs]
    ring

/-- `solved` says what `s` equals where `r` is zero. -/
structure Solves (solved r : Row Rat) (s : Symbol) : Prop where
  reduced : solved.Reduced
  eval : ∀ v, solved.eval v = v s - r.eval v / r.coefficient s

theorem eval_solveFor {solved : Row Rat} (hok : r.solveFor s = .ok solved) (hs : r.coefficient s ≠ 0)
    (v : Symbol → Rat) : solved.eval v = v s - r.eval v / r.coefficient s := by
  unfold solveFor at hok
  cases hget : r.cells.get? s with
  | none =>
    rw [hget] at hok
    cases hok
  | some k =>
    have hk : r.coefficient s = k := coefficient_of_get? hget
    rw [hget] at hok
    obtain rfl := Except.ok.inj hok
    rw [hk] at hs ⊢
    rw [eval_scaled]
    change (r.remove s).eval v * _ = _
    rw [eval_remove, hk]
    field_simp
    ring

theorem solveFor_ok (h : r.Reduced) (hs : r.coefficient s ≠ 0) :
    ∃ solved, r.solveFor s = .ok solved ∧ solved.Solves r s := by
  cases hget : r.cells.get? s with
  | none => exact absurd (coefficient_of_get?_eq_none hget) hs
  | some k =>
    have hm : -1 / k ≠ 0 := div_ne_zero (by norm_num) (h.get?_eq_some hget).2
    have hok : r.solveFor s
        = .ok ⟨r.constant * (-1 / k), (r.cells.swapErase s).mapValues fun _ x => x * (-1 / k)⟩ := by
      unfold solveFor
      rw [hget]
      rfl
    exact ⟨_, hok, reduced_scaled hm (a := r.constant) (h.remove s), eval_solveFor hok hs⟩

/-- The solved row holds of an assignment exactly where the original row is zero. -/
theorem Solves.value_iff {solved : Row Rat} (h : solved.Solves r s) (hs : r.coefficient s ≠ 0) :
    v s = solved.eval v ↔ r.eval v = 0 := by
  rw [h.eval]
  constructor
  · intro hv
    have hz : r.eval v / r.coefficient s = 0 := by linarith
    exact (div_eq_zero_iff.1 hz).resolve_right hs
  · intro hv
    rw [hv]
    ring

/-- Where the original row is zero, substituting the solved row changes no value. -/
theorem Solves.eval_substitute {solved : Row Rat} (h : solved.Solves r s)
    (hs : r.coefficient s ≠ 0) (hv : r.eval v = 0) (q : Row Rat) :
    (q.substitute s solved).eval v = q.eval v := by
  rw [Row.eval_substitute, ← (h.value_iff hs).2 hv]
  ring

theorem Solves.constant {solved : Row Rat} (h : solved.Solves r s) :
    solved.constant = -r.constant / r.coefficient s := by
  rw [constant_eq_eval, h.eval, ← constant_eq_eval]
  ring

theorem Solves.coefficient {solved : Row Rat} (h : solved.Solves r s) (x : Symbol) :
    solved.coefficient x = (if x = s then 1 else 0) - r.coefficient x / r.coefficient s := by
  rw [coefficient_eq_eval (v := fun _ => 0), h.eval, h.eval, eval_update]
  by_cases hx : x = s
  · subst hx
    simp
    ring
  · have hs : s ≠ x := fun h => hx h.symm
    simp [hx, Function.update_of_ne hs]
    ring

theorem coefficient_addSymbol (s : Symbol) (k : Rat) (x : Symbol) :
    (r.addSymbol s k).coefficient x = r.coefficient x + if x = s then k else 0 := by
  rw [coefficient_eq_eval (v := fun _ => 0), eval_addSymbol, eval_addSymbol, eval_update]
  by_cases hx : x = s
  · subst hx
    simp
    ring
  · have hs : s ≠ x := fun h => hx h.symm
    simp [hx, Function.update_of_ne hs]

theorem coefficient_addSymbols {cells : List (Symbol × Rat)} (h : ∀ c ∈ cells, x ≠ c.1) :
    (cells.foldl (fun r c => r.addSymbol c.1 c.2) r).coefficient x = r.coefficient x := by
  induction cells generalizing r with
  | nil => rfl
  | cons c cells ih =>
    rw [List.foldl_cons, ih fun c hc => h c (List.mem_cons_of_mem _ hc), coefficient_addSymbol,
      if_neg (h c List.mem_cons_self), add_zero]

theorem coefficient_addRow (k : Rat) (x : Symbol) :
    (r.addRow row k).coefficient x = r.coefficient x + row.coefficient x * k := by
  rw [coefficient_eq_eval (v := fun _ => 0), eval_addRow, eval_addRow, eval_update, eval_update]
  ring

theorem constant_addSymbol (s : Symbol) (k : Rat) : (r.addSymbol s k).constant = r.constant := rfl

end Row

end BoxLayout
