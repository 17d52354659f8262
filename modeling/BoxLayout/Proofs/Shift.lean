-- SUMMARY: Moving the target of an edit constraint: the constants that change and what the tableau means afterwards.
import BoxLayout.Proofs.Entry

/-!
# Moving a target

An edit constraint states `x - marker + other = target`. Moving its target by `d` is the
same as moving its marker by `d`, so the new solutions are the old ones with the marker
moved: `Meaning.shifting`. Where the marker or the other symbol is basic one row takes
the change, otherwise every row that mentions the marker does. In each case only
constants change, and the rows that became negative wait to be mended.
-/

namespace BoxLayout

/-- The meaning in which the marker of an edit constraint stands `d` lower. -/
def Meaning.shifting (μ : Meaning) (m : Symbol) (d : Rat) : Meaning :=
  { μ with solutions := fun v => μ.solutions (Function.update v m (v m + d)) }

theorem Row.addConstant_zero (r : Row Rat) : r.addConstant 0 = r := by
  unfold addConstant
  rw [add_zero]

namespace Tableau

variable {t t' : Tableau Rat} {μ : Meaning} {s b m : Symbol} {r row : Row Rat} {d : Rat}
  {δ : Symbol → Row Rat → Rat} {v : Assignment}

/-- Only constants have changed, each row's by `δ`, and the rows that became negative wait. -/
structure Shifts (t t' : Tableau Rat) (δ : Symbol → Row Rat → Rat) : Prop where
  symbolCount : t'.symbolCount = t.symbolCount
  objective : t'.objective = t.objective
  artificial : t'.artificial = t.artificial
  rows : ∀ b, t'.rows.get? b = (t.rows.get? b).map fun r => r.addConstant (δ b r)
  queued : ∀ b r, t.rows.get? b = some r → b.isExternal = false → 0 ≤ r.constant →
    r.constant + δ b r < 0 → b ∈ t'.infeasible
  internal : ∀ b ∈ t'.infeasible, b ∈ t.infeasible ∨ b.isExternal = false

namespace Shifts

theorem get?_eq_some (h : Shifts t t' δ) (hb : t'.rows.get? b = some r) :
    ∃ r₀, t.rows.get? b = some r₀ ∧ r = r₀.addConstant (δ b r₀) := by
  rw [h.rows] at hb
  obtain ⟨r₀, hr₀, heq⟩ := Option.map_eq_some_iff.1 hb
  exact ⟨r₀, hr₀, heq.symm⟩

theorem mem_keys (h : Shifts t t' δ) : b ∈ t'.rows.keys ↔ b ∈ t.rows.keys := by
  rw [OrderedMap.mem_keys_iff, OrderedMap.mem_keys_iff, h.rows]
  simp only [Option.map_eq_some_iff]
  constructor
  · rintro ⟨-, r, hr, -⟩
    exact ⟨r, hr⟩
  · rintro ⟨r, hr⟩
    exact ⟨_, r, hr, rfl⟩

/-- A stored row is an old one with another constant. -/
theorem stores (h : Shifts t t' δ) (hr : t'.Stores r) : ∃ r₀ k, t.Stores r₀ ∧ r = r₀.addConstant k := by
  obtain ⟨b, hb⟩ | rfl | ha := hr
  · obtain ⟨r₀, hr₀, heq⟩ := h.get?_eq_some hb
    exact ⟨r₀, _, stores_row hr₀, heq⟩
  · exact ⟨t.objective, 0, stores_objective, by rw [h.objective, Row.addConstant_zero]⟩
  · rw [h.artificial] at ha
    exact ⟨r, 0, stores_artificial ha, by rw [Row.addConstant_zero]⟩

theorem solved (h : Shifts t t' δ) (ht : t.Solved) : t'.Solved := by
  constructor
  · intro r hr
    obtain ⟨r₀, k, hr₀, rfl⟩ := h.stores hr
    exact (ht.reduced r₀ hr₀).addConstant k
  · intro r hr b hb
    obtain ⟨r₀, k, hr₀, rfl⟩ := h.stores hr
    exact ht.basic r₀ hr₀ b (h.mem_keys.1 hb)

theorem split (h : Shifts t t' δ) (ht : t.Split) : t'.Split := by
  refine ⟨?_, ?_, ?_⟩
  · intro b r hb hint
    obtain ⟨r₀, hr₀, rfl⟩ := h.get?_eq_some hb
    exact ht.rows b r₀ hr₀ hint
  · rw [h.objective]
    exact ht.objective
  · rw [h.artificial]
    exact ht.artificial

theorem clean (h : Shifts t t' δ) (ht : t.Clean)
    (hzero : ∀ b r, t.rows.get? b = some r → b.isDummy = true → δ b r = 0) : t'.Clean := by
  intro b r hb hd
  obtain ⟨r₀, hr₀, rfl⟩ := h.get?_eq_some hb
  rw [hzero b r₀ hr₀ hd, Row.addConstant_zero]
  exact ht b r₀ hr₀ hd

theorem satisfies_iff (h : Shifts t t' δ) :
    t'.Satisfies v ↔ ∀ b r, t.rows.get? b = some r → v b = r.eval v + δ b r := by
  constructor
  · intro hv b r hb
    rw [← Row.eval_addConstant]
    apply hv b
    rw [h.rows, hb, Option.map_some]
  · intro hv b r hb
    obtain ⟨r₀, hr₀, rfl⟩ := h.get?_eq_some hb
    rw [Row.eval_addConstant]
    exact hv b r₀ hr₀

/-- A tableau with a minimal objective has only its constants left to mend. -/
theorem mending (h : Shifts t t' δ) (ht : t.Ready μ) (hmin : t.objective.Minimal)
    (hart : t.artificial = none) (hμ : μ.artificial = none)
    (hsol : ∀ v, t'.Satisfies v ↔ t.Satisfies (Function.update v m (v m + d)))
    (hobj : ∃ w, ∀ v x, μ.objective (Function.update v m x) = μ.objective v + w * (x - v m)) :
    t'.Mending (μ.shifting m d) := by
  have hsolutions (v : Assignment) : t'.Satisfies v ↔ (μ.shifting m d).solutions v := by
    rw [hsol, ht.solutions]
    rfl
  refine ⟨⟨?_, h.solved ht.solved, hsolutions, ?_, ?_⟩, h.split ht.split, ?_, ?_, ?_⟩
  · rw [h.symbolCount]
    exact ht.symbolCount
  · obtain ⟨c, hc⟩ := ht.objective
    obtain ⟨w, hw⟩ := hobj
    refine ⟨c + w * d - t.objective.coefficient m * d, fun v hv => ?_⟩
    have hval := hc _ hv
    rw [Row.eval_update, hw] at hval
    rw [h.objective]
    change _ = μ.objective v + _
    linear_combination hval
  · rw [h.artificial, hart]
    change Option.Rel _ none μ.artificial
    rw [hμ]
    exact .none
  · rw [h.objective]
    exact hmin
  · intro b r hb hint hneg
    obtain ⟨r₀, hr₀, rfl⟩ := h.get?_eq_some hb
    exact h.queued b r₀ hr₀ hint (ht.feasible b r₀ hr₀ hint) hneg
  · intro b hb
    obtain hold | hint := h.internal b hb
    · rw [ht.calm] at hold
      cases hold
    · exact hint

end Shifts

/-! ## One row -/

theorem shifts_shiftRow (hrow : t.rows.get? s = some row) (hs : s.isExternal = false) (d : Rat) :
    Shifts t (t.shiftRow s row d) (fun b _ => if b = s then d else 0) := by
  have hrows : (t.shiftRow s row d).rows = t.rows.insert s (row.addConstant d) := by
    unfold shiftRow
    dsimp only
    split <;> rfl
  refine ⟨?_, ?_, ?_, ?_, ?_, ?_⟩
  · unfold shiftRow
    dsimp only
    split <;> rfl
  · unfold shiftRow
    dsimp only
    split <;> rfl
  · unfold shiftRow
    dsimp only
    split <;> rfl
  · intro b
    rw [hrows, OrderedMap.get?_insert]
    by_cases hbs : b = s
    · rw [if_pos hbs, hbs, hrow, Option.map_some, if_pos rfl]
    · simp only [if_neg hbs, Row.addConstant_zero, Option.map_id']
  · intro b r hb _ hpos hneg
    by_cases hbs : b = s
    · subst hbs
      rw [hrow] at hb
      obtain rfl := Option.some.inj hb
      rw [if_pos rfl] at hneg
      unfold shiftRow
      dsimp only
      rw [if_pos (by exact hneg)]
      exact List.mem_cons_self
    · rw [if_neg hbs, add_zero] at hneg
      linarith
  · intro b hb
    unfold shiftRow at hb
    dsimp only at hb
    split at hb
    · obtain rfl | hold := List.mem_cons.1 hb
      · exact Or.inr hs
      · exact Or.inl hold
    · exact Or.inl hb

theorem satisfies_shiftRow (h : t.Solved) (hrow : t.rows.get? s = some row)
    (hs : s.isExternal = false) (d : Rat) :
    (t.shiftRow s row d).Satisfies v ↔ t.Satisfies (Function.update v s (v s - d)) := by
  have hmem : s ∈ t.rows.keys := Tableau.mem_keys hrow
  rw [(shifts_shiftRow hrow hs d).satisfies_iff]
  refine forall_congr' fun b => forall_congr' fun r => imp_congr_right fun hb => ?_
  rw [Row.eval_update, h.basic r (stores_row hb) s hmem, zero_mul, add_zero]
  by_cases hbs : b = s
  · subst hbs
    rw [if_pos rfl, Function.update_self]
    constructor <;> intro heq <;> linarith
  · rw [if_neg hbs, Function.update_of_ne hbs, add_zero]

/-! ## All rows that mention the marker -/

/-- The tableau in which every constant has moved with its row's coefficient of the marker. -/
def moveRows (t : Tableau Rat) (m : Symbol) (d : Rat) : Tableau Rat :=
  let moved (row : Row Rat) : Option (Row Rat) :=
    let k := row.coefficient m
    if k == 0 then none else some (row.addConstant (d * k))
  let negative (e : Symbol × Row Rat) : Bool := (moved e.2).any fun row => isNegative (e.1, row)
  let rows := t.rows.mapValues fun _ row => (moved row).getD row
  queue { t with rows := rows } ((t.rows.entries.filter negative).map Prod.fst)

theorem shifts_moveRows (t : Tableau Rat) (m : Symbol) (d : Rat) :
    Shifts t (t.moveRows m d) (fun _ r => d * r.coefficient m) := by
  refine ⟨rfl, rfl, rfl, ?_, ?_, ?_⟩
  · intro b
    refine (OrderedMap.get?_mapValues _ _ _).trans (congrArg (Option.map · _) (funext fun r => ?_))
    dsimp only
    split
    · next hzero => rw [beq_iff_eq.1 hzero, mul_zero, Row.addConstant_zero, Option.getD_none]
    · rw [Option.getD_some]
  · intro b r hb hint hpos hneg
    refine List.mem_append_left _ (List.mem_reverse.2 (List.mem_map.2 ⟨(b, r), ?_, rfl⟩))
    refine List.mem_filter.2 ⟨mem_entries hb, ?_⟩
    have hcoef : r.coefficient m ≠ 0 := by
      intro hzero
      rw [hzero] at hneg
      linarith
    simp [hcoef, isNegative, hint, hneg]
  · intro b hb
    obtain hb | hold := List.mem_append.1 hb
    · obtain ⟨e, he, rfl⟩ := List.mem_map.1 (List.mem_reverse.1 hb)
      have hneg := (List.mem_filter.1 he).2
      obtain ⟨row, -, hrow⟩ := (Option.any_eq_true _ _).1 hneg
      simp only [isNegative, Bool.and_eq_true, Bool.not_eq_true'] at hrow
      exact Or.inr hrow.1
    · exact Or.inl hold

theorem satisfies_moveRows (hm : m ∉ t.rows.keys) (d : Rat) :
    (t.moveRows m d).Satisfies v ↔ t.Satisfies (Function.update v m (v m + d)) := by
  rw [(shifts_moveRows t m d).satisfies_iff]
  refine forall_congr' fun b => forall_congr' fun r => imp_congr_right fun hb => ?_
  have hbm : b ≠ m := fun e => hm (e ▸ mem_keys hb)
  rw [Row.eval_update, Function.update_of_ne hbm]
  constructor <;> intro heq <;> linarith

/-! ## Moving the target -/

/-- The symbols of an edit constraint are slack or error symbols that occur together. -/
structure EditTag (μ : Meaning) (tag : Tag) : Prop where
  pivotable : ∀ s ∈ tag.symbols, s.isPivotable = true
  together : ∀ o ∈ tag.other, ∀ v d, μ.solutions (Function.update v o (v o - d)) ↔
    μ.solutions (Function.update v tag.marker (v tag.marker + d))
  cost : ∃ w, ∀ v x, μ.objective (Function.update v tag.marker x)
    = μ.objective v + w * (x - v tag.marker)

theorem isExternal_of_isPivotable {s : Symbol} (h : s.isPivotable = true) :
    s.isExternal = false := by
  obtain ⟨kind, n⟩ := s
  cases kind with
  | external => cases h
  | slack => rfl
  | error => rfl
  | dummy => rfl

theorem shiftEdit_mending (h : t.Ready μ) (hmin : t.objective.Minimal) (hμ : μ.artificial = none)
    {tag : Tag} (htag : EditTag μ tag) (d : Rat) :
    (t.shiftEdit tag d).Mending (μ.shifting tag.marker d) ∧
      (t.Clean → (t.shiftEdit tag d).Clean) := by
  have hart := h.artificial_eq_none hμ
  have hmarker : tag.marker ∈ tag.symbols := List.mem_cons_self
  have hrow_clean {s : Symbol} {row : Row Rat} (hrow : t.rows.get? s = some row)
      (hs : s.isPivotable = true) (k : Rat) (hclean : t.Clean) : (t.shiftRow s row k).Clean := by
    apply (shifts_shiftRow hrow (isExternal_of_isPivotable hs) k).clean hclean
    intro b r _ hb
    have hbs : b ≠ s := by
      rintro rfl
      rw [Symbol.isDummy_of_isPivotable hs] at hb
      cases hb
    exact if_neg hbs
  unfold shiftEdit
  cases hm : t.rows.get? tag.marker with
  | some row =>
    have hpiv := htag.pivotable tag.marker hmarker
    have hint := isExternal_of_isPivotable hpiv
    refine ⟨(shifts_shiftRow hm hint (-d)).mending h hmin hart hμ ?_ htag.cost,
      hrow_clean hm hpiv (-d)⟩
    intro v
    rw [satisfies_shiftRow h.solved hm hint, sub_neg_eq_add]
  | none =>
    have hnot := OrderedMap.get?_eq_none_iff.1 hm
    cases ho : tag.other.bind fun s => (t.rows.get? s).map (s, ·) with
    | some found =>
      obtain ⟨other, row⟩ := found
      obtain ⟨o, hother, hget⟩ := Option.bind_eq_some_iff.1 ho
      obtain ⟨r, hrow, heq⟩ := Option.map_eq_some_iff.1 hget
      obtain ⟨rfl, rfl⟩ := Prod.mk.inj heq
      have hmem : o ∈ tag.symbols := List.mem_cons_of_mem _ (Option.mem_toList.2 hother)
      have hpiv := htag.pivotable o hmem
      have hint := isExternal_of_isPivotable hpiv
      refine ⟨(shifts_shiftRow hrow hint d).mending h hmin hart hμ ?_ htag.cost,
        hrow_clean hrow hpiv d⟩
      intro v
      rw [satisfies_shiftRow h.solved hrow hint, h.solutions, h.solutions]
      exact htag.together o hother v d
    | none =>
      refine ⟨(shifts_moveRows t tag.marker d).mending h hmin hart hμ ?_ htag.cost, ?_⟩
      · intro v
        exact satisfies_moveRows hnot d
      · intro hclean
        apply (shifts_moveRows t tag.marker d).clean hclean
        intro b r hb hd
        rw [(hclean b r hb hd).2 tag.marker
          (Symbol.isDummy_of_isPivotable (htag.pivotable tag.marker hmarker)), mul_zero]

end Tableau

end BoxLayout
