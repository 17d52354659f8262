-- SUMMARY: What the pivot searches find over exact numbers, and what it means that they find nothing.
import BoxLayout.Proofs.Solutions
import BoxLayout.Solver.Simplex

/-!
# Pivot searches

Over exact numbers every ratio is a candidate, so a least-ratio search comes back
empty only without candidates. Each search of the simplex loops is described twice:
by what holds of the pivot that it finds, and by what holds of the tableau when it
finds none.
-/

namespace BoxLayout

variable {β : Type}

namespace Tableau

/-! ## Least ratios -/

private theorem foldl_betterRatio (cs : List (β × Rat)) (best : β × Rat) :
    ∃ found, cs.foldl betterRatio (some best) = some found ∧ (found = best ∨ found ∈ cs) ∧
      found.2 ≤ best.2 ∧ ∀ c ∈ cs, found.2 ≤ c.2 := by
  induction cs generalizing best with
  | nil => exact ⟨best, rfl, Or.inl rfl, le_refl _, by simp⟩
  | cons c cs ih =>
    rw [List.foldl_cons]
    by_cases hc : c.2 < best.2
    · have hstep : betterRatio (some best) c = some c := by simp [betterRatio, hc]
      obtain ⟨found, hfold, hmem, hle, hall⟩ := ih c
      refine ⟨found, by rw [hstep, hfold], ?_, hle.trans hc.le, ?_⟩
      · obtain rfl | hmem := hmem
        · exact Or.inr List.mem_cons_self
        · exact Or.inr (List.mem_cons_of_mem _ hmem)
      · intro x hx
        obtain rfl | hx := List.mem_cons.1 hx
        · exact hle
        · exact hall x hx
    · have hstep : betterRatio (some best) c = some best := by simp [betterRatio, hc]
      obtain ⟨found, hfold, hmem, hle, hall⟩ := ih best
      refine ⟨found, by rw [hstep, hfold], ?_, hle, ?_⟩
      · exact hmem.imp_right (List.mem_cons_of_mem _)
      · intro x hx
        obtain rfl | hx := List.mem_cons.1 hx
        · exact hle.trans (not_lt.1 hc)
        · exact hall x hx

/-- The search finds a candidate of least ratio. -/
theorem leastRatio_eq_some {cs : List (β × Rat)} {b : β} (h : leastRatio cs = some b) :
    ∃ q, (b, q) ∈ cs ∧ ∀ c ∈ cs, q ≤ c.2 := by
  cases cs with
  | nil => cases h
  | cons c cs =>
    have hstep : betterRatio none c = some c := rfl
    obtain ⟨found, hfold, hmem, hle, hall⟩ := foldl_betterRatio cs c
    rw [leastRatio, List.foldl_cons, hstep, hfold, Option.map_some, Option.some.injEq] at h
    subst h
    refine ⟨found.2, ?_, ?_⟩
    · obtain rfl | hmem := hmem
      · exact List.mem_cons_self
      · exact List.mem_cons_of_mem _ hmem
    · intro x hx
      obtain rfl | hx := List.mem_cons.1 hx
      · exact hle
      · exact hall x hx

/-- The search fails only without candidates. -/
theorem leastRatio_eq_none {cs : List (β × Rat)} (h : leastRatio cs = none) : cs = [] := by
  cases cs with
  | nil => rfl
  | cons c cs =>
    have hstep : betterRatio none c = some c := rfl
    obtain ⟨found, hfold, -⟩ := foldl_betterRatio cs c
    rw [leastRatio, List.foldl_cons, hstep, hfold] at h
    cases h

/-! ## Rows that limit an increase -/

/-- A row that limits a falling symbol no more than the pivot row does stays feasible. -/
theorem feasible_of_ratio_falling {a k b l : Rat} (hl : l < 0) (h : -a / k ≤ -b / l) :
    0 ≤ b - l * (a / k) := by
  have hmul := mul_le_mul_of_nonpos_left h hl.le
  have hb : l * (-b / l) = -b := mul_div_cancel₀ _ hl.ne
  have ha : l * (-a / k) = -(l * (a / k)) := by ring
  linarith

theorem feasible_of_ratio_rising {a k b l : Rat} (hl : 0 < l) (h : a / k ≤ b / l) :
    0 ≤ b - l * (a / k) := by
  have hmul := mul_le_mul_of_nonneg_left h hl.le
  have hb : l * (b / l) = b := mul_div_cancel₀ _ hl.ne'
  linarith

variable {t : Tableau Rat} {entering leaving marker b s : Symbol} {row r : Row Rat}

/-- The row found falls with the symbol, and no other row allows the symbol less. -/
theorem leavingRow?_eq_some (h : t.leavingRow? entering = some (leaving, row)) :
    t.rows.get? leaving = some row ∧ leaving.isExternal = false ∧ row.coefficient entering < 0 ∧
      ∀ b r, t.rows.get? b = some r → b.isExternal = false → r.coefficient entering < 0 →
        -row.constant / row.coefficient entering ≤ -r.constant / r.coefficient entering := by
  obtain ⟨q, hmem, hleast⟩ := leastRatio_eq_some h
  obtain ⟨e, he, hcand⟩ := List.mem_filterMap.1 hmem
  simp only [Option.ite_none_right_eq_some, Bool.and_eq_true, Bool.not_eq_true', decide_eq_true_eq,
    Option.some.injEq, Prod.mk.injEq] at hcand
  obtain ⟨⟨hint, hneg⟩, rfl, rfl⟩ := hcand
  refine ⟨get?_of_mem he, hint, hneg, fun b r hb hbi hbn => ?_⟩
  refine hleast ((b, r), -r.constant / r.coefficient entering) ?_
  refine List.mem_filterMap.2 ⟨(b, r), mem_entries hb, ?_⟩
  simp [hbi, hbn]

/-- Exchanging the row found for the symbol leaves no row of a symbol that is not external
with a negative constant. -/
theorem feasible_of_leavingRow? (h : t.leavingRow? entering = some (leaving, row))
    (hfeas : ∀ b r, t.rows.get? b = some r → b.isExternal = false → 0 ≤ r.constant)
    (hb : t.rows.get? b = some r) (hbi : b.isExternal = false) :
    0 ≤ r.constant - r.coefficient entering * (row.constant / row.coefficient entering) := by
  obtain ⟨hrow, hint, hcoef, hleast⟩ := leavingRow?_eq_some h
  rcases lt_or_ge (r.coefficient entering) 0 with hlt | hge
  · exact feasible_of_ratio_falling hlt (hleast b r hb hbi hlt)
  · have hratio : row.constant / row.coefficient entering ≤ 0 :=
      div_nonpos_of_nonneg_of_nonpos (hfeas leaving row hrow hint) hcoef.le
    have hr := hfeas b r hb hbi
    nlinarith

/-- Without such a row the symbol may grow without end. -/
theorem leavingRow?_eq_none (h : t.leavingRow? entering = none) (hb : t.rows.get? b = some r)
    (hint : b.isExternal = false) : 0 ≤ r.coefficient entering := by
  by_contra hneg
  have hmem := List.filterMap_eq_nil_iff.1 (leastRatio_eq_none h) (b, r) (mem_entries hb)
  simp [hint, not_le.1 hneg] at hmem

/-! ## Symbols that mend a row -/

theorem enteringSymbol?_eq_some (hred : row.Reduced) (h : t.enteringSymbol? row = some entering) :
    0 < row.coefficient entering ∧ entering.isDummy = false ∧
      ∀ s, 0 < row.coefficient s → s.isDummy = false →
        t.objective.coefficient entering / row.coefficient entering
          ≤ t.objective.coefficient s / row.coefficient s := by
  obtain ⟨q, hmem, hleast⟩ := leastRatio_eq_some h
  obtain ⟨c, hc, hcand⟩ := List.mem_filterMap.1 hmem
  simp only [Option.ite_none_right_eq_some, Bool.and_eq_true, Bool.not_eq_true', decide_eq_true_eq,
    Option.some.injEq, Prod.mk.injEq] at hcand
  obtain ⟨⟨hpos, hdummy⟩, rfl, rfl⟩ := hcand
  rw [← Row.coefficient_of_mem hc] at hpos hleast
  refine ⟨hpos, hdummy, fun s hs hsd => ?_⟩
  refine hleast (s, t.objective.coefficient s / row.coefficient s) ?_
  obtain ⟨a, ha⟩ := OrderedMap.mem_keys_iff.1 (hred.mem_keys_iff.2 hs.ne')
  obtain ⟨rfl, -⟩ := hred.get?_eq_some ha
  refine List.mem_filterMap.2 ⟨_, OrderedMap.mem_entries_iff.2 ha, ?_⟩
  simp [hs, hsd]

/-- Without such a symbol the row cannot grow. -/
theorem enteringSymbol?_eq_none (hred : row.Reduced) (h : t.enteringSymbol? row = none)
    (hdummy : s.isDummy = false) : row.coefficient s ≤ 0 := by
  by_contra hpos
  have hs : 0 < row.coefficient s := not_le.1 hpos
  obtain ⟨a, ha⟩ := OrderedMap.mem_keys_iff.1 (hred.mem_keys_iff.2 hs.ne')
  obtain ⟨rfl, -⟩ := hred.get?_eq_some ha
  have hmem := List.filterMap_eq_nil_iff.1 (leastRatio_eq_none h) _ (OrderedMap.mem_entries_iff.2 ha)
  simp [hdummy, hs] at hmem

/-! ## Rows for a marker -/

/-- The rows of the symbols that are not external and mention the marker. -/
private def bounded (t : Tableau Rat) (marker : Symbol) : List (Symbol × Row Rat) :=
  (t.rows.entries.filter fun e => !(e.2.coefficient marker == 0)).filter fun e => !e.1.isExternal

private theorem mem_bounded {e : Symbol × Row Rat} : e ∈ t.bounded marker
    ↔ t.rows.get? e.1 = some e.2 ∧ e.2.coefficient marker ≠ 0 ∧ e.1.isExternal = false := by
  rw [bounded, List.mem_filter, List.mem_filter, ← OrderedMap.mem_entries_iff]
  simp [and_assoc]

private theorem falling_row (hfeas : ∀ b r, t.rows.get? b = some r → b.isExternal = false →
      0 ≤ r.constant)
    (h : leastRatio (((t.bounded marker).filter fun e => decide (e.2.coefficient marker < 0)).map
      fun e => (e, -e.2.constant / e.2.coefficient marker)) = some (leaving, row)) :
    t.rows.get? leaving = some row ∧ row.coefficient marker ≠ 0 ∧ leaving.isExternal = false ∧
      ∀ b r, t.rows.get? b = some r → b.isExternal = false →
        0 ≤ r.constant - r.coefficient marker * (row.constant / row.coefficient marker) := by
  obtain ⟨q, hmem, hleast⟩ := leastRatio_eq_some h
  obtain ⟨e, he, heq⟩ := List.mem_map.1 hmem
  obtain ⟨rfl, rfl⟩ := Prod.mk.inj heq
  obtain ⟨he, hneg⟩ := List.mem_filter.1 he
  obtain ⟨hget, hne, hint⟩ := mem_bounded.1 he
  have hneg : row.coefficient marker < 0 := of_decide_eq_true hneg
  refine ⟨hget, hne, hint, fun b r hb hbi => ?_⟩
  have hr := hfeas b r hb hbi
  rcases lt_trichotomy (r.coefficient marker) 0 with hlt | hz | hgt
  · apply feasible_of_ratio_falling hlt
    refine hleast ((b, r), -r.constant / r.coefficient marker) (List.mem_map.2 ⟨(b, r), ?_, rfl⟩)
    exact List.mem_filter.2 ⟨mem_bounded.2 ⟨hb, hlt.ne, hbi⟩, decide_eq_true hlt⟩
  · rw [hz, zero_mul, sub_zero]
    exact hr
  · have hle : row.constant / row.coefficient marker ≤ 0 :=
      div_nonpos_of_nonneg_of_nonpos (hfeas leaving row hget hint) hneg.le
    nlinarith

private theorem rising_row (hfeas : ∀ b r, t.rows.get? b = some r → b.isExternal = false →
      0 ≤ r.constant)
    (hnofall : ((t.bounded marker).filter fun e => decide (e.2.coefficient marker < 0)) = [])
    (h : leastRatio (((t.bounded marker).filter fun e => !decide (e.2.coefficient marker < 0)).map
      fun e => (e, e.2.constant / e.2.coefficient marker)) = some (leaving, row)) :
    t.rows.get? leaving = some row ∧ row.coefficient marker ≠ 0 ∧ leaving.isExternal = false ∧
      ∀ b r, t.rows.get? b = some r → b.isExternal = false →
        0 ≤ r.constant - r.coefficient marker * (row.constant / row.coefficient marker) := by
  obtain ⟨q, hmem, hleast⟩ := leastRatio_eq_some h
  obtain ⟨e, he, heq⟩ := List.mem_map.1 hmem
  obtain ⟨rfl, rfl⟩ := Prod.mk.inj heq
  obtain ⟨hget, hne, hint⟩ := mem_bounded.1 (List.mem_filter.1 he).1
  refine ⟨hget, hne, hint, fun b r hb hbi => ?_⟩
  rcases lt_trichotomy (r.coefficient marker) 0 with hlt | hz | hgt
  · have hmem : (b, r) ∈ t.bounded marker := mem_bounded.2 ⟨hb, hlt.ne, hbi⟩
    have hfall := List.filter_eq_nil_iff.1 hnofall (b, r) hmem
    exact absurd (decide_eq_true hlt) hfall
  · rw [hz, zero_mul, sub_zero]
    exact hfeas b r hb hbi
  · apply feasible_of_ratio_rising hgt
    refine hleast ((b, r), r.constant / r.coefficient marker) (List.mem_map.2 ⟨(b, r), ?_, rfl⟩)
    refine List.mem_filter.2 ⟨mem_bounded.2 ⟨hb, hgt.ne', hbi⟩, ?_⟩
    simp [hgt.le]

private theorem eq_nil_of_filters {p : β → Bool} {l : List β} (h : l.filter p = [])
    (h' : (l.filter fun x => !p x) = []) : l = [] := by
  rw [List.filter_eq_nil_iff] at h h'
  cases l with
  | nil => rfl
  | cons x l =>
    have hx := h x List.mem_cons_self
    have hx' := h' x List.mem_cons_self
    simp [hx] at hx'

/-- The row found mentions the marker. Exchanging it for the marker leaves the rows of
the other symbols that are not external feasible, and an external row is taken only if
no other row mentions the marker. -/
theorem markerRow?_eq_some (h : t.markerRow? marker = some (leaving, row))
    (hfeas : ∀ b r, t.rows.get? b = some r → b.isExternal = false → 0 ≤ r.constant) :
    t.rows.get? leaving = some row ∧ row.coefficient marker ≠ 0 ∧
      (∀ b r, t.rows.get? b = some r → b.isExternal = false →
        0 ≤ r.constant - r.coefficient marker * (row.constant / row.coefficient marker)) ∧
      (leaving.isExternal = true → ∀ b r, t.rows.get? b = some r → b.isExternal = false →
        r.coefficient marker = 0) := by
  obtain h | ⟨hfall, h⟩ := (Option.orElse_eq_some _ _ _).1 h
  · obtain ⟨hget, hne, hint, hrows⟩ := falling_row hfeas h
    exact ⟨hget, hne, hrows, fun hext => absurd hext (by simp [hint])⟩
  have hfall := List.map_eq_nil_iff.1 (leastRatio_eq_none hfall)
  obtain h | ⟨hrise, h⟩ := (Option.orElse_eq_some _ _ _).1 h
  · obtain ⟨hget, hne, hint, hrows⟩ := rising_row hfeas hfall h
    exact ⟨hget, hne, hrows, fun hext => absurd hext (by simp [hint])⟩
  have hrise := List.map_eq_nil_iff.1 (leastRatio_eq_none hrise)
  have hnone : t.bounded marker = [] := eq_nil_of_filters hfall hrise
  have hzero (b : Symbol) (r : Row Rat) (hb : t.rows.get? b = some r)
      (hint : b.isExternal = false) : r.coefficient marker = 0 := by
    by_contra hne
    have hmem : (b, r) ∈ t.bounded marker := mem_bounded.2 ⟨hb, hne, hint⟩
    rw [hnone] at hmem
    cases hmem
  have hmem := (List.mem_filter.1 (List.mem_of_getLast? h)).1
  obtain ⟨hmem, hne⟩ := List.mem_filter.1 hmem
  refine ⟨get?_of_mem hmem, by simpa using hne, fun b r hb hint => ?_, fun _ => hzero⟩
  rw [hzero b r hb hint, zero_mul, sub_zero]
  exact hfeas b r hb hint

/-- The search fails only if no row mentions the marker. -/
theorem markerRow?_eq_none (h : t.markerRow? marker = none) (hb : t.rows.get? b = some r) :
    r.coefficient marker = 0 := by
  obtain ⟨hfall, h⟩ := (Option.orElse_eq_none _ _).1 h
  obtain ⟨hrise, hext⟩ := (Option.orElse_eq_none _ _).1 h
  have hnone : t.bounded marker = [] := eq_nil_of_filters
    (List.map_eq_nil_iff.1 (leastRatio_eq_none hfall))
    (List.map_eq_nil_iff.1 (leastRatio_eq_none hrise))
  by_contra hne
  cases hint : b.isExternal with
  | false =>
    have hmem : (b, r) ∈ t.bounded marker := mem_bounded.2 ⟨hb, hne, hint⟩
    rw [hnone] at hmem
    cases hmem
  | true =>
    have hnil := List.getLast?_eq_none_iff.1 hext
    have hmem := List.filter_eq_nil_iff.1 hnil (b, r)
      (List.mem_filter.2 ⟨mem_entries hb, by simpa using hne⟩)
    exact hmem hint

end Tableau

namespace Row

variable {r : Row Rat} {s : Symbol}

/-! ## Symbols of a row -/

/-- The symbol found lowers the row and is no dummy. -/
theorem descent?_eq_some (h : r.descent? = some s) : r.coefficient s < 0 ∧ s.isDummy = false := by
  obtain ⟨c, hc, rfl⟩ := Option.map_eq_some_iff.1 h
  have hmem := List.mem_of_find?_eq_some hc
  have hcond := List.find?_some hc
  rw [coefficient_of_mem hmem]
  simp only [Bool.and_eq_true, Bool.not_eq_true', decide_eq_true_eq] at hcond
  exact ⟨hcond.2, hcond.1⟩

theorem descent?_eq_none (h : r.descent? = none) (hdummy : s.isDummy = false) :
    0 ≤ r.coefficient s := by
  by_contra hneg
  have hs : r.coefficient s < 0 := not_le.1 hneg
  cases hget : r.cells.get? s with
  | none =>
    rw [coefficient, hget] at hs
    exact absurd hs (by simp)
  | some a =>
    have hmem : (s, a) ∈ r.cells.entries := OrderedMap.mem_entries_iff.2 hget
    have ha : r.coefficient s = a := coefficient_of_mem hmem
    have hnone := List.find?_eq_none.1 (Option.map_eq_none_iff.1 h) (s, a) hmem
    rw [ha] at hs
    simp [hdummy, hs] at hnone

/-- The subject of a new row is an external symbol of it, or one of the constraint's own
slack and error symbols that the row makes positive. -/
theorem subject?_eq_some {tag : Tag} (hred : r.Reduced) (h : r.subject? tag = some s) :
    r.coefficient s ≠ 0 ∧ (s.isExternal = true ∨
      s ∈ tag.symbols ∧ s.isPivotable = true ∧ r.coefficient s < 0 ∧
        ∀ x, x.isExternal = true → r.coefficient x = 0) := by
  obtain h | ⟨hext, h⟩ := (Option.orElse_eq_some _ _ _).1 h
  · have hmem := List.mem_of_find?_eq_some h
    exact ⟨hred.mem_keys_iff.1 hmem, Or.inl (List.find?_some h)⟩
  · have hcond := List.find?_some h
    simp only [Bool.and_eq_true, decide_eq_true_eq] at hcond
    refine ⟨hcond.2.ne, Or.inr ⟨List.mem_of_find?_eq_some h, hcond.1, hcond.2, fun x hx => ?_⟩⟩
    by_contra hne
    exact List.find?_eq_none.1 hext x (hred.mem_keys_iff.2 hne) hx

/-- Without a subject the row has no external symbol, and none of the constraint's slack
and error symbols makes it positive. -/
theorem subject?_eq_none {tag : Tag} (hred : r.Reduced) (h : r.subject? tag = none) :
    (∀ x, x.isExternal = true → r.coefficient x = 0) ∧
      ∀ x ∈ tag.symbols, x.isPivotable = true → 0 ≤ r.coefficient x := by
  obtain ⟨hext, htag⟩ := (Option.orElse_eq_none _ _).1 h
  constructor
  · intro x hx
    by_contra hne
    exact List.find?_eq_none.1 hext x (hred.mem_keys_iff.2 hne) hx
  · intro x hx hp
    have hcond := List.find?_eq_none.1 htag x hx
    simpa [hp] using hcond

/-- The symbol found is a slack or error symbol of the row. -/
theorem pivotable?_eq_some (hred : r.Reduced) (h : r.pivotable? = some s) :
    r.coefficient s ≠ 0 ∧ s.isPivotable = true :=
  ⟨hred.mem_keys_iff.1 (List.mem_of_find?_eq_some h), List.find?_some h⟩

theorem pivotable?_eq_none (hred : r.Reduced) (h : r.pivotable? = none)
    (hs : s.isPivotable = true) : r.coefficient s = 0 := by
  by_contra hne
  exact List.find?_eq_none.1 h s (hred.mem_keys_iff.2 hne) hs

theorem allDummies_iff (hred : r.Reduced) :
    r.allDummies = true ↔ ∀ s, s.isDummy = false → r.coefficient s = 0 := by
  unfold allDummies
  rw [List.all_eq_true]
  constructor
  · intro h s hs
    by_contra hne
    have hdummy := h s (hred.mem_keys_iff.2 hne)
    rw [hs] at hdummy
    cases hdummy
  · intro h s hs
    by_contra hdummy
    exact hred.mem_keys_iff.1 hs (h s (by simpa using hdummy))

/-- A row without a stored cell is constant. -/
theorem eval_of_isEmpty (h : r.cells.isEmpty = true) (v : Assignment) : r.eval v = r.constant := by
  have hnil : r.cells.entries = [] := List.isEmpty_iff.1 h
  rw [eval_eq, hnil, Entries.dot_nil, add_zero]

end Row

end BoxLayout
