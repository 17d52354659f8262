-- SUMMARY: Which symbols occur in a row after each change of it, and where the pivot searches find theirs.
import Mathlib.Data.Option.Basic
import BoxLayout.Proofs.Tableaux
import BoxLayout.Solver.Simplex

/-!
# Symbols of a row

Arithmetic that rounds may keep or drop any cell, so what can be said of the cells of a
row without laws are inclusions: `row.Over P` says that every symbol of the row satisfies
`P`. A row is solved for a symbol exactly if the symbol occurs in it.

The searches for a pivot compare coefficients with zero, and a symbol that does not occur
has the coefficient zero. Where zero is not below itself and equals itself, every symbol
that is found therefore occurs in the row that it was found for.
-/

namespace BoxLayout

/-! ## Rows over symbols -/

namespace Row

variable {α : Type}

/-- Every symbol of the row satisfies `P`. -/
def Over (P : Symbol → Prop) (r : Row α) : Prop := ∀ x ∈ r.cells.keys, P x

variable {P Q : Symbol → Prop} {r row : Row α} {s x : Symbol}

theorem Over.mono (h : r.Over P) (hPQ : ∀ x, P x → Q x) : r.Over Q := fun x hx => hPQ x (h x hx)

theorem Over.remove (h : r.Over P) (s : Symbol) : (r.remove s).Over fun x => P x ∧ x ≠ s := by
  intro x hx
  obtain ⟨hne, hx⟩ := OrderedMap.mem_keys_swapErase.1 hx
  exact ⟨h x hx, hne⟩

theorem over_ofConstant (k : α) : (ofConstant k).Over P := fun _ hx => absurd hx List.not_mem_nil

theorem mem_of_pivotable? (h : r.pivotable? = some s) : s ∈ r.cells.keys :=
  List.mem_of_find?_eq_some h

variable [Scalar α]

theorem Over.addConstant (h : r.Over P) (k : α) : (r.addConstant k).Over P := h

theorem coefficient_of_not_mem (hs : s ∉ r.cells.keys) : r.coefficient s = 0 := by
  rw [coefficient, OrderedMap.get?_eq_none_iff.2 hs]
  rfl

theorem Over.coefficient_eq_zero (h : r.Over P) (hs : ¬P s) : r.coefficient s = 0 :=
  coefficient_of_not_mem fun hmem => hs (h s hmem)

theorem mem_keys_addSymbol_of_ne {k : α} (hx : x ≠ s) :
    x ∈ (r.addSymbol s k).cells.keys ↔ x ∈ r.cells.keys := by
  unfold addSymbol
  dsimp only
  split
  · rw [OrderedMap.mem_keys_swapErase, and_iff_right hx]
  · rw [OrderedMap.mem_keys_insert, or_iff_right hx]

/-- A symbol that is new to a row enters it if its multiple does not count as zero. -/
theorem mem_keys_addSymbol_self {k : α} (hs : s ∉ r.cells.keys) (hk : nearZero (0 + k) = false) :
    s ∈ (r.addSymbol s k).cells.keys := by
  unfold addSymbol
  dsimp only
  rw [coefficient_of_not_mem hs, hk]
  exact OrderedMap.mem_keys_insert.2 (Or.inl rfl)

theorem Over.addSymbol (h : r.Over P) (hs : P s) (k : α) : (r.addSymbol s k).Over P := by
  intro x hx
  by_cases hxs : x = s
  · rwa [hxs]
  · exact h x ((mem_keys_addSymbol_of_ne hxs).1 hx)

/-- Adding symbols one after the other, each with a multiple of its own. -/
theorem Over.addSymbols {β : Type} {cs : List β} {f : β → Symbol} (h : r.Over P)
    (hcs : ∀ c ∈ cs, P (f c)) (g : β → α) :
    (cs.foldl (fun r c => r.addSymbol (f c) (g c)) r).Over P := by
  induction cs generalizing r with
  | nil => exact h
  | cons c cs ih =>
    have hfirst := h.addSymbol (hcs c List.mem_cons_self) (g c)
    exact ih hfirst fun c' hc' => hcs c' (List.mem_cons_of_mem _ hc')

theorem Over.addRow (h : r.Over P) (hrow : row.Over P) (k : α) : (r.addRow row k).Over P :=
  (h.addConstant (row.constant * k)).addSymbols
    (fun c hc => hrow c.1 (List.mem_map.2 ⟨c, hc, rfl⟩)) fun c => c.2 * k

theorem keys_negate : r.negate.cells.keys = r.cells.keys := OrderedMap.keys_mapValues _ _

/-- Substitution leaves the other symbols of the row and those of the replacement. -/
theorem Over.substitute (h : r.Over P) (hkeep : ∀ x, P x → x ≠ s → Q x) (hrow : row.Over Q) :
    (r.substitute s row).Over Q := by
  unfold Row.substitute
  cases hs : r.cells.get? s with
  | none =>
    intro x hx
    refine hkeep x (h x hx) ?_
    rintro rfl
    exact OrderedMap.get?_eq_none_iff.1 hs hx
  | some k =>
    exact ((h.remove s).mono fun x hx => hkeep x hx.1 hx.2).addRow hrow k

/-- A row can be solved for every symbol that occurs in it. -/
theorem Over.solveFor (h : r.Over P) (hs : s ∈ r.cells.keys) :
    ∃ solved, r.solveFor s = .ok solved ∧ solved.Over fun x => P x ∧ x ≠ s := by
  obtain ⟨k, hk⟩ := OrderedMap.mem_keys_iff.1 hs
  unfold Row.solveFor
  rw [hk]
  refine ⟨_, rfl, fun x hx => ?_⟩
  rw [OrderedMap.keys_mapValues] at hx
  exact h.remove s x hx

/-- A basic symbol can be exchanged for every other symbol of its row. -/
theorem Over.exchange {leaving : Symbol} (h : r.Over P) (hs : s ∈ r.cells.keys) (hne : s ≠ leaving) :
    ∃ solved, r.exchange leaving s = .ok solved ∧
      solved.Over fun x => (P x ∨ x = leaving) ∧ x ≠ s := by
  have hrow : r.Over fun x => P x ∨ x = leaving := h.mono fun x hx => Or.inl hx
  have hmoved := hrow.addSymbol (Or.inr rfl) (-1)
  exact hmoved.solveFor ((mem_keys_addSymbol_of_ne hne).2 hs)

/-! ## Symbols that are found -/

theorem mem_of_coefficient_neg (hlt : ¬(0 : α) < 0) (hs : r.coefficient s < 0) : s ∈ r.cells.keys := by
  by_contra hnot
  rw [coefficient_of_not_mem hnot] at hs
  exact hlt hs

theorem mem_of_subject? (hlt : ¬(0 : α) < 0) {tag : Tag} (h : r.subject? tag = some s) :
    s ∈ r.cells.keys := by
  obtain h | ⟨-, h⟩ := (Option.orElse_eq_some _ _ _).1 h
  · exact List.mem_of_find?_eq_some h
  · have hcond := List.find?_some h
    rw [Bool.and_eq_true, decide_eq_true_eq] at hcond
    exact mem_of_coefficient_neg hlt hcond.2

end Row

namespace Tableau

variable {α : Type} [Scalar α] {t : Tableau α} {entering leaving marker : Symbol} {row : Row α}

theorem betterRatio_eq_some {β : Type} {best : Option (β × α)} {c found : β × α}
    (h : betterRatio best c = some found) : best = some found ∨ found = c := by
  unfold betterRatio at h
  split at h <;> split at h
  · exact Or.inr (Option.some.inj h).symm
  · cases h
  · exact Or.inr (Option.some.inj h).symm
  · exact Or.inl h

theorem foldl_betterRatio_eq_some {β : Type} {cs : List (β × α)} {best : Option (β × α)}
    {found : β × α} (h : cs.foldl betterRatio best = some found) :
    best = some found ∨ found ∈ cs := by
  induction cs generalizing best with
  | nil => exact Or.inl h
  | cons c cs ih =>
    obtain hstep | hmem := ih h
    · obtain hbest | rfl := betterRatio_eq_some hstep
      · exact Or.inl hbest
      · exact Or.inr List.mem_cons_self
    · exact Or.inr (List.mem_cons_of_mem _ hmem)

/-- A search for a least ratio comes back with one of the candidates. -/
theorem mem_of_leastRatio {β : Type} {cs : List (β × α)} {b : β} (h : leastRatio cs = some b) :
    ∃ q, (b, q) ∈ cs := by
  obtain ⟨found, hfound, rfl⟩ := Option.map_eq_some_iff.1 h
  obtain hnone | hmem := foldl_betterRatio_eq_some hfound
  · cases hnone
  · exact ⟨found.2, hmem⟩

theorem mem_of_leavingRow? (hlt : ¬(0 : α) < 0) (h : t.leavingRow? entering = some (leaving, row)) :
    t.rows.get? leaving = some row ∧ entering ∈ row.cells.keys := by
  obtain ⟨q, hmem⟩ := mem_of_leastRatio h
  obtain ⟨e, he, hcand⟩ := List.mem_filterMap.1 hmem
  simp only [Option.ite_none_right_eq_some, Bool.and_eq_true, decide_eq_true_eq,
    Option.some.injEq, Prod.mk.injEq] at hcand
  obtain ⟨⟨-, hneg⟩, rfl, -⟩ := hcand
  exact ⟨get?_of_mem he, Row.mem_of_coefficient_neg hlt hneg⟩

theorem mem_of_enteringSymbol? (h : t.enteringSymbol? row = some entering) :
    entering ∈ row.cells.keys := by
  obtain ⟨q, hmem⟩ := mem_of_leastRatio h
  obtain ⟨c, hc, hcand⟩ := List.mem_filterMap.1 hmem
  simp only [Option.ite_none_right_eq_some, Option.some.injEq, Prod.mk.injEq] at hcand
  obtain ⟨-, rfl, -⟩ := hcand
  exact List.mem_map.2 ⟨c, hc, rfl⟩

theorem mem_of_markerRow? (heq : ((0 : α) == 0) = true)
    (h : t.markerRow? marker = some (leaving, row)) :
    t.rows.get? leaving = some row ∧ marker ∈ row.cells.keys := by
  have huser (h : (leaving, row) ∈ t.rows.entries.filter fun e => !(e.2.coefficient marker == 0)) :
      t.rows.get? leaving = some row ∧ marker ∈ row.cells.keys := by
    obtain ⟨hmem, hne⟩ := List.mem_filter.1 h
    refine ⟨get?_of_mem hmem, ?_⟩
    by_contra hnot
    rw [Row.coefficient_of_not_mem hnot, heq] at hne
    cases hne
  -- the candidates of each of the three searches are rows that mention the marker
  have hbounded {p : Symbol × Row α → Bool} {ratio : Symbol × Row α → α}
      (h : leastRatio (((((t.rows.entries.filter fun e => !(e.2.coefficient marker == 0)).filter
        fun e => !e.1.isExternal).filter p).map fun e => (e, ratio e))) = some (leaving, row)) :
      t.rows.get? leaving = some row ∧ marker ∈ row.cells.keys := by
    obtain ⟨q, hmem⟩ := mem_of_leastRatio h
    obtain ⟨e, he, heq⟩ := List.mem_map.1 hmem
    obtain rfl := (Prod.mk.inj heq).1
    exact huser (List.mem_of_mem_filter (List.mem_of_mem_filter he))
  unfold markerRow? at h
  obtain h | ⟨-, h⟩ := (Option.orElse_eq_some _ _ _).1 h
  · exact hbounded h
  obtain h | ⟨-, h⟩ := (Option.orElse_eq_some _ _ _).1 h
  · exact hbounded h
  · exact huser (List.mem_of_mem_filter (List.mem_of_getLast? h))

end Tableau

end BoxLayout
