-- SUMMARY: The rows and the basic symbols that each change of a tableau leaves, whatever the numbers are.
import Mathlib.Data.List.Nodup
import BoxLayout.OrderedMap.Lemmas
import BoxLayout.Solver.Tableau

/-!
# Rows after a change

One equation for each change of a tableau, through `get?` and through the keys of its
rows, and what is known of the symbols that a constraint brings along. Nothing here
depends on what the arithmetic returns.
-/

namespace BoxLayout

/-! ## The symbols of a constraint -/

namespace Tag

variable {α : Type} [Scalar α] {t : Tag} {r : Relation} {s : Symbol}

theorem mem_symbols : s ∈ t.symbols ↔ s = t.marker ∨ t.other = some s := by
  unfold symbols
  rw [List.mem_cons, Option.mem_toList]

theorem marker_mem (t : Tag) : t.marker ∈ t.symbols := List.mem_cons_self

theorem other_mem (h : t.other = some s) : s ∈ t.symbols := mem_symbols.2 (Or.inr h)

theorem mem_symbols_of_mem_errors (h : s ∈ t.errors) : s ∈ t.symbols := List.mem_of_mem_filter h

theorem mem_symbols_of_mem_terms {c : Symbol × α} (h : c ∈ t.terms r) : c.1 ∈ t.symbols := by
  rw [mem_symbols]
  unfold terms at h
  split at h <;> simp_all <;> grind

end Tag

namespace Tableau

variable {α : Type} {t : Tableau α} {s b m : Symbol} {r row : Row α}

/-! ## Looking up a row -/

theorem mem_keys (h : t.rows.get? b = some row) : b ∈ t.rows.keys :=
  OrderedMap.mem_keys_iff.2 ⟨row, h⟩

theorem mem_entries (h : t.rows.get? b = some r) : (b, r) ∈ t.rows.entries :=
  OrderedMap.mem_entries_iff.2 h

theorem get?_of_mem {e : Symbol × Row α} (h : e ∈ t.rows.entries) : t.rows.get? e.1 = some e.2 :=
  OrderedMap.mem_entries_iff.1 h

/-! ## Dropping a row -/

theorem get?_dropRow : (t.dropRow m).rows.get? b = if b = m then none else t.rows.get? b :=
  OrderedMap.get?_swapErase _ _ _

theorem mem_keys_dropRow : b ∈ (t.dropRow m).rows.keys ↔ b ≠ m ∧ b ∈ t.rows.keys :=
  OrderedMap.mem_keys_swapErase

theorem get?_of_dropRow (h : (t.dropRow m).rows.get? b = some r) :
    b ≠ m ∧ t.rows.get? b = some r :=
  OrderedMap.get?_of_swapErase h

/-! ## Forgetting a symbol -/

theorem get?_forget : (t.forget s).rows.get? b = (t.rows.get? b).map fun r => r.remove s :=
  OrderedMap.get?_mapValues _ _ _

theorem keys_forget : (t.forget s).rows.keys = t.rows.keys := OrderedMap.keys_mapValues _ _

/-! ## New symbols -/

/-- The symbols of a new constraint are numbered on from the last number, each with a
number of its own, and nothing else changes. -/
theorem freshTag_numbers (t : Tableau α) (r : Relation) (required : Bool) :
    (∀ x ∈ (t.freshTag r required).1.symbols, t.symbolCount < x.number ∧
        x.number ≤ (t.freshTag r required).2.symbolCount) ∧
      ((t.freshTag r required).1.symbols.map Symbol.number).Nodup ∧
      (t.freshTag r required).2 = { t with symbolCount := (t.freshTag r required).2.symbolCount } := by
  have hone (k : SymbolKind) : ∀ x ∈ [Symbol.mk k (t.symbolCount + 1)],
      t.symbolCount < x.number ∧ x.number ≤ t.symbolCount + 1 := by
    simp
  have htwo (k k' : SymbolKind) : ∀ x ∈ [Symbol.mk k (t.symbolCount + 1), ⟨k', t.symbolCount + 2⟩],
      t.symbolCount < x.number ∧ x.number ≤ t.symbolCount + 2 := by
    simp
  have hapart : [t.symbolCount + 1, t.symbolCount + 2].Nodup := by simp
  cases r with
  | equal =>
    cases required with
    | true => exact ⟨hone _, List.pairwise_singleton _ _, rfl⟩
    | false => exact ⟨htwo _ _, hapart, rfl⟩
  | atMost | atLeast =>
    cases required with
    | true => exact ⟨hone _, List.pairwise_singleton _ _, rfl⟩
    | false => exact ⟨htwo _ _, hapart, rfl⟩

variable [Scalar α]

/-! ## Substitution -/

theorem get?_substitute : (t.substitute s row).rows.get? b
    = (t.rows.get? b).map fun r => r.substitute s row :=
  OrderedMap.get?_mapValues _ _ _

@[simp] theorem keys_substitute (t : Tableau α) (s : Symbol) (row : Row α) :
    (t.substitute s row).rows.keys = t.rows.keys :=
  OrderedMap.keys_mapValues _ _

@[simp] theorem objective_substitute :
    (t.substitute s row).objective = t.objective.substitute s row := rfl

@[simp] theorem artificial_substitute :
    (t.substitute s row).artificial = t.artificial.map fun r => r.substitute s row := rfl

@[simp] theorem symbolCount_substitute : (t.substitute s row).symbolCount = t.symbolCount := rfl

theorem get?_substitute_eq_some (h : (t.substitute s row).rows.get? b = some r) :
    ∃ r₀, t.rows.get? b = some r₀ ∧ r = r₀.substitute s row := by
  rw [get?_substitute] at h
  obtain ⟨r₀, hr₀, heq⟩ := Option.map_eq_some_iff.1 h
  exact ⟨r₀, hr₀, heq.symm⟩

/-! ## Installing a row -/

theorem get?_install : (t.install s row).rows.get? b
    = if b = s then some row else (t.rows.get? b).map fun r => r.substitute s row := by
  rw [← get?_substitute]
  exact OrderedMap.get?_insert _ _ _ _

theorem mem_keys_install : b ∈ (t.install s row).rows.keys ↔ b = s ∨ b ∈ t.rows.keys := by
  rw [← keys_substitute t s row]
  exact OrderedMap.mem_keys_insert

end Tableau

end BoxLayout
