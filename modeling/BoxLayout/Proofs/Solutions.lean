-- SUMMARY: The solutions of a tableau and what substitution and pivoting do to them.
import BoxLayout.Proofs.Row
import BoxLayout.Proofs.Tableaux

/-!
# Solutions of a tableau

An assignment satisfies a tableau if every basic symbol has the value of its row.
In a solved tableau no basic symbol occurs in a row, so the non-basic symbols can be
chosen freely and determine the rest: `completion`. What occurs in a row can therefore
be told from the solutions alone: a symbol that they leave free occurs nowhere
(`absent_of_free`).

Substitution is a change of one symbol in the assignment (`satisfies_substitute`);
all statements about pivots go through it.
-/

namespace BoxLayout

/-- Values for all symbols. -/
abbrev Assignment : Type := Symbol → Rat

namespace Tableau

variable {t : Tableau Rat} {v u : Assignment} {s b m : Symbol} {r row q : Row Rat}

/-- Every basic symbol has the value of its row. -/
def Satisfies (t : Tableau Rat) (v : Assignment) : Prop :=
  ∀ b row, t.rows.get? b = some row → v b = row.eval v

/-- The row belongs to a basic symbol or is one of the objectives. -/
def Stores (t : Tableau Rat) (r : Row Rat) : Prop :=
  (∃ b, t.rows.get? b = some r) ∨ r = t.objective ∨ t.artificial = some r

/-- No row stores a zero and no basic symbol occurs in a row or an objective. -/
structure Solved (t : Tableau Rat) : Prop where
  reduced : ∀ r, t.Stores r → r.Reduced
  basic : ∀ r, t.Stores r → ∀ b ∈ t.rows.keys, r.coefficient b = 0

theorem stores_row (h : t.rows.get? b = some row) : t.Stores row := Or.inl ⟨b, h⟩

theorem stores_objective : t.Stores t.objective := Or.inr (Or.inl rfl)

theorem stores_artificial (h : t.artificial = some r) : t.Stores r := Or.inr (Or.inr h)

/-! ## Completing an assignment -/

/-- The assignment that keeps the values of the non-basic symbols and gives the basic
ones those of their rows. -/
def completion (t : Tableau Rat) (u : Assignment) : Assignment := fun s =>
  match t.rows.get? s with
  | some row => row.eval u
  | none => u s

theorem completion_basic (h : t.rows.get? s = some row) : t.completion u s = row.eval u := by
  unfold completion
  rw [h]

theorem completion_nonbasic (h : s ∉ t.rows.keys) : t.completion u s = u s := by
  unfold completion
  rw [OrderedMap.get?_eq_none_iff.2 h]

/-- A row over non-basic symbols has the same value before and after completion. -/
theorem eval_completion (hr : ∀ b ∈ t.rows.keys, r.coefficient b = 0) (u : Assignment) :
    r.eval (t.completion u) = r.eval u := by
  apply Row.eval_congr
  intro s hs
  exact completion_nonbasic fun hmem => hs (hr s hmem)

/-- A stored row has the same value before and after completion. -/
theorem Solved.eval_completion (h : t.Solved) (hr : t.Stores r) (u : Assignment) :
    r.eval (t.completion u) = r.eval u :=
  Tableau.eval_completion (h.basic r hr) u

/-- Where the rows are over non-basic symbols, completions are solutions. -/
theorem satisfies_completion (h : ∀ b row, t.rows.get? b = some row →
    ∀ x ∈ t.rows.keys, row.coefficient x = 0) (u : Assignment) : t.Satisfies (t.completion u) := by
  intro b row hb
  rw [completion_basic hb, eval_completion (h b row hb)]

/-- A solution is determined by the values of the non-basic symbols. -/
theorem Satisfies.completion_eq (h : t.Satisfies v) : t.completion v = v := by
  funext s
  cases hs : t.rows.get? s with
  | none => exact completion_nonbasic (OrderedMap.get?_eq_none_iff.1 hs)
  | some row => rw [completion_basic hs, h s row hs]

theorem completion_congr (h : ∀ b row, t.rows.get? b = some row →
      ∀ x ∈ t.rows.keys, row.coefficient x = 0) {w : Assignment}
    (huw : ∀ s, s ∉ t.rows.keys → u s = w s) : t.completion u = t.completion w := by
  funext s
  cases hs : t.rows.get? s with
  | none =>
    have hnot := OrderedMap.get?_eq_none_iff.1 hs
    rw [completion_nonbasic hnot, completion_nonbasic hnot, huw s hnot]
  | some row =>
    rw [completion_basic hs, completion_basic hs]
    exact Row.eval_congr fun x hx => huw x fun hmem => hx (h s row hs x hmem)

theorem Solved.satisfies_completion (h : t.Solved) (u : Assignment) :
    t.Satisfies (t.completion u) :=
  Tableau.satisfies_completion (fun _ row hb => h.basic row (stores_row hb)) u

/-- The solutions do not say anything about the symbol. -/
def Free (P : Assignment → Prop) (s : Symbol) : Prop :=
  ∀ v x, P v → P (Function.update v s x)

theorem Free.update_iff {P : Assignment → Prop} (h : Free P s) (x : Rat) :
    P (Function.update v s x) ↔ P v := by
  refine ⟨fun hv => ?_, h v x⟩
  have hback := h _ (v s) hv
  rwa [Function.update_idem, Function.update_eq_self] at hback

/-- A free symbol may be set to zero. That it has the value of a row then says that the row is
zero. -/
theorem Free.equation_at_zero {P : Assignment → Prop} (h : Free P s) (hs : r.coefficient s = 0) :
    P (Function.update v s 0) ∧ Function.update v s 0 s = r.eval (Function.update v s 0)
      ↔ P v ∧ r.eval v = 0 := by
  rw [h.update_iff, Function.update_self, Row.eval_update, hs, zero_mul, add_zero, eq_comm]

/-- A symbol that the solutions leave free is not basic and occurs in no row. -/
theorem Solved.absent_of_free (h : t.Solved) (hfree : Free t.Satisfies s) :
    s ∉ t.rows.keys ∧ ∀ b row, t.rows.get? b = some row → row.coefficient s = 0 := by
  have hsol : t.Satisfies (t.completion fun _ => 0) := h.satisfies_completion _
  have hself (x : Rat) := hfree _ x hsol
  have hnot : s ∉ t.rows.keys := by
    intro hs
    obtain ⟨row, hrow⟩ := OrderedMap.mem_keys_iff.1 hs
    have hzero : row.coefficient s = 0 := h.basic row (stores_row hrow) s hs
    have h0 := hself 0 s row hrow
    have h1 := hself 1 s row hrow
    rw [Function.update_self, Row.eval_update, hzero, zero_mul, add_zero] at h0 h1
    linarith
  refine ⟨hnot, fun b row hrow => ?_⟩
  have hb : b ≠ s := fun e => hnot (e ▸ mem_keys hrow)
  have h0 := hself 0 b row hrow
  have h1 := hself 1 b row hrow
  rw [Function.update_of_ne hb, Row.eval_update] at h0 h1
  linarith

/-! ## Substitution -/

theorem Stores.of_substitute (h : (t.substitute s row).Stores r) :
    ∃ r₀, t.Stores r₀ ∧ r = r₀.substitute s row := by
  obtain ⟨b, hb⟩ | rfl | ha := h
  · obtain ⟨r₀, hr₀, heq⟩ := get?_substitute_eq_some hb
    exact ⟨r₀, stores_row hr₀, heq⟩
  · exact ⟨t.objective, stores_objective, rfl⟩
  · obtain ⟨r₀, hr₀, heq⟩ := Option.map_eq_some_iff.1 ha
    exact ⟨r₀, stores_artificial hr₀, heq.symm⟩

/-- Replacing a symbol in a row is giving the symbol the value of its replacement. -/
theorem eval_substitute_eq_update :
    (r.substitute s row).eval v = r.eval (Function.update v s (row.eval v)) := by
  rw [Row.eval_substitute, Row.eval_update]

theorem satisfies_substitute (hs : s ∉ t.rows.keys) :
    (t.substitute s row).Satisfies v ↔ t.Satisfies (Function.update v s (row.eval v)) := by
  constructor
  · intro h b r hb
    have hbs : b ≠ s := fun e => hs (e ▸ mem_keys hb)
    rw [Function.update_of_ne hbs, ← eval_substitute_eq_update]
    apply h
    rw [get?_substitute, hb, Option.map_some]
  · intro h b r hb
    obtain ⟨r₀, hr₀, rfl⟩ := get?_substitute_eq_some hb
    have hbs : b ≠ s := fun e => hs (e ▸ mem_keys hr₀)
    rw [eval_substitute_eq_update, ← h b r₀ hr₀, Function.update_of_ne hbs]

theorem Solved.substitute (h : t.Solved) (hs : s ∉ t.rows.keys)
    (hrow : ∀ b ∈ t.rows.keys, row.coefficient b = 0) : (t.substitute s row).Solved := by
  constructor
  · intro r hr
    obtain ⟨r₀, hr₀, rfl⟩ := hr.of_substitute
    exact (h.reduced r₀ hr₀).substitute s row
  · intro r hr b hb
    obtain ⟨r₀, hr₀, rfl⟩ := hr.of_substitute
    rw [keys_substitute] at hb
    have hbs : b ≠ s := fun e => hs (e ▸ hb)
    rw [Row.coefficient_substitute, h.basic r₀ hr₀ b hb, hrow b hb, if_neg hbs]
    ring

/-! ## Installing a row -/

theorem Stores.of_install (h : (t.install s row).Stores r) :
    r = row ∨ ∃ r₀, t.Stores r₀ ∧ r = r₀.substitute s row := by
  obtain ⟨b, hb⟩ | rfl | ha := h
  · rw [get?_install] at hb
    split at hb
    · exact Or.inl (Option.some.inj hb).symm
    · obtain ⟨r₀, hr₀, heq⟩ := Option.map_eq_some_iff.1 hb
      exact Or.inr ⟨r₀, stores_row hr₀, heq.symm⟩
  · exact Or.inr ⟨t.objective, stores_objective, rfl⟩
  · obtain ⟨r₀, hr₀, heq⟩ := Option.map_eq_some_iff.1 ha
    exact Or.inr ⟨r₀, stores_artificial hr₀, heq.symm⟩

theorem satisfies_install (hs : s ∉ t.rows.keys) :
    (t.install s row).Satisfies v ↔ t.Satisfies v ∧ v s = row.eval v := by
  have hrows (b : Symbol) (hb : b ∈ t.rows.keys) :
      (t.install s row).rows.get? b = (t.substitute s row).rows.get? b := by
    have hbs : b ≠ s := fun e => hs (e ▸ hb)
    rw [get?_install, if_neg hbs, get?_substitute]
  constructor
  · intro h
    have hvs : v s = row.eval v := h s row (by rw [get?_install, if_pos rfl])
    refine ⟨?_, hvs⟩
    have hsub : (t.substitute s row).Satisfies v := by
      intro b r hb
      apply h b r
      rwa [hrows b (by rw [← keys_substitute]; exact mem_keys hb)]
    rw [satisfies_substitute hs, ← hvs, Function.update_eq_self] at hsub
    exact hsub
  · rintro ⟨h, hvs⟩ b r hb
    by_cases hbs : b = s
    · subst hbs
      rw [get?_install, if_pos rfl] at hb
      rw [← Option.some.inj hb, hvs]
    · rw [get?_install, if_neg hbs, ← get?_substitute] at hb
      refine (satisfies_substitute hs).2 ?_ b r hb
      rwa [← hvs, Function.update_eq_self]

theorem Solved.install (h : t.Solved) (hs : s ∉ t.rows.keys) (hred : row.Reduced)
    (hrow : ∀ b ∈ t.rows.keys, row.coefficient b = 0) (hself : row.coefficient s = 0) :
    (t.install s row).Solved := by
  constructor
  · intro r hr
    obtain rfl | ⟨r₀, hr₀, rfl⟩ := hr.of_install
    · exact hred
    · exact (h.reduced r₀ hr₀).substitute s row
  · intro r hr b hb
    obtain rfl | hold := mem_keys_install.1 hb
    · obtain rfl | ⟨r₀, -, rfl⟩ := hr.of_install
      · exact hself
      · rw [Row.coefficient_substitute, hself, if_pos rfl]
        ring
    · have hbs : b ≠ s := fun e => hs (e ▸ hold)
      obtain rfl | ⟨r₀, hr₀, rfl⟩ := hr.of_install
      · exact hrow b hold
      · rw [Row.coefficient_substitute, h.basic r₀ hr₀ b hold, hrow b hold, if_neg hbs]
        ring

end Tableau

end BoxLayout
