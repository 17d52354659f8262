-- SUMMARY: What a tableau means (its solutions and its objectives), and how each change of the tableau changes that.
import BoxLayout.Proofs.Solutions

/-!
# The meaning of a tableau

A tableau stands for a set of solutions, for an objective up to a constant, and,
while a row is being added, for an artificial objective. The constant of the
objective is left open because moving the target of an edit variable does not keep
it up to date.

One lemma for each change of a tableau says how the meaning changes. Pivots keep the
meaning. Entering a row adds an equation. Removing a marker forgets the equation that
the marker belongs to. Forgetting a symbol fixes it at zero.
-/

namespace BoxLayout

/-- What a tableau stands for. -/
structure Meaning where
  /-- How many symbols have been used. -/
  symbolCount : Nat
  solutions : Assignment → Prop
  objective : Assignment → Rat
  artificial : Option (Assignment → Rat)

/-- The meaning that says nothing about a symbol any more. -/
def Meaning.without (μ : Meaning) (m : Symbol) : Meaning where
  symbolCount := μ.symbolCount
  solutions := fun v => ∃ x, μ.solutions (Function.update v m x)
  objective := μ.objective
  artificial := none

/-- The meaning in which a symbol is zero and not mentioned any more. -/
def Meaning.fixing (μ : Meaning) (s : Symbol) : Meaning where
  symbolCount := μ.symbolCount
  solutions := fun v => μ.solutions (Function.update v s 0)
  objective := μ.objective
  artificial := none

/-- Changing what is on the left of a relation between options. -/
theorem rel_map {α β γ : Type} {R : α → β → Prop} {R' : γ → β → Prop} {f : α → γ} {o : Option α}
    {p : Option β} (h : Option.Rel R o p) (hf : ∀ a b, R a b → R' (f a) b) :
    Option.Rel R' (o.map f) p := by
  cases h with
  | none => exact .none
  | some hab => exact .some (hf _ _ hab)

namespace Tableau

variable {t : Tableau Rat} {μ ν : Meaning} {v : Assignment} {s b m leaving entering : Symbol}
  {r row q solved : Row Rat}

/-- The tableau is solved and stands for `μ`. -/
structure Means (t : Tableau Rat) (μ : Meaning) : Prop where
  symbolCount : t.symbolCount = μ.symbolCount
  solved : t.Solved
  solutions : ∀ v, t.Satisfies v ↔ μ.solutions v
  objective : ∃ d, ∀ v, μ.solutions v → t.objective.eval v = μ.objective v + d
  artificial : Option.Rel (fun r G => ∀ v, μ.solutions v → r.eval v = G v) t.artificial μ.artificial

/-- What the tableau says by itself. -/
def meaning (t : Tableau Rat) : Meaning where
  symbolCount := t.symbolCount
  solutions := t.Satisfies
  objective := fun v => t.objective.eval v
  artificial := t.artificial.map fun r v => r.eval v

theorem Solved.means (h : t.Solved) : t.Means t.meaning where
  symbolCount := rfl
  solved := h
  solutions _ := Iff.rfl
  objective := ⟨0, fun _ _ => (add_zero _).symm⟩
  artificial := by
    unfold meaning
    cases t.artificial with
    | none => exact .none
    | some r => exact .some fun _ _ => rfl

/-- Meanings are compared on their solutions, and objectives up to a constant. -/
theorem Means.congr (h : t.Means ν) (hcount : ν.symbolCount = μ.symbolCount)
    (hsol : ∀ v, ν.solutions v ↔ μ.solutions v)
    (hobj : ∃ d, ∀ v, μ.solutions v → ν.objective v = μ.objective v + d)
    (hart : Option.Rel (fun r G => ∀ v, μ.solutions v → r.eval v = G v) t.artificial μ.artificial) :
    t.Means μ where
  symbolCount := h.symbolCount.trans hcount
  solved := h.solved
  solutions v := (h.solutions v).trans (hsol v)
  objective := by
    obtain ⟨d, hd⟩ := h.objective
    obtain ⟨c, hc⟩ := hobj
    refine ⟨c + d, fun v hv => ?_⟩
    rw [hd v ((hsol v).2 hv), hc v hv, add_assoc]
  artificial := hart

theorem Means.artificial_eq_none (h : t.Means μ) (hμ : μ.artificial = none) :
    t.artificial = none := by
  have hart := h.artificial
  rw [hμ] at hart
  cases ha : t.artificial with
  | none => rfl
  | some r => rw [ha] at hart; cases hart

/-- Some assignment is a solution. -/
theorem Means.completion (h : t.Means μ) (u : Assignment) : μ.solutions (t.completion u) :=
  (h.solutions _).1 (h.solved.satisfies_completion u)

/-- What the solutions leave free occurs nowhere, the objective included if it leaves
the symbol free too. -/
theorem Means.absent (h : t.Means μ) (hfree : Free μ.solutions s) :
    s ∉ t.rows.keys ∧ ∀ b row, t.rows.get? b = some row → row.coefficient s = 0 := by
  apply h.solved.absent_of_free
  intro v x hv
  exact (h.solutions _).2 (hfree v x ((h.solutions v).1 hv))

theorem Means.objective_absent (h : t.Means μ) (hfree : Free μ.solutions s)
    (hobj : ∀ v x, μ.objective (Function.update v s x) = μ.objective v) :
    t.objective.coefficient s = 0 := by
  obtain ⟨d, hd⟩ := h.objective
  have hsol : μ.solutions (t.completion fun _ => 0) := h.completion _
  have h1 := hd _ (hfree _ (t.completion (fun _ => 0) s + 1) hsol)
  rw [hobj, ← hd _ hsol, Row.eval_update] at h1
  linarith

/-! ## Entering an equation -/

/-- Solving an equation over non-basic symbols for one of them and installing the
result adds the equation to the meaning. -/
theorem Means.install (h : t.Means μ) (hq : ∀ b ∈ t.rows.keys, q.coefficient b = 0)
    (hs : q.coefficient s ≠ 0) (hsolve : solved.Solves q s) :
    (t.install s solved).Means { μ with solutions := fun v => μ.solutions v ∧ q.eval v = 0 } := by
  have hnot : s ∉ t.rows.keys := fun hmem => hs (hq s hmem)
  refine ⟨h.symbolCount, ?_, ?_, ?_, ?_⟩
  · refine h.solved.install hnot hsolve.reduced ?_ ?_
    · intro b hb
      have hbs : b ≠ s := fun e => hnot (e ▸ hb)
      rw [hsolve.coefficient, if_neg hbs, hq b hb]
      ring
    · rw [hsolve.coefficient, if_pos rfl, div_self hs, sub_self]
  · intro v
    rw [satisfies_install hnot, hsolve.value_iff hs, h.solutions]
  · obtain ⟨d, hd⟩ := h.objective
    refine ⟨d, fun v hv => ?_⟩
    rw [← hd v hv.1]
    exact hsolve.eval_substitute hs hv.2 t.objective
  · apply rel_map h.artificial
    intro r G hG v hv
    exact (hsolve.eval_substitute hs hv.2 r).trans (hG v hv.1)

/-! ## Dropping a row -/

theorem Stores.of_dropRow (h : (t.dropRow m).Stores r) : t.Stores r := by
  obtain ⟨b, hb⟩ | hr := h
  · exact stores_row (get?_of_dropRow hb).2
  · exact Or.inr hr

theorem Solved.dropRow (h : t.Solved) (m : Symbol) : (t.dropRow m).Solved where
  reduced r hr := h.reduced r hr.of_dropRow
  basic r hr b hb := h.basic r hr.of_dropRow b (mem_keys_dropRow.1 hb).2

theorem satisfies_dropRow (hrow : t.rows.get? m = some row) :
    t.Satisfies v ↔ (t.dropRow m).Satisfies v ∧ v m = row.eval v := by
  constructor
  · intro h
    exact ⟨fun b r hb => h b r (get?_of_dropRow hb).2, h m row hrow⟩
  · rintro ⟨h, hm⟩ b r hb
    by_cases hbm : b = m
    · subst hbm
      rw [hrow] at hb
      rw [← Option.some.inj hb, hm]
    · exact h b r (by rw [get?_dropRow, if_neg hbm, hb])

/-! ## Pivots -/

/-- Moving a symbol to the other side keeps the coefficients of all others. -/
theorem coefficient_addSymbol_of_ne (row : Row Rat) (h : s ≠ m) (k : Rat) :
    (row.addSymbol m k).coefficient s = row.coefficient s := by
  rw [Row.coefficient_addSymbol, if_neg h, add_zero]

theorem Solved.ne_of_coefficient (h : t.Solved) (hrow : t.rows.get? leaving = some row)
    (he : row.coefficient entering ≠ 0) : entering ∉ t.rows.keys ∧ entering ≠ leaving := by
  have hnot : entering ∉ t.rows.keys := fun hmem => he (h.basic row (stores_row hrow) _ hmem)
  exact ⟨hnot, fun e => hnot (e ▸ mem_keys hrow)⟩

theorem Solved.coefficient_exchange (h : t.Solved) (hrow : t.rows.get? leaving = some row)
    (hb : b ∈ (t.dropRow leaving).rows.keys) (k : Rat) :
    (row.addSymbol leaving k).coefficient b = 0 := by
  obtain ⟨hne, hmem⟩ := mem_keys_dropRow.1 hb
  rw [coefficient_addSymbol_of_ne _ hne, h.basic row (stores_row hrow) b hmem]

/-- A pivot keeps the meaning. -/
theorem Means.pivot (h : t.Means μ) (hrow : t.rows.get? leaving = some row)
    (he : row.coefficient entering ≠ 0)
    (hsolve : solved.Solves (row.addSymbol leaving (-1)) entering) :
    ((t.dropRow leaving).install entering solved).Means μ := by
  obtain ⟨-, hne⟩ := h.solved.ne_of_coefficient hrow he
  have hcoef : (row.addSymbol leaving (-1)).coefficient entering ≠ 0 := by
    rwa [coefficient_addSymbol_of_ne _ hne]
  have hmid := (h.solved.dropRow leaving).means.install
    (fun b hb => h.solved.coefficient_exchange hrow hb (-1)) hcoef hsolve
  have hsol (v : Assignment) :
      ((t.dropRow leaving).Satisfies v ∧ (row.addSymbol leaving (-1)).eval v = 0)
        ↔ μ.solutions v := by
    rw [← h.solutions, satisfies_dropRow hrow, Row.eval_addSymbol]
    refine and_congr_right fun _ => ?_
    constructor <;> intro hv <;> linarith
  refine hmid.congr h.symbolCount hsol h.objective ?_
  apply rel_map h.artificial
  intro r G hG v hv
  exact (hsolve.eval_substitute hcoef ((hsol v).2 hv).2 r).trans (hG v hv)

/-! ## Removing a marker -/

/-- A symbol that is not basic and occurs in no row may have any value. -/
theorem satisfies_update (hm : m ∉ t.rows.keys)
    (habsent : ∀ b row, t.rows.get? b = some row → row.coefficient m = 0) (x : Rat) :
    t.Satisfies (Function.update v m x) ↔ t.Satisfies v := by
  have hrow (b : Symbol) (r : Row Rat) (hb : t.rows.get? b = some r) :
      Function.update v m x b = r.eval (Function.update v m x) ↔ v b = r.eval v := by
    have hbm : b ≠ m := fun e => hm (e ▸ mem_keys hb)
    rw [Function.update_of_ne hbm, Row.eval_update, habsent b r hb, zero_mul, add_zero]
  exact ⟨fun h b r hb => (hrow b r hb).1 (h b r hb), fun h b r hb => (hrow b r hb).2 (h b r hb)⟩

/-- The row of a basic marker is what ties the marker to the rest. -/
theorem Means.dropRow (h : t.Means μ) (hrow : t.rows.get? m = some row)
    (hart : t.artificial = none)
    (hobj : ∀ v x, μ.objective (Function.update v m x) = μ.objective v) :
    (t.dropRow m).Means (μ.without m) := by
  have hmem : m ∈ t.rows.keys := mem_keys hrow
  have hself : row.coefficient m = 0 := h.solved.basic row (stores_row hrow) m hmem
  refine ⟨h.symbolCount, h.solved.dropRow m, ?_, ?_, ?_⟩
  · intro v
    have hfree (x : Rat) : (t.dropRow m).Satisfies (Function.update v m x)
        ↔ (t.dropRow m).Satisfies v := by
      apply satisfies_update
      · intro hm
        exact (mem_keys_dropRow.1 hm).1 rfl
      · intro b r hb
        exact h.solved.basic r (stores_row (get?_of_dropRow hb).2) m hmem
    have hiff (x : Rat) : μ.solutions (Function.update v m x)
        ↔ (t.dropRow m).Satisfies v ∧ x = row.eval v := by
      rw [← h.solutions, satisfies_dropRow hrow, hfree, Function.update_self, Row.eval_update,
        hself, zero_mul, add_zero]
    constructor
    · intro hv
      exact ⟨row.eval v, (hiff _).2 ⟨hv, rfl⟩⟩
    · rintro ⟨x, hx⟩
      exact ((hiff x).1 hx).1
  · obtain ⟨d, hd⟩ := h.objective
    refine ⟨d, fun v hv => ?_⟩
    obtain ⟨x, hx⟩ := hv
    have hzero : t.objective.coefficient m = 0 := h.solved.basic _ stores_objective m hmem
    have hval := hd _ hx
    rw [Row.eval_update, hzero, zero_mul, add_zero, hobj] at hval
    exact hval
  · change Option.Rel _ t.artificial none
    rw [hart]
    exact .none

/-- A marker that is not basic is solved for in a row that mentions it, and replaced
everywhere else. -/
theorem Means.exchange_marker (h : t.Means μ) (hrow : t.rows.get? leaving = some row)
    (hm : row.coefficient m ≠ 0) (hsolve : solved.Solves (row.addSymbol leaving (-1)) m)
    (hart : t.artificial = none)
    (hobj : ∀ v x, μ.objective (Function.update v m x) = μ.objective v) :
    ((t.dropRow leaving).substitute m solved).Means (μ.without m) := by
  obtain ⟨hnot, hne⟩ := h.solved.ne_of_coefficient hrow hm
  have hcoef : (row.addSymbol leaving (-1)).coefficient m ≠ 0 := by
    rwa [coefficient_addSymbol_of_ne _ hne]
  have hself : solved.coefficient m = 0 := by
    rw [hsolve.coefficient, if_pos rfl, div_self hcoef, sub_self]
  have hdrop : m ∉ (t.dropRow leaving).rows.keys := fun hmem => hnot (mem_keys_dropRow.1 hmem).2
  -- the value of the marker is the only one that the dropped row allows
  have hiff (v : Assignment) (x : Rat) : μ.solutions (Function.update v m x)
      ↔ (t.dropRow leaving).Satisfies (Function.update v m x) ∧ x = solved.eval v := by
    rw [← h.solutions, satisfies_dropRow hrow]
    refine and_congr_right fun _ => ?_
    have hval := hsolve.value_iff (v := Function.update v m x) hcoef
    rw [Function.update_self, Row.eval_update, hself, zero_mul, add_zero, Row.eval_addSymbol] at hval
    rw [hval]
    constructor <;> intro hv <;> linarith
  refine ⟨h.symbolCount, ?_, ?_, ?_, ?_⟩
  · refine (h.solved.dropRow leaving).substitute hdrop ?_
    intro b hb
    have hbm : b ≠ m := fun e => hdrop (e ▸ hb)
    rw [hsolve.coefficient, if_neg hbm, h.solved.coefficient_exchange hrow hb]
    ring
  · intro v
    rw [satisfies_substitute hdrop]
    constructor
    · intro hv
      exact ⟨solved.eval v, (hiff v _).2 ⟨hv, rfl⟩⟩
    · rintro ⟨x, hx⟩
      obtain ⟨hv, rfl⟩ := (hiff v x).1 hx
      exact hv
  · obtain ⟨d, hd⟩ := h.objective
    refine ⟨d, fun v hv => ?_⟩
    obtain ⟨x, hx⟩ := hv
    obtain ⟨-, rfl⟩ := (hiff v x).1 hx
    change (t.objective.substitute m solved).eval v = _
    rw [eval_substitute_eq_update, hd _ hx, hobj]
    rfl
  · change Option.Rel _ (t.artificial.map _) none
    rw [hart]
    exact .none

/-! ## Forgetting a symbol -/

theorem eval_remove_eq_update : (r.remove s).eval v = r.eval (Function.update v s 0) := by
  rw [Row.eval_remove, Row.eval_update]
  ring

theorem Stores.of_forget (h : (t.forget s).Stores r) (hart : t.artificial = none) :
    ∃ r₀, t.Stores r₀ ∧ r = r₀.remove s := by
  obtain ⟨b, hb⟩ | rfl | ha := h
  · rw [get?_forget] at hb
    obtain ⟨r₀, hr₀, heq⟩ := Option.map_eq_some_iff.1 hb
    exact ⟨r₀, stores_row hr₀, heq.symm⟩
  · exact ⟨t.objective, stores_objective, rfl⟩
  · change t.artificial = some r at ha
    rw [hart] at ha
    cases ha

theorem satisfies_forget (hs : s ∉ t.rows.keys) :
    (t.forget s).Satisfies v ↔ t.Satisfies (Function.update v s 0) := by
  constructor
  · intro h b r hb
    have hbs : b ≠ s := fun e => hs (e ▸ mem_keys hb)
    rw [Function.update_of_ne hbs, ← eval_remove_eq_update]
    apply h
    rw [get?_forget, hb, Option.map_some]
  · intro h b r hb
    rw [get?_forget] at hb
    obtain ⟨r₀, hr₀, rfl⟩ := Option.map_eq_some_iff.1 hb
    have hbs : b ≠ s := fun e => hs (e ▸ mem_keys hr₀)
    rw [eval_remove_eq_update, ← h b r₀ hr₀, Function.update_of_ne hbs]

/-- Forgetting a symbol fixes it at zero. -/
theorem Means.forget (h : t.Means μ) (hs : s ∉ t.rows.keys) (hart : t.artificial = none)
    (hobj : ∀ v x, μ.objective (Function.update v s x) = μ.objective v) :
    (t.forget s).Means (μ.fixing s) := by
  refine ⟨h.symbolCount, ⟨?_, ?_⟩, ?_, ?_, ?_⟩
  · intro r hr
    obtain ⟨r₀, hr₀, rfl⟩ := hr.of_forget hart
    exact (h.solved.reduced r₀ hr₀).remove s
  · intro r hr b hb
    obtain ⟨r₀, hr₀, rfl⟩ := hr.of_forget hart
    rw [keys_forget] at hb
    have hbs : b ≠ s := fun e => hs (e ▸ hb)
    rw [Row.coefficient_remove, if_neg hbs, h.solved.basic r₀ hr₀ b hb]
  · intro v
    rw [satisfies_forget hs, h.solutions]
    rfl
  · obtain ⟨d, hd⟩ := h.objective
    refine ⟨d, fun v hv => ?_⟩
    change (t.objective.remove s).eval v = _
    rw [eval_remove_eq_update, hd _ hv, hobj]
    rfl
  · change Option.Rel _ t.artificial none
    rw [hart]
    exact .none

end Tableau

end BoxLayout
