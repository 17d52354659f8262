-- SUMMARY: No call that changes a solver depends on the values it last showed.
import BoxLayout.OrderedMap.Lemmas
import BoxLayout.Proofs.Ensures
import BoxLayout.Solver.Command

/-!
# What a solver does not depend on

Bringing the values of a solver up to date writes down the values that its tableau shows.
Nothing else looks at them: a solver without these values goes through the same calls with
the same results. So when values are read cannot matter to what is solved.
-/

namespace BoxLayout

open Attempt

/-! ## Attempts that respect a projection -/

namespace Attempt

variable {ε σ τ β γ : Type} {f : σ → σ}

/-- The attempt runs on a projected state as on the state itself. -/
def Respects (f : σ → σ) (m : Attempt ε σ β) : Prop :=
  ∀ s, m (f s) = match m s with
    | .ok b t => .ok b (f t)
    | .error e t => .error e (f t)

theorem respects_pure (b : β) : Respects f (pure b : Attempt ε σ β) := fun _ => rfl

theorem respects_throw (e : ε) : Respects f (throw e : Attempt ε σ β) := fun _ => rfl

theorem respects_throw_bind (e : ε) (k : β → Attempt ε σ γ) :
    Respects f ((throw e : Attempt ε σ β) >>= k) := fun _ => rfl

theorem respects_bind {m : Attempt ε σ β} {k : β → Attempt ε σ γ} (hm : Respects f m)
    (hk : ∀ b, Respects f (k b)) : Respects f (m >>= k) := by
  intro s
  rw [bind_run, bind_run, hm s]
  cases m s with
  | ok b t => exact hk b t
  | error e t => rfl

/-- Of the state that is looked at, only what the projection keeps may matter. -/
theorem respects_get_bind {k : σ → Attempt ε σ β} (hsame : ∀ s, k (f s) = k s)
    (hk : ∀ s, Respects f (k s)) : Respects f (get >>= k) := by
  intro s
  rw [get_bind_run, get_bind_run, hsame]
  exact hk s s

theorem respects_modify {g : σ → σ} (hg : ∀ s, g (f s) = f (g s)) :
    Respects f (modify g : Attempt ε σ PUnit) := fun s => by
  rw [modify_run, modify_run, hg]

theorem respects_modifyGet {g : σ → β × σ} (hg : ∀ s, g (f s) = ((g s).1, f (g s).2)) :
    Respects f (modifyGet g : Attempt ε σ β) := fun s => by
  rw [modifyGet_run, modifyGet_run, hg]

/-- States with one projection see the attempt come out alike. -/
theorem Respects.cases {m : Attempt ε σ β} (h : Respects f m) {s s' : σ} (hs : f s = f s') :
    (∃ b t t', m s = .ok b t ∧ m s' = .ok b t' ∧ f t = f t') ∨
      ∃ e t t', m s = .error e t ∧ m s' = .error e t' := by
  have hsame := (h s).symm.trans ((congrArg m hs).trans (h s'))
  cases hrun : m s with
  | ok b t =>
    cases hrun' : m s' with
    | ok b' t' =>
      rw [hrun, hrun'] at hsame
      injection hsame with hb ht
      exact Or.inl ⟨b, t, t', rfl, congrArg (fun b => EStateM.Result.ok b t') hb.symm, ht⟩
    | error e t' =>
      rw [hrun, hrun'] at hsame
      cases hsame
  | error e t =>
    cases hrun' : m s' with
    | ok b' t' =>
      rw [hrun, hrun'] at hsame
      cases hsame
    | error e' t' =>
      rw [hrun, hrun'] at hsame
      injection hsame with he ht
      exact Or.inr ⟨e, t, t', rfl, congrArg (fun e => EStateM.Result.error e t') he.symm⟩

/-- A part that is projected away on the outside only. -/
theorem respects_onPart {part : σ → τ} {replace : τ → σ → σ} (m : Attempt ε τ β)
    (hpart : ∀ s, part (f s) = part s) (hreplace : ∀ t s, replace t (f s) = f (replace t s)) :
    Respects f (onPart part replace m) := by
  intro s
  rw [onPart_run, onPart_run, hpart]
  cases m (part s) with
  | ok b t =>
    dsimp only
    rw [hreplace]
  | error e t =>
    dsimp only
    rw [hreplace]

end Attempt

namespace OrderedMap

variable {κ α β : Type} [DecidableEq κ]

theorem mapValues_insert (m : OrderedMap κ α) (f : κ → α → β) (k : κ) (a : α) :
    (m.insert k a).mapValues f = (m.mapValues f).insert k (f k a) := by
  have hput (es : List (κ × α)) : (Entries.put k a es).map (fun e => (e.1, f e.1 e.2))
      = Entries.put k (f k a) (es.map fun e => (e.1, f e.1 e.2)) := by
    induction es with
    | nil => rfl
    | cons e es ih =>
      obtain ⟨j, b⟩ := e
      by_cases hj : j = k
      · subst hj
        simp [Entries.put]
      · simpa [Entries.put, hj] using ih
  exact ext (hput m.entries)

theorem mapValues_erase (m : OrderedMap κ α) (f : κ → α → β) (k : κ) :
    (m.erase k).mapValues f = (m.mapValues f).erase k := by
  apply ext
  unfold mapValues erase Entries.dropKey
  dsimp only
  rw [List.filter_map]
  rfl

end OrderedMap

namespace Solver

variable {α : Type} [Scalar α] {s : Solver α}

/-- The solver without the values that were last read. -/
def unread (s : Solver α) : Solver α :=
  { s with tracked := s.tracked.mapValues fun _ known => { known with value := 0 } }

/-- The call runs on a solver whose values have not been read as on the solver itself. -/
abbrev Oblivious {β : Type} (m : Attempt SolverError (Solver α) β) : Prop := Respects unread m

/-! ## Rows -/

theorem symbolOf_unread (x : Variable) (s : Solver α) :
    s.unread.symbolOf x = ((s.symbolOf x).1, (s.symbolOf x).2.unread) := by
  have hget : s.unread.tracked.get? x
      = (s.tracked.get? x).map fun known => { known with value := 0 } :=
    OrderedMap.get?_mapValues _ _ _
  unfold symbolOf
  rw [hget]
  cases s.tracked.get? x with
  | some known => rfl
  | none =>
    dsimp only [Option.map_none]
    unfold unread
    rw [OrderedMap.mapValues_insert]

theorem addTerm_unread (row : Row α) (term : Term Variable α) (s : Solver α) :
    s.unread.addTerm row term = ((s.addTerm row term).1, (s.addTerm row term).2.unread) := by
  unfold addTerm
  split
  · rfl
  · rw [symbolOf_unread]
    rfl

theorem expand_unread (e : Linear Variable α) (s : Solver α) :
    s.unread.expand e = ((s.expand e).1, (s.expand e).2.unread) := by
  have hfold (ts : List (Term Variable α)) (row : Row α) (s : Solver α) :
      ts.foldl (fun acc term => acc.2.addTerm acc.1 term) (row, s.unread)
        = ((ts.foldl (fun acc term => acc.2.addTerm acc.1 term) (row, s)).1,
          (ts.foldl (fun acc term => acc.2.addTerm acc.1 term) (row, s)).2.unread) := by
    induction ts generalizing row s with
    | nil => rfl
    | cons t ts ih =>
      rw [List.foldl_cons, List.foldl_cons, addTerm_unread]
      exact ih _ _
  exact hfold e.terms _ s

theorem createRow_unread (c : Constraint α) (s : Solver α) :
    createRow c s.unread = ((createRow c s).1, (createRow c s).2.unread) := by
  unfold createRow
  rw [expand_unread]
  rfl

/-! ## Calls -/

theorem oblivious_onTableau {β : Type} (m : Attempt SolverError (Tableau α) β) :
    Oblivious (onTableau m) :=
  respects_onPart m (fun _ => rfl) fun _ _ => rfl

theorem addConstraint_oblivious (c : Constraint α) : Oblivious (addConstraint c) := by
  refine respects_get_bind (fun _ => rfl) fun s => ?_
  dsimp only
  split
  · exact respects_throw_bind _ _
  split
  · refine respects_bind (respects_modifyGet (createRow_unread c)) fun made => ?_
    refine respects_get_bind (fun _ => rfl) fun s => ?_
    refine respects_bind (oblivious_onTableau _) fun _ => ?_
    exact respects_bind (respects_modify fun _ => rfl) fun _ => oblivious_onTableau _
  · exact respects_throw_bind _ _

theorem removeConstraint_oblivious (label : Label) :
    Oblivious (removeConstraint label : Attempt SolverError (Solver α) Unit) := by
  refine respects_get_bind (fun _ => rfl) fun s => ?_
  cases s.constraints.get? label with
  | none => exact respects_throw _
  | some active =>
    refine respects_bind (respects_modify fun _ => rfl) fun _ => ?_
    refine respects_bind (oblivious_onTableau _) fun _ => ?_
    exact respects_get_bind (fun _ => rfl) fun s => oblivious_onTableau _

theorem addEditVariable_oblivious (x : Variable) (strength : Strength α) :
    Oblivious (addEditVariable x strength) := by
  refine respects_get_bind (fun _ => rfl) fun s => ?_
  dsimp only
  split
  · exact respects_throw_bind _ _
  split
  · exact respects_throw_bind _ _
  · refine respects_bind (respects_modifyGet fun _ => rfl) fun c => ?_
    refine respects_bind (addConstraint_oblivious c) fun _ => ?_
    refine respects_get_bind (fun _ => rfl) fun s => ?_
    cases s.constraints.get? c.label with
    | none => exact respects_throw _
    | some active => exact respects_modify fun _ => rfl

theorem removeEditVariable_oblivious (x : Variable) :
    Oblivious (removeEditVariable x : Attempt SolverError (Solver α) Unit) := by
  refine respects_get_bind (fun _ => rfl) fun s => ?_
  cases s.edits.get? x with
  | none => exact respects_throw _
  | some edit =>
    refine respects_bind (removeConstraint_oblivious _) fun _ => ?_
    exact respects_modify fun _ => rfl

theorem suggestValue_oblivious (x : Variable) (target : α) : Oblivious (suggestValue x target) := by
  unfold suggestValue
  dsimp only
  split
  · refine respects_get_bind (fun _ => rfl) fun s => ?_
    cases s.edits.get? x with
    | none => exact respects_throw _
    | some edit =>
      refine respects_bind (respects_modify fun _ => rfl) fun _ => ?_
      exact respects_get_bind (fun _ => rfl) fun s => oblivious_onTableau _
  · exact respects_throw_bind _ _

/-! ## Values -/

/-- Reading the values makes up for not having read them. -/
theorem updateVariables_unread (s : Solver α) : s.unread.updateVariables = s.updateVariables := by
  unfold updateVariables unread OrderedMap.mapValues
  simp only [List.map_map]
  rfl

theorem unread_updateVariables (s : Solver α) : s.updateVariables.unread = s.unread := by
  unfold updateVariables unread OrderedMap.mapValues
  simp only [List.map_map]
  rfl

/-- Two solvers that differ in values read at most show the same values when they are read. -/
theorem updateVariables_congr {s t : Solver α} (h : s.unread = t.unread) :
    s.updateVariables = t.updateVariables := by
  rw [← updateVariables_unread, h, updateVariables_unread]

end Solver

end BoxLayout
