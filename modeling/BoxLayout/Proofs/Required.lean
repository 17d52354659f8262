-- SUMMARY: What is required holds of the values read from a live engine exactly if its basic dummies are zero.
import BoxLayout.Proofs.Replay

/-!
# Reading what is required

A read that leaves the engine live brings all solved values up to date, and they are the
values that the tableau shows. These meet what is required exactly if every basic dummy of
the tableau is zero.

That is so after a replay. It can stop being so when a constraint is removed: the row that
leaves with its marker may change the constants of rows that belong to redundant required
equalities, and nothing restores them.
-/

namespace BoxLayout.Engine

open Attempt

variable {α : Type} [Scalar α] {e : Engine α}

omit [Scalar α] in
/-- Looking up a handle changes nothing. -/
theorem variableEntry_ensures (x : VariableId) (e : Engine α) :
    (variableEntry x).Ensures e (fun entry e' => e = e' ∧ e.vars.entries.get? x = some entry)
      (fun _ e' => e' = e) :=
  ensures_get_bind (ensures_ofExcept (fun _ hok => ⟨rfl, Registry.lookup_ok hok⟩) fun _ _ => rfl)

/-- A read that is answered leaves a refreshed engine, and answers a solved value of it. -/
theorem Command.perform_read {x : VariableId} {r : Reply α}
    (h : ((Command.read x).perform e).1 = .ok r) :
    ((Command.read x).perform e).2 = e.refresh ∧ r = .number (e.refresh.solvedValue x) := by
  unfold Command.perform at h ⊢
  have hrun : (Command.read x).run.Ensures e
      (fun r e' => e' = e.refresh ∧ r = .number (e.refresh.solvedValue x)) fun _ _ => True := by
    refine ensures_bind (ensures_bind ((variableEntry_ensures x e).mono ?_ fun _ _ _ => trivial))
    rintro _ _ ⟨rfl, -⟩
    refine ensures_modify_bind (ensures_bind ?_)
    refine (variableEntry_ensures x e.refresh).mono ?_ fun _ _ _ => trivial
    rintro entry _ ⟨rfl, hx⟩
    refine ensures_pure (ensures_pure ⟨rfl, ?_⟩)
    unfold solvedValue
    rw [hx]
  cases hresult : (Command.read x).run e with
  | ok r' e' =>
    rw [hresult] at h
    cases h
    exact hrun.of_ok hresult
  | error err e' =>
    rw [hresult] at h
    cases h

/-! ## The values read -/

/-- The solved values of a lawful engine that is up to date meet what is required exactly if
the basic dummies are zero. -/
theorem Lawful.required_solvedValue_iff {e : Engine Rat} (h : e.Lawful) (houtdated : e.outdated = false)
    {s : Solver Rat} (hs : e.solver = some s) :
    e.Required e.solvedValue ↔ s.tableau.DummiesZero := by
  have hagree (x : VariableId) (entry : VariableEntry Rat) (hx : e.vars.entries.get? x = some entry) :
      e.solvedValue x = s.updateVariables.value x.backing :=
    Settled.solvedValue_eq h.settled houtdated hs hx
  rw [← h.registered.required_iff (h.follows s hs)]
  exact ⟨h.registered.required_congr hagree,
    h.registered.required_congr fun x entry hx => (hagree x entry hx).symm⟩

/-- After every history of an engine, a read that is answered and leaves a solver behind
answers a solved value, and the solved values meet all pins and enabled constraints of the
required priority exactly if the basic dummies of that solver's tableau are zero. -/
theorem required_after_read_iff (id : EngineId) (options : EngineOptions)
    (history : List (Command Rat)) (x : VariableId) (r : Reply Rat) (s : Solver Rat)
    (hread : ((Command.read x).perform ((Engine.create id options).after history)).1 = .ok r)
    (hs : ((Command.read x).perform ((Engine.create id options).after history)).2.solver = some s) :
    let e := ((Command.read x).perform ((Engine.create id options).after history)).2
    r = .number (e.solvedValue x) ∧ (e.Required e.solvedValue ↔ s.tableau.DummiesZero) := by
  have hlawful : (((Command.read x).perform ((Engine.create id options).after history)).2).Lawful :=
    ((lawful_create id options).after Strength.graded history).perform Strength.graded (.read x)
  obtain ⟨he, hr⟩ := Command.perform_read hread
  rw [he] at hs hlawful ⊢
  exact ⟨hr, hlawful.required_solvedValue_iff (refresh_upToDate _ hs) hs⟩

/-- A history with a bound that is removed after it was read. -/
def eased : List (Command Rat) :=
  let right : VariableId := ⟨⟨0⟩, 1⟩
  bounded ++ [.read right, .removeConstraint ⟨⟨0⟩, 1⟩]

/-- What is left is met by the values of the next read. -/
theorem required_after_read_iff_eased :
    let right : VariableId := ⟨⟨0⟩, 1⟩
    let read := (Command.read right).perform ((Engine.create ⟨0⟩ .default).after eased)
    ∃ r s, read.1 = .ok r ∧ read.2.solver = some s ∧ s.tableau.DummiesZero ∧
      read.2.Required read.2.solvedValue := by
  intro right read
  have hrun : read.1.isOk = true ∧ read.2.solver.any (fun s => decide s.tableau.DummiesZero) = true := by
    decide +kernel
  obtain ⟨hok, hzero⟩ := hrun
  cases hread : read.1 with
  | error err =>
    rw [hread] at hok
    cases hok
  | ok r =>
    cases hs : read.2.solver with
    | none =>
      rw [hs] at hzero
      cases hzero
    | some s =>
      rw [hs] at hzero
      have hzero : s.tableau.DummiesZero := of_decide_eq_true hzero
      exact ⟨r, s, rfl, rfl, hzero,
        (required_after_read_iff ⟨0⟩ .default eased right r s hread hs).2.2 hzero⟩

/-! ## A required equality that is given up

The same equality is required twice and the second one is redundant: its row is keyed by its
marker. When the first one is removed, its marker leaves with the row of a bound, which moves
the variable to that bound and the second equality away from zero.
-/

/-- A variable that is required to be 10, twice, and at least 5. The first of these
constraints is removed again. -/
def twiceRequired : List (Command Rat) :=
  let x : VariableId := ⟨⟨0⟩, 0⟩
  let exactlyTen : Definition Rat := ⟨.ofUnknown x, .equal, .ofConstant 10, .p0⟩
  [.createVariable 0 .p3, .createConstraint exactlyTen true, .createConstraint exactlyTen true,
    .createConstraint ⟨.ofUnknown x, .atLeast, .ofConstant 5, .p0⟩ true, .read x,
    .removeConstraint ⟨⟨0⟩, 0⟩]

/-- The next read leaves a live engine, in which an enabled required constraint says that the
variable is 10, and answers 5. -/
theorem removal_gives_up_required :
    let x : VariableId := ⟨⟨0⟩, 0⟩
    let read := (Command.read x).perform ((Engine.create ⟨0⟩ .default : Engine Rat).after twiceRequired)
    read.1.isOk = true ∧ read.2.isLive = true ∧ read.2.solvedValue x = 5 ∧
      ¬read.2.Required read.2.solvedValue := by
  decide +kernel

end BoxLayout.Engine
