-- SUMMARY: Every call of an engine keeps its registries in order and its solver in line with them.
import BoxLayout.Proofs.Commands
import BoxLayout.Proofs.Rebuild

/-!
# Lawful engines

In a lawful engine the registries fit together, a live solver mirrors what they ask for,
and the solved values are those of the solver unless the engine is marked as outdated.
Every history of calls leaves a lawful engine.

Nothing here depends on numbers, except that the strengths of preferences are told from
the required one.
-/

namespace BoxLayout

open Attempt

/-- Reading the values twice is reading them once. -/
theorem Solver.updateVariables_updateVariables {α : Type} [Scalar α] (s : Solver α) :
    s.updateVariables.updateVariables = s.updateVariables := by
  unfold updateVariables OrderedMap.mapValues
  simp only [List.map_map]
  rfl

namespace Engine

variable {α : Type} [Scalar α] {e e' : Engine α} {d : Demand α}

/-- The solver, if there is one, mirrors the demand. -/
def Follows (d : Demand α) (e : Engine α) : Prop :=
  ∀ s, e.solver = some s → Mirrors d s

/-- The registries fit together, and a live solver mirrors them. -/
structure Working (e : Engine α) : Prop where
  registered : e.Registered
  follows : e.Follows e.demand

/-- The engine works, and the solved values are those of the solver unless they are marked
as outdated. -/
structure Lawful (e : Engine α) : Prop extends e.Working where
  settled : ∀ s x entry, e.outdated = false → e.solver = some s →
    e.vars.entries.get? x = some entry → entry.solved = s.updateVariables.value x.backing

/-! ## Following the registries -/

theorem Follows.write (h : e.Follows e.demand) (hgraded : Strength.Graded α) (hreg : e.Registered)
    {w : Write α} (hw : w.Proper e) : (e.write w).Follows (e.write w).demand := by
  have hrecord := hreg.record hw
  rw [demand_write]
  obtain ⟨hnone, hwrite⟩ | ⟨s', -, hwrite, hmirrors⟩ | ⟨cause, -, hwrite, -⟩ :=
    (Mirrors.upkeep hgraded).write_cases hreg hw hreg.fit hrecord.fit h
  · intro s hs
    rw [hwrite, (w.record_rest e).1, hnone] at hs
    cases hs
  · intro s hs
    rw [hwrite] at hs
    cases hs
    exact hmirrors
  · intro s hs
    rw [hwrite, invalidate_solver] at hs
    cases hs

theorem Follows.ensureLive (h : e.Follows e.demand) (hgraded : Strength.Graded α)
    (hreg : e.Registered) : e.ensureLive.Follows e.ensureLive.demand := by
  rw [ensureLive_demand]
  obtain ⟨-, hlive⟩ | ⟨-, s, hreplay, hlive⟩ | ⟨hnone, cause, -, hlive⟩ := e.ensureLive_cases
  · rw [hlive]
    exact h
  · intro s' hs'
    rw [hlive, (adopt_fields s e).2.2.2.2.1] at hs'
    cases hs'
    exact hreg.mirrors_of_replay hgraded hreplay
  · intro s' hs'
    rw [hlive, (failRebuild_fields cause e).2.2.2.2, hnone] at hs'
    cases hs'

theorem Follows.readValues (h : e.Follows e.demand) (hreg : e.Registered) :
    e.readValues.Follows e.readValues.demand := by
  rw [hreg.readValues.2]
  obtain ⟨-, hread⟩ | ⟨s, -, hs, hread⟩ := e.readValues_cases
  · rw [hread]
    exact h
  · intro s' hs'
    rw [hread] at hs'
    cases hs'
    exact (h s hs).updateVariables

/-- A solver goes on mirroring the registries whatever happens to the engine. -/
theorem follows_kept (hgraded : Strength.Graded α) : Kept fun e : Engine α => e.Follows e.demand where
  write _ _ hreg h hw := h.write hgraded hreg hw
  markChanged _ h := h
  refresh _ hreg h := (h.ensureLive hgraded hreg).readValues hreg.ensureLive
  note _ _ _ h := h

/-! ## Solved values -/

/-- The solved values are those of the solver, unless they are marked as outdated. -/
def Settled (e : Engine α) : Prop :=
  ∀ s x entry, e.outdated = false → e.solver = some s →
    e.vars.entries.get? x = some entry → entry.solved = s.updateVariables.value x.backing

theorem Settled.ensureLive (h : e.Settled) : e.ensureLive.Settled := by
  obtain ⟨-, hlive⟩ | ⟨-, s, -, hlive⟩ | ⟨hnone, cause, -, hlive⟩ := e.ensureLive_cases
  · rw [hlive]
    exact h
  · intro _ _ _ houtdated
    rw [hlive, (adopt_fields s e).2.2.2.2.2] at houtdated
    cases houtdated
  · intro s' _ _ _ hs'
    rw [hlive, (failRebuild_fields cause e).2.2.2.2, hnone] at hs'
    cases hs'

theorem Settled.readValues (h : e.Settled) : e.readValues.Settled := by
  obtain ⟨-, hread⟩ | ⟨s, -, hs, hread⟩ := e.readValues_cases
  · rw [hread]
    exact h
  · rw [hread]
    intro s' x entry _ hs' hx
    cases hs'
    rw [Solver.updateVariables_updateVariables]
    have hx := (OrderedMap.get?_mapValues _ _ _).symm.trans hx
    obtain ⟨entry', -, rfl⟩ := Option.map_eq_some_iff.1 hx
    rfl

theorem Settled.perform (h : e.Settled) (hreg : e.Registered) (c : Command α) :
    (c.perform e).2.Settled := by
  obtain ⟨err, -, hperform⟩ | ⟨-, hperform, -⟩ := hreg.perform_cases c
  · rw [hperform]
    exact h
  rw [hperform]
  have hcarried : (e.carryOut (c.writes e)).Settled := by
    cases c.writes e with
    | nil => exact h
    | cons w ws =>
      intro _ _ _ houtdated
      cases houtdated
  cases c with
  | read x => exact h.ensureLive.readValues
  | takeDirty => exact h
  | listen => exact h
  | stopListening => exact h
  | _ => exact hcarried

/-- A live engine is up to date after a read. -/
theorem refresh_upToDate (e : Engine α) {s : Solver α} (hs : e.refresh.solver = some s) :
    e.refresh.outdated = false := by
  unfold refresh at hs ⊢
  generalize e.ensureLive = e' at hs ⊢
  unfold readValues at hs ⊢
  cases houtdated : e'.outdated with
  | true =>
    cases hsolver : e'.solver with
    | some s' => rfl
    | none =>
      rw [houtdated, hsolver] at hs
      dsimp only at hs
      rw [hsolver] at hs
      cases hs
  | false => exact houtdated

/-- The solved values of an engine that is up to date are those of its solver. -/
theorem Settled.solvedValue_eq (h : e.Settled) (houtdated : e.outdated = false) {s : Solver α}
    (hs : e.solver = some s) {x : VariableId} {entry : VariableEntry α}
    (hx : e.vars.entries.get? x = some entry) :
    e.solvedValue x = s.updateVariables.value x.backing := by
  unfold solvedValue
  rw [hx]
  exact h s x entry houtdated hs hx

/-- A read of a live engine shows the values of its solver. -/
theorem Settled.solvedValue_refresh (h : e.Settled) {s : Solver α} (hs : e.solver = some s)
    (x : VariableId) : e.refresh.solvedValue x
      = if e.vars.entries.contains x then s.updateVariables.value x.backing else 0 := by
  have hlive : e.ensureLive = e := ensureLive_of_live (by rw [isLive, hs]; rfl)
  obtain ⟨s', hs', hshow⟩ : ∃ s', e.refresh.solver = some s' ∧
      s'.updateVariables = s.updateVariables := by
    unfold Engine.refresh
    rw [hlive]
    obtain ⟨-, hread⟩ | ⟨s', -, hs', hread⟩ := e.readValues_cases
    · rw [hread]
      exact ⟨s, hs, rfl⟩
    · rw [hread]
      obtain rfl : s = s' := Option.some.inj (hs.symm.trans hs')
      exact ⟨_, rfl, s.updateVariables_updateVariables⟩
  obtain ⟨f, hf⟩ := e.refresh_get? x
  rw [← hshow]
  unfold OrderedMap.contains
  cases hx : e.vars.entries.get? x with
  | none =>
    rw [hx] at hf
    unfold solvedValue
    rw [hf]
    rfl
  | some entry =>
    rw [hx] at hf
    exact h.ensureLive.readValues.solvedValue_eq (refresh_upToDate e hs') hs' hf

/-! ## Histories -/

theorem lawful_create (id : EngineId) (options : EngineOptions) :
    (Engine.create id options : Engine α).Lawful where
  registered := .create id options
  follows s hs := by
    cases hs
    have hd : (Engine.create id options : Engine α).demand = Demand.empty := demandOf_none
    rw [hd]
    exact .empty options.steps
  settled _ _ _ _ _ hx := by cases hx

theorem Settled.after (h : e.Settled) (hreg : e.Registered) (history : List (Command α)) :
    (e.after history).Settled := by
  induction history generalizing e with
  | nil => exact h
  | cons c history ih => exact ih (h.perform hreg c) (hreg.after [c])

theorem Lawful.perform (h : e.Lawful) (hgraded : Strength.Graded α) (command : Command α) :
    (command.perform e).2.Lawful := by
  obtain ⟨hreg, hfollows⟩ := (follows_kept hgraded).perform h.registered h.follows command
  exact ⟨⟨hreg, hfollows⟩, Settled.perform h.settled h.registered command⟩

/-- Every history leaves a lawful engine. -/
theorem Lawful.after (h : e.Lawful) (hgraded : Strength.Graded α) (history : List (Command α)) :
    (e.after history).Lawful := by
  induction history generalizing e with
  | nil => exact h
  | cons command history ih => exact ih (h.perform hgraded command)

end Engine

end BoxLayout
