-- SUMMARY: Every call of an engine runs as described, so what each step keeps is kept by every history.
import BoxLayout.Proofs.Mutations

/-!
# Performing calls

A read brings the solved values up to date, which is no matter of the registries. Together
with the mutations and the queries this makes up all calls: a call is refused and changes
nothing, or it answers and has its effect.

An effect consists of writes, marks and reads. So a property that each of these keeps holds
after every history.
-/

namespace BoxLayout

open Attempt

namespace Engine

variable {α : Type} [Scalar α] {e : Engine α} {x : VariableId} {c : ConstraintId}

/-! ## Reads -/

/-- Writing down solved values changes nothing that is asked of the solver. -/
theorem Registered.mapEntries (h : e.Registered) (f : VariableId → VariableEntry α → α) :
    let e' : Engine α :=
      { e with vars := e.vars.mapEntries fun x entry => { entry with solved := f x entry } }
    e'.Registered ∧ e'.demand = e.demand := by
  have hget (x : VariableId) : (e.vars.mapEntries fun x entry =>
        { entry with solved := f x entry }).entries.get? x
      = (e.vars.entries.get? x).map fun entry => { entry with solved := f x entry } :=
    OrderedMap.get?_mapValues _ _ _
  refine ⟨{ h with vars := ?_, mentioned := ?_, apart := ?_ }, ?_⟩
  · intro x entry hx
    rw [hget] at hx
    obtain ⟨entry', hentry, rfl⟩ := Option.map_eq_some_iff.1 hx
    exact h.vars x entry' hentry
  · intro c entry x hc hmentions
    obtain ⟨known, hknown⟩ := h.mentioned c entry x hc hmentions
    rw [hget, hknown]
    exact ⟨_, rfl⟩
  · have hstated : ({ e with vars := e.vars.mapEntries fun x entry =>
          { entry with solved := f x entry } } : Engine α).stated = e.stated := by
      funext o
      cases o with
      | var x =>
        simp only [stated, hget]
        cases e.vars.entries.get? x <;> rfl
      | constraint c => rfl
    rw [hstated]
    exact h.apart
  · unfold demand demandOf
    congr 1
    · funext o
      cases o with
      | var x =>
        simp only [hget]
        cases e.vars.entries.get? x <;> rfl
      | constraint c => rfl
    · funext x
      simp only [hget]
      cases e.vars.entries.get? x <;> rfl

/-- How an engine comes out of an attempt to have a solver. -/
theorem ensureLive_cases (e : Engine α) :
    ((e.solver.isSome = true ∨ e.rebuildBlocked = true) ∧ e.ensureLive = e) ∨
    (e.solver = none ∧
      ∃ s, replay e.options.steps e.vars e.constraints = .ok s ∧ e.ensureLive = e.adopt s) ∨
    (e.solver = none ∧ ∃ cause,
      replay e.options.steps e.vars e.constraints = .error cause ∧ e.ensureLive = e.failRebuild cause) := by
  unfold ensureLive
  split
  · next hkeep => exact Or.inl ⟨Bool.or_eq_true_iff.1 hkeep, rfl⟩
  · next htry =>
    rw [Bool.or_eq_true_iff, not_or] at htry
    have hnone : e.solver = none := by simpa using htry.1
    cases hreplay : replay e.options.steps e.vars e.constraints with
    | ok s => exact Or.inr (Or.inl ⟨hnone, s, rfl, rfl⟩)
    | error cause => exact Or.inr (Or.inr ⟨hnone, cause, rfl, rfl⟩)

omit [Scalar α] in
theorem adopt_fields (s : Solver α) (e : Engine α) :
    (e.adopt s).id = e.id ∧ (e.adopt s).vars = e.vars ∧ (e.adopt s).constraints = e.constraints ∧
      (e.adopt s).labels = e.labels ∧ (e.adopt s).solver = some s ∧ (e.adopt s).outdated = true := by
  unfold adopt emit
  dsimp only
  split <;> exact ⟨rfl, rfl, rfl, rfl, rfl, rfl⟩

omit [Scalar α] in
theorem failRebuild_fields (cause : SolverError) (e : Engine α) :
    (e.failRebuild cause).id = e.id ∧ (e.failRebuild cause).vars = e.vars ∧
      (e.failRebuild cause).constraints = e.constraints ∧
      (e.failRebuild cause).labels = e.labels ∧ (e.failRebuild cause).solver = e.solver := by
  unfold failRebuild emit
  dsimp only
  split <;> exact ⟨rfl, rfl, rfl, rfl, rfl⟩

omit [Scalar α] in
theorem adopt_health (s : Solver α) (e : Engine α) :
    (e.adopt s).health = { e.health with rebuilds := e.health.rebuilds + 1 } := by
  unfold adopt emit
  dsimp only
  split <;> rfl

omit [Scalar α] in
theorem failRebuild_health (cause : SolverError) (e : Engine α) : (e.failRebuild cause).health
    = { e.health with
        failedRebuilds := e.health.failedRebuilds + 1
        lastError := some cause } := by
  unfold failRebuild emit
  dsimp only
  split <;> rfl

/-- An engine that has a solver keeps it. -/
theorem ensureLive_of_live (h : e.isLive = true) : e.ensureLive = e := by
  unfold ensureLive
  exact if_pos (Bool.or_eq_true_iff.2 (Or.inl h))

/-- Having a solver is no matter of the registries. -/
theorem ensureLive_registries (e : Engine α) :
    e.ensureLive.id = e.id ∧ e.ensureLive.vars = e.vars ∧
      e.ensureLive.constraints = e.constraints ∧ e.ensureLive.labels = e.labels := by
  obtain ⟨-, h⟩ | ⟨-, s, -, h⟩ | ⟨-, cause, -, h⟩ := e.ensureLive_cases
  · rw [h]
    exact ⟨rfl, rfl, rfl, rfl⟩
  · rw [h]
    obtain ⟨hid, hvars, hconstraints, hlabels, -⟩ := adopt_fields s e
    exact ⟨hid, hvars, hconstraints, hlabels⟩
  · rw [h]
    obtain ⟨hid, hvars, hconstraints, hlabels, -⟩ := failRebuild_fields cause e
    exact ⟨hid, hvars, hconstraints, hlabels⟩

theorem ensureLive_demand (e : Engine α) : e.ensureLive.demand = e.demand := by
  obtain ⟨-, hvars, hconstraints, -⟩ := e.ensureLive_registries
  unfold demand
  rw [hvars, hconstraints]

theorem Registered.ensureLive (h : e.Registered) : e.ensureLive.Registered := by
  obtain ⟨hid, hvars, hconstraints, hlabels⟩ := e.ensureLive_registries
  exact h.congr hid hvars hconstraints hlabels

/-- Reading the values changes solved values at most. -/
theorem readValues_cases (e : Engine α) :
    ((e.outdated = false ∨ e.solver = none) ∧ e.readValues = e) ∨
    ∃ s, e.outdated = true ∧ e.solver = some s ∧ e.readValues = { e with
      solver := some s.updateVariables
      vars := e.vars.mapEntries fun x entry =>
        { entry with solved := s.updateVariables.value x.backing }
      outdated := false } := by
  unfold readValues
  cases houtdated : e.outdated with
  | false => exact Or.inl ⟨Or.inl rfl, rfl⟩
  | true =>
    cases hs : e.solver with
    | none => exact Or.inl ⟨Or.inr rfl, rfl⟩
    | some s => exact Or.inr ⟨s, rfl, rfl, rfl⟩

theorem Registered.readValues (h : e.Registered) :
    e.readValues.Registered ∧ e.readValues.demand = e.demand := by
  obtain ⟨-, hread⟩ | ⟨s, -, -, hread⟩ := e.readValues_cases
  · rw [hread]
    exact ⟨h, rfl⟩
  · rw [hread]
    obtain ⟨hregistered, hd⟩ := h.mapEntries fun x _ => s.updateVariables.value x.backing
    exact ⟨hregistered.congr rfl rfl rfl rfl, hd⟩

theorem Registered.refresh (h : e.Registered) : e.refresh.Registered :=
  h.ensureLive.readValues.1

/-- A variable stays registered, the way it is wanted. -/
theorem refresh_get? (e : Engine α) (x : VariableId) :
    ∃ f : VariableEntry α → VariableEntry α,
      e.refresh.vars.entries.get? x = (e.vars.entries.get? x).map f := by
  have hvars := e.ensureLive_registries.2.1
  unfold Engine.refresh
  obtain ⟨-, hread⟩ | ⟨s, -, -, hread⟩ := e.ensureLive.readValues_cases
  · exact ⟨fun entry => entry, by rw [hread, hvars]; cases e.vars.entries.get? x <;> rfl⟩
  · exact ⟨_, by rw [hread, hvars]; exact OrderedMap.get?_mapValues _ _ _⟩

/-! ## Commands -/

theorem Registered.read_performs (h : e.Registered) (x : VariableId) :
    (∃ err, e.fault ⟨.var, x⟩ = some err ∧ read x e = .error err e) ∨
      e.fault ⟨.var, x⟩ = none ∧ read x e = .ok (e.refresh.solvedValue x) e.refresh := by
  unfold read
  obtain ⟨err, hfault, hlookup⟩ | ⟨entry, hfault, hx, hlookup⟩ := e.fault_var h.varsOwner x
  · exact Or.inl ⟨err, hfault, bind_run_error (by rw [variableEntry_run, hlookup])⟩
  · refine Or.inr ⟨hfault, ?_⟩
    obtain ⟨f, hf⟩ := e.refresh_get? x
    rw [hx, Option.map_some] at hf
    have howner := (h.refresh.vars x _ hf).1.trans h.refresh.varsOwner.symm
    have hentry : variableEntry x e = .ok entry e := by rw [variableEntry_run, hlookup]
    have hagain : variableEntry x e.refresh = .ok (f entry) e.refresh := by
      rw [variableEntry_run, Registry.lookup_of_get? howner hf]
    refine (bind_run_ok hentry).trans ((bind_run_ok hagain).trans ?_)
    unfold solvedValue
    rw [hf]
    rfl

/-- A call is refused and changes nothing, or it answers and has its effect. -/
def Command.Runs (c : Command α) (e : Engine α) : Prop :=
  (∃ err, c.refusal e = some err ∧ c.run e = .error err e) ∨
    c.refusal e = none ∧ c.run e = .ok (c.reply e) (c.effect e) ∧ e.AllProper (c.writes e)

theorem runs_of_performs {c : Command α} (heffect : c.effect e = e.carryOut (c.writes e))
    (hperforms : Performs c.run e (c.refusal e) (c.reply e) (c.writes e)) : c.Runs e := by
  unfold Performs at hperforms
  unfold Command.Runs
  cases hrefusal : c.refusal e with
  | some err =>
    rw [hrefusal] at hperforms
    exact Or.inl ⟨err, rfl, hperforms⟩
  | none =>
    rw [hrefusal] at hperforms
    rw [heffect]
    exact Or.inr ⟨rfl, hperforms⟩

/-- Asking for something that is known of a variable. -/
theorem Registered.queryVar_performs {β : Type} {query : Engine α → Except EngineError β}
    {command : Command α} (h : e.Registered) (x : VariableId) (look : VariableEntry α → β)
    (reply : β → Reply α) (hquery : query e = (e.vars.lookup x).map look)
    (hrefusal : command.refusal e = (Command.targetOf x).refusal e) (hwrites : command.writes e = [])
    (hreply : ∀ entry, e.vars.entries.get? x = some entry → command.reply e = reply (look entry)) :
    Performs (get >>= fun e => ofExcept (query e) >>= fun b => pure (reply b)) e (command.refusal e)
      (command.reply e) (command.writes e) := by
  rw [hwrites, hrefusal]
  refine performs_get_bind ?_
  rw [hquery]
  obtain ⟨err, hfault, hlookup⟩ | ⟨entry, hfault, hx, hlookup⟩ := e.fault_var h.varsOwner x
  · rw [hlookup]
    exact performs_error (Command.refusal_of_fault ((List.findSome?_singleton ..).trans hfault)) rfl
  · rw [hlookup, hreply entry hx]
    exact performs_ok (Command.refusal_of_known ((List.findSome?_singleton ..).trans hfault)) rfl trivial

theorem Registered.definitionOf_performs (h : e.Registered) (c : ConstraintId) :
    Performs (Command.definitionOf c).run e ((Command.definitionOf c).refusal e)
      ((Command.definitionOf c).reply e) [] := by
  refine performs_get_bind ?_
  unfold definitionOf
  obtain ⟨err, hfault, hlookup⟩ | ⟨entry, hfault, hc, hlookup⟩ :=
    e.fault_constraint h.constraintsOwner c
  · rw [hlookup]
    exact performs_error (Command.refusal_of_fault ((List.findSome?_singleton ..).trans hfault)) rfl
  · have hreply : (Command.definitionOf c).reply e = .definition entry.definition entry.enabled := by
      simp [Command.reply, hc]
    rw [hlookup, hreply]
    exact performs_ok (Command.refusal_of_known ((List.findSome?_singleton ..).trans hfault)) rfl trivial

/-- The handles on both sides of a registered definition are in order. -/
theorem Registered.sides_known (h : e.Registered) {entry : ConstraintEntry α}
    (hc : e.constraints.entries.get? c = some entry) :
    entry.definition.lhs.handles.findSome? e.fault = none ∧
      entry.definition.rhs.handles.findSome? e.fault = none := by
  have hboth := h.handles_known.2 fun y hy => h.mentioned c entry y hc hy
  rw [Definition.handles, List.findSome?_append, Option.or_eq_none_iff] at hboth
  exact hboth

/-- Every call of an engine with registries that fit together runs as described. -/
theorem Registered.runs (h : e.Registered) (c : Command α) : c.Runs e := by
  cases c with
  | createVariable target p =>
    exact runs_of_performs rfl ((h.createVariable_performs target p).bind_pure Reply.handle)
  | removeVariable x =>
    exact runs_of_performs rfl ((h.removeVariable_performs x).bind_pure fun _ => Reply.done)
  | suggest x target =>
    exact runs_of_performs rfl ((h.suggest_performs x target).bind_pure fun _ => Reply.done)
  | setVariablePriority x p =>
    exact runs_of_performs rfl ((h.setVariablePriority_performs x p).bind_pure fun _ => Reply.done)
  | read x =>
    obtain ⟨err, hfault, hrun⟩ | ⟨hfault, hrun⟩ := h.read_performs x
    · refine Or.inl ⟨err, Command.refusal_of_fault ((List.findSome?_singleton ..).trans hfault), ?_⟩
      exact bind_run_error hrun
    · refine Or.inr ⟨Command.refusal_of_known ((List.findSome?_singleton ..).trans hfault), ?_, trivial⟩
      exact bind_run_ok hrun
  | priorityOf x =>
    refine runs_of_performs rfl (h.queryVar_performs x VariableEntry.priority Reply.priority rfl rfl rfl
      fun entry hx => ?_)
    simp [Command.reply, hx]
  | targetOf x =>
    refine runs_of_performs rfl (h.queryVar_performs x VariableEntry.target Reply.number rfl rfl rfl
      fun entry hx => ?_)
    simp [Command.reply, hx]
  | listVariables => exact runs_of_performs rfl (performs_ok rfl rfl trivial)
  | createConstraint d enabled =>
    exact runs_of_performs rfl ((h.createConstraint_performs d enabled).bind_pure Reply.handle)
  | removeConstraint c =>
    exact runs_of_performs rfl ((h.removeConstraint_performs c).bind_pure fun _ => Reply.done)
  | setLhs c lhs =>
    refine runs_of_performs rfl (Performs.bind_pure (h.redefine_performs c _ rfl rfl ?_) fun _ => Reply.done)
    intro entry hc
    rw [Definition.handles, List.findSome?_append, (h.sides_known hc).2, Option.or_none]
  | setRhs c rhs =>
    refine runs_of_performs rfl (Performs.bind_pure (h.redefine_performs c _ rfl rfl ?_) fun _ => Reply.done)
    intro entry hc
    rw [Definition.handles, List.findSome?_append, (h.sides_known hc).1, Option.none_or]
  | setRelation c r =>
    refine runs_of_performs rfl (Performs.bind_pure (h.redefine_performs c _ rfl rfl ?_) fun _ => Reply.done)
    exact fun entry hc => h.handles_known.2 fun y hy => h.mentioned c entry y hc hy
  | setConstraintPriority c p =>
    refine runs_of_performs rfl (Performs.bind_pure (h.redefine_performs c _ rfl rfl ?_) fun _ => Reply.done)
    exact fun entry hc => h.handles_known.2 fun y hy => h.mentioned c entry y hc hy
  | setEnabled c enabled =>
    exact runs_of_performs rfl ((h.setEnabled_performs c enabled).bind_pure fun _ => Reply.done)
  | definitionOf c => exact runs_of_performs rfl (h.definitionOf_performs c)
  | referencing x =>
    exact runs_of_performs rfl (h.queryVar_performs x (fun _ => e.constraints.referencing x)
      Reply.handles rfl rfl rfl fun entry hx => rfl)
  | listConstraints => exact runs_of_performs rfl (performs_ok rfl rfl trivial)
  | takeDirty => exact Or.inr ⟨rfl, rfl, trivial⟩
  | listen => exact Or.inr ⟨rfl, rfl, trivial⟩
  | stopListening => exact Or.inr ⟨rfl, rfl, trivial⟩

/-- A refused call changes nothing. Any other call answers and has its effect. -/
theorem Registered.perform_cases (h : e.Registered) (c : Command α) :
    (∃ err, c.refusal e = some err ∧ c.perform e = (.error err, e)) ∨
      c.refusal e = none ∧ c.perform e = (.ok (c.reply e), c.effect e) ∧ e.AllProper (c.writes e) := by
  unfold Command.perform
  obtain ⟨err, hrefusal, hrun⟩ | ⟨hrefusal, hrun, hproper⟩ := h.runs c
  · rw [hrun]
    exact Or.inl ⟨err, hrefusal, rfl⟩
  · rw [hrun]
    exact Or.inr ⟨hrefusal, rfl, hproper⟩

/-! ## Kinds of steps -/

/-- What a call makes of an engine. It leaves the engine alone if it is refused, if it only asks
for something, or if there is nothing to change. -/
inductive Step (e : Engine α) : Command α → Engine α → Prop where
  | stay (c : Command α) : Step e c e
  | carry {c : Command α} {w : Write α} {ws : List (Write α)} : c.isMutation = true →
      c.writes e = w :: ws → e.AllProper (w :: ws) → Step e c (e.writeAll (w :: ws)).markChanged
  | read (x : VariableId) : Step e (.read x) e.refresh
  | takeDirty : Step e .takeDirty { e with dirty := false }
  | listen : Step e .listen { e with hooked := true }
  | stopListening : Step e .stopListening { e with hooked := false }

theorem Registered.step (h : e.Registered) (c : Command α) : e.Step c (c.perform e).2 := by
  rcases h.perform_cases c with ⟨err, -, hperform⟩ | ⟨-, hperform, hproper⟩
  · rw [hperform]
    exact .stay c
  rw [hperform]
  -- what a mutation carries out, if it has anything to write
  have hcarried (hmutation : c.isMutation = true) : e.Step c (e.carryOut (c.writes e)) := by
    cases hws : c.writes e with
    | nil => exact .stay c
    | cons w ws => exact .carry hmutation hws (hws ▸ hproper)
  cases c with
  | read x => exact .read x
  | takeDirty => exact .takeDirty
  | listen => exact .listen
  | stopListening => exact .stopListening
  | priorityOf | targetOf | listVariables | definitionOf | referencing | listConstraints =>
    exact .stay _
  | _ => exact hcarried rfl

/-! ## Histories -/

/-- What everything that a call can do to an engine keeps. -/
structure Kept (P : Engine α → Prop) : Prop where
  write : ∀ e w, e.Registered → P e → w.Proper e → P (e.write w)
  markChanged : ∀ e, P e → P e.markChanged
  refresh : ∀ e, e.Registered → P e → P e.refresh
  note : ∀ e dirty hooked, P e → P { e with dirty := dirty, hooked := hooked }

namespace Kept

variable {P : Engine α → Prop}

theorem perform (hkept : Kept P) (h : e.Registered) (hP : P e) (c : Command α) :
    (c.perform e).2.Registered ∧ P (c.perform e).2 := by
  obtain ⟨err, -, hperform⟩ | ⟨-, hperform, hproper⟩ := h.perform_cases c
  · rw [hperform]
    exact ⟨h, hP⟩
  rw [hperform]
  have hcarried : (e.carryOut (c.writes e)).Registered ∧ P (e.carryOut (c.writes e)) :=
    carryOut_induction (P := fun e => e.Registered ∧ P e)
      (fun e w hboth hw => ⟨hboth.1.write hw, hkept.write e w hboth.1 hboth.2 hw⟩)
      (fun e hboth => ⟨hboth.1.markChanged, hkept.markChanged e hboth.2⟩) hproper ⟨h, hP⟩
  cases c with
  | read x => exact ⟨h.refresh, hkept.refresh e h hP⟩
  | takeDirty => exact ⟨h.congr rfl rfl rfl rfl, hkept.note e false e.hooked hP⟩
  | listen => exact ⟨h.congr rfl rfl rfl rfl, hkept.note e e.dirty true hP⟩
  | stopListening => exact ⟨h.congr rfl rfl rfl rfl, hkept.note e e.dirty false hP⟩
  | _ => exact hcarried

theorem after (hkept : Kept P) (h : e.Registered) (hP : P e) (history : List (Command α)) :
    (e.after history).Registered ∧ P (e.after history) := by
  induction history generalizing e with
  | nil => exact ⟨h, hP⟩
  | cons c history ih =>
    obtain ⟨h', hP'⟩ := hkept.perform h hP c
    exact ih h' hP'

end Kept

/-- Every history leaves registries that fit together. -/
theorem Registered.after (h : e.Registered) (history : List (Command α)) :
    (e.after history).Registered :=
  (Kept.after (P := fun _ => True) ⟨fun _ _ _ _ _ => trivial, fun _ _ => trivial,
    fun _ _ _ => trivial, fun _ _ _ _ => trivial⟩ h trivial history).1

end Engine

end BoxLayout
