-- SUMMARY: A live solver holds exactly what is registered, so that nothing is ever denied.
import BoxLayout.Proofs.Answers
import BoxLayout.Proofs.Lawful

/-!
# The contents of a live solver

Seen from outside, a solver that mirrors the registries holds three sorts of constraints,
each of them once: the pins of the required variables, the backings of the enabled
constraints, and one constraint for each edit variable. Its edit variables are those behind
the variables that are not required.

The solver therefore never refuses a call for what it holds already or does not hold, and no
other strength than that of a required variable is required. Whatever an engine notes as the
cause of a loss or of a failed rebuild is something else.
-/

namespace BoxLayout

open Attempt

namespace Engine

variable {α : Type} [Scalar α] {e : Engine α} {s : Solver α}

/-! ## What is registered -/

/-- The pins of the registered variables. -/
def pins (e : Engine α) : List (Constraint α) :=
  e.vars.entries.entries.filterMap fun v => v.2.pin

/-- The backings of the enabled constraints. -/
def backings (e : Engine α) : List (Constraint α) :=
  (e.constraints.entries.entries.filter fun c => c.2.enabled).map fun c => c.2.backing

/-- The backings of the variables that are not required. -/
def edited (e : Engine α) : List Variable :=
  (e.vars.entries.entries.filter fun v => decide (v.2.priority ≠ .p0)).map fun v => v.1.backing

/-- The solver holds what is registered, each thing once, and nothing else. -/
structure Contains (e : Engine α) (s : Solver α) : Prop where
  labelled : ∀ label a, s.constraints.get? label = some a → a.constraint.label = label
  constraints : (s.constraints.values.map Active.constraint).Perm
    (e.pins ++ e.backings ++ s.edits.values.map Edit.constraint)
  edits : s.edits.keys.Perm e.edited
  pinned : ∀ x entry, e.vars.entries.get? x = some entry → entry.priority = .p0 →
    ∃ n, entry.pin = some (.pin (.caller n) x.backing entry.target)
  wished : ∀ x entry, e.vars.entries.get? x = some entry → entry.priority ≠ .p0 →
    entry.pin = none ∧ ∃ n tag, s.edits.get? x.backing
      = some ⟨tag, .forEdit n x.backing (.ofPriority entry.priority), entry.target⟩
  stated : ∀ c entry, e.constraints.entries.get? c = some entry →
    ∃ n, entry.backing = entry.definition.backing (.caller n)

omit [Scalar α] in
theorem mem_pins {k : Constraint α} :
    k ∈ e.pins ↔ ∃ x, e.demand.constraints (.var x) = some k := by
  unfold pins
  rw [List.mem_filterMap]
  constructor
  · rintro ⟨⟨x, entry⟩, hmem, hpin⟩
    exact ⟨x, Option.bind_eq_some_iff.2 ⟨entry, OrderedMap.mem_entries_iff.1 hmem, hpin⟩⟩
  · rintro ⟨x, ho⟩
    obtain ⟨entry, hx, hpin⟩ := Option.bind_eq_some_iff.1 ho
    exact ⟨(x, entry), OrderedMap.mem_entries_iff.2 hx, hpin⟩

omit [Scalar α] in
theorem mem_backings {k : Constraint α} :
    k ∈ e.backings ↔ ∃ c, e.demand.constraints (.constraint c) = some k := by
  unfold backings
  rw [List.mem_map]
  constructor
  · rintro ⟨⟨c, entry⟩, hmem, rfl⟩
    obtain ⟨hmem, hon⟩ := List.mem_filter.1 hmem
    exact ⟨c, demand_enabled (OrderedMap.mem_entries_iff.1 hmem) hon⟩
  · rintro ⟨c, ho⟩
    obtain ⟨entry, hc, hon, hbacking⟩ := demand_constraint_iff.1 ho
    exact ⟨(c, entry), List.mem_filter.2 ⟨OrderedMap.mem_entries_iff.2 hc, hon⟩, hbacking⟩

/-- A variable is wished for exactly if it is not required. -/
theorem Registered.wishes_iff (h : e.Registered) {x : VariableId} {entry : VariableEntry α}
    (hx : e.vars.entries.get? x = some entry) :
    (entry.priority = .p0 ∧ e.demand.wishes x = none ∧
      ∃ n, entry.pin = some (.pin (.caller n) x.backing entry.target)) ∨
    (entry.priority ≠ .p0 ∧ entry.pin = none ∧
      e.demand.wishes x = some ⟨entry.priority, entry.target⟩) := by
  have hfits := (h.vars x entry hx).2.2
  have hwish := (demand_var hx).2
  rw [Option.bind_some, VariableEntry.wish] at hwish
  cases hpin : entry.pin with
  | some pin =>
    obtain ⟨hreq, n, -, rfl⟩ := hfits.pin_eq_some hpin
    rw [hpin] at hwish
    exact Or.inl ⟨Priority.isRequired_iff.1 hreq, hwish, n, rfl⟩
  | none =>
    have hreq := hfits.pin_eq_none hpin
    rw [hpin] at hwish
    refine Or.inr ⟨fun hp => ?_, rfl, hwish⟩
    rw [Priority.isRequired_iff.2 hp] at hreq
    cases hreq

/-! ### Each thing once -/

theorem Registered.nodup_pins (h : e.Registered) : e.pins.Nodup := by
  refine List.pairwise_filterMap.2 ((List.Nodup.of_map Prod.fst e.vars.entries.nodup).imp_of_mem ?_)
  rintro ⟨x, entry⟩ ⟨x', entry'⟩ hx hx' hne pin hpin _ hpin' rfl
  have hx := OrderedMap.mem_entries_iff.1 hx
  have hx' := OrderedMap.mem_entries_iff.1 hx'
  obtain rfl := Owner.var.inj (h.fit.apart _ _ _ _ ((demand_var hx).1.trans hpin)
    ((demand_var hx').1.trans hpin') rfl)
  exact hne (by rw [Option.some.inj (hx.symm.trans hx')])

theorem Registered.nodup_backings (h : e.Registered) : e.backings.Nodup := by
  refine List.Nodup.map_on ?_ ((List.Nodup.of_map Prod.fst e.constraints.entries.nodup).filter _)
  rintro ⟨c, entry⟩ hc ⟨c', entry'⟩ hc' hsame
  obtain ⟨hc, hon⟩ := List.mem_filter.1 hc
  obtain ⟨hc', hon'⟩ := List.mem_filter.1 hc'
  have hc := OrderedMap.mem_entries_iff.1 hc
  have hc' := OrderedMap.mem_entries_iff.1 hc'
  obtain rfl := Owner.constraint.inj (h.fit.apart _ _ _ _ (demand_enabled hc hon)
    (demand_enabled hc' hon') (congrArg Constraint.label hsame))
  rw [Option.some.inj (hc.symm.trans hc')]

theorem Registered.nodup_edited (h : e.Registered) : e.edited.Nodup := by
  refine List.Nodup.map_on ?_ ((List.Nodup.of_map Prod.fst e.vars.entries.nodup).filter _)
  rintro ⟨x, entry⟩ hx ⟨x', entry'⟩ hx' hsame
  have hx := OrderedMap.mem_entries_iff.1 (List.mem_filter.1 hx).1
  have hx' := OrderedMap.mem_entries_iff.1 (List.mem_filter.1 hx').1
  obtain rfl := h.backing_injective hx hx' hsame
  rw [Option.some.inj (hx.symm.trans hx')]

end Engine

/-! ## What a mirroring solver holds -/

namespace Mirrors

variable {α : Type} [Scalar α] {d : Demand α} {e : Engine α} {s : Solver α}

/-- An edit variable is wished for, and its constraint is active. -/
theorem edit_cases (h : Mirrors d s) {z : Variable} {f : Edit α} (hf : s.edits.get? z = some f) :
    ∃ x w n tag, d.wishes x = some w ∧ x.backing = z ∧
      f = ⟨tag, .forEdit n x.backing (.ofPriority w.priority), w.target⟩ ∧
      s.constraints.get? (.edit n) = some ⟨.forEdit n x.backing (.ofPriority w.priority), tag⟩ := by
  obtain ⟨x, w, hw, rfl⟩ := h.wished z f hf
  obtain ⟨n, tag, -, hf', ha⟩ := h.edited x w hw
  rw [hf] at hf'
  exact ⟨x, w, n, tag, hw, rfl, Option.some.inj hf', ha⟩

theorem nodup_edits (h : Mirrors d s) : (s.edits.values.map Edit.constraint).Nodup := by
  unfold OrderedMap.values
  rw [List.map_map]
  refine List.Nodup.map_on ?_ (List.Nodup.of_map Prod.fst s.edits.nodup)
  rintro ⟨z, f⟩ hz ⟨z', f'⟩ hz' hsame
  have hz := OrderedMap.mem_entries_iff.1 hz
  have hz' := OrderedMap.mem_entries_iff.1 hz'
  obtain ⟨x, w, n, tag, -, rfl, rfl, -⟩ := h.edit_cases hz
  obtain ⟨x', w', n', tag', -, rfl, rfl, -⟩ := h.edit_cases hz'
  -- one constraint is about one variable
  have hexpr := congrArg Constraint.expression hsame
  have hback := (Term.mk.inj (List.cons.inj (Linear.mk.inj hexpr).2).1).1
  rw [hback] at hz
  rw [hback, Option.some.inj (hz.symm.trans hz')]

theorem mem_constraints (h : Mirrors e.demand s) {k : Constraint α} :
    k ∈ s.constraints.values.map Active.constraint ↔
      k ∈ e.pins ++ e.backings ++ s.edits.values.map Edit.constraint := by
  rw [List.mem_append, List.mem_append, Engine.mem_pins, Engine.mem_backings, List.mem_map,
    List.mem_map]
  constructor
  · rintro ⟨a, ha, rfl⟩
    obtain ⟨label, ha⟩ := OrderedMap.mem_values_iff.1 ha
    cases label with
    | caller n =>
      obtain ⟨o, ho⟩ := h.asked n a ha
      cases o with
      | var x => exact Or.inl (Or.inl ⟨x, ho⟩)
      | constraint c => exact Or.inl (Or.inr ⟨c, ho⟩)
    | edit n =>
      obtain ⟨x, w, f, -, hf, hfa⟩ := h.backed n a ha
      exact Or.inr ⟨f, OrderedMap.mem_values_iff.2 ⟨_, hf⟩, hfa⟩
  · rintro ((⟨x, ho⟩ | ⟨c, ho⟩) | ⟨f, hf, rfl⟩)
    · obtain ⟨tag, hheld⟩ := h.held _ k ho
      exact ⟨_, OrderedMap.mem_values_iff.2 ⟨_, hheld⟩, rfl⟩
    · obtain ⟨tag, hheld⟩ := h.held _ k ho
      exact ⟨_, OrderedMap.mem_values_iff.2 ⟨_, hheld⟩, rfl⟩
    · obtain ⟨z, hz⟩ := OrderedMap.mem_values_iff.1 hf
      obtain ⟨x, w, n, tag, -, -, rfl, hheld⟩ := h.edit_cases hz
      exact ⟨_, OrderedMap.mem_values_iff.2 ⟨_, hheld⟩, rfl⟩

theorem constraints_perm (h : Mirrors e.demand s) (hreg : e.Registered) :
    (s.constraints.values.map Active.constraint).Perm
      (e.pins ++ e.backings ++ s.edits.values.map Edit.constraint) := by
  refine (List.perm_ext_iff_of_nodup ?_ ?_).2 fun k => h.mem_constraints
  · unfold OrderedMap.values
    rw [List.map_map]
    refine List.Nodup.map_on ?_ (List.Nodup.of_map Prod.fst s.constraints.nodup)
    rintro ⟨label, a⟩ ha ⟨label', a'⟩ ha' hsame
    have ha := OrderedMap.mem_entries_iff.1 ha
    have ha' := OrderedMap.mem_entries_iff.1 ha'
    obtain rfl : label = label' :=
      (h.labelled label a ha).symm.trans
        ((congrArg Constraint.label hsame).trans (h.labelled label' a' ha'))
    rw [Option.some.inj (ha.symm.trans ha')]
  · refine List.nodup_append.2 ⟨List.nodup_append.2 ⟨hreg.nodup_pins, hreg.nodup_backings, ?_⟩,
      h.nodup_edits, ?_⟩
    · rintro k hk _ hk' rfl
      obtain ⟨x, ho⟩ := Engine.mem_pins.1 hk
      obtain ⟨c, ho'⟩ := Engine.mem_backings.1 hk'
      cases hreg.fit.apart _ _ _ _ ho ho' rfl
    · rintro k hk _ hk' rfl
      obtain ⟨o, ho⟩ : ∃ o, e.demand.constraints o = some k := by
        obtain hk | hk := List.mem_append.1 hk
        · obtain ⟨x, ho⟩ := Engine.mem_pins.1 hk
          exact ⟨_, ho⟩
        · obtain ⟨c, ho⟩ := Engine.mem_backings.1 hk
          exact ⟨_, ho⟩
      obtain ⟨n, hlabel⟩ := hreg.fit.caller o k ho
      obtain ⟨f, hf, rfl⟩ := List.mem_map.1 hk'
      obtain ⟨z, hz⟩ := OrderedMap.mem_values_iff.1 hf
      obtain ⟨x, w, m, tag, -, -, rfl, -⟩ := h.edit_cases hz
      cases hlabel

theorem edits_perm (h : Mirrors e.demand s) (hreg : e.Registered) : s.edits.keys.Perm e.edited := by
  refine (List.perm_ext_iff_of_nodup s.edits.nodup_keys hreg.nodup_edited).2 fun z => ?_
  unfold Engine.edited
  rw [OrderedMap.mem_keys_iff, List.mem_map]
  constructor
  · rintro ⟨f, hf⟩
    obtain ⟨x, w, n, tag, hw, hback, -, -⟩ := h.edit_cases hf
    obtain ⟨entry, hx, -⟩ := Option.bind_eq_some_iff.1 hw
    obtain ⟨-, hnone, -⟩ | ⟨hp, -, -⟩ := hreg.wishes_iff hx
    · rw [hw] at hnone
      cases hnone
    · exact ⟨(x, entry), List.mem_filter.2 ⟨OrderedMap.mem_entries_iff.2 hx, decide_eq_true hp⟩, hback⟩
  · rintro ⟨⟨x, entry⟩, hmem, rfl⟩
    obtain ⟨hmem, hp⟩ := List.mem_filter.1 hmem
    obtain ⟨hp', -, -⟩ | ⟨-, -, hw⟩ := hreg.wishes_iff (OrderedMap.mem_entries_iff.1 hmem)
    · exact absurd hp' (of_decide_eq_true hp)
    · obtain ⟨n, tag, -, hf, -⟩ := h.edited x _ hw
      exact ⟨_, hf⟩

/-- A solver that mirrors the registries holds what is registered. -/
theorem contains (h : Mirrors e.demand s) (hreg : e.Registered) : e.Contains s where
  labelled := h.labelled
  constraints := h.constraints_perm hreg
  edits := h.edits_perm hreg
  pinned x entry hx hp := by
    obtain ⟨-, -, hpin⟩ | ⟨hp', -, -⟩ := hreg.wishes_iff hx
    · exact hpin
    · exact absurd hp hp'
  wished x entry hx hp := by
    obtain ⟨hp', -, -⟩ | ⟨-, hpin, hw⟩ := hreg.wishes_iff hx
    · exact absurd hp' hp
    · obtain ⟨n, tag, -, hf, -⟩ := h.edited x _ hw
      exact ⟨hpin, n, tag, hf⟩
  stated c entry hc := by
    obtain ⟨n, -, hbacking⟩ := (hreg.constraints c entry hc).2.2
    exact ⟨n, hbacking⟩

end Mirrors

namespace Engine

variable {α : Type} [Scalar α] {e : Engine α} {cause : SolverError}

/-! ## Causes of losses and failed rebuilds -/

/-- The engine has noted the cause of a loss or of a failed rebuild. -/
def Blames (e : Engine α) (cause : SolverError) : Prop :=
  e.health.lastError = some cause ∨ .invalidated cause ∈ e.journal.events ∨
    .rebuildFailed cause ∈ e.journal.events

/-- Nothing that the engine has noted is a denial. -/
def Undenied (e : Engine α) : Prop := ∀ cause, e.Blames cause → cause.isDenial = false

section

variable {α : Type} {e : Engine α} {cause cause' : SolverError}

theorem blames_invalidate (h : (e.invalidate cause).Blames cause') :
    cause' = cause ∨ e.Blames cause' := by
  unfold Blames invalidate emit log at h
  dsimp only at h
  split at h
  · simp only [Journal.report, Journal.write, List.mem_append, List.mem_singleton, Option.some.injEq,
      SolverEvent.invalidated.injEq, reduceCtorEq, or_false] at h
    obtain rfl | (hmem | rfl) | hmem := h
    · exact Or.inl rfl
    · exact Or.inr (Or.inr (Or.inl hmem))
    · exact Or.inl rfl
    · exact Or.inr (Or.inr (Or.inr hmem))
  · obtain heq | hmem := h
    · exact Or.inl (Option.some.inj heq).symm
    · exact Or.inr (Or.inr hmem)

theorem blames_failRebuild (h : (e.failRebuild cause).Blames cause') :
    cause' = cause ∨ e.Blames cause' := by
  unfold Blames failRebuild emit log at h
  dsimp only at h
  split at h
  · simp only [Journal.report, Journal.write, List.mem_append, List.mem_singleton, Option.some.injEq,
      SolverEvent.rebuildFailed.injEq, reduceCtorEq, or_false] at h
    obtain rfl | hmem | hmem | rfl := h
    · exact Or.inl rfl
    · exact Or.inr (Or.inr (Or.inl hmem))
    · exact Or.inr (Or.inr (Or.inr hmem))
    · exact Or.inl rfl
  · obtain heq | hmem := h
    · exact Or.inl (Option.some.inj heq).symm
    · exact Or.inr (Or.inr hmem)

theorem blames_adopt {s : Solver α} (h : (e.adopt s).Blames cause) : e.Blames cause := by
  unfold Blames adopt emit log at h
  dsimp only at h
  split at h
  · simpa [Blames, Journal.report, Journal.write] using h
  · exact h

end

theorem Undenied.write (h : e.Undenied) (hgraded : Strength.Graded α) (hreg : e.Registered)
    (hfollows : e.Follows e.demand) {w : Write α} (hw : w.Proper e) : (e.write w).Undenied := by
  obtain ⟨-, -, -, hhealth, -, hjournal⟩ := w.record_rest e
  have hrecord : (w.record e).Undenied := by
    intro cause hblames
    unfold Blames at hblames
    rw [hhealth, hjournal] at hblames
    exact h cause hblames
  obtain ⟨-, hwrite⟩ | ⟨s', -, hwrite, -⟩ | ⟨cause, -, hwrite, hcause⟩ :=
    (Mirrors.upkeep hgraded).write_cases hreg hw hreg.fit (hreg.record hw).fit hfollows
  · rw [hwrite]
    exact hrecord
  · rw [hwrite]
    exact hrecord
  · rw [hwrite]
    intro cause' hblames
    obtain rfl | hblames := blames_invalidate hblames
    · exact hcause
    · exact hrecord cause' hblames

theorem Undenied.refresh (h : e.Undenied) (hgraded : Strength.Graded α) (hreg : e.Registered) :
    e.refresh.Undenied := by
  have hlive : e.ensureLive.Undenied := by
    obtain ⟨-, hlive⟩ | ⟨-, s, -, hlive⟩ | ⟨-, cause, hreplay, hlive⟩ := e.ensureLive_cases
    · rw [hlive]
      exact h
    · rw [hlive]
      exact fun cause hblames => h cause (blames_adopt hblames)
    · rw [hlive]
      intro cause' hblames
      obtain rfl | hblames := blames_failRebuild hblames
      · exact hreg.denial_of_replay hgraded hreplay
      · exact h cause' hblames
  unfold Engine.refresh
  obtain ⟨-, hread⟩ | ⟨s, -, -, hread⟩ := e.ensureLive.readValues_cases
  · rw [hread]
    exact hlive
  · rw [hread]
    exact hlive

theorem undenied_kept (hgraded : Strength.Graded α) :
    Kept fun e : Engine α => e.Follows e.demand ∧ e.Undenied where
  write e w hreg h hw := ⟨(follows_kept hgraded).write e w hreg h.1 hw, h.2.write hgraded hreg h.1 hw⟩
  markChanged e h := ⟨(follows_kept hgraded).markChanged e h.1, h.2⟩
  refresh e hreg h := ⟨(follows_kept hgraded).refresh e hreg h.1, h.2.refresh hgraded hreg⟩
  note e dirty hooked h := ⟨(follows_kept hgraded).note e dirty hooked h.1, h.2⟩

/-! ## Every history -/

/-- The solver has the variable, by its pin or as an edit variable. -/
def hasVariable (s : Solver α) (v : VariableId × VariableEntry α) : Bool :=
  match v.2.pin with
  | some pin => s.hasConstraint pin.label
  | none => s.hasEditVariable v.1.backing

theorem hasVariable_of_mirrors {s : Solver α} (h : Mirrors e.demand s) {v : VariableId × VariableEntry α}
    (hv : v ∈ e.vars.entries.entries) : hasVariable s v = true := by
  obtain ⟨ho, hwish⟩ := demand_var (OrderedMap.mem_entries_iff.1 hv)
  rw [Option.bind_some] at ho hwish
  unfold hasVariable
  cases hpin : v.2.pin with
  | some pin =>
    obtain ⟨tag, hheld⟩ := h.held _ pin (ho.trans hpin)
    exact Option.isSome_iff_exists.2 ⟨_, hheld⟩
  | none =>
    rw [VariableEntry.wish, hpin] at hwish
    obtain ⟨n, tag, -, hf, -⟩ := h.edited v.1 _ hwish
    exact Option.isSome_iff_exists.2 ⟨_, hf⟩

/-- After every history, whatever the numbers are, a live solver holds exactly what is
registered, and no loss or failed rebuild that has been noted was caused by a denial. A replay
of the registries builds such a solver, with every variable in it, or fails without a denial. -/
theorem live_solver_contains_registries (hgraded : Strength.Graded α) (id : EngineId)
    (options : EngineOptions) (history : List (Command α)) :
    let e : Engine α := (Engine.create id options).after history
    (∀ s, e.solver = some s → e.Contains s) ∧
    (∀ cause, e.Blames cause → cause.isDenial = false) ∧
    ∀ steps, (∃ s, replay steps e.vars e.constraints = .ok s ∧ e.Contains s ∧
        e.vars.entries.entries.all (hasVariable s) = true) ∨
      ∃ err, replay steps e.vars e.constraints = .error err ∧ err.isDenial = false := by
  intro e
  have hlawful : (Engine.create id options : Engine α).Lawful := lawful_create id options
  have hundenied : (Engine.create id options : Engine α).Undenied := by
    rintro cause (hblames | hblames | hblames) <;> cases hblames
  obtain ⟨hreg, hfollows, hundenied⟩ : e.Registered ∧ e.Follows e.demand ∧ e.Undenied :=
    (undenied_kept hgraded).after hlawful.registered ⟨hlawful.follows, hundenied⟩ history
  refine ⟨fun s hs => (hfollows s hs).contains hreg, hundenied, fun steps => ?_⟩
  refine (hreg.replay_mirrors hgraded steps).imp_left ?_
  rintro ⟨s, hs, hmirrors⟩
  exact ⟨s, hs, hmirrors.contains hreg, List.all_eq_true.2 fun v hv => hasVariable_of_mirrors hmirrors hv⟩

/-- Variables of both sorts, and a constraint that is switched off, edited and switched on. -/
def reworked : List (Command Rat) :=
  let x : VariableId := ⟨⟨0⟩, 0⟩
  let y : VariableId := ⟨⟨0⟩, 1⟩
  let c : ConstraintId := ⟨⟨0⟩, 0⟩
  [.createVariable 3 .p0, .createVariable 5 .p3,
    .createConstraint ⟨.ofUnknown y, .atLeast, .ofUnknown x, .p1⟩ true, .setEnabled c false,
    .setRelation c .equal, .setEnabled c true, .setVariablePriority x .p2, .read y]

theorem live_solver_contains_registries_reworked :
    let e : Engine Rat := (Engine.create ⟨0⟩ .default).after reworked
    Strength.Graded Rat ∧ ∃ s, e.solver = some s ∧ e.Contains s := by
  intro e
  have hlive : e.solver.isSome = true := by decide +kernel
  obtain ⟨s, hs⟩ := Option.isSome_iff_exists.1 hlive
  have hall := live_solver_contains_registries Strength.graded ⟨0⟩ .default reworked
  exact ⟨Strength.graded, s, hs, hall.1 s hs⟩

end Engine

end BoxLayout
